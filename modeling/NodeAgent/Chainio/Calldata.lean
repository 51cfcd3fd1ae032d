import NodeAgent.Chainio.Decoder
import NodeAgent.Chainio.Pinning

/-!
# Calldata as a code

Every write that the agent asks to have signed is the call of one contract
function.  Its calldata is the selector followed by the standard encoding of
the arguments, so a reference decoder that knows the pinned selectors finds
the function and its arguments again.
-/

namespace NodeAgent.Chainio

open BigEndian SolidityAbi

/-- The contract functions that the agent's writes call. -/
inductive WriteFunction
  | registerProvider
  | bidOnJob
  | assignBestBid
  | startExecution
  | submitCommitment
  | submitResult
  | completeJob
  | claimRewards
  | heartbeat
  | registerPinner
  | sealCommit
  | challenge
  | submitPost
  | claim
  | returnBond
deriving DecidableEq

namespace WriteFunction

def all : List WriteFunction :=
  [.registerProvider, .bidOnJob, .assignBestBid, .startExecution,
    .submitCommitment, .submitResult, .completeJob, .claimRewards, .heartbeat,
    .registerPinner, .sealCommit, .challenge, .submitPost, .claim, .returnBond]

/-- The pinned selector. -/
def pinned : WriteFunction → Bytes
  | .registerProvider => [0x05, 0x89, 0xcd, 0x44]
  | .bidOnJob => [0x18, 0x36, 0x0f, 0xc2]
  | .assignBestBid => [0x72, 0x74, 0x95, 0xa4]
  | .startExecution => [0xc7, 0x8e, 0xc1, 0x8e]
  | .submitCommitment => [0xe6, 0xa3, 0xd9, 0xdc]
  | .submitResult => [0xba, 0xa2, 0xc0, 0x78]
  | .completeJob => [0xa1, 0xc0, 0xd3, 0x2f]
  | .claimRewards => [0x37, 0x25, 0x00, 0xab]
  | .heartbeat => [0x3d, 0xef, 0xb9, 0x62]
  | .registerPinner => [0xc0, 0xd2, 0xc4, 0x28]
  | .sealCommit => [0x51, 0xa0, 0xed, 0x88]
  | .challenge => [0xe2, 0x08, 0x3c, 0x18]
  | .submitPost => [0x43, 0xf6, 0xb2, 0x01]
  | .claim => [0x63, 0xf4, 0x49, 0x68]
  | .returnBond => [0x3a, 0xc9, 0xdf, 0xd3]

/-- The types of the arguments. -/
def kinds : WriteFunction → List Kind
  | .registerProvider => [.words]
  | .bidOnJob => [.word, .word, .word]
  | .assignBestBid => [.word]
  | .startExecution => [.word]
  | .submitCommitment => [.word, .word]
  | .submitResult => [.word, .bytes, .bytes]
  | .completeJob => [.word]
  | .claimRewards => []
  | .heartbeat => []
  | .registerPinner => []
  | .sealCommit =>
      [.word, .word, .word, .word, .word, .word, .word, .bytes]
  | .challenge => [.word, .word]
  | .submitPost => [.word, .word, .word, .word, .word, .bytes]
  | .claim => [.word, .word]
  | .returnBond => [.word, .word]

theorem length_pinned (function : WriteFunction) :
    function.pinned.length = 4 := by
  cases function <;> rfl

/-- The function with this selector. -/
def ofPinned (bytes : Bytes) : Option WriteFunction :=
  all.find? fun function => function.pinned = bytes

theorem ofPinned_pinned (function : WriteFunction) :
    ofPinned function.pinned = some function := by
  cases function <;> rfl

end WriteFunction

abbrev U128 := { value : Nat // value < 2 ^ 128 }

/-- A slice: its length is a `usize`. -/
abbrev Slice (α : Type) := { elements : List α // elements.length < 2 ^ 64 }

/-- A write with its arguments. -/
inductive Write
  | registerProvider (supportedModels : Slice Word)
  | bidOnJob (jobId priceWei estimatedLatencyMs : U128)
  | assignBestBid (jobId : U128)
  | startExecution (jobId : U128)
  | submitCommitment (jobId : U128) (commitment : Word)
  | submitResult (jobId : U128) (outputHash proof : Slice UInt8)
  | completeJob (jobId : U128)
  | claimRewards
  | heartbeat
  | registerPinner
  | sealCommit (cid : Word) (sector : U128) (replicaId : Word) (epoch : U128)
      (commD commR commC : Word) (porepProof : Slice UInt8)
  | challenge (cid : Word) (sector : U128)
  | submitPost (cid : Word) (sector : U128) (commR commC : Word)
      (challengeNonce : Word) (postProof : Slice UInt8)
  | claim (cid : Word) (sector : U128)
  | returnBond (cid : Word) (sector : U128)

namespace Write

def function : Write → WriteFunction
  | .registerProvider _ => .registerProvider
  | .bidOnJob .. => .bidOnJob
  | .assignBestBid _ => .assignBestBid
  | .startExecution _ => .startExecution
  | .submitCommitment .. => .submitCommitment
  | .submitResult .. => .submitResult
  | .completeJob _ => .completeJob
  | .claimRewards => .claimRewards
  | .heartbeat => .heartbeat
  | .registerPinner => .registerPinner
  | .sealCommit .. => .sealCommit
  | .challenge .. => .challenge
  | .submitPost .. => .submitPost
  | .claim .. => .claim
  | .returnBond .. => .returnBond

/-- The arguments as values of the contract's types. -/
def arguments : Write → List Value
  | .registerProvider supportedModels => [.words supportedModels.val]
  | .bidOnJob jobId priceWei estimatedLatencyMs =>
      [.word (uintWord jobId), .word (uintWord priceWei),
        .word (uintWord estimatedLatencyMs)]
  | .assignBestBid jobId => [.word (uintWord jobId)]
  | .startExecution jobId => [.word (uintWord jobId)]
  | .submitCommitment jobId commitment =>
      [.word (uintWord jobId), .word commitment]
  | .submitResult jobId outputHash proof =>
      [.word (uintWord jobId), .bytes outputHash.val, .bytes proof.val]
  | .completeJob jobId => [.word (uintWord jobId)]
  | .claimRewards => []
  | .heartbeat => []
  | .registerPinner => []
  | .sealCommit cid sector replicaId epoch commD commR commC porepProof =>
      [.word cid, .word (uintWord sector), .word replicaId,
        .word (uintWord epoch), .word commD, .word commR, .word commC,
        .bytes porepProof.val]
  | .challenge cid sector => [.word cid, .word (uintWord sector)]
  | .submitPost cid sector commR commC challengeNonce postProof =>
      [.word cid, .word (uintWord sector), .word commR, .word commC,
        .word challengeNonce, .bytes postProof.val]
  | .claim cid sector => [.word cid, .word (uintWord sector)]
  | .returnBond cid sector => [.word cid, .word (uintWord sector)]

theorem kinds_arguments (write : Write) :
    write.arguments.map Value.kind = write.function.kinds := by
  cases write <;> rfl

/-- A word that holds a `uint128`. -/
def u128 (word : Word) : Option U128 :=
  if fits : wordValue word < 2 ^ 128 then some ⟨wordValue word, fits⟩
  else none

def slice {α : Type} (elements : List α) : Option (Slice α) :=
  if fits : elements.length < 2 ^ 64 then some ⟨elements, fits⟩ else none

/-- The write that calls this function with these values. -/
def ofArguments : WriteFunction → List Value → Option Write
  | .registerProvider, [.words supportedModels] => do
      some (.registerProvider (← slice supportedModels))
  | .bidOnJob, [.word jobId, .word priceWei, .word estimatedLatencyMs] => do
      some (.bidOnJob (← u128 jobId) (← u128 priceWei)
        (← u128 estimatedLatencyMs))
  | .assignBestBid, [.word jobId] => do
      some (.assignBestBid (← u128 jobId))
  | .startExecution, [.word jobId] => do
      some (.startExecution (← u128 jobId))
  | .submitCommitment, [.word jobId, .word commitment] => do
      some (.submitCommitment (← u128 jobId) commitment)
  | .submitResult, [.word jobId, .bytes outputHash, .bytes proof] => do
      some (.submitResult (← u128 jobId) (← slice outputHash) (← slice proof))
  | .completeJob, [.word jobId] => do
      some (.completeJob (← u128 jobId))
  | .claimRewards, [] => some .claimRewards
  | .heartbeat, [] => some .heartbeat
  | .registerPinner, [] => some .registerPinner
  | .sealCommit, [.word cid, .word sector, .word replicaId, .word epoch,
      .word commD, .word commR, .word commC, .bytes porepProof] => do
      some (.sealCommit cid (← u128 sector) replicaId (← u128 epoch) commD
        commR commC (← slice porepProof))
  | .challenge, [.word cid, .word sector] => do
      some (.challenge cid (← u128 sector))
  | .submitPost, [.word cid, .word sector, .word commR, .word commC,
      .word challengeNonce, .bytes postProof] => do
      some (.submitPost cid (← u128 sector) commR commC challengeNonce
        (← slice postProof))
  | .claim, [.word cid, .word sector] => do
      some (.claim cid (← u128 sector))
  | .returnBond, [.word cid, .word sector] => do
      some (.returnBond cid (← u128 sector))
  | _, _ => none

theorem u128_eq_some {word : Word} {value : U128}
    (same : wordValue word = value.val) : u128 word = some value := by
  obtain ⟨value, fits⟩ := value
  subst same
  rw [u128, dif_pos fits]

theorem u128_uintWord (value : U128) : u128 (uintWord value) = some value := by
  have fits := value.property
  exact u128_eq_some (wordValue_uintWord (by omega))

theorem slice_val {α : Type} (elements : Slice α) :
    slice elements.val = some elements := by
  rw [slice, dif_pos elements.property]

theorem ofArguments_arguments (write : Write) :
    ofArguments write.function write.arguments = some write := by
  cases write <;>
    delta ofArguments function arguments <;>
    simp only [u128_uintWord, slice_val, Option.bind_eq_bind, Option.bind_some]

theorem length_encodeArguments (write : Write) :
    (SolidityAbi.encode write.arguments).length < 256 ^ 32 := by
  have bound : (SolidityAbi.encode write.arguments).length ≤ 2 ^ 80 := by
    rw [SolidityAbi.encode, List.length_append, length_heads]
    cases write with
    | registerProvider supportedModels =>
        have := supportedModels.property
        simp only [arguments, tails, Value.tail, List.flatMap_cons,
          List.flatMap_nil, List.length_append, List.length_cons,
          List.length_nil, List.Vector.toList_length, length_words]
        omega
    | submitResult jobId outputHash proof =>
        have := outputHash.property
        have := proof.property
        simp only [arguments, tails, Value.tail, padding, List.flatMap_cons,
          List.flatMap_nil, List.length_append, List.length_cons,
          List.length_nil, List.Vector.toList_length, List.length_replicate]
        omega
    | sealCommit cid sector replicaId epoch commD commR commC porepProof =>
        have := porepProof.property
        simp only [arguments, tails, Value.tail, padding, List.flatMap_cons,
          List.flatMap_nil, List.length_append, List.length_cons,
          List.length_nil, List.Vector.toList_length, List.length_replicate]
        omega
    | submitPost cid sector commR commC challengeNonce postProof =>
        have := postProof.property
        simp only [arguments, tails, Value.tail, padding, List.flatMap_cons,
          List.flatMap_nil, List.length_append, List.length_cons,
          List.length_nil, List.Vector.toList_length, List.length_replicate]
        omega
    | bidOnJob | assignBestBid | startExecution | submitCommitment
    | completeJob | claimRewards | heartbeat | registerPinner | challenge
    | claim | returnBond =>
        simp [arguments, tails, Value.tail]
  have : 2 ^ 80 < 256 ^ 32 := by decide
  exact Nat.lt_of_le_of_lt bound this

end Write

theorem wordFromU128_eq {value : Nat} (fits : value < 2 ^ 128) :
    wordFromU128 value = uintWord value := by
  apply List.Vector.ext
  intro index
  have digit : (uintWord value).get index =
      UInt8.ofNat (value / 256 ^ (31 - index.val)) := by
    have inside : index.val < (toBytes 32 value).length := by
      rw [length_toBytes]
      exact index.isLt
    exact getElem_toBytes inside
  rw [digit, wordFromU128, List.Vector.get_ofFn]
  split
  · rename_i high
    have power : 256 ^ 16 ≤ 256 ^ (31 - index.val) :=
      Nat.pow_le_pow_right (by omega) (by omega)
    rw [Nat.div_eq_of_lt (by omega)]
    rfl
  · rfl

theorem encodeBytesTail_eq {bytes : Bytes} (fits : bytes.length < 2 ^ 64) :
    encodeBytesTail bytes = (Value.bytes bytes).tail := by
  have width : (bytes.length + 31) / 32 * 32 - bytes.length =
      (32 - bytes.length % 32) % 32 := by
    omega
  rw [encodeBytesTail, wordFromU128_eq (by omega), width, List.append_assoc]
  rfl

theorem encodeCall_eq (selector : Selector) (args : List Word) :
    encodeCall selector args =
      selector.toList ++ SolidityAbi.encode (args.map Value.word) := by
  rw [encodeCall, encode_words]

section Hashes

variable [HashFunctions]

def WriteFunction.selector : WriteFunction → Selector
  | .registerProvider => Selectors.registerProvider
  | .bidOnJob => Selectors.bidOnJob
  | .assignBestBid => Selectors.assignBestBid
  | .startExecution => Selectors.startExecution
  | .submitCommitment => Selectors.submitCommitment
  | .submitResult => Selectors.submitResult
  | .completeJob => Selectors.completeJob
  | .claimRewards => Selectors.claimRewards
  | .heartbeat => Selectors.heartbeat
  | .registerPinner => Selectors.pinRegisterPinner
  | .sealCommit => Selectors.pinSealCommit
  | .challenge => Selectors.pinChallenge
  | .submitPost => Selectors.pinSubmitPost
  | .claim => Selectors.pinClaim
  | .returnBond => Selectors.pinReturnBond

/-- The hash function gives every signature its pinned selector. -/
def SelectorsPinned : Prop :=
  ∀ function : WriteFunction, function.selector.toList = function.pinned

/-- The calldata that the agent builds for a write. -/
def Write.calldata : Write → Bytes
  | .registerProvider supportedModels =>
      encodeRegisterProvider supportedModels.val
  | .bidOnJob jobId priceWei estimatedLatencyMs =>
      encodeBidOnJob jobId priceWei estimatedLatencyMs
  | .assignBestBid jobId => encodeAssignBestBid jobId
  | .startExecution jobId => encodeStartExecution jobId
  | .submitCommitment jobId commitment =>
      encodeSubmitCommitment jobId commitment
  | .submitResult jobId outputHash proof =>
      encodeSubmitResult jobId outputHash.val proof.val
  | .completeJob jobId => encodeCompleteJob jobId
  | .claimRewards => encodeClaimRewards
  | .heartbeat => Selectors.heartbeat.toList
  | .registerPinner => encodeRegisterPinner
  | .sealCommit cid sector replicaId epoch commD commR commC porepProof =>
      encodeSealCommit cid sector replicaId epoch commD commR commC
        porepProof.val
  | .challenge cid sector => encodeChallenge cid sector
  | .submitPost cid sector commR commC challengeNonce postProof =>
      encodeSubmitPost cid sector commR commC challengeNonce postProof.val
  | .claim cid sector => encodeClaim cid sector
  | .returnBond cid sector => encodeReturnBond cid sector

theorem encodeRegisterProvider_eq {supportedModels : List Word}
    (fits : supportedModels.length < 2 ^ 64) :
    encodeRegisterProvider supportedModels =
      Selectors.registerProvider.toList ++
        SolidityAbi.encode [.words supportedModels] := by
  have offset : wordFromU128 0x20 = uintWord 0x20 := wordFromU128_eq (by decide)
  have count := wordFromU128_eq (show supportedModels.length < 2 ^ 128 by omega)
  rw [encodeRegisterProvider, encodeCall, offset, count]
  simp only [SolidityAbi.encode, heads, tails, Value.head, Value.tail,
    List.flatMap_cons, List.flatMap_nil, List.append_nil]
  rfl

/-- The second offset passes over the padded tail of the first argument. -/
theorem encodeSubmitResult_eq {jobId : Nat} {outputHash proof : Bytes}
    (jobFits : jobId < 2 ^ 128) (outputFits : outputHash.length < 2 ^ 64)
    (proofFits : proof.length < 2 ^ 64) :
    encodeSubmitResult jobId outputHash proof =
      Selectors.submitResult.toList ++
        SolidityAbi.encode
          [.word (uintWord jobId), .bytes outputHash, .bytes proof] := by
  have width := length_bytes_tail outputHash
  have outputOffset : wordFromU128 (3 * 32) = uintWord (3 * 32) :=
    wordFromU128_eq (by decide)
  have proofOffset := wordFromU128_eq
    (show 3 * 32 + (Value.bytes outputHash).tail.length < 2 ^ 128 by omega)
  rw [encodeSubmitResult, encodeBytesTail_eq outputFits,
    encodeBytesTail_eq proofFits, proofOffset, outputOffset,
    wordFromU128_eq jobFits]
  simp only [SolidityAbi.encode, heads, tails, Value.head, Value.tail_word,
    List.flatMap_cons, List.flatMap_nil, List.nil_append, List.append_nil,
    List.length_nil, Nat.add_zero, List.append_assoc]
  rfl

theorem encodeSealCommit_eq {sector epoch : Nat} {porepProof : Bytes}
    (cid replicaId commD commR commC : Word) (sectorFits : sector < 2 ^ 128)
    (epochFits : epoch < 2 ^ 128) (proofFits : porepProof.length < 2 ^ 64) :
    encodeSealCommit cid sector replicaId epoch commD commR commC porepProof =
      Selectors.pinSealCommit.toList ++
        SolidityAbi.encode
          [.word cid, .word (uintWord sector), .word replicaId,
            .word (uintWord epoch), .word commD, .word commR, .word commC,
            .bytes porepProof] := by
  have offset : wordFromU128 (8 * 32) = uintWord (8 * 32) :=
    wordFromU128_eq (by decide)
  rw [encodeSealCommit, encodeBytesTail_eq proofFits, offset,
    wordFromU128_eq sectorFits, wordFromU128_eq epochFits]
  simp only [SolidityAbi.encode, heads, tails, Value.head, Value.tail_word,
    List.flatMap_cons, List.flatMap_nil, List.nil_append, List.append_nil,
    List.length_nil, Nat.add_zero, List.append_assoc]
  rfl

theorem encodeSubmitPost_eq {sector : Nat} {postProof : Bytes}
    (cid commR commC challengeNonce : Word) (sectorFits : sector < 2 ^ 128)
    (proofFits : postProof.length < 2 ^ 64) :
    encodeSubmitPost cid sector commR commC challengeNonce postProof =
      Selectors.pinSubmitPost.toList ++
        SolidityAbi.encode
          [.word cid, .word (uintWord sector), .word commR, .word commC,
            .word challengeNonce, .bytes postProof] := by
  have offset : wordFromU128 (6 * 32) = uintWord (6 * 32) :=
    wordFromU128_eq (by decide)
  rw [encodeSubmitPost, encodeBytesTail_eq proofFits, offset,
    wordFromU128_eq sectorFits]
  simp only [SolidityAbi.encode, heads, tails, Value.head, Value.tail_word,
    List.flatMap_cons, List.flatMap_nil, List.nil_append, List.append_nil,
    List.length_nil, Nat.add_zero, List.append_assoc]
  rfl

/-- The calldata of every write is the standard encoding of its arguments
behind the selector. -/
theorem Write.calldata_eq (write : Write) :
    write.calldata =
      write.function.selector.toList ++
        SolidityAbi.encode write.arguments := by
  cases write with
  | registerProvider supportedModels =>
      exact encodeRegisterProvider_eq supportedModels.property
  | bidOnJob jobId priceWei estimatedLatencyMs =>
      rw [calldata, encodeBidOnJob, encodeCall_eq,
        wordFromU128_eq jobId.property, wordFromU128_eq priceWei.property,
        wordFromU128_eq estimatedLatencyMs.property]
      rfl
  | assignBestBid jobId =>
      rw [calldata, encodeAssignBestBid, encodeCall_eq,
        wordFromU128_eq jobId.property]
      rfl
  | startExecution jobId =>
      rw [calldata, encodeStartExecution, encodeCall_eq,
        wordFromU128_eq jobId.property]
      rfl
  | submitCommitment jobId commitment =>
      rw [calldata, encodeSubmitCommitment, encodeCall_eq,
        wordFromU128_eq jobId.property]
      rfl
  | submitResult jobId outputHash proof =>
      exact encodeSubmitResult_eq jobId.property outputHash.property
        proof.property
  | completeJob jobId =>
      rw [calldata, encodeCompleteJob, encodeCall_eq,
        wordFromU128_eq jobId.property]
      rfl
  | claimRewards => exact (List.append_nil _).symm
  | heartbeat => exact (List.append_nil _).symm
  | registerPinner => rfl
  | sealCommit cid sector replicaId epoch commD commR commC porepProof =>
      exact encodeSealCommit_eq cid replicaId commD commR commC
        sector.property epoch.property porepProof.property
  | challenge cid sector =>
      rw [calldata, encodeChallenge, encodeCall_eq,
        wordFromU128_eq sector.property]
      rfl
  | submitPost cid sector commR commC challengeNonce postProof =>
      exact encodeSubmitPost_eq cid commR commC challengeNonce
        sector.property postProof.property
  | claim cid sector =>
      rw [calldata, encodeClaim, encodeCall_eq,
        wordFromU128_eq sector.property]
      rfl
  | returnBond cid sector =>
      rw [calldata, encodeReturnBond, encodeCall_eq,
        wordFromU128_eq sector.property]
      rfl

end Hashes

/-- The write that a byte string is the calldata of. -/
def Write.ofCalldata (data : Bytes) : Option Write := do
  let function ← WriteFunction.ofPinned (data.take 4)
  let values ← SolidityAbi.decode function.kinds (data.drop 4)
  Write.ofArguments function values

/-- With its pinned selector, a write is found again in its calldata. -/
theorem Write.ofCalldata_calldata [HashFunctions] (pinned : SelectorsPinned)
    (write : Write) : Write.ofCalldata write.calldata = some write := by
  have width := write.function.length_pinned
  have decoded :=
    SolidityAbi.decode_encode write.arguments write.length_encodeArguments
  rw [write.kinds_arguments] at decoded
  rw [write.calldata_eq, pinned, Write.ofCalldata, List.take_left' width,
    List.drop_left' width, WriteFunction.ofPinned_pinned]
  simp only [Option.bind_eq_bind, Option.bind_some, decoded,
    Write.ofArguments_arguments]

theorem Write.eq_of_hexEncode [HashFunctions] (pinned : SelectorsPinned)
    {first second : Write}
    (same : hexEncode first.calldata = hexEncode second.calldata) :
    first = second := by
  have calldata := hexEncode_injective same
  have decoded := Write.ofCalldata_calldata pinned first
  rw [calldata, Write.ofCalldata_calldata pinned second] at decoded
  exact (Option.some.inj decoded).symm

end NodeAgent.Chainio
