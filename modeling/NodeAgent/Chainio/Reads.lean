import NodeAgent.Chainio.Calldata
import NodeAgent.Chainio.ModelRegistry

/-!
# Reads as a code

The calldata of the agent's reads and the decoders of what they return.  A
reference contract finds the function and its arguments in the calldata; what
it returns in the standard encoding is decoded to what it holds, or refused
where an integer exceeds the agent's.
-/

namespace NodeAgent.Chainio

open BigEndian Decoder Parsing SolidityAbi

namespace Decoder

/-- Pass over this many words. -/
def skip : Nat → Decoder Unit
  | 0 => pure ()
  | count + 1 => do
      let _ ← word
      skip count

theorem skip_yields (words : List Word) :
    Yields (skip words.length) (words.flatMap List.Vector.toList)
      (.ok ()) := by
  induction words with
  | nil => exact Yields.pure ()
  | cons first rest ih => exact (word_yields first).bind_ok ih

end Decoder

/-- `ComputeVerifier.VerificationRecord`: all of its members are static. -/
structure VerificationRecord where
  jobId : Nat
  jobValue : Nat
  tier : VerificationTier
  result : Nat
  commitmentHash : Word
  commitmentSubmitted : Bool
  others : List.Vector Word 5

/-- `commitmentSubmitted` is word 5 of the record. -/
def decodeCommitmentSubmitted (data : Bytes) : Except AbiError Bool :=
  let decoder : Decoder Bool := do
    skip 5
    Decoder.bool
  decoder.run' ⟨data, 0⟩

/-- The tier is word 2 of the record. -/
def decodeRecordTier (data : Bytes) : Except AbiError VerificationTier :=
  let decoder : Decoder VerificationTier := do
    skip 2
    VerificationTier.fromU8 (← Decoder.u8Enum)
  decoder.run' ⟨data, 0⟩

def decodeBlock (data : Bytes) : Except AbiError Nat :=
  Decoder.u128.run' ⟨data, 0⟩

def decodeClaimable (data : Bytes) : Except AbiError Nat :=
  Decoder.u128.run' ⟨data, 0⟩

def PinStatus.fromU8 (value : UInt8) : Except AbiError PinStatus :=
  match value.toNat with
  | 0 => .ok .none
  | 1 => .ok .active
  | 2 => .ok .done
  | 3 => .ok .slashed
  | _ => .error .overflow

def decodePin (data : Bytes) : Except AbiError PinState :=
  let decoder : Decoder PinState := do
    let status ← PinStatus.fromU8 (← Decoder.u8Enum)
    let round ← Decoder.u128
    let missed ← Decoder.u128
    let claimed ← Decoder.u128
    let bondHeld ← Decoder.u128
    let challengeOpen ← Decoder.bool
    let challengeDeadline ← Decoder.u128
    let challengeNonce ← Decoder.word
    pure {
      status, round, missed, claimed, bondHeld, challengeOpen
      challengeDeadline, challengeNonce }
  decoder.run' ⟨data, 0⟩

def decodeSlot (data : Bytes) : Except AbiError SlotState :=
  let decoder : Decoder SlotState := do
    let funded ← Decoder.bool
    let budget ← Decoder.u128
    let liveCount ← Decoder.u128
    pure { funded, budget, liveCount }
  decoder.run' ⟨data, 0⟩

def decodeOwed (data : Bytes) : Except AbiError Nat :=
  Decoder.u128.run' ⟨data, 0⟩

def decodeRegistered (data : Bytes) : Except AbiError Bool :=
  Decoder.bool.run' ⟨data, 0⟩

def decodeUnallocatedSlotFunding (data : Bytes) : Except AbiError Nat :=
  Decoder.u128.run' ⟨data, 0⟩

/-- The contract functions that the agent reads. -/
inductive ReadFunction
  | getProvider
  | getJob
  | getModel
  | claimable
  | getRecord
  | commitmentBlock
  | resultVerifiedAt
  | disputeResolvedForProvider
  | saltPerPflopHour
  | isPriceStale
  | getPin
  | getSlot
  | owedOf
  | registered
  | unallocatedSlotFunding
deriving DecidableEq

namespace ReadFunction

def all : List ReadFunction :=
  [.getProvider, .getJob, .getModel, .claimable, .getRecord, .commitmentBlock,
    .resultVerifiedAt, .disputeResolvedForProvider, .saltPerPflopHour,
    .isPriceStale, .getPin, .getSlot, .owedOf, .registered,
    .unallocatedSlotFunding]

/-- The pinned selector. -/
def pinned : ReadFunction → Bytes
  | .getProvider => [0x55, 0xf2, 0x1e, 0xb7]
  | .getJob => [0xbf, 0x22, 0xc4, 0x57]
  | .getModel => [0x21, 0xe7, 0xc4, 0x98]
  | .claimable => [0x40, 0x29, 0x14, 0xf5]
  | .getRecord => [0x03, 0xe9, 0xe6, 0x09]
  | .commitmentBlock => [0x93, 0x1a, 0x97, 0x57]
  | .resultVerifiedAt => [0x49, 0x71, 0xdf, 0x8f]
  | .disputeResolvedForProvider => [0x60, 0xc8, 0x10, 0x3e]
  | .saltPerPflopHour => [0xeb, 0x22, 0x76, 0xeb]
  | .isPriceStale => [0x2f, 0x5d, 0xf7, 0x25]
  | .getPin => [0x61, 0x79, 0x32, 0x15]
  | .getSlot => [0x68, 0x75, 0x2a, 0x81]
  | .owedOf => [0xab, 0xb3, 0x10, 0x86]
  | .registered => [0xb2, 0xdd, 0x5c, 0x07]
  | .unallocatedSlotFunding => [0xff, 0xd6, 0xb1, 0xac]

/-- The number of arguments. -/
def arity : ReadFunction → Nat
  | .getProvider | .getJob | .getModel | .claimable | .getRecord
  | .commitmentBlock | .resultVerifiedAt | .disputeResolvedForProvider
  | .registered => 1
  | .saltPerPflopHour | .isPriceStale | .unallocatedSlotFunding => 0
  | .getSlot => 2
  | .getPin | .owedOf => 3

theorem length_pinned (function : ReadFunction) :
    function.pinned.length = 4 := by
  cases function <;> rfl

/-- The function with this selector. -/
def ofPinned (bytes : Bytes) : Option ReadFunction :=
  all.find? fun function => function.pinned = bytes

theorem ofPinned_pinned (function : ReadFunction) :
    ofPinned function.pinned = some function := by
  cases function <;> rfl

end ReadFunction

/-- A read with its arguments. -/
inductive ReadCall
  | getProvider (provider : Address)
  | getJob (jobId : U128)
  | getModel (modelHash : Word)
  | claimable (account : Address)
  | getRecord (jobId : U128)
  | commitmentBlock (jobId : U128)
  | resultVerifiedAt (jobId : U128)
  | disputeResolvedForProvider (jobId : U128)
  | saltPerPflopHour
  | isPriceStale
  | getPin (pinner : Address) (cid : Word) (sector : U128)
  | getSlot (cid : Word) (sector : U128)
  | owedOf (pinner : Address) (cid : Word) (sector : U128)
  | registered (who : Address)
  | unallocatedSlotFunding

namespace ReadCall

abbrev function : ReadCall → ReadFunction
  | .getProvider _ => .getProvider
  | .getJob _ => .getJob
  | .getModel _ => .getModel
  | .claimable _ => .claimable
  | .getRecord _ => .getRecord
  | .commitmentBlock _ => .commitmentBlock
  | .resultVerifiedAt _ => .resultVerifiedAt
  | .disputeResolvedForProvider _ => .disputeResolvedForProvider
  | .saltPerPflopHour => .saltPerPflopHour
  | .isPriceStale => .isPriceStale
  | .getPin .. => .getPin
  | .getSlot .. => .getSlot
  | .owedOf .. => .owedOf
  | .registered _ => .registered
  | .unallocatedSlotFunding => .unallocatedSlotFunding

/-- The words of the arguments. -/
def arguments : ReadCall → List Word
  | .getProvider provider => [wordFromAddress provider]
  | .getJob jobId => [uintWord jobId]
  | .getModel modelHash => [modelHash]
  | .claimable account => [wordFromAddress account]
  | .getRecord jobId => [uintWord jobId]
  | .commitmentBlock jobId => [uintWord jobId]
  | .resultVerifiedAt jobId => [uintWord jobId]
  | .disputeResolvedForProvider jobId => [uintWord jobId]
  | .saltPerPflopHour => []
  | .isPriceStale => []
  | .getPin pinner cid sector => [wordFromAddress pinner, cid, uintWord sector]
  | .getSlot cid sector => [cid, uintWord sector]
  | .owedOf pinner cid sector => [wordFromAddress pinner, cid, uintWord sector]
  | .registered who => [wordFromAddress who]
  | .unallocatedSlotFunding => []

theorem length_arguments (call : ReadCall) :
    call.arguments.length = call.function.arity := by
  cases call <;> rfl

def address (word : Word) : Option Address :=
  (toAddress word).toOption

/-- The read that calls this function with these words. -/
def ofArguments : ReadFunction → List Word → Option ReadCall
  | .getProvider, [provider] => (address provider).map .getProvider
  | .getJob, [jobId] => (Write.u128 jobId).map .getJob
  | .getModel, [modelHash] => some (.getModel modelHash)
  | .claimable, [account] => (address account).map .claimable
  | .getRecord, [jobId] => (Write.u128 jobId).map .getRecord
  | .commitmentBlock, [jobId] => (Write.u128 jobId).map .commitmentBlock
  | .resultVerifiedAt, [jobId] => (Write.u128 jobId).map .resultVerifiedAt
  | .disputeResolvedForProvider, [jobId] =>
      (Write.u128 jobId).map .disputeResolvedForProvider
  | .saltPerPflopHour, [] => some .saltPerPflopHour
  | .isPriceStale, [] => some .isPriceStale
  | .getPin, [pinner, cid, sector] => do
      some (.getPin (← address pinner) cid (← Write.u128 sector))
  | .getSlot, [cid, sector] => (Write.u128 sector).map (.getSlot cid)
  | .owedOf, [pinner, cid, sector] => do
      some (.owedOf (← address pinner) cid (← Write.u128 sector))
  | .registered, [who] => (address who).map .registered
  | .unallocatedSlotFunding, [] => some .unallocatedSlotFunding
  | _, _ => none

theorem address_wordFromAddress (value : Address) :
    address (wordFromAddress value) = some value := by
  rw [address, toAddress_wordFromAddress]
  rfl

theorem ofArguments_arguments (call : ReadCall) :
    ofArguments call.function call.arguments = some call := by
  cases call <;>
    delta ofArguments function arguments <;>
    simp only [Write.u128_uintWord, address_wordFromAddress,
      Option.bind_eq_bind, Option.bind_some, Option.map_some]

end ReadCall

section Hashes

variable [HashFunctions]

namespace Selectors

def getProvider : Selector := selector "getProvider(address)"

def getJob : Selector := selector "getJob(uint256)"

def getModel : Selector := selector "getModel(bytes32)"

def claimable : Selector := selector "claimable(address)"

def getRecord : Selector := selector "getRecord(uint256)"

def commitmentBlock : Selector := selector "commitmentBlock(uint256)"

def resultVerifiedAt : Selector := selector "resultVerifiedAt(uint256)"

def disputeResolvedForProvider : Selector :=
  selector "disputeResolvedForProvider(uint256)"

def saltPerPflopHour : Selector := selector "saltPerPflopHour()"

def isPriceStale : Selector := selector "isPriceStale()"

def pinGetPin : Selector := selector "getPin(address,bytes32,uint256)"

def pinGetSlot : Selector := selector "getSlot(bytes32,uint256)"

def pinOwedOf : Selector := selector "owedOf(address,bytes32,uint256)"

def pinRegistered : Selector := selector "registered(address)"

def pinUnallocatedSlotFunding : Selector := selector "unallocatedSlotFunding()"

end Selectors

def encodeGetProvider (provider : Address) : Bytes :=
  encodeCall Selectors.getProvider [wordFromAddress provider]

def encodeGetJob (jobId : Nat) : Bytes :=
  encodeCall Selectors.getJob [wordFromU128 jobId]

def encodeGetModel (modelHash : Word) : Bytes :=
  encodeCall Selectors.getModel [modelHash]

def encodeClaimable (account : Address) : Bytes :=
  encodeCall Selectors.claimable [wordFromAddress account]

def encodeGetRecord (jobId : Nat) : Bytes :=
  encodeCall Selectors.getRecord [wordFromU128 jobId]

def encodeCommitmentBlock (jobId : Nat) : Bytes :=
  encodeCall Selectors.commitmentBlock [wordFromU128 jobId]

def encodeResultVerifiedAt (jobId : Nat) : Bytes :=
  encodeCall Selectors.resultVerifiedAt [wordFromU128 jobId]

def encodeDisputeResolvedForProvider (jobId : Nat) : Bytes :=
  encodeCall Selectors.disputeResolvedForProvider [wordFromU128 jobId]

def encodeSaltPerPflopHour : Bytes :=
  encodeCall Selectors.saltPerPflopHour []

def encodeIsPriceStale : Bytes :=
  encodeCall Selectors.isPriceStale []

def encodeGetPin (pinner : Address) (cid : Word) (sector : Nat) : Bytes :=
  encodeCall Selectors.pinGetPin
    [wordFromAddress pinner, cid, wordFromU128 sector]

def encodeGetSlot (cid : Word) (sector : Nat) : Bytes :=
  encodeCall Selectors.pinGetSlot [cid, wordFromU128 sector]

def encodeOwedOf (pinner : Address) (cid : Word) (sector : Nat) : Bytes :=
  encodeCall Selectors.pinOwedOf
    [wordFromAddress pinner, cid, wordFromU128 sector]

def encodeRegistered (who : Address) : Bytes :=
  encodeCall Selectors.pinRegistered [wordFromAddress who]

def encodeUnallocatedSlotFunding : Bytes :=
  encodeCall Selectors.pinUnallocatedSlotFunding []

def ReadFunction.selector : ReadFunction → Selector
  | .getProvider => Selectors.getProvider
  | .getJob => Selectors.getJob
  | .getModel => Selectors.getModel
  | .claimable => Selectors.claimable
  | .getRecord => Selectors.getRecord
  | .commitmentBlock => Selectors.commitmentBlock
  | .resultVerifiedAt => Selectors.resultVerifiedAt
  | .disputeResolvedForProvider => Selectors.disputeResolvedForProvider
  | .saltPerPflopHour => Selectors.saltPerPflopHour
  | .isPriceStale => Selectors.isPriceStale
  | .getPin => Selectors.pinGetPin
  | .getSlot => Selectors.pinGetSlot
  | .owedOf => Selectors.pinOwedOf
  | .registered => Selectors.pinRegistered
  | .unallocatedSlotFunding => Selectors.pinUnallocatedSlotFunding

/-- The hash function gives every signature its pinned selector. -/
def ReadsPinned : Prop :=
  ∀ function : ReadFunction, function.selector.toList = function.pinned

/-- The calldata that the agent builds for a read. -/
def ReadCall.calldata : ReadCall → Bytes
  | .getProvider provider => encodeGetProvider provider
  | .getJob jobId => encodeGetJob jobId
  | .getModel modelHash => encodeGetModel modelHash
  | .claimable account => encodeClaimable account
  | .getRecord jobId => encodeGetRecord jobId
  | .commitmentBlock jobId => encodeCommitmentBlock jobId
  | .resultVerifiedAt jobId => encodeResultVerifiedAt jobId
  | .disputeResolvedForProvider jobId => encodeDisputeResolvedForProvider jobId
  | .saltPerPflopHour => encodeSaltPerPflopHour
  | .isPriceStale => encodeIsPriceStale
  | .getPin pinner cid sector => encodeGetPin pinner cid sector
  | .getSlot cid sector => encodeGetSlot cid sector
  | .owedOf pinner cid sector => encodeOwedOf pinner cid sector
  | .registered who => encodeRegistered who
  | .unallocatedSlotFunding => encodeUnallocatedSlotFunding

theorem ReadCall.calldata_eq (call : ReadCall) :
    call.calldata = encodeCall call.function.selector call.arguments := by
  cases call with
  | getJob jobId | getRecord jobId | commitmentBlock jobId
  | resultVerifiedAt jobId | disputeResolvedForProvider jobId =>
      exact congrArg (fun word => encodeCall _ [word])
        (wordFromU128_eq jobId.property)
  | getSlot cid sector =>
      exact congrArg (fun word => encodeCall _ [cid, word])
        (wordFromU128_eq sector.property)
  | getPin pinner cid sector | owedOf pinner cid sector =>
      exact congrArg
        (fun word => encodeCall _ [wordFromAddress pinner, cid, word])
        (wordFromU128_eq sector.property)
  | getProvider | getModel | claimable | saltPerPflopHour | isPriceStale
  | registered | unallocatedSlotFunding => rfl

end Hashes

/-- The read that a byte string is the calldata of. -/
def ReadCall.ofCalldata (data : Bytes) : Option ReadCall := do
  let function ← ReadFunction.ofPinned (data.take 4)
  let words ← wordsAt (data.drop 4) 0 function.arity
  ReadCall.ofArguments function words

/-- With its pinned selector, a read is found again in its calldata. -/
theorem ReadCall.ofCalldata_calldata [HashFunctions] (pinned : ReadsPinned)
    (call : ReadCall) : ReadCall.ofCalldata call.calldata = some call := by
  have width := call.function.length_pinned
  have found : Found (call.arguments.flatMap List.Vector.toList) 0
      (call.arguments.flatMap List.Vector.toList) :=
    ⟨[], [], (List.append_nil _).symm, rfl⟩
  have words := found.wordsAt
  rw [call.length_arguments] at words
  rw [call.calldata_eq, encodeCall, pinned, ReadCall.ofCalldata,
    List.take_left' width, List.drop_left' width, ReadFunction.ofPinned_pinned]
  simp only [Option.bind_eq_bind, Option.bind_some, words,
    ReadCall.ofArguments_arguments]

namespace ReadFunction

/-- What a contract holds behind a function. -/
abbrev Held : ReadFunction → Type
  | .getProvider => ProviderProfile
  | .getJob => JobTuple
  | .getModel => ModelRegistry.ModelTuple
  | .getRecord => VerificationRecord
  | .claimable | .commitmentBlock | .resultVerifiedAt | .saltPerPflopHour
  | .owedOf | .unallocatedSlotFunding => Nat
  | .disputeResolvedForProvider | .isPriceStale | .registered => Bool
  | .getPin => PinState
  | .getSlot => SlotState

/-- What the agent makes of it. -/
abbrev Seen : ReadFunction → Type
  | .getProvider => ProviderProfile
  | .getJob => Job
  | .getModel => ModelInfo
  | .getRecord => Bool × VerificationTier
  | .claimable | .commitmentBlock | .resultVerifiedAt | .saltPerPflopHour
  | .owedOf | .unallocatedSlotFunding => Nat
  | .disputeResolvedForProvider | .isPriceStale | .registered => Bool
  | .getPin => PinState
  | .getSlot => SlotState

/-- The part of what is held that the agent uses. -/
def view : (function : ReadFunction) → function.Held → function.Seen
  | .getProvider, profile => profile
  | .getJob, job => job.record
  | .getModel, tuple => tuple.info
  | .getRecord, record => (record.commitmentSubmitted, record.tier)
  | .claimable, value | .commitmentBlock, value | .resultVerifiedAt, value
  | .saltPerPflopHour, value | .owedOf, value
  | .unallocatedSlotFunding, value => value
  | .disputeResolvedForProvider, flag | .isPriceStale, flag
  | .registered, flag => flag
  | .getPin, pin => pin
  | .getSlot, slot => slot

end ReadFunction

/-- The words that the contract returns for a record. -/
def VerificationRecord.words (record : VerificationRecord) : List Word :=
  [uintWord record.jobId, uintWord record.jobValue,
    uintWord record.tier.discriminant, uintWord record.result,
    record.commitmentHash, uintWord record.commitmentSubmitted.toNat] ++
    record.others.toList

def PinStatus.discriminant : PinStatus → Nat
  | .none => 0
  | .active => 1
  | .done => 2
  | .slashed => 3

def PinState.integers (pin : PinState) : List Nat :=
  [pin.round, pin.missed, pin.claimed, pin.bondHeld, pin.challengeDeadline]

def PinState.words (pin : PinState) : List Word :=
  [uintWord pin.status.discriminant, uintWord pin.round, uintWord pin.missed,
    uintWord pin.claimed, uintWord pin.bondHeld,
    uintWord pin.challengeOpen.toNat, uintWord pin.challengeDeadline,
    pin.challengeNonce]

def SlotState.words (slot : SlotState) : List Word :=
  [uintWord slot.funded.toNat, uintWord slot.budget, uintWord slot.liveCount]

namespace ReadFunction

/-- The integers of the return data that the agent reads. -/
def integers : (function : ReadFunction) → function.Held → List Nat
  | .getProvider, profile => profile.integers
  | .getJob, job => job.integers
  | .getModel, _ | .getRecord, _ => []
  | .claimable, value | .commitmentBlock, value | .resultVerifiedAt, value
  | .saltPerPflopHour, value | .owedOf, value
  | .unallocatedSlotFunding, value => [value]
  | .disputeResolvedForProvider, _ | .isPriceStale, _ | .registered, _ => []
  | .getPin, pin => pin.integers
  | .getSlot, slot => [slot.budget, slot.liveCount]

/-- The standard return encoding. -/
def encode : (function : ReadFunction) → function.Held → Bytes
  | .getProvider, profile => profile.encode []
  | .getJob, job => job.encode []
  | .getModel, tuple => tuple.encode
  | .getRecord, record => record.words.flatMap List.Vector.toList
  | .claimable, value | .commitmentBlock, value | .resultVerifiedAt, value
  | .saltPerPflopHour, value | .owedOf, value
  | .unallocatedSlotFunding, value => (uintWord value).toList
  | .disputeResolvedForProvider, flag | .isPriceStale, flag
  | .registered, flag => (uintWord flag.toNat).toList
  | .getPin, pin => pin.words.flatMap List.Vector.toList
  | .getSlot, slot => slot.words.flatMap List.Vector.toList

/-- What a contract can hold and return: integers of 256 bits, and less data
than 64 bits count. -/
structure Encodable (function : ReadFunction) (held : function.Held) : Prop
    where
  integers : ∀ value ∈ function.integers held, value < 256 ^ 32
  encoding : (function.encode held).length < 2 ^ 64

/-- The agent's decoder of the return data. -/
def decode : (function : ReadFunction) → Bytes → Except AbiError function.Seen
  | .getProvider, data => ProviderProfile.decode data
  | .getJob, data => Job.decode data
  | .getModel, data => ModelRegistry.decodeGetModel data
  | .getRecord, data => do
      let submitted ← decodeCommitmentSubmitted data
      let tier ← decodeRecordTier data
      pure (submitted, tier)
  | .claimable, data => decodeClaimable data
  | .commitmentBlock, data => decodeBlock data
  | .resultVerifiedAt, data => Decoder.u128.run' ⟨data, 0⟩
  | .disputeResolvedForProvider, data => Decoder.bool.run' ⟨data, 0⟩
  | .saltPerPflopHour, data => decodeSaltPerPflopHour data
  | .isPriceStale, data => decodeIsPriceStale data
  | .getPin, data => decodePin data
  | .getSlot, data => decodeSlot data
  | .owedOf, data => decodeOwed data
  | .registered, data => decodeRegistered data
  | .unallocatedSlotFunding, data => decodeUnallocatedSlotFunding data

end ReadFunction

theorem toU128_uintWord_iff {held value : Nat} (fits : held < 256 ^ 32) :
    toU128 (uintWord held) = .ok value ↔ value = held ∧ held < 2 ^ 128 := by
  rw [toU128_eq_ok_iff, wordValue_uintWord fits]
  constructor
  · rintro ⟨rfl, small⟩
    exact ⟨rfl, by omega⟩
  · rintro ⟨rfl, small⟩
    exact ⟨rfl, by omega⟩

theorem toBool_uintWord_iff {flag value : Bool} :
    toBool (uintWord flag.toNat) = .ok value ↔ value = flag := by
  rw [toBool_uintWord, Except.ok.injEq]
  exact eq_comm

theorem u128_run_iff {held value : Nat} (fits : held < 256 ^ 32) :
    Decoder.u128.run' ⟨(uintWord held).toList, 0⟩ = .ok value ↔
      value = held ∧ held < 2 ^ 128 := by
  have run := (checked_yields toU128 (uintWord held)).run_start []
  rw [List.append_nil] at run
  rw [Decoder.u128, run]
  exact toU128_uintWord_iff fits

theorem bool_run_iff {flag value : Bool} :
    Decoder.bool.run' ⟨(uintWord flag.toNat).toList, 0⟩ = .ok value ↔
      value = flag := by
  have run := (checked_yields toBool (uintWord flag.toNat)).run_start []
  rw [List.append_nil] at run
  rw [Decoder.bool, run]
  exact toBool_uintWord_iff

/-- The checks of a profile's words, in the order of the decoder. -/
def ProviderProfile.read (profile : ProviderProfile) :
    Except AbiError ProviderProfile := do
  let isRegistered ← toBool (uintWord profile.isRegistered.toNat)
  let stakeWei ← toU128 (uintWord profile.stakeWei)
  let totalJobsCompleted ← toU128 (uintWord profile.totalJobsCompleted)
  let totalJobsFailed ← toU128 (uintWord profile.totalJobsFailed)
  let reputationScoreBps ← toU128 (uintWord profile.reputationScoreBps)
  let currentActiveJobs ← toU128 (uintWord profile.currentActiveJobs)
  let maxConcurrentJobs ← toU128 (uintWord profile.maxConcurrentJobs)
  pure {
    isRegistered, stakeWei, totalJobsCompleted, totalJobsFailed
    reputationScoreBps, currentActiveJobs, maxConcurrentJobs }

theorem ProviderProfile.decode_read (profile : ProviderProfile) :
    ProviderProfile.decode (profile.encode []) = profile.read := by
  apply Yields.run_start
  simp only [ProviderProfile.integers, List.map_cons, List.map_nil,
    List.flatMap_cons, List.flatMap_nil]
  apply (checked_yields _ _).bind
  intro isRegistered
  apply (checked_yields _ _).bind
  intro stakeWei
  apply (checked_yields _ _).bind
  intro totalJobsCompleted
  apply (checked_yields _ _).bind
  intro totalJobsFailed
  apply (checked_yields _ _).bind
  intro reputationScoreBps
  apply (checked_yields _ _).bind
  intro currentActiveJobs
  apply (checked_yields _ _).bind
  intro maxConcurrentJobs
  exact Yields.pure _

theorem ProviderProfile.decode_iff {profile seen : ProviderProfile}
    (fits : ∀ value ∈ profile.integers, value < 256 ^ 32) :
    ProviderProfile.decode (profile.encode []) = .ok seen ↔
      seen = profile ∧ ∀ value ∈ profile.integers, value < 2 ^ 128 := by
  constructor
  · intro decoded
    have small : ∀ value ∈ profile.integers, value < 2 ^ 128 := by
      simp only [ProviderProfile.integers, List.forall_mem_cons] at fits
      obtain ⟨stakeFits, completedFits, failedFits, reputationFits, activeFits,
        maxFits, -⟩ := fits
      simp only [ProviderProfile.decode_read, ProviderProfile.read, bind_eq_ok,
        toU128_uintWord_iff stakeFits, toU128_uintWord_iff completedFits,
        toU128_uintWord_iff failedFits, toU128_uintWord_iff reputationFits,
        toU128_uintWord_iff activeFits, toU128_uintWord_iff maxFits]
        at decoded
      obtain ⟨-, -, -, ⟨-, stake⟩, -, ⟨-, completed⟩, -, ⟨-, failed⟩, -,
        ⟨-, reputation⟩, -, ⟨-, active⟩, -, ⟨-, most⟩, -⟩ := decoded
      simp only [ProviderProfile.integers, List.forall_mem_cons]
      exact ⟨stake, completed, failed, reputation, active, most,
        List.forall_mem_nil _⟩
    rw [ProviderProfile.decode_encode profile [] small] at decoded
    cases decoded
    exact ⟨rfl, small⟩
  · rintro ⟨rfl, small⟩
    exact ProviderProfile.decode_encode seen [] small

theorem Job.decode_iff {job : JobTuple} {seen : Job}
    (fits : ∀ value ∈ job.integers, value < 256 ^ 32)
    (length : job.inputHash.length < 2 ^ 64) :
    Job.decode (job.encode []) = .ok seen ↔
      seen = job.record ∧ ∀ value ∈ job.integers, value < 2 ^ 128 := by
  have inverts (small : ∀ value ∈ job.integers, value < 2 ^ 128) :
      Job.decode (job.encode []) = .ok job.record := by
    rw [JobTuple.encode, Job.decode_encode,
      decodeInputHash_encode job.words [] length, job.read_words _ small]
    rfl
  constructor
  · intro decoded
    have small : ∀ value ∈ job.integers, value < 2 ^ 128 := by
      rw [JobTuple.encode, Job.decode_encode] at decoded
      have wellFormed := JobWords.not_malformed decoded
      intro value member
      by_contra large
      apply wellFormed
      apply JobWords.Malformed.integer (uintWord value)
      · have words : job.words.integers = job.integers.map uintWord := rfl
        rw [words]
        exact List.mem_map_of_mem member
      · rw [wordValue_uintWord (fits value member)]
        exact not_lt.mp large
    rw [inverts small] at decoded
    cases decoded
    exact ⟨rfl, small⟩
  · rintro ⟨rfl, small⟩
    exact inverts small

theorem decodeCommitmentSubmitted_words (record : VerificationRecord) :
    decodeCommitmentSubmitted (record.words.flatMap List.Vector.toList) =
      .ok record.commitmentSubmitted := by
  have layout : record.words.flatMap List.Vector.toList =
      ([uintWord record.jobId, uintWord record.jobValue,
          uintWord record.tier.discriminant, uintWord record.result,
          record.commitmentHash].flatMap List.Vector.toList ++
        (uintWord record.commitmentSubmitted.toNat).toList) ++
        record.others.toList.flatMap List.Vector.toList := by
    simp [VerificationRecord.words]
  rw [layout]
  apply Yields.run_start
  exact (skip_yields _).bind_ok (bool_yields record.commitmentSubmitted)

theorem u8Enum_yields {value : Nat} (small : value < 256) :
    Yields Decoder.u8Enum (uintWord value).toList
      (.ok (UInt8.ofNat value)) := by
  rw [← toU8Enum_uintWord small]
  exact checked_yields toU8Enum (uintWord value)

theorem decodeRecordTier_words (record : VerificationRecord) :
    decodeRecordTier (record.words.flatMap List.Vector.toList) =
      .ok record.tier := by
  have layout : record.words.flatMap List.Vector.toList =
      ([uintWord record.jobId, uintWord record.jobValue].flatMap
          List.Vector.toList ++
        ((uintWord record.tier.discriminant).toList ++ [])) ++
        (uintWord record.result :: record.commitmentHash ::
          uintWord record.commitmentSubmitted.toNat ::
            record.others.toList).flatMap List.Vector.toList := by
    simp [VerificationRecord.words]
  have small := record.tier.discriminant_lt
  have tier : VerificationTier.fromU8 (UInt8.ofNat record.tier.discriminant) =
      .ok record.tier :=
    VerificationTier.fromU8_eq_ok_iff.mpr (Nat.mod_eq_of_lt (by omega))
  rw [layout]
  apply Yields.run_start
  apply (skip_yields _).bind_ok
  apply (u8Enum_yields (by omega)).bind_ok
  rw [← tier]
  exact Yields.lift _

theorem PinStatus.fromU8_discriminant (status : PinStatus) :
    PinStatus.fromU8 (UInt8.ofNat status.discriminant) = .ok status := by
  cases status <;> rfl

/-- The checks of a pin's words, in the order of the decoder. -/
def PinState.read (pin : PinState) : Except AbiError PinState := do
  let round ← toU128 (uintWord pin.round)
  let missed ← toU128 (uintWord pin.missed)
  let claimed ← toU128 (uintWord pin.claimed)
  let bondHeld ← toU128 (uintWord pin.bondHeld)
  let challengeOpen ← toBool (uintWord pin.challengeOpen.toNat)
  let challengeDeadline ← toU128 (uintWord pin.challengeDeadline)
  pure { pin with
    round, missed, claimed, bondHeld, challengeOpen, challengeDeadline }

theorem decodePin_words (pin : PinState) :
    decodePin (pin.words.flatMap List.Vector.toList) = pin.read := by
  have small : pin.status.discriminant < 256 := by
    cases pin.status <;> decide
  rw [← List.append_nil (pin.words.flatMap List.Vector.toList)]
  apply Yields.run_start
  simp only [PinState.words, List.flatMap_cons, List.flatMap_nil]
  apply (u8Enum_yields small).bind_ok
  rw [PinStatus.fromU8_discriminant]
  apply Yields.check_ok
  apply (checked_yields _ _).bind
  intro round
  apply (checked_yields _ _).bind
  intro missed
  apply (checked_yields _ _).bind
  intro claimed
  apply (checked_yields _ _).bind
  intro bondHeld
  apply (checked_yields _ _).bind
  intro challengeOpen
  apply (checked_yields _ _).bind
  intro challengeDeadline
  apply (word_yields _).bind_ok
  exact Yields.pure _

theorem decodePin_iff {pin seen : PinState}
    (fits : ∀ value ∈ pin.integers, value < 256 ^ 32) :
    decodePin (pin.words.flatMap List.Vector.toList) = .ok seen ↔
      seen = pin ∧ ∀ value ∈ pin.integers, value < 2 ^ 128 := by
  simp only [PinState.integers, List.forall_mem_cons] at fits ⊢
  obtain ⟨roundFits, missedFits, claimedFits, bondFits, deadlineFits, -⟩ := fits
  rw [decodePin_words]
  simp only [PinState.read, bind_eq_ok, toU128_uintWord_iff roundFits,
    toU128_uintWord_iff missedFits, toU128_uintWord_iff claimedFits,
    toU128_uintWord_iff bondFits, toU128_uintWord_iff deadlineFits,
    toBool_uintWord_iff]
  constructor
  · rintro ⟨_, ⟨rfl, round⟩, _, ⟨rfl, missed⟩, _, ⟨rfl, claimed⟩, _,
      ⟨rfl, bond⟩, _, rfl, _, ⟨rfl, deadline⟩, same⟩
    cases same
    exact ⟨rfl, round, missed, claimed, bond, deadline, nofun⟩
  · rintro ⟨rfl, round, missed, claimed, bond, deadline, -⟩
    exact ⟨_, ⟨rfl, round⟩, _, ⟨rfl, missed⟩, _, ⟨rfl, claimed⟩, _,
      ⟨rfl, bond⟩, _, rfl, _, ⟨rfl, deadline⟩, rfl⟩

theorem decodeSlot_iff {slot seen : SlotState}
    (budgetFits : slot.budget < 256 ^ 32)
    (countFits : slot.liveCount < 256 ^ 32) :
    decodeSlot (slot.words.flatMap List.Vector.toList) = .ok seen ↔
      seen = slot ∧ slot.budget < 2 ^ 128 ∧ slot.liveCount < 2 ^ 128 := by
  have read : decodeSlot (slot.words.flatMap List.Vector.toList) = (do
      let funded ← toBool (uintWord slot.funded.toNat)
      let budget ← toU128 (uintWord slot.budget)
      let liveCount ← toU128 (uintWord slot.liveCount)
      pure { funded, budget, liveCount }) := by
    rw [← List.append_nil (slot.words.flatMap List.Vector.toList)]
    apply Yields.run_start
    simp only [SlotState.words, List.flatMap_cons, List.flatMap_nil]
    apply (checked_yields _ _).bind
    intro funded
    apply (checked_yields _ _).bind
    intro budget
    apply (checked_yields _ _).bind
    intro liveCount
    exact Yields.pure _
  simp only [read, bind_eq_ok, toU128_uintWord_iff budgetFits,
    toU128_uintWord_iff countFits, toBool_uintWord_iff]
  constructor
  · rintro ⟨_, rfl, _, ⟨rfl, budget⟩, _, ⟨rfl, count⟩, same⟩
    cases same
    exact ⟨rfl, budget, count⟩
  · rintro ⟨rfl, budget, count⟩
    exact ⟨_, rfl, _, ⟨rfl, budget⟩, _, ⟨rfl, count⟩, rfl⟩

theorem JobTuple.length_inputHash (job : JobTuple) :
    job.inputHash.length ≤ (job.encode []).length := by
  simp only [JobTuple.encode, JobWords.encode, bytesTail, List.length_append]
  omega

/-- Every decoder inverts the standard encoding of what the contract holds, as
long as the integers in it are the agent's. -/
theorem ReadFunction.decode_encode_iff (function : ReadFunction)
    {held : function.Held} {seen : function.Seen}
    (encodable : function.Encodable held) :
    function.decode (function.encode held) = .ok seen ↔
      seen = function.view held ∧
        ∀ value ∈ function.integers held, value < 2 ^ 128 := by
  obtain ⟨integers, length⟩ := encodable
  cases function with
  | getProvider => exact ProviderProfile.decode_iff integers
  | getJob =>
      exact Job.decode_iff integers
        (Nat.lt_of_le_of_lt (JobTuple.length_inputHash held) length)
  | getModel =>
      have decoded := (held.returned length).decodeGetModel_eq_ok
      simp only [decode, encode, decoded, Except.ok.injEq]
      exact ⟨fun same => ⟨same.symm, nofun⟩, fun same => same.1.symm⟩
  | getRecord =>
      simp only [decode, encode, decodeCommitmentSubmitted_words,
        decodeRecordTier_words, ok_bind]
      constructor
      · intro same
        cases same
        exact ⟨rfl, nofun⟩
      · rintro ⟨rfl, -⟩
        rfl
  | getPin => exact decodePin_iff integers
  | getSlot =>
      simp only [ReadFunction.integers, List.forall_mem_cons] at integers
      refine (decodeSlot_iff integers.1 integers.2.1).trans ?_
      simp [ReadFunction.integers, view]
  | claimable | commitmentBlock | resultVerifiedAt | saltPerPflopHour | owedOf
  | unallocatedSlotFunding =>
      simp only [ReadFunction.integers, List.forall_mem_singleton]
        at integers ⊢
      exact u128_run_iff integers
  | disputeResolvedForProvider | isPriceStale | registered =>
      refine bool_run_iff.trans ?_
      simp [ReadFunction.integers, view]

/-- The agent and a contract that follows the standard never misread each
other: every read is found again in its calldata, and what the contract returns
is decoded to what it holds, or refused where an integer exceeds the
agent's. -/
theorem reads_exact [HashFunctions] (pinned : ReadsPinned) :
    (∀ call : ReadCall, ReadCall.ofCalldata call.calldata = some call) ∧
      ∀ (function : ReadFunction) (held : function.Held)
        (seen : function.Seen), function.Encodable held →
          (function.decode (function.encode held) = .ok seen ↔
            seen = function.view held ∧
              ∀ value ∈ function.integers held, value < 2 ^ 128) := by
  constructor
  · intro call
    exact call.ofCalldata_calldata pinned
  · intro function held seen encodable
    exact function.decode_encode_iff encodable

def ReadFunction.signature : ReadFunction → String
  | .getProvider => "getProvider(address)"
  | .getJob => "getJob(uint256)"
  | .getModel => "getModel(bytes32)"
  | .claimable => "claimable(address)"
  | .getRecord => "getRecord(uint256)"
  | .commitmentBlock => "commitmentBlock(uint256)"
  | .resultVerifiedAt => "resultVerifiedAt(uint256)"
  | .disputeResolvedForProvider => "disputeResolvedForProvider(uint256)"
  | .saltPerPflopHour => "saltPerPflopHour()"
  | .isPriceStale => "isPriceStale()"
  | .getPin => "getPin(address,bytes32,uint256)"
  | .getSlot => "getSlot(bytes32,uint256)"
  | .owedOf => "owedOf(address,bytes32,uint256)"
  | .registered => "registered(address)"
  | .unallocatedSlotFunding => "unallocatedSlotFunding()"

/-- Concrete functions with the pinned selector of every read. -/
@[reducible] def readHashes : HashFunctions where
  keccak256 bytes :=
    match ReadFunction.all.find? fun function =>
        utf8 function.signature = bytes with
    | some function => firstWord function.pinned
    | none => firstWord bytes
  sha256 := firstWord

theorem readHashes_pinned : @ReadsPinned readHashes := by
  intro function
  cases function <;> decide +kernel

/-- A slot whose budget is the largest of the agent's integers. -/
def fullSlot : SlotState where
  funded := true
  budget := 2 ^ 128 - 1
  liveCount := 3

theorem fullSlot_fits :
    ∀ value ∈ ReadFunction.getSlot.integers fullSlot, value < 2 ^ 128 := by
  simp only [ReadFunction.integers, List.forall_mem_cons]
  exact ⟨by decide, by decide, nofun⟩

theorem fullSlot_encodable : ReadFunction.getSlot.Encodable fullSlot := by
  constructor
  · intro value member
    exact (fullSlot_fits value member).trans (by decide)
  · decide +kernel

theorem seven_fits : 7 < 2 ^ 128 := by decide

/-- The read of a slot. -/
def slotCall : ReadCall :=
  .getSlot (List.Vector.replicate 32 0x33) ⟨7, seven_fits⟩

theorem reads_exact_fullSlot :
    ReadCall.ofCalldata (@ReadCall.calldata readHashes slotCall) =
        some slotCall ∧
      decodeSlot (ReadFunction.getSlot.encode fullSlot) = .ok fullSlot :=
  have exact := @reads_exact readHashes readHashes_pinned
  ⟨exact.1 slotCall,
    (exact.2 .getSlot fullSlot fullSlot fullSlot_encodable).mpr
      ⟨rfl, fullSlot_fits⟩⟩

end NodeAgent.Chainio
