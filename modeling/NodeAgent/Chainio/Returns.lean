import NodeAgent.Chainio.Decoder

/-!
# Return data

The standard encoding of what the price oracle, `getProvider` and `getJob`
return, and what the decoders make of it.  The cursor reads a head by
position, the input hash of a job is found through its offset, and a word
outside the range of its field is refused.
-/

namespace NodeAgent.Chainio

open BigEndian Decoder Parsing

namespace ProviderProfile

def integers (profile : ProviderProfile) : List Nat :=
  [profile.stakeWei, profile.totalJobsCompleted, profile.totalJobsFailed,
    profile.reputationScoreBps, profile.currentActiveJobs,
    profile.maxConcurrentJobs]

/-- The return data of `getProvider`, whatever follows it. -/
def encode (profile : ProviderProfile) (trailing : Bytes) : Bytes :=
  (uintWord profile.isRegistered.toNat :: profile.integers.map uintWord).flatMap
    List.Vector.toList ++ trailing

/-- Decoding inverts the encoding of a profile. -/
theorem decode_encode (profile : ProviderProfile) (trailing : Bytes)
    (fits : ∀ value ∈ profile.integers, value < 2 ^ 128) :
    ProviderProfile.decode (profile.encode trailing) = .ok profile := by
  simp only [integers, List.forall_mem_cons] at fits
  obtain ⟨stakeWei, totalJobsCompleted, totalJobsFailed, reputationScoreBps,
    currentActiveJobs, maxConcurrentJobs, _⟩ := fits
  apply Yields.run_start
  simp only [integers, List.map_cons, List.map_nil, List.flatMap_cons,
    List.flatMap_nil]
  apply (bool_yields _).bind_ok
  apply (u128_yields stakeWei).bind_ok
  apply (u128_yields totalJobsCompleted).bind_ok
  apply (u128_yields totalJobsFailed).bind_ok
  apply (u128_yields reputationScoreBps).bind_ok
  apply (u128_yields currentActiveJobs).bind_ok
  apply (u128_yields maxConcurrentJobs).bind_ok
  exact Yields.pure profile

end ProviderProfile

/-- The head words of a job tuple, the offset of its input hash apart. -/
structure JobWords where
  id : Word
  requester : Word
  modelHash : Word
  maxPriceWei : Word
  tier : Word
  state : Word
  assignedProvider : Word
  escrowWei : Word
  bidDeadlineBlock : Word
  executionDeadlineBlock : Word
  createdAtBlock : Word
  bidCount : Word

namespace JobWords

/-- The offset of the tuple, then its head: the input hash is the first value
of the tail, behind thirteen words. -/
def head (words : JobWords) : List Word :=
  [uintWord 0x20,
    words.id, words.requester, words.modelHash, uintWord 0x1a0,
    words.maxPriceWei, words.tier, words.state, words.assignedProvider,
    words.escrowWei, words.bidDeadlineBlock, words.executionDeadlineBlock,
    words.createdAtBlock, words.bidCount]

def integers (words : JobWords) : List Word :=
  [words.id, words.maxPriceWei, words.escrowWei, words.bidDeadlineBlock,
    words.executionDeadlineBlock, words.createdAtBlock, words.bidCount]

def addresses (words : JobWords) : List Word :=
  [words.requester, words.assignedProvider]

end JobWords

/-- A `bytes` value: its length, then the bytes, padded with zeros to a word
boundary. -/
def bytesTail (bytes : Bytes) : Bytes :=
  (uintWord bytes.length).toList ++ bytes ++
    List.replicate ((32 - bytes.length % 32) % 32) 0

/-- The return data of `getJob` with these head words. -/
def JobWords.encode (words : JobWords) (inputHash trailing : Bytes) : Bytes :=
  words.head.flatMap List.Vector.toList ++ (bytesTail inputHash ++ trailing)

/-- A byte string as a word, if it is exactly 32 bytes long. -/
def exactWord (bytes : Bytes) : Option Word :=
  if width : bytes.length = 32 then some ⟨bytes, width⟩ else none

/-- The contract's job tuple. -/
structure JobTuple where
  id : Nat
  requester : Address
  modelHash : Word
  inputHash : Bytes
  maxPriceWei : Nat
  tier : VerificationTier
  state : JobState
  assignedProvider : Address
  escrowWei : Nat
  bidDeadlineBlock : Nat
  executionDeadlineBlock : Nat
  createdAtBlock : Nat
  bidCount : Nat

namespace JobTuple

def integers (job : JobTuple) : List Nat :=
  [job.id, job.maxPriceWei, job.escrowWei, job.bidDeadlineBlock,
    job.executionDeadlineBlock, job.createdAtBlock, job.bidCount]

def words (job : JobTuple) : JobWords where
  id := uintWord job.id
  requester := wordFromAddress job.requester
  modelHash := job.modelHash
  maxPriceWei := uintWord job.maxPriceWei
  tier := uintWord job.tier.discriminant
  state := uintWord job.state.discriminant
  assignedProvider := wordFromAddress job.assignedProvider
  escrowWei := uintWord job.escrowWei
  bidDeadlineBlock := uintWord job.bidDeadlineBlock
  executionDeadlineBlock := uintWord job.executionDeadlineBlock
  createdAtBlock := uintWord job.createdAtBlock
  bidCount := uintWord job.bidCount

/-- The return data of `getJob`, whatever follows it. -/
def encode (job : JobTuple) (trailing : Bytes) : Bytes :=
  job.words.encode job.inputHash trailing

/-- The record of the tuple. -/
def record (job : JobTuple) : Job where
  id := job.id
  requester := job.requester
  modelHash := job.modelHash
  maxPriceWei := job.maxPriceWei
  tier := job.tier
  state := job.state
  assignedProvider := job.assignedProvider
  escrowWei := job.escrowWei
  bidDeadlineBlock := job.bidDeadlineBlock
  executionDeadlineBlock := job.executionDeadlineBlock
  createdAtBlock := job.createdAtBlock
  bidCount := job.bidCount
  inputHash := exactWord job.inputHash

end JobTuple

/-- The checks of the head words, in the order of the decoder. -/
def JobWords.read (words : JobWords) (inputHash : Option Word) :
    Except AbiError Job := do
  let id ← toU128 words.id
  let requester ← toAddress words.requester
  let maxPriceWei ← toU128 words.maxPriceWei
  let tier ← VerificationTier.fromU8 (← toU8Enum words.tier)
  let state ← JobState.fromU8 (← toU8Enum words.state)
  let assignedProvider ← toAddress words.assignedProvider
  let escrowWei ← toU128 words.escrowWei
  let bidDeadlineBlock ← toU128 words.bidDeadlineBlock
  let executionDeadlineBlock ← toU128 words.executionDeadlineBlock
  let createdAtBlock ← toU128 words.createdAtBlock
  let bidCount ← toU128 words.bidCount
  pure {
    id, requester, modelHash := words.modelHash, maxPriceWei, tier, state
    assignedProvider, escrowWei, bidDeadlineBlock, executionDeadlineBlock
    createdAtBlock, bidCount, inputHash }

/-- On data that starts with a head, the cursor reads the head by position. -/
theorem Job.decode_head (words : JobWords) (rest : Bytes) :
    Job.decode (words.head.flatMap List.Vector.toList ++ rest) =
      words.read (decodeInputHash
        (words.head.flatMap List.Vector.toList ++ rest)
        (uintWord 0x20) (uintWord 0x1a0)) := by
  apply Yields.run_start
  simp only [JobWords.head, List.flatMap_cons, List.flatMap_nil]
  apply (word_yields _).bind_ok
  apply (checked_yields _ _).bind
  intro id
  apply (checked_yields _ _).bind
  intro requester
  apply (word_yields _).bind_ok
  apply (word_yields _).bind_ok
  apply (checked_yields _ _).bind
  intro maxPriceWei
  apply (checked_yields _ _).bind
  intro tierByte
  apply Yields.check
  intro tier
  apply (checked_yields _ _).bind
  intro stateByte
  apply Yields.check
  intro state
  apply (checked_yields _ _).bind
  intro assignedProvider
  apply (checked_yields _ _).bind
  intro escrowWei
  apply (checked_yields _ _).bind
  intro bidDeadlineBlock
  apply (checked_yields _ _).bind
  intro executionDeadlineBlock
  apply (checked_yields _ _).bind
  intro createdAtBlock
  apply (checked_yields _ _).bind
  intro bidCount
  exact Yields.pure _

theorem JobWords.length_head (words : JobWords) :
    (words.head.flatMap List.Vector.toList).length = 448 := by
  simp [JobWords.head]

/-- The offsets of the standard encoding lead to the input hash. -/
theorem decodeInputHash_encode (words : JobWords) {inputHash : Bytes}
    (trailing : Bytes) (fits : inputHash.length < 2 ^ 64) :
    decodeInputHash (words.encode inputHash trailing) (uintWord 0x20)
      (uintWord 0x1a0) = exactWord inputHash := by
  have tuple : wordUsize (uintWord 0x20) = some 0x20 :=
    wordUsize_uintWord (by decide)
  have rel : wordUsize (uintWord 0x1a0) = some 0x1a0 :=
    wordUsize_uintWord (by decide)
  have lenAt : checkedAdd 0x20 0x1a0 = some 448 := by decide
  have lenEnd : checkedAdd 448 32 = some 480 := by decide
  have dataEnd : checkedAdd 480 32 = some 512 := by decide
  generalize padding : List.replicate ((32 - inputHash.length % 32) % 32)
    (0 : UInt8) = pad
  have tail : words.encode inputHash trailing =
      words.head.flatMap List.Vector.toList ++
        ((uintWord inputHash.length).toList ++
          (inputHash ++ (pad ++ trailing))) := by
    simp [JobWords.encode, bytesTail, padding]
  have length : wordAt (words.encode inputHash trailing) 448 480 =
      some (uintWord inputHash.length) :=
    wordAt_eq_some_iff.mpr ⟨_, _, tail, words.length_head⟩
  simp only [decodeInputHash, tuple, rel, lenAt, lenEnd, length, dataEnd,
    wordUsize_uintWord fits, Option.bind_eq_bind, Option.bind_some]
  by_cases width : inputHash.length = 32
  · rw [if_neg (not_not.mpr width), exactWord, dif_pos width]
    rw [← List.append_assoc] at tail
    apply wordAt_eq_some_iff.mpr
    refine ⟨_, _, tail, ?_⟩
    rw [List.length_append, words.length_head, List.Vector.toList_length]
  · rw [if_pos width, exactWord, dif_neg width]

theorem JobTuple.read_words (job : JobTuple) (inputHash : Option Word)
    (fits : ∀ value ∈ job.integers, value < 2 ^ 128) :
    job.words.read inputHash =
      .ok { job.record with inputHash := inputHash } := by
  simp only [JobTuple.integers, List.forall_mem_cons] at fits
  obtain ⟨id, maxPriceWei, escrowWei, bidDeadlineBlock,
    executionDeadlineBlock, createdAtBlock, bidCount, _⟩ := fits
  have tierSmall := job.tier.discriminant_lt
  have stateSmall := job.state.discriminant_lt
  have tier := toU8Enum_uintWord (show job.tier.discriminant < 256 by omega)
  have state := toU8Enum_uintWord (show job.state.discriminant < 256 by omega)
  have tierByte : VerificationTier.fromU8
      (UInt8.ofNat job.tier.discriminant) = .ok job.tier :=
    VerificationTier.fromU8_eq_ok_iff.mpr (Nat.mod_eq_of_lt (by omega))
  have stateByte : JobState.fromU8
      (UInt8.ofNat job.state.discriminant) = .ok job.state :=
    JobState.fromU8_eq_ok_iff.mpr (Nat.mod_eq_of_lt (by omega))
  simp only [JobWords.read, JobTuple.words, toU128_uintWord id,
    toU128_uintWord maxPriceWei, toU128_uintWord escrowWei,
    toU128_uintWord bidDeadlineBlock, toU128_uintWord executionDeadlineBlock,
    toU128_uintWord createdAtBlock, toU128_uintWord bidCount,
    toAddress_wordFromAddress, tier, tierByte, state, stateByte, ok_bind]
  rfl

/-- A head with a word outside the range of its field. -/
inductive JobWords.Malformed (words : JobWords) : Prop
  | integer (word : Word) (member : word ∈ words.integers)
      (large : 2 ^ 128 ≤ wordValue word)
  | address (word : Word) (member : word ∈ words.addresses)
      (high : ∃ byte ∈ word.toList.take 12, byte ≠ 0)
  | tier (outside : 3 ≤ wordValue words.tier)
  | state (outside : 10 ≤ wordValue words.state)

/-- A head that the checks accept is not malformed. -/
theorem JobWords.not_malformed {words : JobWords} {inputHash : Option Word}
    {job : Job} (read : words.read inputHash = .ok job) :
    ¬ words.Malformed := by
  simp only [JobWords.read, bind_eq_ok] at read
  obtain ⟨id, idRead, requester, requesterRead, maxPriceWei, maxPriceRead,
    tierByte, tierByteRead, tier, tierRead, stateByte, stateByteRead, state,
    stateRead, assignedProvider, assignedRead, escrowWei, escrowRead,
    bidDeadlineBlock, bidDeadlineRead, executionDeadlineBlock, executionRead,
    createdAtBlock, createdRead, bidCount, bidCountRead, _⟩ := read
  have integersFit : ∀ word ∈ words.integers, wordValue word < 2 ^ 128 := by
    simp only [JobWords.integers, List.forall_mem_cons]
    exact ⟨toU128_lt idRead, toU128_lt maxPriceRead, toU128_lt escrowRead,
      toU128_lt bidDeadlineRead, toU128_lt executionRead,
      toU128_lt createdRead, toU128_lt bidCountRead, by simp⟩
  have addressesClean : ∀ word ∈ words.addresses,
      ∀ byte ∈ word.toList.take 12, byte = 0 := by
    simp only [JobWords.addresses, List.forall_mem_cons]
    exact ⟨toAddress_clean requesterRead, toAddress_clean assignedRead,
      by simp⟩
  have tierSmall : wordValue words.tier < 3 := by
    rw [toU8Enum_eq_ok_iff.mp tierByteRead,
      VerificationTier.fromU8_eq_ok_iff.mp tierRead]
    exact tier.discriminant_lt
  have stateSmall : wordValue words.state < 10 := by
    rw [toU8Enum_eq_ok_iff.mp stateByteRead,
      JobState.fromU8_eq_ok_iff.mp stateRead]
    exact state.discriminant_lt
  intro malformed
  cases malformed with
  | integer word member large =>
      exact absurd (integersFit word member) (not_lt.mpr large)
  | address word member high =>
      obtain ⟨byte, inHigh, nonzero⟩ := high
      exact nonzero (addressesClean word member byte inHigh)
  | tier outside => omega
  | state outside => omega

theorem Job.decode_encode (words : JobWords) (inputHash trailing : Bytes) :
    Job.decode (words.encode inputHash trailing) =
      words.read (decodeInputHash (words.encode inputHash trailing)
        (uintWord 0x20) (uintWord 0x1a0)) :=
  Job.decode_head words _

/-- Decoding inverts the encoding of every tuple that fits the agent's
integers, and refuses every head with a word outside the range of its field. -/
theorem Job.decode_inverts :
    (∀ (job : JobTuple) (trailing : Bytes),
      (∀ value ∈ job.integers, value < 2 ^ 128) →
      job.inputHash.length < 2 ^ 64 →
      Job.decode (job.encode trailing) = .ok job.record) ∧
    (∀ (words : JobWords) (inputHash trailing : Bytes), words.Malformed →
      ∃ error, Job.decode (words.encode inputHash trailing) =
        .error error) := by
  constructor
  · intro job trailing integers length
    rw [JobTuple.encode, Job.decode_encode,
      decodeInputHash_encode job.words trailing length,
      job.read_words _ integers]
    rfl
  · intro words inputHash trailing malformed
    cases decoded : Job.decode (words.encode inputHash trailing) with
    | error error => exact ⟨error, rfl⟩
    | ok job =>
        rw [Job.decode_encode] at decoded
        exact absurd malformed (JobWords.not_malformed decoded)

def sampleTuple : JobTuple where
  id := 7
  requester := List.Vector.replicate 20 0xaa
  modelHash := List.Vector.replicate 32 0xde
  inputHash := List.replicate 32 0x5a
  maxPriceWei := 4
  tier := .commitment
  state := .bidding
  assignedProvider := List.Vector.replicate 20 0xbb
  escrowWei := 4
  bidDeadlineBlock := 100
  executionDeadlineBlock := 200
  createdAtBlock := 50
  bidCount := 2

/-- A tuple is read back, and a fourth tier is refused. -/
theorem Job.decode_sampleTuple :
    Job.decode (sampleTuple.encode [1]) = .ok sampleTuple.record ∧
      ∃ error, Job.decode (JobWords.encode
        { sampleTuple.words with tier := uintWord 3 } [] []) = .error error :=
  ⟨Job.decode_inverts.1 sampleTuple [1] (by decide) (by decide),
    Job.decode_inverts.2 _ [] [] (.tier (by decide))⟩

end NodeAgent.Chainio
