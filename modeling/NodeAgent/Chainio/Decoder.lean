import NodeAgent.Chainio.Marketplace
import NodeAgent.Library.BigEndian
import NodeAgent.Library.FixedWidth
import NodeAgent.Library.Parsing
import NodeAgent.Library.SolidityAbi

/-!
# ABI decoding

The cursor of `chainio::abi` and the decoders of `chainio::marketplace` on it.
A field reads one word and then checks it, so a decoder yields the checks of
its words in turn.  `inputHash` is read apart, by following offsets.
-/

namespace NodeAgent.Chainio

open BigEndian Parsing

inductive AbiError
  | tooShort (need got : Nat)
  | overflow
  | badBool
  | badAddress
  | badHex
  | badString
deriving DecidableEq

/-- A `uint256` as a `u128`. -/
def toU128 (word : Word) : Except AbiError Nat :=
  if dirty 16 word.toList then .error .overflow
  else .ok (ofBytes (word.toList.drop 16))

/-- A `bool`: exactly 0 or 1. -/
def toBool (word : Word) : Except AbiError Bool :=
  if dirty 31 word.toList then .error .badBool
  else if word.get 31 = 0 then .ok false
  else if word.get 31 = 1 then .ok true
  else .error .badBool

/-- An `address`: the high 12 bytes are zero. -/
def toAddress (word : Word) : Except AbiError Address :=
  if dirty 12 word.toList then .error .badAddress
  else .ok (word.drop 12)

/-- The `uint8` of an `enum`. -/
def toU8Enum (word : Word) : Except AbiError UInt8 :=
  if dirty 31 word.toList then .error .overflow
  else .ok (word.get 31)

/-- A word as a `usize` of 64 bits. -/
def wordUsize (word : Word) : Option Nat :=
  if dirty 24 word.toList then none
  else some (ofBytes (word.toList.drop 24))

/-- The number that a word spells. -/
def wordValue (word : Word) : Nat := ofBytes word.toList

/-- The word of a `uint256`. -/
def uintWord (value : Nat) : Word :=
  ⟨toBytes 32 value, length_toBytes 32 value⟩

theorem wordValue_uintWord {value : Nat} (fits : value < 256 ^ 32) :
    wordValue (uintWord value) = value :=
  ofBytes_toBytes fits

theorem uintWord_wordValue (word : Word) : uintWord (wordValue word) = word := by
  have same := toBytes_ofBytes word.toList
  rw [word.toList_length] at same
  exact List.Vector.eq _ _ same

theorem dirty_word {word : Word} (high : Nat) :
    dirty high word.toList = false ↔ wordValue word < 256 ^ (32 - high) := by
  rw [dirty_eq_false_iff_lt, word.toList_length, wordValue]

theorem toU128_eq_ok_iff {word : Word} {value : Nat} :
    toU128 word = .ok value ↔ wordValue word = value ∧ value < 256 ^ 16 := by
  rw [toU128]
  by_cases clean : dirty 16 word.toList = false
  · rw [clean, ofBytes_drop clean]
    have fits := (dirty_word 16).mp clean
    constructor
    · intro read
      cases read
      exact ⟨rfl, fits⟩
    · intro read
      exact congrArg Except.ok read.1
  · rw [Bool.not_eq_false] at clean
    rw [clean]
    constructor
    · intro read
      cases read
    · intro read
      obtain ⟨rfl, fits⟩ := read
      rw [(dirty_word 16).mpr fits] at clean
      cases clean

theorem toU128_uintWord {value : Nat} (fits : value < 2 ^ 128) :
    toU128 (uintWord value) = .ok value := by
  have width : value < 256 ^ 16 := by omega
  exact toU128_eq_ok_iff.mpr ⟨wordValue_uintWord (by omega), width⟩

theorem toU128_lt {word : Word} {value : Nat}
    (read : toU128 word = .ok value) : wordValue word < 2 ^ 128 := by
  obtain ⟨rfl, fits⟩ := toU128_eq_ok_iff.mp read
  omega

theorem wordValue_eq_last {word : Word}
    (clean : dirty 31 word.toList = false) :
    wordValue word = (word.get 31).toNat := by
  have width := word.toList_length
  rw [wordValue, ← ofBytes_drop clean, List.drop_eq_getElem_cons (by omega),
    List.drop_eq_nil_of_le (by omega), ofBytes_singleton]
  rfl

theorem toBool_uintWord (flag : Bool) :
    toBool (uintWord flag.toNat) = .ok flag := by
  cases flag with
  | false => decide
  | true => decide

theorem toBool_eq_ok {word : Word} {flag : Bool}
    (read : toBool word = .ok flag) : word = uintWord flag.toNat := by
  rw [toBool] at read
  split at read
  · cases read
  · rename_i clean
    rw [Bool.not_eq_true] at clean
    have value := wordValue_eq_last clean
    split at read
    · rename_i last
      cases read
      rw [last] at value
      exact (uintWord_wordValue word).symm.trans (congrArg uintWord value)
    · split at read
      · rename_i last
        cases read
        rw [last] at value
        exact (uintWord_wordValue word).symm.trans (congrArg uintWord value)
      · cases read

theorem toU8Enum_eq_ok_iff {word : Word} {value : UInt8} :
    toU8Enum word = .ok value ↔ wordValue word = value.toNat := by
  rw [toU8Enum]
  by_cases clean : dirty 31 word.toList = false
  · rw [wordValue_eq_last clean, clean, UInt8.toNat_inj]
    constructor
    · intro read
      cases read
      rfl
    · intro same
      exact congrArg Except.ok same
  · rw [Bool.not_eq_false] at clean
    rw [clean]
    constructor
    · intro read
      cases read
    · intro same
      have small := value.toNat_lt
      rw [(dirty_word 31).mpr (by omega)] at clean
      cases clean

theorem toU8Enum_uintWord {value : Nat} (small : value < 256) :
    toU8Enum (uintWord value) = .ok (UInt8.ofNat value) := by
  apply toU8Enum_eq_ok_iff.mpr
  rw [wordValue_uintWord (by omega)]
  exact (Nat.mod_eq_of_lt small).symm

theorem toAddress_wordFromAddress (address : Address) :
    toAddress (wordFromAddress address) = .ok address := by
  have bytes : (wordFromAddress address).toList =
      List.replicate 12 0 ++ address.toList := rfl
  have clean : dirty 12 (wordFromAddress address).toList = false := by
    rw [bytes, dirty_eq_false_iff, ofBytes_eq_zero_iff]
    simp
  rw [toAddress, clean]
  apply congrArg Except.ok
  apply List.Vector.eq
  exact List.drop_left' rfl

theorem toAddress_clean {word : Word} {address : Address}
    (read : toAddress word = .ok address) :
    ∀ byte ∈ word.toList.take 12, byte = 0 := by
  rw [toAddress] at read
  split at read
  · cases read
  · rename_i clean
    rw [Bool.not_eq_true, dirty_eq_false_iff] at clean
    exact ofBytes_eq_zero_iff.mp clean

theorem toAddress_eq_ok {word : Word} {address : Address}
    (read : toAddress word = .ok address) :
    word = wordFromAddress address := by
  have zeros := List.eq_replicate_of_mem (toAddress_clean read)
  rw [List.length_take, word.toList_length] at zeros
  have split := List.take_append_drop 12 word.toList
  rw [toAddress] at read
  split at read
  · cases read
  · cases read
    apply List.Vector.eq
    rw [← split, zeros]
    rfl

theorem wordUsize_uintWord {value : Nat} (fits : value < 2 ^ 64) :
    wordUsize (uintWord value) = some value := by
  have same := wordValue_uintWord (show value < 256 ^ 32 by omega)
  have clean : dirty 24 (uintWord value).toList = false := by
    rw [dirty_word, same]
    omega
  rw [wordUsize, clean, ofBytes_drop clean]
  exact congrArg some same

theorem wordUsize_eq_some {word : Word} {value : Nat}
    (read : wordUsize word = some value) :
    word = uintWord value ∧ value < 2 ^ 64 := by
  rw [wordUsize] at read
  split at read
  · cases read
  · rename_i clean
    rw [Bool.not_eq_true] at clean
    have fits := (dirty_word 24).mp clean
    have same : wordValue word = value := by
      rw [wordValue, ← ofBytes_drop clean]
      exact Option.some.inj read
    rw [← same]
    exact ⟨(uintWord_wordValue word).symm, by omega⟩

def JobState.fromU8 (value : UInt8) : Except AbiError JobState :=
  match value.toNat with
  | 0 => .ok .posted
  | 1 => .ok .bidding
  | 2 => .ok .assigned
  | 3 => .ok .executing
  | 4 => .ok .verifying
  | 5 => .ok .completed
  | 6 => .ok .expired
  | 7 => .ok .timeout
  | 8 => .ok .failed
  | 9 => .ok .disputed
  | _ => .error .overflow

def VerificationTier.fromU8 (value : UInt8) :
    Except AbiError VerificationTier :=
  match value.toNat with
  | 0 => .ok .commitment
  | 1 => .ok .zkProof
  | 2 => .ok .tee
  | _ => .error .overflow

/-- The discriminant of a state. -/
def JobState.discriminant : JobState → Nat
  | .posted => 0
  | .bidding => 1
  | .assigned => 2
  | .executing => 3
  | .verifying => 4
  | .completed => 5
  | .expired => 6
  | .timeout => 7
  | .failed => 8
  | .disputed => 9

/-- The discriminant of a tier. -/
def VerificationTier.discriminant : VerificationTier → Nat
  | .commitment => 0
  | .zkProof => 1
  | .tee => 2

theorem JobState.fromU8_eq_ok_iff {value : UInt8} {state : JobState} :
    JobState.fromU8 value = .ok state ↔ value.toNat = state.discriminant := by
  rw [JobState.fromU8]
  constructor
  · intro read
    split at read <;> cases read <;> assumption
  · intro same
    rw [same]
    cases state <;> rfl

theorem VerificationTier.fromU8_eq_ok_iff {value : UInt8}
    {tier : VerificationTier} :
    VerificationTier.fromU8 value = .ok tier ↔
      value.toNat = tier.discriminant := by
  rw [VerificationTier.fromU8]
  constructor
  · intro read
    split at read <;> cases read <;> assumption
  · intro same
    rw [same]
    cases tier <;> rfl

theorem JobState.discriminant_lt (state : JobState) :
    state.discriminant < 10 := by
  cases state <;> decide

theorem VerificationTier.discriminant_lt (tier : VerificationTier) :
    tier.discriminant < 3 := by
  cases tier <;> decide

/-- A reader of ABI return data. -/
abbrev Decoder := Reader AbiError UInt8

namespace Decoder

/-- The next raw 32-byte word. -/
def word : Decoder Word := fun cursor =>
  let stop := cursor.offset + 32
  if inside : stop ≤ cursor.data.length then
    .ok (⟨(cursor.data.drop cursor.offset).take 32, by
      rw [List.length_take, List.length_drop]
      omega⟩, { cursor with offset := stop })
  else
    .error (.tooShort ((stop + 31) / 32) (cursor.data.length / 32))

/-- The next word, checked. -/
def checked {α : Type} (check : Word → Except AbiError α) : Decoder α := do
  let next ← word
  check next

def u128 : Decoder Nat := checked toU128

/-- A `uint256` as a full word. -/
def u256Word : Decoder Word := word

def bool : Decoder Bool := checked toBool

def address : Decoder Address := checked toAddress

def u8Enum : Decoder UInt8 := checked toU8Enum

theorem word_yields (next : Word) : Yields word next.toList (.ok next) := by
  intro cursor rest ahead
  have width : next.toList.length = 32 := next.toList_length
  have inside := ahead.fits (by omega)
  rw [width] at inside ⊢
  have head : (cursor.data.drop cursor.offset).take 32 = next.toList := by
    rw [ahead, List.take_left' width]
  simp only [word, StateT.run, inside, dite_true, head]
  rfl

theorem checked_yields {α : Type} (check : Word → Except AbiError α)
    (next : Word) : Yields (checked check) next.toList (check next) := by
  have read := (word_yields next).bind fun value => Yields.lift (check value)
  rw [List.append_nil] at read
  exact read

theorem u128_yields {value : Nat} (fits : value < 2 ^ 128) :
    Yields u128 (uintWord value).toList (.ok value) := by
  rw [← toU128_uintWord fits]
  exact checked_yields toU128 (uintWord value)

theorem bool_yields (flag : Bool) :
    Yields bool (uintWord flag.toNat).toList (.ok flag) := by
  rw [← toBool_uintWord flag]
  exact checked_yields toBool (uintWord flag.toNat)

end Decoder

/-- The return of `getProvider(address)`. -/
def ProviderProfile.decode (data : Bytes) : Except AbiError ProviderProfile :=
  let decoder : Decoder ProviderProfile := do
    let isRegistered ← Decoder.bool
    let stakeWei ← Decoder.u128
    let totalJobsCompleted ← Decoder.u128
    let totalJobsFailed ← Decoder.u128
    let reputationScoreBps ← Decoder.u128
    let currentActiveJobs ← Decoder.u128
    let maxConcurrentJobs ← Decoder.u128
    pure {
      isRegistered, stakeWei, totalJobsCompleted, totalJobsFailed
      reputationScoreBps, currentActiveJobs, maxConcurrentJobs }
  decoder.run' ⟨data, 0⟩

/-- Addition of two `usize` values, `none` on overflow. -/
def checkedAdd (left right : Nat) : Option Nat :=
  if left + right ≤ FixedWidth.maxValue 64 then some (left + right) else none

/-- The word at a range of the data, if the range is inside and a word long. -/
def wordAt (data : Bytes) (start stop : Nat) : Option Word :=
  if start ≤ stop ∧ stop ≤ data.length then
    let bytes := (data.drop start).take (stop - start)
    if width : bytes.length = 32 then some ⟨bytes, width⟩ else none
  else none

open SolidityAbi in
theorem wordAt_eq_some_iff {data : Bytes} {start : Nat} {word : Word} :
    wordAt data start (start + 32) = some word ↔
      Found data start word.toList := by
  rw [wordAt, Nat.add_sub_cancel_left]
  constructor
  · intro read
    split at read
    · rename_i inside
      dsimp only at read
      split at read
      · have content := congrArg List.Vector.toList (Option.some.inj read)
        apply Found.of_drop
        · rw [word.toList_length]
          exact inside.2
        · rw [word.toList_length]
          exact content
      · cases read
    · cases read
  · intro found
    have inside := found.fits
    have content := found.drop
    rw [word.toList_length] at inside content
    rw [if_pos ⟨Nat.le_add_right start 32, inside⟩]
    simp only [content, word.toList_length, dite_true]
    rfl

/-- The 32-byte `inputHash` from the tail of the job tuple; `none` on any
other length and on a malformed tail. -/
def decodeInputHash (data : Bytes) (tupleOffset relOffset : Word) :
    Option Word := do
  let lenAt ← checkedAdd (← wordUsize tupleOffset) (← wordUsize relOffset)
  let lenEnd ← checkedAdd lenAt 32
  let lenWord ← wordAt data lenAt lenEnd
  if (← wordUsize lenWord) ≠ 32 then none
  else wordAt data lenEnd (← checkedAdd lenEnd 32)

/-- The return of `getJob(uint256)`. -/
def Job.decode (data : Bytes) : Except AbiError Job :=
  let decoder : Decoder Job := do
    -- The head of the tuple follows its offset word in the standard layout.
    let tupleOffset ← Decoder.word
    let id ← Decoder.u128
    let requester ← Decoder.address
    let modelHash ← Decoder.u256Word
    let inputHashOffset ← Decoder.word
    let maxPriceWei ← Decoder.u128
    let tier ← VerificationTier.fromU8 (← Decoder.u8Enum)
    let state ← JobState.fromU8 (← Decoder.u8Enum)
    let assignedProvider ← Decoder.address
    let escrowWei ← Decoder.u128
    let bidDeadlineBlock ← Decoder.u128
    let executionDeadlineBlock ← Decoder.u128
    let createdAtBlock ← Decoder.u128
    let bidCount ← Decoder.u128
    pure {
      id, requester, modelHash, maxPriceWei, tier, state, assignedProvider
      escrowWei, bidDeadlineBlock, executionDeadlineBlock, createdAtBlock
      bidCount
      inputHash := decodeInputHash data tupleOffset inputHashOffset }
  decoder.run' ⟨data, 0⟩

def decodeSaltPerPflopHour (data : Bytes) : Except AbiError Nat :=
  Decoder.u128.run' ⟨data, 0⟩

def decodeIsPriceStale (data : Bytes) : Except AbiError Bool :=
  Decoder.bool.run' ⟨data, 0⟩

end NodeAgent.Chainio
