import NodeAgent.Library.BigEndian
import NodeAgent.Library.Text

/-!
# Byte strings in hexadecimal

Hexadecimal digits spell the bytes whose number they spell, two digits to a
byte.  So a reader that takes the digits in pairs reads the bytes one by one.
-/

namespace Hex

open BigEndian Text

/-- Consecutive pairs; an odd last element is dropped. -/
def pairs {α : Type} : List α → List (α × α)
  | [] => []
  | [_] => []
  | first :: second :: rest => (first, second) :: pairs rest

@[elab_as_elim] theorem evenInduction {α : Type}
    {motive : (list : List α) → list.length % 2 = 0 → Prop}
    (nil : motive [] rfl)
    (pair : ∀ (first second : α) (rest : List α)
      (even : rest.length % 2 = 0), motive rest even →
        motive (first :: second :: rest)
          ((Nat.add_mod_right rest.length 2).trans even))
    (list : List α) (even : list.length % 2 = 0) : motive list even := by
  induction list using pairs.induct with
  | case1 => exact nil
  | case2 first => cases even
  | case3 first second rest ih =>
      have restEven : rest.length % 2 = 0 := by
        simp only [List.length_cons] at even
        omega
      exact pair first second rest restEven (ih restEven)

/-- The digits spell the bytes. -/
structure Spells (text : List Char) (bytes : List UInt8) : Prop where
  digits : Digits 16 text
  length : text.length = 2 * bytes.length
  spelled : value 16 text = ofBytes bytes

/-- The byte that two digits spell. -/
def pairByte (high low : Nat) : UInt8 := UInt8.ofNat (16 * high + low)

/-- The byte behind a pair of digits. -/
def readPair (pair : Char × Char) : Option UInt8 := do
  let high ← toDigit 16 pair.1
  let low ← toDigit 16 pair.2
  return pairByte high low

variable {text rest : List Char} {bytes : List UInt8} {high low : Char}

theorem readPair_eq_some_iff {pair : Char × Char} {byte : UInt8} :
    readPair pair = some byte ↔
      ∃ first second, toDigit 16 pair.1 = some first ∧
        toDigit 16 pair.2 = some second ∧ pairByte first second = byte := by
  rw [readPair]
  constructor
  · intro read
    obtain ⟨first, firstRead, read⟩ := Option.bind_eq_some_iff.mp read
    obtain ⟨second, secondRead, read⟩ := Option.bind_eq_some_iff.mp read
    exact ⟨first, second, firstRead, secondRead, Option.some.inj read⟩
  · intro read
    obtain ⟨first, second, firstRead, secondRead, rfl⟩ := read
    rw [firstRead, secondRead]
    rfl

theorem toNat_pairByte {first second : Nat} (firstSmall : first < 16)
    (secondSmall : second < 16) :
    (pairByte first second).toNat = 16 * first + second := by
  rw [pairByte, UInt8.toNat_ofNat']
  omega

theorem spells_nil_iff : Spells [] bytes ↔ bytes = [] := by
  constructor
  · intro spells
    apply List.eq_nil_of_length_eq_zero
    have length := spells.length
    rw [List.length_nil] at length
    omega
  · intro empty
    rw [empty]
    exact ⟨digits_nil, rfl, rfl⟩

theorem sixteen_pow (length : Nat) : 16 ^ (2 * length) = 256 ^ length := by
  rw [Nat.pow_mul]

/-- The first two digits spell the first byte. -/
theorem spells_pair_iff :
    Spells (high :: low :: rest) bytes ↔
      ∃ byte later, readPair (high, low) = some byte ∧
        bytes = byte :: later ∧ Spells rest later := by
  constructor
  · intro spells
    obtain ⟨digits, length, spelled⟩ := spells
    rw [digits_cons, digits_cons] at digits
    obtain ⟨highDigit, lowDigit, restDigits⟩ := digits
    obtain ⟨first, firstRead⟩ := Option.isSome_iff_exists.mp highDigit
    obtain ⟨second, secondRead⟩ := Option.isSome_iff_exists.mp lowDigit
    cases bytes with
    | nil => cases length
    | cons byte later =>
        simp only [List.length_cons] at length
        have restLength : rest.length = 2 * later.length := by omega
        have firstSmall := toDigit_lt firstRead
        have secondSmall := toDigit_lt secondRead
        have restSmall := value_lt restDigits
        have laterSmall := ofBytes_lt later
        rw [value_cons, value_cons, ofBytes_cons, firstRead, secondRead,
          List.length_cons, restLength, pow_succ, sixteen_pow] at spelled
        simp only [Option.getD_some] at spelled
        rw [restLength, sixteen_pow] at restSmall
        -- both sides have one quotient and one remainder by the later bytes
        have split : value 16 rest +
            256 ^ later.length * (16 * first + second) =
              ofBytes later + 256 ^ later.length * byte.toNat := by
          rw [← spelled]
          ring
        have positive : 0 < 256 ^ later.length := Nat.pow_pos (by decide)
        obtain ⟨quotient, remainder⟩ : _ / _ = byte.toNat ∧ _ % _ = _ :=
          (Nat.div_mod_unique positive).mpr ⟨rfl, laterSmall⟩
        obtain ⟨firstByte, laterValue⟩ :=
          (Nat.div_mod_unique positive).mpr ⟨split, restSmall⟩
        have readByte : pairByte first second = byte := by
          apply UInt8.toNat_inj.mp
          rw [toNat_pairByte firstSmall secondSmall, ← quotient, ← firstByte]
        exact ⟨byte, later,
          readPair_eq_some_iff.mpr
            ⟨first, second, firstRead, secondRead, readByte⟩,
          rfl, restDigits, restLength, laterValue.symm.trans remainder⟩
  · intro read
    obtain ⟨byte, later, read, rfl, spells⟩ := read
    obtain ⟨first, second, firstRead, secondRead, rfl⟩ :=
      readPair_eq_some_iff.mp read
    constructor
    · rw [digits_cons, digits_cons, firstRead, secondRead]
      exact ⟨rfl, rfl, spells.digits⟩
    · rw [List.length_cons, List.length_cons, spells.length, List.length_cons]
      omega
    · rw [value_cons, value_cons, ofBytes_cons, firstRead, secondRead,
        List.length_cons, spells.length, pow_succ, sixteen_pow,
        toNat_pairByte (toDigit_lt firstRead) (toDigit_lt secondRead),
        spells.spelled]
      simp only [Option.getD_some]
      ring

theorem spells_iff (even : text.length % 2 = 0) :
    Spells text bytes ↔ (pairs text).mapM readPair = some bytes := by
  induction text, even using evenInduction generalizing bytes with
  | nil =>
      rw [spells_nil_iff]
      constructor
      · intro empty
        rw [empty]
        rfl
      · intro read
        exact (Option.some.inj read).symm
  | pair high low rest _ ih =>
      rw [spells_pair_iff, pairs, List.mapM_cons]
      constructor
      · intro read
        obtain ⟨byte, later, read, rfl, spells⟩ := read
        rw [read, ih.mp spells]
        rfl
      · intro read
        obtain ⟨byte, first, read⟩ := Option.bind_eq_some_iff.mp read
        obtain ⟨later, rest, read⟩ := Option.bind_eq_some_iff.mp read
        exact ⟨byte, later, first, (Option.some.inj read).symm, ih.mpr rest⟩

theorem length_pairs {α : Type} (list : List α) :
    (pairs list).length = list.length / 2 := by
  induction list using pairs.induct with
  | case1 => simp [pairs]
  | case2 first => simp [pairs]
  | case3 first second rest ih =>
      simp only [pairs, List.length_cons, ih]
      omega

theorem mem_pairs {α : Type} {list : List α} (even : list.length % 2 = 0)
    {element : α} (member : element ∈ list) :
    ∃ pair ∈ pairs list, element = pair.1 ∨ element = pair.2 := by
  induction list, even using evenInduction with
  | nil => cases member
  | pair first second rest _ ih =>
      rw [pairs]
      rcases List.mem_cons.mp member with here | member
      · exact ⟨(first, second), List.mem_cons_self, .inl here⟩
      · rcases List.mem_cons.mp member with here | later
        · exact ⟨(first, second), List.mem_cons_self, .inr here⟩
        · obtain ⟨pair, inRest, half⟩ := ih later
          exact ⟨pair, List.mem_cons_of_mem _ inRest, half⟩

theorem mem_of_mem_pairs {α : Type} {list : List α} {pair : α × α}
    (member : pair ∈ pairs list) : pair.1 ∈ list ∧ pair.2 ∈ list := by
  induction list using pairs.induct with
  | case1 => cases member
  | case2 first => cases member
  | case3 first second rest ih =>
      rw [pairs] at member
      rcases List.mem_cons.mp member with rfl | later
      · simp
      · have halves := ih later
        simp [halves]

theorem isSome_mapM_iff {α β : Type} {read : α → Option β} {list : List α} :
    (list.mapM read).isSome = true ↔
      ∀ element ∈ list, (read element).isSome = true := by
  induction list with
  | nil => simp
  | cons head tail ih =>
      rw [List.mapM_cons, List.forall_mem_cons, ← ih]
      cases read head with
      | none => simp
      | some byte =>
          cases tail.mapM read with
          | none => simp
          | some bytes => simp

theorem mapM_congr {α β : Type} {first second : α → Option β}
    {list : List α} (same : ∀ element ∈ list, first element = second element) :
    list.mapM first = list.mapM second := by
  induction list with
  | nil => rfl
  | cons head tail ih =>
      obtain ⟨here, later⟩ := List.forall_mem_cons.mp same
      rw [List.mapM_cons, List.mapM_cons, here, ih later]

theorem length_of_mapM {α β : Type} {read : α → Option β} {list : List α}
    {result : List β} (reads : list.mapM read = some result) :
    result.length = list.length := by
  induction list generalizing result with
  | nil =>
      cases reads
      rfl
  | cons head tail ih =>
      rw [List.mapM_cons] at reads
      obtain ⟨first, _, reads⟩ := Option.bind_eq_some_iff.mp reads
      obtain ⟨later, tailReads, reads⟩ := Option.bind_eq_some_iff.mp reads
      cases reads
      rw [List.length_cons, List.length_cons, ih tailReads]

end Hex
