import NodeAgent.Library.BigEndian

/-!
# Base 32

The unpadded encoding of RFC 4648: the bytes are one string of bits, zero bits
are added on the right until it divides into groups of five, and each group is
a digit.  A string of bits is written as the number that it spells.
-/

namespace Base32

open BigEndian

/-- The number that a list of digits spells, most significant digit first. -/
def value (digits : List Nat) : Nat := Nat.ofDigits 32 digits.reverse

/-- The low `width` digits of a number. -/
def digits : Nat → Nat → List Nat
  | 0, _ => []
  | width + 1, number => digits width (number / 32) ++ [number % 32]

/-- The number of groups of five for a byte string of this length. -/
def groups (length : Nat) : Nat := (8 * length + 4) / 5

/-- The number of bits that are added. -/
def padBits (length : Nat) : Nat := 5 * groups length - 8 * length

def encode (bytes : List UInt8) : List Nat :=
  digits (groups bytes.length) (ofBytes bytes * 2 ^ padBits bytes.length)

theorem padBits_lt (length : Nat) : padBits length < 5 := by
  rw [padBits, groups]
  omega

theorem groups_eq (length : Nat) :
    5 * groups length = 8 * length + padBits length := by
  rw [padBits, groups]
  omega

@[simp] theorem length_digits (width number : Nat) :
    (digits width number).length = width := by
  induction width generalizing number with
  | zero => rfl
  | succ width ih => simp [digits, ih]

theorem digits_lt (width number : Nat) :
    ∀ digit ∈ digits width number, digit < 32 := by
  induction width generalizing number with
  | zero => nofun
  | succ width ih =>
      rw [digits, List.forall_mem_append, List.forall_mem_singleton]
      exact ⟨ih _, Nat.mod_lt _ (by omega)⟩

@[simp] theorem value_nil : value [] = 0 := rfl

theorem value_append_singleton (digits : List Nat) (digit : Nat) :
    value (digits ++ [digit]) = digit + 32 * value digits := by
  rw [value, List.reverse_append, List.reverse_singleton,
    List.singleton_append, Nat.ofDigits_cons]
  rfl

theorem value_cons (digit : Nat) (digits : List Nat) :
    value (digit :: digits) = digit * 32 ^ digits.length + value digits := by
  rw [value, List.reverse_cons, Nat.ofDigits_append, List.length_reverse,
    Nat.ofDigits_singleton, Nat.add_comm, Nat.mul_comm]
  rfl

theorem value_digits {width number : Nat} (fits : number < 32 ^ width) :
    value (digits width number) = number := by
  induction width generalizing number with
  | zero =>
      rw [pow_zero] at fits
      have : number = 0 := by omega
      rw [this]
      rfl
  | succ width ih =>
      have quotientFits : number / 32 < 32 ^ width := by
        apply Nat.div_lt_of_lt_mul
        rw [← pow_succ']
        exact fits
      rw [digits, value_append_singleton, ih quotientFits]
      exact Nat.mod_add_div number 32

theorem eq_of_value_eq {first second : List Nat}
    (width : first.length = second.length)
    (firstDigits : ∀ digit ∈ first, digit < 32)
    (secondDigits : ∀ digit ∈ second, digit < 32)
    (same : value first = value second) : first = second := by
  apply List.reverse_inj.mp
  apply Nat.ofDigits_inj_of_len_eq (show 1 < 32 by decide)
  · rw [List.length_reverse, List.length_reverse, width]
  · simpa using firstDigits
  · simpa using secondDigits
  · exact same

/-- A list of digits spells the bytes, followed by fewer than five zero
bits. -/
structure Spells (digits : List Nat) (bytes : List UInt8) (padding : Nat) :
    Prop where
  short : padding < 5
  bits : 5 * digits.length = 8 * bytes.length + padding
  same : value digits = ofBytes bytes * 2 ^ padding

theorem two_pow_eight_mul (count : Nat) : 2 ^ (8 * count) = 256 ^ count :=
  pow_mul 2 8 count

theorem two_pow_five_mul (count : Nat) : 2 ^ (5 * count) = 32 ^ count :=
  pow_mul 2 5 count

theorem encode_lt (bytes : List UInt8) : ∀ digit ∈ encode bytes, digit < 32 :=
  digits_lt _ _

theorem encode_fits (bytes : List UInt8) :
    ofBytes bytes * 2 ^ padBits bytes.length < 32 ^ groups bytes.length := by
  rw [← two_pow_five_mul, groups_eq, pow_add, two_pow_eight_mul]
  exact Nat.mul_lt_mul_of_pos_right (ofBytes_lt bytes) (Nat.two_pow_pos _)

theorem spells_encode (bytes : List UInt8) :
    Spells (encode bytes) bytes (padBits bytes.length) where
  short := padBits_lt _
  bits := by rw [encode, length_digits, groups_eq]
  same := value_digits (encode_fits bytes)

theorem eq_encode_iff {digits : List Nat} {bytes : List UInt8}
    (small : ∀ digit ∈ digits, digit < 32) :
    digits = encode bytes ↔ ∃ padding, Spells digits bytes padding := by
  constructor
  · intro same
    subst same
    exact ⟨_, spells_encode bytes⟩
  · intro spelled
    obtain ⟨padding, spells⟩ := spelled
    have encoded := spells_encode bytes
    have short := spells.short
    have bits := spells.bits
    have encodedShort := encoded.short
    have encodedBits := encoded.bits
    have samePadding : padding = padBits bytes.length := by omega
    apply eq_of_value_eq (by omega) small (encode_lt bytes)
    rw [spells.same, encoded.same, samePadding]

/-- The vectors of the RFC, as digits. -/
example : encode [0x66, 0x6f, 0x6f] = [12, 25, 23, 22, 30] := by decide

end Base32
