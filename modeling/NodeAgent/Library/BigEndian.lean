import Mathlib.Data.List.Induction
import Mathlib.Data.Nat.Digits.Defs

/-!
# Big-endian byte strings

Unsigned integers as byte strings of a fixed width, most significant byte
first.  The high bytes of a string are zero exactly when its value fits the low
ones, which is the test of every narrowing read.
-/

namespace BigEndian

/-- The number that a byte string spells. -/
def ofBytes (bytes : List UInt8) : Nat :=
  Nat.ofDigits 256 (bytes.reverse.map UInt8.toNat)

/-- The low `width` bytes of a number. -/
def toBytes : Nat → Nat → List UInt8
  | 0, _ => []
  | width + 1, value => toBytes width (value / 256) ++ [UInt8.ofNat value]

/-- Some byte among the first `high` is not zero. -/
def dirty (high : Nat) (bytes : List UInt8) : Bool :=
  (bytes.take high).any (· != 0)

@[simp] theorem length_toBytes (width value : Nat) :
    (toBytes width value).length = width := by
  induction width generalizing value with
  | zero => rfl
  | succ width ih => simp [toBytes, ih]

theorem getElem_toBytes {width value index : Nat}
    (inside : index < (toBytes width value).length) :
    (toBytes width value)[index] =
      UInt8.ofNat (value / 256 ^ (width - 1 - index)) := by
  induction width generalizing value with
  | zero => cases inside
  | succ width ih =>
      rw [length_toBytes] at inside
      simp only [toBytes, List.getElem_append, length_toBytes]
      split
      · rename_i earlier
        have power : width + 1 - 1 - index = width - 1 - index + 1 := by omega
        rw [ih, Nat.div_div_eq_div_mul, power, pow_succ']
      · have last : width + 1 - 1 - index = 0 := by omega
        rw [last, pow_zero, Nat.div_one, List.getElem_singleton]

@[simp] theorem ofBytes_nil : ofBytes [] = 0 := rfl

@[simp] theorem ofBytes_singleton (byte : UInt8) :
    ofBytes [byte] = byte.toNat := by
  simp [ofBytes]

theorem ofBytes_append (high low : List UInt8) :
    ofBytes (high ++ low) = ofBytes low + 256 ^ low.length * ofBytes high := by
  simp [ofBytes, Nat.ofDigits_append]

theorem ofBytes_cons (byte : UInt8) (bytes : List UInt8) :
    ofBytes (byte :: bytes) =
      ofBytes bytes + 256 ^ bytes.length * byte.toNat := by
  rw [← List.singleton_append, ofBytes_append, ofBytes_singleton]

theorem ofBytes_lt (bytes : List UInt8) :
    ofBytes bytes < 256 ^ bytes.length := by
  have digits : ∀ digit ∈ bytes.reverse.map UInt8.toNat, digit < 256 :=
    List.forall_mem_map.mpr fun byte _ => byte.toNat_lt
  have bound := Nat.ofDigits_lt_base_pow_length (by omega) digits
  rw [List.length_map, List.length_reverse] at bound
  exact bound

/-- A number that fits a width is what its bytes spell. -/
theorem ofBytes_toBytes {width value : Nat} (fits : value < 256 ^ width) :
    ofBytes (toBytes width value) = value := by
  induction width generalizing value with
  | zero =>
      rw [pow_zero] at fits
      have : value = 0 := by omega
      rw [this]
      rfl
  | succ width ih =>
      have quotientFits : value / 256 < 256 ^ width := by
        apply Nat.div_lt_of_lt_mul
        rw [← pow_succ']
        exact fits
      have low : (UInt8.ofNat value).toNat = value % 256 := rfl
      rw [toBytes, ofBytes_append, ih quotientFits, ofBytes_singleton, low,
        List.length_singleton, pow_one]
      exact Nat.mod_add_div value 256

theorem toBytes_ofBytes (bytes : List UInt8) :
    toBytes bytes.length (ofBytes bytes) = bytes := by
  induction bytes using List.reverseRec with
  | nil => rfl
  | append_singleton bytes byte ih =>
      have small := byte.toNat_lt
      have value : ofBytes (bytes ++ [byte]) =
          byte.toNat + 256 * ofBytes bytes := by
        rw [ofBytes_append, ofBytes_singleton, List.length_singleton, pow_one]
      have quotient : (byte.toNat + 256 * ofBytes bytes) / 256 =
          ofBytes bytes := by
        omega
      have low : UInt8.ofNat (byte.toNat + 256 * ofBytes bytes) = byte := by
        apply UInt8.toNat_inj.mp
        rw [UInt8.toNat_ofNat']
        omega
      rw [List.length_append, List.length_singleton, toBytes, value, quotient,
        ih, low]

theorem eq_of_ofBytes_eq {first second : List UInt8}
    (width : first.length = second.length)
    (same : ofBytes first = ofBytes second) : first = second := by
  rw [← toBytes_ofBytes first, ← toBytes_ofBytes second, width, same]

theorem ofBytes_eq_zero_iff {bytes : List UInt8} :
    ofBytes bytes = 0 ↔ ∀ byte ∈ bytes, byte = 0 := by
  induction bytes with
  | nil => simp
  | cons byte bytes ih =>
      have split : byte :: bytes = [byte] ++ bytes := rfl
      rw [split, ofBytes_append, ofBytes_singleton, List.forall_mem_append,
        ← ih, List.forall_mem_singleton, Nat.add_eq_zero_iff, Nat.mul_eq_zero]
      have base : 256 ^ bytes.length ≠ 0 := by positivity
      have byteZero : byte.toNat = (0 : UInt8).toNat ↔ byte = 0 :=
        UInt8.toNat_inj
      rw [UInt8.toNat_zero] at byteZero
      rw [byteZero]
      constructor
      · intro zeros
        exact ⟨zeros.2.resolve_left base, zeros.1⟩
      · intro zeros
        exact ⟨zeros.2, .inr zeros.1⟩

theorem dirty_eq_false_iff {high : Nat} {bytes : List UInt8} :
    dirty high bytes = false ↔ ofBytes (bytes.take high) = 0 := by
  rw [ofBytes_eq_zero_iff, dirty, List.any_eq_false]
  simp

theorem ofBytes_drop {high : Nat} {bytes : List UInt8}
    (clean : dirty high bytes = false) :
    ofBytes (bytes.drop high) = ofBytes bytes := by
  have split := ofBytes_append (bytes.take high) (bytes.drop high)
  rw [List.take_append_drop, dirty_eq_false_iff.mp clean, Nat.mul_zero,
    Nat.add_zero] at split
  exact split.symm

theorem dirty_eq_false_iff_lt {high : Nat} {bytes : List UInt8} :
    dirty high bytes = false ↔ ofBytes bytes < 256 ^ (bytes.length - high) := by
  rw [← List.length_drop]
  constructor
  · intro clean
    rw [← ofBytes_drop clean]
    exact ofBytes_lt _
  · intro fits
    have split := ofBytes_append (bytes.take high) (bytes.drop high)
    rw [List.take_append_drop] at split
    rw [dirty_eq_false_iff]
    apply Nat.eq_zero_of_not_pos
    intro positive
    have := Nat.le_mul_of_pos_right (256 ^ (bytes.drop high).length) positive
    omega

end BigEndian
