import Mathlib.Algebra.Group.Nat.Defs
import Mathlib.Order.Basic
import Mathlib.Order.MinMax

/-!
# Fixed-width arithmetic on natural numbers

The overflow behaviour of unsigned machine integers of a given width, stated
on natural numbers.
-/

namespace FixedWidth

/-- The largest value of a `width`-bit unsigned integer. -/
def maxValue (width : Nat) : Nat := 2 ^ width - 1

def saturatingAdd (width left right : Nat) : Nat :=
  min (left + right) (maxValue width)

def saturatingMul (width left right : Nat) : Nat :=
  min (left * right) (maxValue width)

/-- A cast to a narrower width keeps the low bits. -/
def narrow (width value : Nat) : Nat := value % 2 ^ width

theorem add_le_of_saturatingAdd_le {width left right bound : Nat}
    (below : bound < maxValue width)
    (bounded : saturatingAdd width left right ≤ bound) :
    left + right ≤ bound := by
  rcases min_le_iff.mp bounded with sum | saturated
  · exact sum
  · exact absurd saturated (not_le.mpr below)

theorem saturatingMul_of_fits {width left right : Nat}
    (fits : left * right ≤ maxValue width) :
    saturatingMul width left right = left * right :=
  min_eq_left fits

theorem saturatingMul_of_overflow {width left right : Nat}
    (overflow : maxValue width ≤ left * right) :
    saturatingMul width left right = maxValue width :=
  min_eq_right overflow

theorem saturatingMul_le (width left right : Nat) :
    saturatingMul width left right ≤ left * right :=
  min_le_left _ _

theorem narrow_le (width value : Nat) : narrow width value ≤ value :=
  Nat.mod_le _ _

theorem narrow_of_fits {width value : Nat} (fits : value < 2 ^ width) :
    narrow width value = value :=
  Nat.mod_eq_of_lt fits

theorem narrow_lt (width value : Nat) : narrow width value < 2 ^ width :=
  Nat.mod_lt _ (Nat.two_pow_pos width)

/-- Exactly the values that fit survive a narrowing cast. -/
theorem narrow_eq_iff {width value : Nat} :
    narrow width value = value ↔ value < 2 ^ width := by
  constructor
  · intro same
    rw [← same]
    exact narrow_lt width value
  · exact narrow_of_fits

end FixedWidth
