import Mathlib.Algebra.Group.Int.Defs
import Mathlib.Algebra.Group.Nat.Defs
import Mathlib.Data.Int.Init

/-!
# Machine integers

Signed integers of a fixed width, as integers. An operation either fails when its result
does not fit, or cuts it down to the width; a result that fits is exact in both.
-/

namespace Framework

namespace MachineInts

/-- The signed integers of `bits` bits. -/
def Fits (bits : ℕ) (n : ℤ) : Prop := -2 ^ (bits - 1) ≤ n ∧ n < 2 ^ (bits - 1)

instance decidableFits (bits : ℕ) (n : ℤ) : Decidable (Fits bits n) :=
  inferInstanceAs (Decidable (_ ∧ _))

/-- The result of an operation, if it fits. -/
def checked (bits : ℕ) (n : ℤ) : Option ℤ := if Fits bits n then some n else none

/-- The remainder of a division, if its divisor is not zero. -/
def checkedMod (a b : ℤ) : Option ℤ := if b = 0 then none else some (a.tmod b)

/-- The result of an operation in two's complement. -/
def wrap (bits : ℕ) (n : ℤ) : ℤ := n.bmod (2 ^ bits)

theorem checked_of_fits {bits : ℕ} {n : ℤ} (h : Fits bits n) : checked bits n = some n := if_pos h

theorem checkedMod_of_ne {a b : ℤ} (h : b ≠ 0) : checkedMod a b = some (a.tmod b) := if_neg h

end MachineInts

end Framework
