import Mathlib.Algebra.Ring.Int.Defs
import Mathlib.Data.Int.Order.Basic

/-!
Signed machine arithmetic of any width in which an operation whose result does
not fit yields nothing. A computation that yields something has not overflowed
anywhere.
-/

namespace Checked

def Fits (bits : Nat) (x : Int) : Prop := -(2 ^ (bits - 1)) ≤ x ∧ x < 2 ^ (bits - 1)

instance decidableFits (bits : Nat) (x : Int) : Decidable (Fits bits x) :=
  inferInstanceAs (Decidable (_ ∧ _))

variable (bits : Nat)

def ofInt (x : Int) : Option Int := if Fits bits x then some x else none

def add (x y : Int) : Option Int := ofInt bits (x + y)

def sub (x y : Int) : Option Int := ofInt bits (x - y)

def mul (x y : Int) : Option Int := ofInt bits (x * y)

/-- Division that truncates; by zero it yields nothing. -/
def div (x y : Int) : Option Int := if y = 0 then none else ofInt bits (x.tdiv y)

variable {bits} {x y : Int}

theorem ofInt_eq_some (h : Fits bits x) : ofInt bits x = some x := if_pos h

/-- What fits is an interval. -/
theorem Fits.of_between {lo hi : Int} (hlo : Fits bits lo) (hhi : Fits bits hi) (h : lo ≤ x)
    (h' : x ≤ hi) : Fits bits x :=
  ⟨Int.le_trans hlo.1 h, Int.lt_of_le_of_lt h' hhi.2⟩

theorem add_eq_some (h : Fits bits (x + y)) : add bits x y = some (x + y) := ofInt_eq_some h

theorem sub_eq_some (h : Fits bits (x - y)) : sub bits x y = some (x - y) := ofInt_eq_some h

theorem mul_eq_some (h : Fits bits (x * y)) : mul bits x y = some (x * y) := ofInt_eq_some h

/-- For a dividend that is not negative, truncation is rounding down. -/
theorem div_eq_some (hx : 0 ≤ x) (hy : y ≠ 0) (h : Fits bits (x / y)) :
    div bits x y = some (x / y) := by
  rw [div, if_neg hy, Int.tdiv_eq_ediv_of_nonneg hx]
  exact ofInt_eq_some h

end Checked
