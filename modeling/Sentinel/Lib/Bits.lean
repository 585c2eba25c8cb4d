import Mathlib.Algebra.Order.Ring.Nat
import Mathlib.Tactic.Ring

/-!
Rows of bits, the highest first, and the numbers they spell. How many zeros a
row starts with is a bound on its number, and the other way round.
-/

namespace Bits

/-- The number that a row of bits spells. -/
def value : List Bool → Nat
  | [] => 0
  | b :: s => b.toNat * 2 ^ s.length + value s

/-- The length of the run of zeros in front. -/
def leadingZeros (s : List Bool) : Nat := (s.takeWhile not).length

@[simp] theorem value_nil : value [] = 0 := rfl

@[simp] theorem value_cons (b : Bool) (s : List Bool) :
    value (b :: s) = b.toNat * 2 ^ s.length + value s := rfl

theorem value_lt (s : List Bool) : value s < 2 ^ s.length := by
  induction s with
  | nil => simp
  | cons b s ih =>
      rw [value_cons, List.length_cons, Nat.pow_succ]
      cases b with
      | false =>
          simp only [Bool.toNat_false, Nat.zero_mul, Nat.zero_add]
          omega
      | true =>
          simp only [Bool.toNat_true, Nat.one_mul]
          omega

theorem value_append (s t : List Bool) : value (s ++ t) = value s * 2 ^ t.length + value t := by
  induction s with
  | nil => simp
  | cons b s ih =>
      rw [List.cons_append, value_cons, value_cons, ih, List.length_append, Nat.pow_add]
      ring

/-- A run of zeros in front leaves that many bits fewer for the number. -/
theorem le_leadingZeros_iff {s : List Bool} {k : Nat} (hk : k ≤ s.length) :
    k ≤ leadingZeros s ↔ value s < 2 ^ (s.length - k) := by
  induction s generalizing k with
  | nil =>
      obtain rfl : k = 0 := Nat.le_zero.mp hk
      simp [leadingZeros]
  | cons b s ih =>
      cases k with
      | zero =>
          simp only [Nat.zero_le, Nat.sub_zero, true_iff]
          exact value_lt (b :: s)
      | succ k =>
          rw [List.length_cons, Nat.add_sub_add_right]
          cases b with
          | false =>
              rw [show leadingZeros (false :: s) = leadingZeros s + 1 by simp [leadingZeros],
                Nat.add_le_add_iff_right, ih (by simpa using hk)]
              simp
          | true =>
              have hle : 2 ^ (s.length - k) ≤ 2 ^ s.length :=
                Nat.pow_le_pow_right (by decide) (Nat.sub_le _ _)
              have hzero : leadingZeros (true :: s) = 0 := by simp [leadingZeros]
              simp only [hzero, value_cons, Bool.toNat_true, Nat.one_mul]
              omega

end Bits
