import Mathlib.Data.List.TakeWhile
import Mathlib.Data.List.Count

/-!
A walk that takes members from the front of a list while they pass a test. How
far it gets is compared with how many members pass in all: the two differ exactly
when a member that fails stands before one that passes.
-/

namespace FrontRun
universe u
variable {α : Type u} {p : α → Bool}

/-- How many members a walk of at most `bound` steps takes. -/
def taken (p : α → Bool) (bound : Nat) (l : List α) : Nat := min bound (l.takeWhile p).length

theorem le_run_iff {l : List α} {k : Nat} (hk : k ≤ l.length) :
    k ≤ (l.takeWhile p).length ↔ ∀ a ∈ l.take k, p a = true := by
  induction l generalizing k with
  | nil =>
      obtain rfl : k = 0 := Nat.le_zero.mp hk
      simp
  | cons a l ih =>
      cases k with
      | zero => simp
      | succ k =>
          have hk' : k ≤ l.length := Nat.le_of_succ_le_succ hk
          rw [List.take_succ_cons, List.forall_mem_cons, List.takeWhile_cons]
          by_cases ha : p a = true
          · rw [if_pos ha, List.length_cons, Nat.add_le_add_iff_right, ih hk']
            simp [ha]
          · simp [ha]

theorem run_le_count (l : List α) : (l.takeWhile p).length ≤ l.countP p := by
  calc (l.takeWhile p).length = (l.takeWhile p).countP p := by
        rw [eq_comm, List.countP_eq_length]
        exact fun a ha => List.mem_takeWhile_imp ha
    _ ≤ l.countP p := (List.takeWhile_prefix p).sublist.countP_le

/-- The walk gets as far as it could when no failing member is in its way. -/
theorem taken_eq_iff {l : List α} {bound : Nat} :
    taken p bound l = min bound (l.countP p) ↔
      ∀ a ∈ l.take (min bound (l.countP p)), p a = true := by
  have hcount : min bound (l.countP p) ≤ l.length :=
    (Nat.min_le_right _ _).trans List.countP_le_length
  have hle : (l.takeWhile p).length ≤ l.countP p := run_le_count l
  rw [← le_run_iff hcount, taken]
  omega

/-- A test that passes on every member before one that passes is a run. -/
theorem count_eq_run {l : List α} (h : l.Pairwise fun a b => p b = true → p a = true) :
    l.countP p = (l.takeWhile p).length := by
  induction l with
  | nil => rfl
  | cons a l ih =>
      obtain ⟨ha, hl⟩ := List.pairwise_cons.mp h
      rw [List.countP_cons, List.takeWhile_cons]
      by_cases hp : p a = true
      · simp [hp, ih hl]
      · have hzero : l.countP p = 0 := by
          rw [List.countP_eq_zero]
          exact fun b hb hpb => hp (ha b hb hpb)
        simp [hp, hzero]

end FrontRun
