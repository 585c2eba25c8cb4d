import Mathlib.Algebra.BigOperators.Ring.Finset
import Mathlib.Algebra.Order.BigOperators.Group.Finset

/-!
Many hands keep one tally. Each takes up jobs, which are lists of marks, and makes
the marks of a job one at a time; in between, the others do what they like, and a
hand may drop what is left of its job. No mark gets lost or is made twice; and
what holds of two kinds of marks in each part of a job holds of the whole tally,
but for as many jobs as are under way or have been dropped.
-/

namespace Tally
universe u v
variable {ι : Type u} {κ : Type v}

/-- The marks of all jobs, those made and those dropped; for each hand those that
it has made of its job and those that are left; and how many jobs were dropped. -/
structure State (ι : Type u) (κ : Type v) where
  asked : List κ
  done : List κ
  lost : List κ
  drops : Nat
  made : ι → List κ
  left : ι → List κ

inductive Act (ι : Type u) (κ : Type v) where
  | take (i : ι) (job : List κ)
  | mark (i : ι)
  | drop (i : ι)

def start : State ι κ := ⟨[], [], [], 0, fun _ => [], fun _ => []⟩

/-- The jobs that are taken up are of a kind. -/
def Takes (J : List κ → Prop) : Act ι κ → Prop
  | .take _ job => J job
  | .mark _ => True
  | .drop _ => True

/-- Every hand is at some place of a job. -/
structure Working (J : List κ → Prop) (s : State ι κ) : Prop where
  job : ∀ i, s.made i = [] ∧ s.left i = [] ∨ J (s.made i ++ s.left i)

variable {J : List κ → Prop} {s : State ι κ} {a : Act ι κ}

theorem working_start : Working J (start : State ι κ) := ⟨fun _ => .inl ⟨rfl, rfl⟩⟩

/-- Marks of the kind `p` are few in what can be left of a job. -/
def Few (J : List κ → Prop) (p : κ → Bool) (c : Nat) : Prop :=
  ∀ first rest, J (first ++ rest) → rest.countP p ≤ c

/-- What is lost is what was left of the jobs that were dropped. -/
def Lost (p : κ → Bool) (c : Nat) (s : State ι κ) : Prop := s.lost.countP p ≤ c * s.drops

theorem lost_start (p : κ → Bool) (c : Nat) : Lost p c (start : State ι κ) := by
  simp [Lost, start]

theorem Working.left_le (h : Working J s) {p : κ → Bool} {c : Nat} (hfew : Few J p c) (i : ι) :
    (s.left i).countP p ≤ c := by
  cases h.job i with
  | inl hnone => simp [hnone.2]
  | inr hjob => exact hfew _ _ hjob

section Sums
variable [Fintype ι]

/-- Marks are made, lost, or left to be made. -/
def Balanced (s : State ι κ) : Prop :=
  ∀ p : κ → Bool, s.asked.countP p =
    s.done.countP p + s.lost.countP p + ∑ i, (s.left i).countP p

theorem balanced_start : Balanced (start : State ι κ) := by
  intro p
  simp [start]

/-- What was asked for is done, but for what is under way or was dropped. -/
theorem Balanced.asked_le (h : Balanced s) (hworking : Working J s) {p : κ → Bool} {c : Nat}
    (hfew : Few J p c) (hlost : Lost p c s) :
    s.asked.countP p ≤ s.done.countP p + c * (s.drops + Fintype.card ι) := by
  have hbalance := h p
  have hleft : ∑ i, (s.left i).countP p ≤ ∑ _i : ι, c := by
    apply Finset.sum_le_sum
    intro i _
    exact hworking.left_le hfew i
  rw [Finset.sum_const_nat fun _ _ => rfl, Finset.card_univ] at hleft
  rw [Lost] at hlost
  rw [Nat.mul_add, Nat.mul_comm c (Fintype.card ι)]
  omega

/-- When every hand has finished and nothing was dropped, all is done. -/
theorem Balanced.finished (h : Balanced s) {p : κ → Bool} {c : Nat} (hlost : Lost p c s)
    (hdrops : s.drops = 0) (hleft : ∀ i, s.left i = []) :
    s.done.countP p = s.asked.countP p := by
  have hbalance := h p
  rw [Lost, hdrops, Nat.mul_zero] at hlost
  simp only [hleft, List.countP_nil, Finset.sum_const_zero, Nat.add_zero] at hbalance
  omega

/-- Marks of the kind `q` in a job are no more than those of the kind `p`, and in
the first part of a job, no more than `c` more. -/
structure Covers (J : List κ → Prop) (p q : κ → Bool) (c : Nat) : Prop where
  whole : ∀ job, J job → job.countP q ≤ job.countP p
  part : ∀ first rest, J (first ++ rest) → first.countP q ≤ first.countP p + c

/-- Not counting what is under way, the tally is as the jobs are. -/
def Covered (p q : κ → Bool) (c : Nat) (s : State ι κ) : Prop :=
  s.done.countP q + ∑ i, (s.made i).countP p ≤
    s.done.countP p + ∑ i, (s.made i).countP q + c * s.drops

variable {p q : κ → Bool} {c : Nat}

theorem covered_start : Covered p q c (start : State ι κ) := by
  simp [Covered, start]

theorem Covered.done_le (h : Covered p q c s) (hcovers : Covers J p q c)
    (hworking : Working J s) :
    s.done.countP q ≤ s.done.countP p + c * (s.drops + Fintype.card ι) := by
  have hmade : ∑ i, (s.made i).countP q ≤ ∑ i, ((s.made i).countP p + c) := by
    apply Finset.sum_le_sum
    intro i _
    cases hworking.job i with
    | inl hnone => simp [hnone.1]
    | inr hjob => exact hcovers.part _ _ hjob
  rw [Finset.sum_add_distrib, Finset.sum_const_nat fun _ _ => rfl, Finset.card_univ] at hmade
  rw [Covered] at h
  rw [Nat.mul_add, Nat.mul_comm c (Fintype.card ι)]
  omega

end Sums
section Steps
open Function
variable [DecidableEq ι]

/-- A hand that is at work takes nothing up. -/
def step (s : State ι κ) : Act ι κ → State ι κ
  | .take i job =>
      match s.left i with
      | [] => { s with
          asked := s.asked ++ job
          made := update s.made i []
          left := update s.left i job }
      | _ => s
  | .mark i =>
      match s.left i with
      | [] => s
      | k :: rest => { s with
          done := s.done ++ [k]
          made := update s.made i (s.made i ++ [k])
          left := update s.left i rest }
  | .drop i => { s with
      lost := s.lost ++ s.left i
      drops := s.drops + 1
      made := update s.made i []
      left := update s.left i [] }

theorem working_step (ha : Takes J a) (h : Working J s) : Working J (step s a) := by
  refine ⟨fun i' => ?_⟩
  cases a with
  | take i job =>
      simp only [step]
      split
      · by_cases hi : i' = i
        · subst hi
          simpa using .inr ha
        · simpa only [update_of_ne hi] using h.job i'
      · exact h.job i'
  | mark i =>
      simp only [step]
      split
      · exact h.job i'
      next k rest hleft =>
        by_cases hi : i' = i
        · subst hi
          cases h.job i' with
          | inl hnone => exact absurd (hleft.symm.trans hnone.2) (by simp)
          | inr hjob =>
              rw [hleft] at hjob
              right
              simpa using hjob
        · simpa only [update_of_ne hi] using h.job i'
  | drop i =>
      by_cases hi : i' = i
      · subst hi
        simp [step]
      · simpa only [step, update_of_ne hi] using h.job i'

theorem lost_step {p : κ → Bool} {c : Nat} (hfew : Few J p c) (hworking : Working J s)
    (a : Act ι κ) (h : Lost p c s) : Lost p c (step s a) := by
  cases a with
  | take i job =>
      simp only [step]
      split
      · exact h
      · exact h
  | mark i =>
      simp only [step]
      split
      · exact h
      · exact h
  | drop i =>
      have hleft := hworking.left_le hfew i
      simp only [Lost, step, List.countP_append, Nat.mul_add, Nat.mul_one] at h ⊢
      omega

variable [Fintype ι]

/-- What is measured over all hands changes by what changes at one. -/
theorem sum_update (f : ι → List κ) (i : ι) (l : List κ) (p : κ → Bool) :
    ∑ j, (update f i l j).countP p + (f i).countP p = ∑ j, (f j).countP p + l.countP p := by
  have hafter := Finset.add_sum_erase Finset.univ (fun j => (update f i l j).countP p)
    (Finset.mem_univ i)
  have hbefore := Finset.add_sum_erase Finset.univ (fun j => (f j).countP p) (Finset.mem_univ i)
  have hrest : ∑ j ∈ Finset.univ.erase i, (update f i l j).countP p =
      ∑ j ∈ Finset.univ.erase i, (f j).countP p := by
    apply Finset.sum_congr rfl
    intro j hj
    rw [update_of_ne (Finset.ne_of_mem_erase hj)]
  simp only [update_self] at hafter
  omega

theorem balanced_step (a : Act ι κ) (h : Balanced s) : Balanced (step s a) := by
  intro p
  have hbalance := h p
  cases a with
  | take i job =>
      simp only [step]
      split
      next hleft =>
        have hsum := sum_update s.left i job p
        rw [hleft, List.countP_nil] at hsum
        simp only [List.countP_append]
        omega
      · exact hbalance
  | mark i =>
      simp only [step]
      split
      · exact hbalance
      next k rest hleft =>
        have hsum := sum_update s.left i rest p
        rw [hleft, List.countP_cons] at hsum
        simp only [List.countP_append, List.countP_singleton]
        omega
  | drop i =>
      have hsum := sum_update s.left i [] p
      rw [List.countP_nil] at hsum
      simp only [step, List.countP_append]
      omega

variable {p q : κ → Bool} {c : Nat}

theorem covered_step (hcovers : Covers J p q c) (hworking : Working J s) (a : Act ι κ)
    (h : Covered p q c s) : Covered p q c (step s a) := by
  cases a with
  | take i job =>
      simp only [step]
      split
      next hleft =>
        have hp := sum_update s.made i [] p
        have hq := sum_update s.made i [] q
        have hwhole : (s.made i).countP q ≤ (s.made i).countP p := by
          cases hworking.job i with
          | inl hnone => simp [hnone.1]
          | inr hjob =>
              rw [hleft, List.append_nil] at hjob
              exact hcovers.whole _ hjob
        simp only [Covered, List.countP_nil] at h hp hq ⊢
        omega
      · exact h
  | mark i =>
      simp only [step]
      split
      · exact h
      next k rest hleft =>
        have hp := sum_update s.made i (s.made i ++ [k]) p
        have hq := sum_update s.made i (s.made i ++ [k]) q
        simp only [Covered, List.countP_append] at h hp hq ⊢
        omega
  | drop i =>
      have hp := sum_update s.made i [] p
      have hq := sum_update s.made i [] q
      have hpart : (s.made i).countP q ≤ (s.made i).countP p + c := by
        cases hworking.job i with
        | inl hnone => simp [hnone.1]
        | inr hjob => exact hcovers.part _ _ hjob
      simp only [Covered, step, List.countP_nil, Nat.mul_add, Nat.mul_one] at h hp hq ⊢
      omega

end Steps
end Tally
