import Mathlib.Algebra.Order.Group.Defs
import Mathlib.Algebra.Order.Group.MinMax
import Mathlib.Algebra.BigOperators.Group.List.Basic
import Mathlib.Algebra.Order.BigOperators.Group.List

/-!
Accumulators that stop at a cap. A term is only ever compared with the room that
is left, so that no sum beyond the cap is formed; the outcome is nevertheless
the sum of all terms, cut off once at the end.
-/

namespace Saturate
universe u
variable {α : Type u} [AddCommGroup α] [LinearOrder α]

/-- Terms that are not positive are passed over. -/
def add (cap acc term : α) : α :=
  if term ≤ 0 then acc else if term > cap - acc then cap else acc + term

/-- What a term adds to the sum. -/
def gain (term : α) : α := max 0 term

def total (terms : List α) : α := (terms.map gain).sum

@[simp] theorem total_nil : total ([] : List α) = 0 := rfl

@[simp] theorem total_cons (t : α) (ts : List α) : total (t :: ts) = gain t + total ts := rfl

theorem total_append (ts us : List α) : total (ts ++ us) = total ts + total us := by
  simp [total]

theorem gain_of_nonneg {t : α} (h : 0 ≤ t) : gain t = t := max_eq_right h

theorem gain_nonneg (t : α) : 0 ≤ gain t := le_max_left 0 t

theorem gain_mono {t u : α} (h : t ≤ u) : gain t ≤ gain u := max_le_max_left 0 h

theorem total_of_nonneg {ts : List α} (h : ∀ t ∈ ts, 0 ≤ t) : total ts = ts.sum := by
  induction ts with
  | nil => rfl
  | cons t ts ih =>
      rw [total_cons, gain_of_nonneg (h t List.mem_cons_self),
        ih fun u hu => h u (List.mem_cons_of_mem t hu), List.sum_cons]

variable [IsOrderedAddMonoid α] {cap acc : α}

theorem total_nonneg (ts : List α) : 0 ≤ total ts := by
  induction ts with
  | nil => exact le_refl 0
  | cons t ts ih => exact add_nonneg (gain_nonneg t) ih

theorem total_mono {ts us : List α} (h : List.Forall₂ (· ≤ ·) ts us) : total ts ≤ total us := by
  induction h with
  | nil => exact le_refl 0
  | cons h _ ih => exact add_le_add (gain_mono h) ih

theorem add_eq_min (hacc : acc ≤ cap) (term : α) :
    add cap acc term = min cap (acc + gain term) := by
  by_cases hterm : term ≤ 0
  · simp only [add, gain, hterm, if_true, max_eq_left, add_zero, min_eq_right hacc]
  · have hgain : gain term = term := gain_of_nonneg (le_of_lt (not_le.mp hterm))
    rw [add, if_neg hterm, hgain]
    by_cases hroom : term > cap - acc
    · rw [if_pos hroom, min_eq_left]
      exact le_of_lt (sub_lt_iff_lt_add'.mp hroom)
    · rw [if_neg hroom, min_eq_right]
      exact le_sub_iff_add_le'.mp (not_lt.mp hroom)

theorem add_le (hacc : acc ≤ cap) (term : α) : add cap acc term ≤ cap := by
  rw [add_eq_min hacc]
  exact min_le_left cap _

/-- Wherever the cap is first hit, the terms behind it leave it there. -/
theorem foldl_add (hacc : acc ≤ cap) (ts : List α) :
    ts.foldl (add cap) acc = min cap (acc + total ts) := by
  induction ts generalizing acc with
  | nil => simp only [List.foldl_nil, total_nil, add_zero, min_eq_right hacc]
  | cons t ts ih =>
      rw [List.foldl_cons, ih (add_le hacc t), add_eq_min hacc, total_cons]
      by_cases hcap : cap ≤ acc + gain t
      · have hsum : cap ≤ acc + (gain t + total ts) := by
          rw [← add_assoc]
          exact le_add_of_le_of_nonneg hcap (total_nonneg ts)
        rw [min_eq_left hcap, min_eq_left hsum, min_eq_left]
        exact le_add_of_nonneg_right (total_nonneg ts)
      · rw [min_eq_right (le_of_lt (not_le.mp hcap)), add_assoc]

/-- A term that is left out shows exactly when it is positive and the others do
not reach the cap. -/
theorem min_total_cons_eq_iff (t : α) (ts : List α) :
    min cap (total (t :: ts)) = min cap (total ts) ↔ t ≤ 0 ∨ cap ≤ total ts := by
  rw [total_cons]
  by_cases hcap : cap ≤ total ts
  · have hsum : cap ≤ gain t + total ts := hcap.trans (le_add_of_nonneg_left (gain_nonneg t))
    simp only [min_eq_left hcap, min_eq_left hsum, hcap, or_true]
  · have hlt := not_le.mp hcap
    rw [min_eq_right hlt.le]
    simp only [hcap, or_false]
    constructor
    · intro h
      by_contra hpos
      have hgain : 0 < gain t := lt_max_of_lt_right (not_le.mp hpos)
      have hmore : total ts < min cap (gain t + total ts) :=
        lt_min hlt (lt_add_of_pos_left _ hgain)
      rw [h] at hmore
      exact lt_irrefl _ hmore
    · intro h
      have hgain : gain t = 0 := max_eq_left h
      rw [hgain, zero_add, min_eq_right hlt.le]

end Saturate
