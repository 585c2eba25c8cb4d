import Mathlib.Algebra.BigOperators.Ring.Finset
import Mathlib.Algebra.Order.BigOperators.Group.Finset
import Mathlib.Data.List.GetD
import Mathlib.Logic.Function.Basic
import Mathlib.Logic.Relation

/-!
A soft cap over counters that are read one at a time. Each owner may raise its
own counter once after reading all of them to a sum below the cap; the others
go on meanwhile, so the sum read need never have been the total. Still the total
exceeds the cap by less than the number of owners.

The argument looks at the raise whose reading started last. Every owner raised
its counter at most once since that start, as a second raise would rest on a
reading that started later still.
-/

namespace SoftCap

structure State where
  counter : Nat → Int
  /-- The values an owner has read so far, the first counters' first. -/
  reading : Nat → Option (List Int)

def init : State := ⟨fun _ => 0, fun _ => none⟩

/-- One step of `owners` owners over `n` counters. -/
inductive Step (n owners : Nat) (cap : Int) : State → State → Prop where
  | start (s : State) (u : Nat) :
      Step n owners cap s { s with reading := Function.update s.reading u (some []) }
  | read (s : State) (u : Nat) (l : List Int) (h : s.reading u = some l)
      (hl : l.length < n) :
      Step n owners cap s
        { s with reading := Function.update s.reading u (some (l ++ [s.counter l.length])) }
  | raise (s : State) (u : Nat) (l : List Int) (hu : u < owners) (h : s.reading u = some l)
      (hl : l.length = n) (hcap : l.sum < cap) :
      Step n owners cap s
        { counter := Function.update s.counter u (s.counter u + 1)
          reading := Function.update s.reading u none }
  | abandon (s : State) (u : Nat) :
      Step n owners cap s { s with reading := Function.update s.reading u none }
  | lower (s : State) (u : Nat) (v : Int) (hv : v ≤ s.counter u) :
      Step n owners cap s { s with counter := Function.update s.counter u v }

/-- Whether something at `b` came after something at `a`. -/
def late (a b : Nat) : Int := if a < b then 1 else 0

theorem late_nonneg (a b : Nat) : 0 ≤ late a b := by
  rw [late]
  split <;> omega

theorem late_le_one (a b : Nat) : late a b ≤ 1 := by
  rw [late]
  split <;> omega

theorem late_of_le {a b : Nat} (h : b ≤ a) : late a b = 0 := if_neg (Nat.not_lt.mpr h)

theorem late_of_lt {a b : Nat} (h : a < b) : late a b = 1 := if_pos h

/-- When each owner's reading started, when it last raised its counter, and of
all raises the reading that started last. -/
structure Times where
  clock : Nat
  start : Nat → Nat
  raised : Nat → Nat
  capStart : Nat
  capSeen : Nat → Int

/-- A counter exceeds what a reading saw of it by the raise made since, if the
reading started after every reading that led to a raise. -/
structure Inv (n owners : Nat) (cap : Int) (s : State) (t : Times) : Prop where
  start_lt : ∀ u, t.start u < t.clock
  raised_lt : ∀ u, t.raised u < t.clock
  cap_lt : t.capStart < t.clock
  owner : ∀ j, owners ≤ j → t.raised j ≤ t.capStart
  cap_sum : ∑ j ∈ Finset.range n, t.capSeen j < cap
  cap : ∀ j < n, s.counter j ≤ t.capSeen j + late t.capStart (t.raised j)
  own : ∀ u l, s.reading u = some l → t.raised u < t.start u
  seen : ∀ u l, s.reading u = some l → t.capStart < t.start u →
    ∀ j < l.length, s.counter j ≤ l.getD j 0 + late (t.start u) (t.raised j)

theorem sum_getD (l : List Int) : ∑ j ∈ Finset.range l.length, l.getD j 0 = l.sum := by
  induction l with
  | nil => rfl
  | cons a l ih =>
      rw [List.length_cons, Finset.sum_range_succ']
      simpa [add_comm] using ih

theorem getD_append_singleton {l : List Int} {a : Int} {j : Nat} (hj : j < (l ++ [a]).length) :
    j < l.length ∧ (l ++ [a]).getD j 0 = l.getD j 0 ∨
      j = l.length ∧ (l ++ [a]).getD j 0 = a := by
  simp only [List.length_append, List.length_singleton] at hj
  by_cases h : j < l.length
  · exact .inl ⟨h, List.getD_append l [a] 0 j h⟩
  · have he : j = l.length := by omega
    subst he
    exact .inr ⟨rfl, by simp⟩

variable {n owners : Nat} {cap : Int} {s s' : State} {t : Times}

theorem inv_init (hcap : 0 < cap) : Inv n owners cap init ⟨1, fun _ => 0, fun _ => 0, 0, fun _ => 0⟩ where
  start_lt := fun _ => Nat.zero_lt_one
  raised_lt := fun _ => Nat.zero_lt_one
  cap_lt := Nat.zero_lt_one
  owner := fun _ _ => Nat.le_refl 0
  cap_sum := by simpa using hcap
  cap := fun _ _ => by simp [init, late]
  own := fun _ _ h => by simp [init] at h
  seen := fun _ _ h => by simp [init] at h

theorem inv_start (h : Inv n owners cap s t) (u : Nat) :
    Inv n owners cap { s with reading := Function.update s.reading u (some []) }
      { t with clock := t.clock + 1, start := Function.update t.start u t.clock } where
  start_lt := by
    intro w
    by_cases hw : w = u
    · simp [hw]
    · simpa [Function.update_of_ne hw] using (h.start_lt w).trans (Nat.lt_succ_self _)
  raised_lt := fun w => (h.raised_lt w).trans (Nat.lt_succ_self _)
  cap_lt := h.cap_lt.trans (Nat.lt_succ_self _)
  owner := h.owner
  cap_sum := h.cap_sum
  cap := h.cap
  own := by
    intro w l hl
    by_cases hw : w = u
    · subst hw
      simpa using h.raised_lt w
    · simp only [Function.update_of_ne hw] at hl ⊢
      exact h.own w l hl
  seen := by
    intro w l hl hfresh j hj
    by_cases hw : w = u
    · subst hw
      simp only [Function.update_self, Option.some.injEq] at hl
      subst hl
      exact absurd hj (Nat.not_lt_zero j)
    · simp only [Function.update_of_ne hw] at hl hfresh ⊢
      exact h.seen w l hl hfresh j hj

theorem inv_read (h : Inv n owners cap s t) (u : Nat) (l : List Int)
    (hl : s.reading u = some l) :
    Inv n owners cap
      { s with reading := Function.update s.reading u (some (l ++ [s.counter l.length])) } t where
  start_lt := h.start_lt
  raised_lt := h.raised_lt
  cap_lt := h.cap_lt
  owner := h.owner
  cap_sum := h.cap_sum
  cap := h.cap
  own := by
    intro w l' hl'
    by_cases hw : w = u
    · exact hw ▸ h.own u l hl
    · simp only [Function.update_of_ne hw] at hl'
      exact h.own w l' hl'
  seen := by
    intro w l' hl' hfresh j hj
    by_cases hw : w = u
    · subst hw
      simp only [Function.update_self, Option.some.injEq] at hl'
      subst hl'
      cases getD_append_singleton hj with
      | inl hold =>
          rw [hold.2]
          exact h.seen w l hl hfresh j hold.1
      | inr hnew =>
          rw [hnew.2, hnew.1]
          exact le_add_of_nonneg_right (late_nonneg _ _)
    · simp only [Function.update_of_ne hw] at hl'
      exact h.seen w l' hl' hfresh j hj

theorem inv_abandon (h : Inv n owners cap s t) (u : Nat) :
    Inv n owners cap { s with reading := Function.update s.reading u none } t := by
  have hback : ∀ w l, Function.update s.reading u none w = some l → s.reading w = some l := by
    intro w l hl
    by_cases hw : w = u
    · simp [hw] at hl
    · simpa only [Function.update_of_ne hw] using hl
  exact ⟨h.start_lt, h.raised_lt, h.cap_lt, h.owner, h.cap_sum, h.cap,
    fun w l hl => h.own w l (hback w l hl), fun w l hl => h.seen w l (hback w l hl)⟩

theorem inv_lower (h : Inv n owners cap s t) (u : Nat) (v : Int) (hv : v ≤ s.counter u) :
    Inv n owners cap { s with counter := Function.update s.counter u v } t := by
  have hle : ∀ j, Function.update s.counter u v j ≤ s.counter j := by
    intro j
    by_cases hj : j = u
    · simpa [hj] using hv
    · simp [Function.update_of_ne hj]
  exact ⟨h.start_lt, h.raised_lt, h.cap_lt, h.owner, h.cap_sum,
    fun j hj => (hle j).trans (h.cap j hj), h.own,
    fun w l hl hfresh j hj => (hle j).trans (h.seen w l hl hfresh j hj)⟩

/-- What a raise by `u` adds is a raise since every reading that `u` had not
raised after: those of which it was not aware. -/
theorem raise_le {u a : Nat} {c : Nat → Int} (ha : t.raised u ≤ a) (hclock : a < t.clock)
    {j : Nat} (h : s.counter j ≤ c j + late a (t.raised j)) :
    Function.update s.counter u (s.counter u + 1) j ≤
      c j + late a (Function.update t.raised u t.clock j) := by
  by_cases hj : j = u
  · subst hj
    rw [late_of_le ha] at h
    simp only [Function.update_self, late_of_lt hclock]
    omega
  · simpa only [Function.update_of_ne hj] using h

theorem inv_raise (h : Inv n owners cap s t) (u : Nat) (l : List Int) (hu : u < owners)
    (hl : s.reading u = some l) (hlen : l.length = n) (hcap : l.sum < cap) :
    ∃ t', Inv n owners cap
      { counter := Function.update s.counter u (s.counter u + 1)
        reading := Function.update s.reading u none } t' := by
  have hown := h.own u l hl
  have hback : ∀ w l', Function.update s.reading u none w = some l' →
      w ≠ u ∧ s.reading w = some l' := by
    intro w l' hl'
    by_cases hw : w = u
    · simp [hw] at hl'
    · exact ⟨hw, by simpa only [Function.update_of_ne hw] using hl'⟩
  have hraised_lt : ∀ w, Function.update t.raised u t.clock w < t.clock + 1 := by
    intro w
    by_cases hw : w = u
    · simp [hw]
    · simpa only [Function.update_of_ne hw] using (h.raised_lt w).trans (Nat.lt_succ_self _)
  have howner : ∀ a j, t.capStart ≤ a → owners ≤ j →
      Function.update t.raised u t.clock j ≤ a := by
    intro a j ha hj
    have hne : j ≠ u := by omega
    simpa only [Function.update_of_ne hne] using (h.owner j hj).trans ha
  by_cases hlast : t.capStart < t.start u
  · -- the reading of `u` is now the last of those that led to a raise
    refine ⟨⟨t.clock + 1, t.start, Function.update t.raised u t.clock, t.start u,
      fun j => l.getD j 0⟩, ?_⟩
    constructor
    · exact fun w => (h.start_lt w).trans (Nat.lt_succ_self _)
    · exact hraised_lt
    · exact (h.start_lt u).trans (Nat.lt_succ_self _)
    · exact fun j => howner _ j (Nat.le_of_lt hlast)
    · rw [← hlen, sum_getD]
      exact hcap
    · intro j hj
      exact raise_le (Nat.le_of_lt hown) (h.start_lt u) (c := fun j => l.getD j 0)
        (h.seen u l hl hlast j (hlen ▸ hj))
    · intro w l' hl'
      obtain ⟨hw, hl'⟩ := hback w l' hl'
      simpa only [Function.update_of_ne hw] using h.own w l' hl'
    · intro w l' hl' hfresh j hj
      obtain ⟨hw, hl'⟩ := hback w l' hl'
      exact raise_le (hown.le.trans (Nat.le_of_lt hfresh)) (h.start_lt w)
        (c := fun j => l'.getD j 0) (h.seen w l' hl' (hlast.trans hfresh) j hj)
  · have hle : t.start u ≤ t.capStart := Nat.not_lt.mp hlast
    refine ⟨⟨t.clock + 1, t.start, Function.update t.raised u t.clock, t.capStart,
      t.capSeen⟩, ?_⟩
    constructor
    · exact fun w => (h.start_lt w).trans (Nat.lt_succ_self _)
    · exact hraised_lt
    · exact h.cap_lt.trans (Nat.lt_succ_self _)
    · exact fun j => howner _ j (Nat.le_refl _)
    · exact h.cap_sum
    · intro j hj
      exact raise_le (hown.le.trans hle) h.cap_lt (h.cap j hj)
    · intro w l' hl'
      obtain ⟨hw, hl'⟩ := hback w l' hl'
      simpa only [Function.update_of_ne hw] using h.own w l' hl'
    · intro w l' hl' hfresh j hj
      obtain ⟨hw, hl'⟩ := hback w l' hl'
      exact raise_le (hown.le.trans (hle.trans (Nat.le_of_lt hfresh))) (h.start_lt w)
        (c := fun j => l'.getD j 0) (h.seen w l' hl' hfresh j hj)

theorem inv_step (h : ∃ t, Inv n owners cap s t) (hstep : Step n owners cap s s') :
    ∃ t, Inv n owners cap s' t := by
  obtain ⟨t, h⟩ := h
  cases hstep with
  | start u => exact ⟨_, inv_start h u⟩
  | read u l hl _ => exact ⟨t, inv_read h u l hl⟩
  | raise u l hu hl hlen hcap => exact inv_raise h u l hu hl hlen hcap
  | abandon u => exact ⟨t, inv_abandon h u⟩
  | lower u v hv => exact ⟨t, inv_lower h u v hv⟩

/-- The total of the counters in a state that the invariant holds of. -/
theorem total_le_of_inv (h : Inv n owners cap s t) :
    ∑ j ∈ Finset.range n, s.counter j ≤ cap - 1 + owners := by
  have hlate : ∀ j ∈ Finset.range n,
      late t.capStart (t.raised j) ≤ if j < owners then 1 else 0 := by
    intro j _
    by_cases hj : j < owners
    · simpa [hj] using late_le_one _ _
    · simp [hj, late_of_le (h.owner j (Nat.not_lt.mp hj))]
  have hcount : ∑ j ∈ Finset.range n, (if j < owners then (1 : Int) else 0) ≤ owners := by
    rw [Finset.sum_boole]
    have hsub : (Finset.range n).filter (· < owners) ⊆ Finset.range owners := by
      intro j hj
      exact Finset.mem_range.mpr (Finset.mem_filter.mp hj).2
    have hcard := Finset.card_le_card hsub
    rw [Finset.card_range] at hcard
    exact_mod_cast hcard
  calc ∑ j ∈ Finset.range n, s.counter j
      ≤ ∑ j ∈ Finset.range n, (t.capSeen j + late t.capStart (t.raised j)) :=
        Finset.sum_le_sum fun j hj => h.cap j (Finset.mem_range.mp hj)
    _ = ∑ j ∈ Finset.range n, t.capSeen j +
          ∑ j ∈ Finset.range n, late t.capStart (t.raised j) := Finset.sum_add_distrib
    _ ≤ cap - 1 + owners := by
        have := Finset.sum_le_sum hlate
        have := h.cap_sum
        omega

theorem total_le (hcap : 0 < cap) (h : Relation.ReflTransGen (Step n owners cap) init s) :
    ∑ j ∈ Finset.range n, s.counter j ≤ cap - 1 + owners := by
  have hinv : ∃ t, Inv n owners cap s t := by
    induction h with
    | refl => exact ⟨_, inv_init hcap⟩
    | tail _ hstep ih => exact inv_step ih hstep
  obtain ⟨t, ht⟩ := hinv
  exact total_le_of_inv ht

end SoftCap
