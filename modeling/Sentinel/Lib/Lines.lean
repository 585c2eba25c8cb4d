import Mathlib.Data.List.TakeWhile

/-!
Lists read as records that a separator ends, and as fields that a separator
stands between. Both directions of the reading are here: what a scan for the
separator returns, and that joining undoes splitting.
-/

namespace Lines
universe u
variable {α : Type u} (sep : α)

/-- Records written out, each with its separator. -/
def join (ls : List (List α)) : List α := ls.flatMap fun l => l ++ [sep]

@[simp] theorem join_nil : join sep [] = [] := rfl

@[simp] theorem join_cons (l : List α) (ls : List (List α)) :
    join sep (l :: ls) = l ++ sep :: join sep ls := by
  simp [join]

variable [DecidableEq α]

/-- A scan for the separator: what stands before it, and what is left from it
on, `[]` when there is none. -/
def field (s : List α) : List α × List α :=
  (s.takeWhile fun a => a ≠ sep, s.dropWhile fun a => a ≠ sep)

theorem field_of_not_mem {s : List α} (h : sep ∉ s) : field sep s = (s, []) := by
  have hne : ∀ a ∈ s, a ≠ sep := by
    rintro a ha rfl
    exact h ha
  simp only [field, Prod.mk.injEq, List.takeWhile_eq_self_iff, List.dropWhile_eq_nil_iff,
    decide_eq_true_eq]
  exact ⟨hne, hne⟩

theorem field_append {a : List α} (h : sep ∉ a) (b : List α) :
    field sep (a ++ sep :: b) = (a, sep :: b) := by
  have hne : ∀ x ∈ a, decide (x ≠ sep) = true := by
    intro x hx
    rw [decide_eq_true_eq]
    rintro rfl
    exact h hx
  rw [field, List.takeWhile_append_of_pos hne, List.dropWhile_append_of_pos hne]
  simp

theorem exists_field {s : List α} (h : sep ∈ s) : ∃ a b, s = a ++ sep :: b ∧ sep ∉ a := by
  induction s with
  | nil => simp at h
  | cons x s ih =>
      by_cases hx : x = sep
      · exact ⟨[], s, by simp [hx], by simp⟩
      · have hs : sep ∈ s := by
          cases List.mem_cons.mp h with
          | inl heq =>
              obtain rfl := heq
              exact absurd rfl hx
          | inr hs => exact hs
        obtain ⟨a, b, rfl, ha⟩ := ih hs
        refine ⟨x :: a, b, rfl, ?_⟩
        simp only [List.mem_cons, not_or]
        exact ⟨fun h => hx h.symm, ha⟩

/-- The two outcomes of a scan. -/
theorem field_cases (s : List α) :
    (sep ∉ s ∧ field sep s = (s, [])) ∨
      ∃ a b, sep ∉ a ∧ s = a ++ sep :: b ∧ field sep s = (a, sep :: b) := by
  by_cases h : sep ∈ s
  · obtain ⟨a, b, rfl, ha⟩ := exists_field sep h
    exact .inr ⟨a, b, ha, rfl, field_append sep ha b⟩
  · exact .inl ⟨h, field_of_not_mem sep h⟩

/-- The records of a list; the last one may lack its separator. -/
def split : List α → List (List α)
  | [] => []
  | a :: s =>
      if a = sep then [] :: split s
      else
        match split s with
        | [] => [[a]]
        | l :: ls => (a :: l) :: ls

@[simp] theorem split_nil : split sep [] = [] := rfl

theorem split_append {l : List α} (h : sep ∉ l) (s : List α) :
    split sep (l ++ sep :: s) = l :: split sep s := by
  induction l with
  | nil => simp [split]
  | cons a l ih =>
      simp only [List.mem_cons, not_or] at h
      have ha : ¬ a = sep := fun he => h.1 he.symm
      simp [split, ha, ih h.2]

theorem split_of_not_mem {l : List α} (hne : l ≠ []) (h : sep ∉ l) : split sep l = [l] := by
  induction l with
  | nil => exact absurd rfl hne
  | cons a l ih =>
      simp only [List.mem_cons, not_or] at h
      have ha : ¬ a = sep := fun he => h.1 he.symm
      by_cases hl : l = []
      · simp [split, ha, hl]
      · simp [split, ha, ih hl h.2]

theorem split_join_append {ls : List (List α)} (h : ∀ l ∈ ls, sep ∉ l) (s : List α) :
    split sep (join sep ls ++ s) = ls ++ split sep s := by
  induction ls with
  | nil => rfl
  | cons l ls ih =>
      rw [join_cons, List.append_assoc, List.cons_append, split_append sep (h l (by simp)),
        ih fun m hm => h m (List.mem_cons_of_mem _ hm), List.cons_append]

theorem split_join {ls : List (List α)} (h : ∀ l ∈ ls, sep ∉ l) :
    split sep (join sep ls) = ls := by
  simpa using split_join_append sep h []

theorem append_inj {a a' b b' : List α} (ha : sep ∉ a) (ha' : sep ∉ a')
    (h : a ++ sep :: b = a' ++ sep :: b') : a = a' ∧ b = b' := by
  have hf := field_append sep ha b
  rw [h, field_append sep ha' b'] at hf
  simp only [Prod.mk.injEq, List.cons.injEq, true_and] at hf
  exact ⟨hf.1.symm, hf.2.symm⟩

/-- A record at a known place of the split gives the whole list back. -/
theorem eq_join_of_split {ls ls' : List (List α)} {l : List α} :
    ∀ {s : List α}, split sep s = ls ++ l :: ls' →
      ∃ r, s = join sep ls ++ (l ++ r) ∧ (∀ m ∈ ls, sep ∉ m) ∧ sep ∉ l ∧
        (r = [] ∨ r.head? = some sep) := by
  induction ls with
  | nil =>
      intro s hs
      rcases field_cases sep s with ⟨hn, _⟩ | ⟨a, b, ha, rfl, _⟩
      · have hne : s ≠ [] := by
          rintro rfl
          simp at hs
        rw [split_of_not_mem sep hne hn] at hs
        obtain ⟨rfl, rfl⟩ : s = l ∧ [] = ls' := by simpa using hs
        exact ⟨[], by simp, by simp, hn, .inl rfl⟩
      · rw [split_append sep ha] at hs
        obtain ⟨rfl, rfl⟩ : a = l ∧ split sep b = ls' := by simpa using hs
        exact ⟨sep :: b, by simp, by simp, ha, .inr rfl⟩
  | cons m ls ih =>
      intro s hs
      rcases field_cases sep s with ⟨hn, _⟩ | ⟨a, b, ha, rfl, _⟩
      · have hne : s ≠ [] := by
          rintro rfl
          simp at hs
        rw [split_of_not_mem sep hne hn] at hs
        simp at hs
      · rw [split_append sep ha, List.cons_append, List.cons.injEq] at hs
        obtain ⟨rfl, hs⟩ := hs
        obtain ⟨r, rfl, hls, hl, hr⟩ := ih hs
        refine ⟨r, by simp, ?_, hl, hr⟩
        simpa using ⟨ha, hls⟩

theorem split_record {l r : List α} (hne : l ≠ []) (hl : sep ∉ l)
    (hr : r = [] ∨ r.head? = some sep) : split sep (l ++ r) = l :: split sep r.tail := by
  cases hr with
  | inl heq =>
      obtain rfl := heq
      simp [split_of_not_mem sep hne hl]
  | inr hr =>
      obtain ⟨r, rfl⟩ : ∃ r', r = sep :: r' := List.head?_eq_some_iff.mp hr
      exact split_append sep hl r

theorem field_record {l r : List α} (hl : sep ∉ l) (hr : r = [] ∨ r.head? = some sep) :
    (field sep (l ++ r)).1 = l := by
  cases hr with
  | inl heq =>
      obtain rfl := heq
      simp [field_of_not_mem sep hl]
  | inr hr =>
      obtain ⟨r, rfl⟩ : ∃ r', r = sep :: r' := List.head?_eq_some_iff.mp hr
      rw [field_append sep hl]

end Lines
