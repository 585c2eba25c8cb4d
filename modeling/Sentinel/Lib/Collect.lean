import Mathlib.Data.List.Basic

/-!
Walks over a three-way tree that has up to two entries at a node, and collecting
the first of each kind. A walk is one over the list of entries in its order, so
what is known of lists is known of walks.
-/

namespace Collect
universe u v
variable {α : Type u} {β : Type v}

inductive Ternary (α : Type u) where
  | nil
  | node (exact inclusive : Option α) (left tree right : Ternary α)

section Walks

/-- The entries in the order of a walk. -/
def Ternary.entries : Ternary α → List α
  | .nil => []
  | .node exact inclusive left tree right =>
      exact.toList ++ (inclusive.toList ++ (left.entries ++ (tree.entries ++ right.entries)))

/-- A walk that hands every entry to `f`. -/
def Ternary.fold (f : β → α → β) : Ternary α → β → β
  | .nil, b => b
  | .node exact inclusive left tree right, b =>
      let b := match exact with
        | some a => f b a
        | none => b
      let b := match inclusive with
        | some a => f b a
        | none => b
      right.fold f (tree.fold f (left.fold f b))

/-- A walk that ends at the first entry that passes. -/
def Ternary.search (p : α → Bool) : Ternary α → Option α
  | .nil => none
  | .node exact inclusive left tree right =>
      match exact.filter p with
      | some a => some a
      | none =>
          match inclusive.filter p with
          | some a => some a
          | none =>
              match left.search p with
              | some a => some a
              | none =>
                  match tree.search p with
                  | some a => some a
                  | none => right.search p

theorem fold_eq (f : β → α → β) (t : Ternary α) (b : β) : t.fold f b = t.entries.foldl f b := by
  induction t generalizing b with
  | nil => rfl
  | node exact inclusive left tree right ihleft ihtree ihright =>
      simp only [Ternary.fold, Ternary.entries, List.foldl_append, ihleft, ihtree, ihright]
      cases exact with
      | none | some a =>
          cases inclusive with
          | none | some b => rfl

theorem find?_toList (p : α → Bool) (o : Option α) : o.toList.find? p = o.filter p := by
  cases o with
  | none => rfl
  | some a =>
      rw [Option.toList_some, List.find?_singleton]
      rfl

theorem search_eq (p : α → Bool) (t : Ternary α) : t.search p = t.entries.find? p := by
  induction t with
  | nil => rfl
  | node exact inclusive left tree right ihleft ihtree ihright =>
      simp only [Ternary.search, Ternary.entries, List.find?_append, find?_toList, ihleft, ihtree,
        ihright]
      cases exact.filter p with
      | some a => rfl
      | none =>
          cases inclusive.filter p with
          | some a => rfl
          | none =>
              cases left.entries.find? p with
              | some a => rfl
              | none =>
                  cases tree.entries.find? p with
                  | some a | none => rfl

end Walks

section First
variable {same : α → α → Bool} {out l : List α}

/-- A list with one more member, unless one like it is there. -/
def add (same : α → α → Bool) (out : List α) (a : α) : List α :=
  if out.any fun e => same e a then out else out ++ [a]

theorem add_extends (out : List α) (a : α) : out <+: add same out a := by
  rw [add]
  split
  · exact List.prefix_rfl
  · exact List.prefix_append _ _

theorem mem_add {out : List α} {a e : α} (h : e ∈ add same out a) : e ∈ out ∨ e = a := by
  rw [add] at h
  split at h
  · exact .inl h
  · exact (List.mem_append.mp h).imp_right List.mem_singleton.mp

theorem foldl_add_extends (out l : List α) : out <+: l.foldl (add same) out := by
  induction l generalizing out with
  | nil => exact List.prefix_rfl
  | cons a l ih => exact (add_extends out a).trans (ih _)

theorem mem_foldl_add {e : α} (h : e ∈ l.foldl (add same) out) : e ∈ out ∨ e ∈ l := by
  induction l generalizing out with
  | nil => exact .inl h
  | cons a l ih =>
      cases ih h with
      | inl hadd =>
          cases mem_add hadd with
          | inl hout => exact .inl hout
          | inr heq => exact .inr (heq ▸ List.mem_cons_self)
      | inr hl => exact .inr (List.mem_cons_of_mem a hl)

/-- Every member has one like it among those that are collected. -/
theorem exists_foldl_add (hrefl : ∀ a, same a a = true) {a : α} (h : a ∈ l) (out : List α) :
    ∃ e ∈ l.foldl (add same) out, same e a = true := by
  induction l generalizing out with
  | nil => contradiction
  | cons b l ih =>
      cases h with
      | tail _ h => exact ih h _
      | head =>
          have hadd : ∃ e ∈ add same out a, same e a = true := by
            rw [add]
            split
            next hany => exact List.any_eq_true.mp hany
            next => exact ⟨a, List.mem_append_right _ List.mem_cons_self, hrefl a⟩
          obtain ⟨e, he, hsame⟩ := hadd
          exact ⟨e, (foldl_add_extends _ l).subset he, hsame⟩

/-- No two of those that are collected are alike. -/
theorem pairwise_foldl_add (h : out.Pairwise fun a b => ¬ same a b = true) (l : List α) :
    (l.foldl (add same) out).Pairwise fun a b => ¬ same a b = true := by
  induction l generalizing out with
  | nil => exact h
  | cons a l ih =>
      apply ih
      rw [add]
      split
      · exact h
      next hany =>
        rw [List.any_eq_true, not_exists] at hany
        rw [List.pairwise_append]
        refine ⟨h, List.pairwise_singleton _ _, fun e he b hb => ?_⟩
        rw [List.mem_singleton.mp hb]
        exact fun hsame => hany e ⟨he, hsame⟩

end First

end Collect
