import Mathlib.Data.List.Sort

/-!
Sorting by a comparison function whose sign is that of a key. What is sorted so
shows nothing of the order it came in, as far as the keys tell.
-/

namespace KeySort
universe u v
variable {α : Type u} {β : Type v} {cmp : α → α → Int} {key : α → β} {l : List α}

/-- The comparison is a total preorder on the members of the list. -/
structure Orders (cmp : α → α → Int) (l : List α) : Prop where
  total : ∀ a ∈ l, ∀ b ∈ l, cmp a b ≤ 0 ∨ cmp b a ≤ 0
  trans : ∀ a ∈ l, ∀ b ∈ l, ∀ c ∈ l, cmp a b ≤ 0 → cmp b c ≤ 0 → cmp a c ≤ 0

/-- On the members of the list, the comparison is that of their keys. -/
def ByKey [Ord β] (cmp : α → α → Int) (key : α → β) (l : List α) : Prop :=
  ∀ a ∈ l, ∀ b ∈ l, compare (cmp a b) 0 = compare (key a) (key b)

section Keys
variable [Ord β]

theorem ByKey.le_iff (h : ByKey cmp key l) {a b : α} (ha : a ∈ l) (hb : b ∈ l) :
    cmp a b ≤ 0 ↔ (compare (key a) (key b)).isLE := by
  rw [← h a ha b hb, Int.isLE_compare]

theorem ByKey.orders [Std.TransOrd β] (h : ByKey cmp key l) : Orders cmp l where
  total := by
    intro a ha b hb
    rw [h.le_iff ha hb, h.le_iff hb ha]
    cases hab : compare (key a) (key b) with
    | lt | eq => exact .inl rfl
    | gt =>
        rw [Std.OrientedCmp.gt_iff_lt] at hab
        exact .inr (by rw [hab]; rfl)
  trans := by
    intro a ha b hb c hc
    rw [h.le_iff ha hb, h.le_iff hb hc, h.le_iff ha hc]
    exact Std.TransCmp.isLE_trans

theorem sorted_keys_eq [Std.TransOrd β] [Std.LawfulEqOrd β] {l' : List α}
    (h : ByKey cmp key l) (h' : ByKey cmp key l') (hsorted : l.Pairwise fun a b => cmp a b ≤ 0)
    (hsorted' : l'.Pairwise fun a b => cmp a b ≤ 0) (hperm : (l.map key).Perm (l'.map key)) :
    l.map key = l'.map key := by
  have hkeys : ∀ {m : List α}, ByKey cmp key m → (m.Pairwise fun a b => cmp a b ≤ 0) →
      (m.map key).Pairwise fun x y => (compare x y).isLE := by
    intro m hm hpair
    rw [List.pairwise_map]
    exact hpair.imp_of_mem fun ha hb => (hm.le_iff ha hb).mp
  refine List.Perm.eq_of_pairwise ?_ (hkeys h hsorted) (hkeys h' hsorted') hperm
  intro x y _ _ hxy hyx
  exact Std.LawfulEqCmp.eq_of_compare (Std.OrientedCmp.isLE_antisymm hxy hyx)

end Keys

section Insertion

/-- Insertion sort. The members carry that they are some, so that a comparison
which orders no more than the list will do. -/
def sort (cmp : α → α → Int) (l : List α) : List α :=
  (l.attach.insertionSort fun a b : { a // a ∈ l } => cmp a b ≤ 0).map Subtype.val

theorem sort_perm (cmp : α → α → Int) (l : List α) : (sort cmp l).Perm l := by
  have h := (List.perm_insertionSort (fun a b : { a // a ∈ l } => cmp a b ≤ 0) l.attach).map
    Subtype.val
  rwa [List.attach_map_subtype_val] at h

theorem sort_sorted (h : Orders cmp l) : (sort cmp l).Pairwise fun a b => cmp a b ≤ 0 := by
  rw [sort, List.pairwise_map]
  have htotal : Std.Total fun a b : { a // a ∈ l } => cmp a b ≤ 0 :=
    ⟨fun a b => h.total a a.2 b b.2⟩
  have htrans : IsTrans { a // a ∈ l } fun a b => cmp a b ≤ 0 :=
    ⟨fun a b c => h.trans a a.2 b b.2 c c.2⟩
  exact List.pairwise_insertionSort _ l.attach

end Insertion

end KeySort
