import Mathlib.Data.Tree.Basic

/-!
Binary search trees over a lawful comparison, as an insertion routine sees them
that only ever hangs a new leaf. Rebalancing is not part of this module: a
rotation is any map that keeps the in-order sequence, and every result below
depends on a tree through that sequence alone.
-/

namespace SearchTree
universe u
variable {α : Type u}

def inorder : BinaryTree α → List α
  | .nil => []
  | .node a l r => inorder l ++ a :: inorder r

@[simp] theorem inorder_nil : inorder (.nil : BinaryTree α) = [] := rfl

@[simp] theorem inorder_node (a : α) (l r : BinaryTree α) :
    inorder (.node a l r) = inorder l ++ a :: inorder r := rfl

variable [Ord α]

/-- Hang `x` at the leaf reached by going left only when `x` is smaller. -/
def insertLeaf (x : α) : BinaryTree α → BinaryTree α
  | .nil => .node x .nil .nil
  | .node a l r =>
      if compare x a = .lt then .node a (insertLeaf x l) r
      else .node a l (insertLeaf x r)

def search (x : α) : BinaryTree α → Option α
  | .nil => none
  | .node a l r =>
      match compare x a with
      | .lt => search x l
      | .eq => some a
      | .gt => search x r

def Sorted (t : BinaryTree α) : Prop :=
  (inorder t).Pairwise (fun a b => compare a b = .lt)

theorem sorted_congr {s t : BinaryTree α} (h : inorder s = inorder t) :
    Sorted s ↔ Sorted t := by
  simp only [Sorted, h]

theorem sorted_node {a : α} {l r : BinaryTree α} :
    Sorted (.node a l r) ↔
      Sorted l ∧ Sorted r ∧ (∀ b ∈ inorder l, compare b a = .lt) ∧
        (∀ c ∈ inorder r, compare a c = .lt) ∧
        ∀ b ∈ inorder l, ∀ c ∈ inorder r, compare b c = .lt := by
  simp only [Sorted, inorder_node, List.pairwise_append, List.pairwise_cons, List.mem_cons,
    forall_eq_or_imp]
  constructor
  · rintro ⟨hl, ⟨har, hr⟩, h⟩
    exact ⟨hl, hr, fun b hb => (h b hb).1, har, fun b hb => (h b hb).2⟩
  · rintro ⟨hl, hr, hla, har, h⟩
    exact ⟨hl, ⟨har, hr⟩, fun b hb => ⟨hla b hb, h b hb⟩⟩

theorem inorder_insertLeaf_perm (x : α) (t : BinaryTree α) :
    (inorder (insertLeaf x t)).Perm (x :: inorder t) := by
  induction t with
  | nil => exact .refl _
  | node a l r ihl ihr =>
      simp only [insertLeaf]
      split
      · exact ihl.append_right _
      · refine (((ihr.cons a).trans (.swap x a _)).append_left (inorder l)).trans ?_
        exact List.perm_middle

theorem mem_inorder_insertLeaf {x y : α} {t : BinaryTree α} :
    y ∈ inorder (insertLeaf x t) ↔ y = x ∨ y ∈ inorder t := by
  rw [(inorder_insertLeaf_perm x t).mem_iff, List.mem_cons]

theorem sorted_of_perm_erase [DecidableEq α] {s t : BinaryTree α} {x : α}
    (h : inorder s = (inorder t).erase x) (ht : Sorted t) : Sorted s := by
  rw [Sorted]
  rw [h]
  exact List.Pairwise.sublist (List.erase_sublist) ht

variable [Std.LawfulEqOrd α]

theorem compare_self (a : α) : compare a a = .eq := Std.ReflCmp.compare_self

theorem sorted_nodup {t : BinaryTree α} (h : Sorted t) : (inorder t).Nodup := by
  refine List.Pairwise.imp ?_ h
  intro a b hab hne
  subst hne
  rw [compare_self] at hab
  contradiction

variable [Std.TransOrd α]

omit [Std.LawfulEqOrd α] in
theorem compare_swap (a b : α) : compare a b = (compare b a).swap := Std.OrientedCmp.eq_swap

theorem sorted_insertLeaf {x : α} {t : BinaryTree α} (h : Sorted t)
    (hx : x ∉ inorder t) : Sorted (insertLeaf x t) := by
  induction t with
  | nil => simp [insertLeaf, Sorted]
  | node a l r ihl ihr =>
      obtain ⟨hl, hr, hla, har, hlr⟩ := sorted_node.mp h
      simp only [inorder_node, List.mem_append, List.mem_cons, not_or] at hx
      obtain ⟨hxl, hxa, hxr⟩ := hx
      simp only [insertLeaf]
      split
      next hlt =>
        refine sorted_node.mpr ⟨ihl hl hxl, hr, ?_, har, ?_⟩
        · intro b hb
          cases mem_inorder_insertLeaf.mp hb with
          | inl heq =>
              obtain rfl := heq
              exact hlt
          | inr hb => exact hla b hb
        · intro b hb c hc
          cases mem_inorder_insertLeaf.mp hb with
          | inl heq =>
              obtain rfl := heq
              exact Std.TransCmp.lt_trans hlt (har c hc)
          | inr hb => exact hlr b hb c hc
      next hge =>
        have hgt : compare a x = .lt := by
          rw [compare_swap a x]
          cases hc : compare x a with
          | lt => exact absurd hc hge
          | eq => exact absurd (Std.LawfulEqCmp.eq_of_compare hc) hxa
          | gt => rfl
        refine sorted_node.mpr ⟨hl, ihr hr hxr, hla, ?_, ?_⟩
        · intro c hc
          cases mem_inorder_insertLeaf.mp hc with
          | inl heq =>
              obtain rfl := heq
              exact hgt
          | inr hc => exact har c hc
        · intro b hb c hc
          cases mem_inorder_insertLeaf.mp hc with
          | inl heq =>
              obtain rfl := heq
              exact Std.TransCmp.lt_trans (hla b hb) hgt
          | inr hc => exact hlr b hb c hc

/-- In a sorted tree the single descent finds exactly the members. -/
theorem search_eq_some_iff {x y : α} {t : BinaryTree α} (h : Sorted t) :
    search x t = some y ↔ y = x ∧ x ∈ inorder t := by
  induction t with
  | nil => simp [search]
  | node a l r ihl ihr =>
      obtain ⟨hl, hr, hla, har, hlr⟩ := sorted_node.mp h
      simp only [search, inorder_node, List.mem_append, List.mem_cons]
      cases hc : compare x a with
      | lt =>
          have hne : x ≠ a := by
            rintro rfl
            rw [compare_self] at hc
            contradiction
          have hnr : x ∉ inorder r := by
            intro hm
            have hgt := har x hm
            rw [compare_swap a x, hc] at hgt
            contradiction
          simp [ihl hl, hne, hnr]
      | eq =>
          have he := Std.LawfulEqCmp.eq_of_compare hc
          subst he
          simp [eq_comm]
      | gt =>
          have hne : x ≠ a := by
            rintro rfl
            rw [compare_self] at hc
            contradiction
          have hnl : x ∉ inorder l := by
            intro hm
            rw [hla x hm] at hc
            contradiction
          simp [ihr hr, hne, hnl]

theorem search_eq_none_iff {x : α} {t : BinaryTree α} (h : Sorted t) :
    search x t = none ↔ x ∉ inorder t := by
  cases hs : search x t with
  | none =>
      simp only [true_iff]
      intro hm
      rw [(search_eq_some_iff h).mpr ⟨rfl, hm⟩] at hs
      contradiction
  | some y =>
      have hm := ((search_eq_some_iff h).mp hs).2
      simp [hm]

end SearchTree
