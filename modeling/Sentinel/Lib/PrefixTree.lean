import Mathlib.Data.List.Infix

/-!
Sets of prefixes as binary trees, one bit a level. A key is covered when one of
the prefixes that were inserted is a prefix of it.
-/

/-- A tree of prefixes; a node that is marked ends one. -/
inductive PrefixTree where
  | leaf
  | node (marked : Bool) (zero one : PrefixTree)
  deriving DecidableEq, Repr

namespace PrefixTree

def insert : PrefixTree → List Bool → PrefixTree
  | leaf, [] => node true leaf leaf
  | node _ zero one, [] => node true zero one
  | leaf, false :: p => node false (insert leaf p) leaf
  | leaf, true :: p => node false leaf (insert leaf p)
  | node marked zero one, false :: p => node marked (insert zero p) one
  | node marked zero one, true :: p => node marked zero (insert one p)

/-- Whether the way down to a key leads past a node that is marked. -/
def covers : PrefixTree → List Bool → Bool
  | leaf, _ => false
  | node marked _ _, [] => marked
  | node marked zero _, false :: k => marked || covers zero k
  | node marked _ one, true :: k => marked || covers one k

@[simp] theorem covers_leaf (k : List Bool) : covers leaf k = false := by
  cases k with
  | nil => rfl
  | cons b k => cases b <;> rfl

/-- One more prefix covers what it is a prefix of. -/
theorem covers_insert (t : PrefixTree) (p k : List Bool) :
    (t.insert p).covers k = true ↔ p <+: k ∨ t.covers k = true := by
  induction p generalizing t k with
  | nil =>
      cases t with
      | leaf =>
          cases k with
          | nil => simp [insert, covers]
          | cons b k => cases b <;> simp [insert, covers]
      | node marked zero one =>
          cases k with
          | nil => simp [insert, covers]
          | cons b k => cases b <;> simp [insert, covers]
  | cons a p ih =>
      cases t with
      | leaf =>
          cases k with
          | nil => cases a <;> simp [insert, covers]
          | cons b k => cases a <;> cases b <;> simp [insert, covers, ih]
      | node marked zero one =>
          cases k with
          | nil => cases a <;> simp [insert, covers]
          | cons b k => cases a <;> cases b <;> simp [insert, covers, ih, or_left_comm]

/-- What is covered after any number of insertions. -/
theorem covers_foldl_insert (t : PrefixTree) (ps : List (List Bool)) (k : List Bool) :
    (ps.foldl insert t).covers k = true ↔ (∃ p ∈ ps, p <+: k) ∨ t.covers k = true := by
  induction ps generalizing t with
  | nil => simp
  | cons p ps ih =>
      rw [List.foldl_cons, ih, covers_insert, List.exists_mem_cons_iff, ← or_assoc]
      exact or_congr_left or_comm

end PrefixTree
