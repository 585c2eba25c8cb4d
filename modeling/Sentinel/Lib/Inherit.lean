import Mathlib.Data.List.Basic

/-!
Settings of nested blocks, the outermost first. What is not set in a block is
taken over from the block around it, so the innermost block that sets it decides.
-/

namespace Inherit
universe u
variable {α : Type u}

/-- What the innermost block that sets it says. -/
def innermost : List (Option α) → Option α
  | [] => none
  | o :: os => (innermost os).or o

@[simp] theorem innermost_nil : innermost ([] : List (Option α)) = none := rfl

/-- The blocks further in come first. -/
theorem innermost_append (os os' : List (Option α)) :
    innermost (os ++ os') = (innermost os').or (innermost os) := by
  induction os with
  | nil => simp
  | cons o os ih => rw [List.cons_append, innermost, innermost, ih, Option.or_assoc]

theorem innermost_map {β ι : Type*} (f : α → β) (said : ι → Option α) (is : List ι) :
    innermost (is.map fun i => (said i).map f) = (innermost (is.map said)).map f := by
  induction is with
  | nil => rfl
  | cons i is ih => simp only [List.map_cons, innermost, ih, Option.map_or]

end Inherit
