import Sentinel.Lib.Lines
import Sentinel.Lib.Numeral

/-!
The text in which counters are handed to whoever collects them. A line is a note,
or a sample: a key and a number with a blank between. A collector that knows
nothing beforehand of the keys reads back the samples that were written.
-/

namespace Exposition
universe u
variable {α : Type u}

/-- What ends a line, what starts a note, what ends a key, and the digits. -/
structure Signs (α : Type u) where
  newline : α
  hash : α
  blank : α
  enc : Char → α
  dec : α → Nat

/-- The signs that lines are told apart by. -/
structure Signs.Apart (S : Signs α) : Prop where
  code : Numeral.Code S.enc S.dec
  digit : ∀ d < 10, S.enc d.digitChar ≠ S.newline
  blank : S.blank ≠ S.newline
  hash : S.hash ≠ S.newline

inductive Line (α : Type u) where
  | note (text : List α)
  | sample (key : List α) (value : Nat)

def Line.write (S : Signs α) : Line α → List α
  | .note text => S.hash :: text
  | .sample key value => key ++ S.blank :: Numeral.write S.enc value

def write (S : Signs α) (ls : List (Line α)) : List α :=
  Lines.join S.newline (ls.map (Line.write S))

def Line.sample? : Line α → Option (List α × Nat)
  | .note _ => none
  | .sample key value => some (key, value)

/-- Notes are of one line, and keys of one word that no note starts with. -/
def Line.Proper (S : Signs α) : Line α → Prop
  | .note text => S.newline ∉ text
  | .sample key _ =>
      S.newline ∉ key ∧ S.blank ∉ key ∧ key ≠ [] ∧ key.head? ≠ some S.hash

variable {S : Signs α}

theorem newline_not_mem_write (hS : S.Apart) {l : Line α} (hl : l.Proper S) :
    S.newline ∉ l.write S := by
  cases l with
  | note text =>
      intro hmem
      cases List.mem_cons.mp hmem with
      | inl heq => exact hS.hash heq.symm
      | inr htext => exact hl htext
  | sample key value =>
      intro hmem
      cases List.mem_append.mp hmem with
      | inl hkey => exact hl.1 hkey
      | inr hrest =>
          cases List.mem_cons.mp hrest with
          | inl heq => exact hS.blank heq.symm
          | inr hdigit =>
              obtain ⟨d, hd, heq⟩ := Numeral.write_digits value _ hdigit
              exact hS.digit d hd heq.symm

theorem write_append (ls ls' : List (Line α)) :
    write S (ls ++ ls') = write S ls ++ write S ls' := by
  simp [write, Lines.join]

theorem write_map {β : Type*} (f : β → Line α) (l : List β) :
    write S (l.map f) = (l.map fun b => (f b).write S ++ [S.newline]).flatten := by
  induction l with
  | nil => rfl
  | cons b l ih =>
      rw [List.map_cons, List.map_cons, List.flatten_cons, ← ih]
      simp [write]

def Line.value : Line α → Nat
  | .note _ => 0
  | .sample _ value => value

/-- A line with zero for its number. -/
def Line.bare : Line α → Line α
  | .note text => .note text
  | .sample key _ => .sample key 0

theorem proper_bare {l : Line α} : l.bare.Proper S ↔ l.Proper S := by
  cases l <;> exact Iff.rfl

/-- A text exceeds the one with zeros by the digits of its numbers. -/
theorem write_length_le {w : Nat} {ls : List (Line α)}
    (hw : ∀ l ∈ ls, (Numeral.write S.enc l.value).length ≤ w) :
    (write S ls).length ≤ (write S (ls.map Line.bare)).length + w * ls.length := by
  induction ls with
  | nil => simp
  | cons l ls ih =>
      have hrest := ih fun l hl => hw l (List.mem_cons_of_mem _ hl)
      have hfirst : (l.write S).length ≤ (l.bare.write S).length + w := by
        cases l with
        | note text => exact Nat.le_add_right _ _
        | sample key value =>
            have hvalue := hw _ List.mem_cons_self
            simp only [Line.value] at hvalue
            simp only [Line.write, Line.bare, List.length_append, List.length_cons]
            omega
      simp only [write, List.map_cons, Lines.join_cons, List.length_append, List.length_cons,
        Nat.mul_add, Nat.mul_one] at hrest ⊢
      omega

section Read
variable [DecidableEq α]

instance (S : Signs α) (l : Line α) : Decidable (l.Proper S) :=
  match l with
  | .note text => inferInstanceAs (Decidable (S.newline ∉ text))
  | .sample key _ => inferInstanceAs (Decidable (S.newline ∉ key ∧ S.blank ∉ key ∧ key ≠ [] ∧
      key.head? ≠ some S.hash))

def readLine (S : Signs α) (l : List α) : Option (List α × Nat) :=
  if l.head? = some S.hash then none
  else
    let f := Lines.field S.blank l
    some (f.1, Numeral.read S.dec f.2.tail)

/-- The samples of a text. -/
def read (S : Signs α) (s : List α) : List (List α × Nat) :=
  (Lines.split S.newline s).filterMap (readLine S)

theorem readLine_write (hS : S.Apart) {l : Line α} (hl : l.Proper S) :
    readLine S (l.write S) = l.sample? := by
  cases l with
  | note text =>
      apply if_pos
      rfl
  | sample key value =>
      obtain ⟨-, hblank, hne, hhead⟩ := hl
      have hfield := Lines.field_append S.blank hblank (Numeral.write S.enc value)
      rw [readLine, if_neg]
      · simp only [Line.write, hfield, List.tail_cons, Numeral.read_write hS.code]
        rfl
      · rw [Line.write, List.head?_append_of_ne_nil _ hne]
        exact hhead

theorem read_write (hS : S.Apart) {ls : List (Line α)} (hls : ∀ l ∈ ls, l.Proper S) :
    read S (write S ls) = ls.filterMap Line.sample? := by
  have hlines : ∀ l ∈ ls.map (Line.write S), S.newline ∉ l := by
    intro l hl
    obtain ⟨line, hmem, rfl⟩ := List.mem_map.mp hl
    exact newline_not_mem_write hS (hls line hmem)
  rw [read, write, Lines.split_join S.newline hlines, List.filterMap_map]
  apply List.filterMap_congr
  intro line hmem
  exact readLine_write hS (hls line hmem)

end Read
end Exposition
