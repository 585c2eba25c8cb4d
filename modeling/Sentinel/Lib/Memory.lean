import Mathlib.Data.List.Basic

/-!
Memory of a fixed size. An access outside of it is a fault, which ends the run; so
does a jump to a label. A run that follows an abstract computation yields what
stands for its result, and jumps where there is none: it has not gone outside
anywhere.
-/

namespace Memory
universe u v w

/-- How a run ends early. -/
inductive Stop (ε : Type u) where
  | jump (label : ε)
  | fault (index : Nat)
  deriving DecidableEq, Repr

section Access
variable {ε : Type u} {α : Type v} {n : Nat}

def store (m : Vector α n) (i : Nat) (a : α) : Except (Stop ε) (Vector α n) :=
  if h : i < n then .ok (m.set i a h) else .error (.fault i)

def load (m : Vector α n) (i : Nat) : Except (Stop ε) α :=
  if h : i < n then .ok (m.get ⟨i, h⟩) else .error (.fault i)

/-- Element by element, from the place `i` on. -/
def copy : List α → Vector α n → (i : Nat) → Except (Stop ε) (Vector α n)
  | [], m, _ => .ok m
  | a :: s, m, i => do
      let m ← store m i a
      copy s m (i + 1)

/-- The first `k` elements. -/
def first (m : Vector α n) (k : Nat) : Except (Stop ε) (List α) :=
  if k ≤ n then .ok (m.toList.take k) else .error (.fault n)

variable {m : Vector α n} {s : List α}

theorem length_le (h : s <+: m.toList) : s.length ≤ n := by
  have hle := h.length_le
  rw [Vector.length_toList] at hle
  exact hle

/-- Right behind what the memory starts with there is room for one more. -/
theorem store_next (h : s <+: m.toList) (hroom : s.length < n) (a : α) :
    ∃ m', store m s.length a = Except.ok (ε := Stop ε) m' ∧ s ++ [a] <+: m'.toList := by
  refine ⟨m.set s.length a hroom, dif_pos hroom, ?_⟩
  obtain ⟨t, ht⟩ := h
  cases t with
  | nil =>
      have hlen := congrArg List.length ht
      simp only [List.append_nil, Vector.length_toList] at hlen
      omega
  | cons b t =>
      refine ⟨t, ?_⟩
      rw [Vector.toList_set, ← ht]
      simp

theorem copy_next (t : List α) : ∀ {m : Vector α n} {s : List α}, s <+: m.toList →
    s.length + t.length ≤ n →
    ∃ m', copy t m s.length = Except.ok (ε := Stop ε) m' ∧ s ++ t <+: m'.toList := by
  induction t with
  | nil =>
      intro m s h _
      exact ⟨m, rfl, by simpa using h⟩
  | cons a t ih =>
      intro m s h hroom
      rw [List.length_cons] at hroom
      obtain ⟨m', hstore, hm'⟩ := store_next (ε := ε) h (by omega) a
      obtain ⟨m'', hcopy, hm''⟩ := ih hm' (by rw [List.length_append, List.length_singleton]; omega)
      refine ⟨m'', ?_, by simpa using hm''⟩
      rw [List.length_append, List.length_singleton] at hcopy
      rw [copy, hstore]
      exact hcopy

/-- A copy to the beginning. -/
theorem copy_start (m : Vector α n) {t : List α} (ht : t.length ≤ n) :
    ∃ m', copy t m 0 = Except.ok (ε := Stop ε) m' ∧ t <+: m'.toList := by
  obtain ⟨m', hcopy, hm'⟩ := copy_next (ε := ε) t (m.toList.nil_prefix) (by simpa using ht)
  exact ⟨m', hcopy, by simpa using hm'⟩

theorem load_of_start (h : s <+: m.toList) {i : Nat} (hi : i < s.length) :
    load m i = Except.ok (ε := Stop ε) s[i] := by
  have hn : i < n := Nat.lt_of_lt_of_le hi (length_le h)
  rw [load, dif_pos hn, h.getElem hi]
  rfl

theorem first_of_start (h : s <+: m.toList) :
    first m s.length = Except.ok (ε := Stop ε) s := by
  rw [first, if_pos (length_le h), List.prefix_iff_eq_take.mp h]
  simp

end Access
section Follows
variable {ε : Type u} {α : Type w} {β γ : Type v} {σ τ : Type v}
  {R : β → σ → Prop} {R' : γ → τ → Prop}

/-- A run against the abstract result it is to have. -/
inductive Follows (R : β → σ → Prop) : Except (Stop ε) β → Option σ → Prop
  | result {b : β} {s : σ} (h : R b s) : Follows R (.ok b) (some s)
  | jump (label : ε) : Follows R (.error (.jump label)) none

theorem Follows.bind {x : Except (Stop ε) β} {o : Option σ} {f : β → Except (Stop ε) γ}
    {g : σ → Option τ} (h : Follows R x o)
    (hf : ∀ b s, o = some s → R b s → Follows R' (f b) (g s)) :
    Follows R' (x >>= f) (o >>= g) := by
  cases h with
  | result h => exact hf _ _ rfl h
  | jump label => exact .jump label

/-- A step that always succeeds has no counterpart. -/
theorem Follows.ok_bind {x : Except (Stop ε) β} {s : σ} {f : β → Except (Stop ε) γ}
    {o : Option τ} (h : ∃ b, x = .ok b ∧ R b s) (hf : ∀ b, R b s → Follows R' (f b) o) :
    Follows R' (x >>= f) o := by
  obtain ⟨b, hx, hb⟩ := h
  rw [hx]
  exact hf b hb

/-- The same behind the abstract computation. -/
theorem Follows.bind_ok {R'' : γ → σ → Prop} {x : Except (Stop ε) β} {o : Option σ}
    {f : β → Except (Stop ε) γ} (h : Follows R x o)
    (hf : ∀ b s, o = some s → R b s → ∃ c, f b = .ok c ∧ R'' c s) :
    Follows R'' (x >>= f) o := by
  cases h with
  | result h =>
      obtain ⟨c, hc, hc'⟩ := hf _ _ rfl h
      change Follows R'' (f _) _
      rw [hc]
      exact .result hc'
  | jump label => exact .jump label

theorem Follows.no_fault {x : Except (Stop ε) β} {o : Option σ} (h : Follows R x o) (i : Nat) :
    x ≠ .error (.fault i) := by
  cases h with
  | result _ => simp
  | jump _ => simp

/-- A loop whose rounds all succeed. -/
theorem foldlM_ok {f : β → α → Except (Stop ε) β} {g : σ → α → σ}
    (hstep : ∀ b s a, R b s → ∃ b', f b a = .ok b' ∧ R b' (g s a)) (l : List α) :
    ∀ {b : β} {s : σ}, R b s → ∃ b', l.foldlM f b = .ok b' ∧ R b' (l.foldl g s) := by
  induction l with
  | nil =>
      intro b s h
      exact ⟨b, rfl, h⟩
  | cons a l ih =>
      intro b s h
      obtain ⟨b', hfirst, h'⟩ := hstep b s a h
      obtain ⟨b'', hrest, h''⟩ := ih h'
      refine ⟨b'', ?_, h''⟩
      rw [List.foldlM_cons, hfirst]
      exact hrest

end Follows
end Memory
