import Mathlib.Data.List.Infix

/-!
Glob patterns: a star for any text, a sign for any single symbol, and a sign
that takes the next symbol for itself. What a bracket means is left open. A
pattern that ends in a star finds exactly the texts with a given beginning if
that beginning has no sign in it; if it has one, the pattern also finds texts
that begin otherwise.
-/

namespace Glob
universe u
variable {α : Type u}

structure Signs (α : Type u) where
  star : α
  any : α
  escape : α
  bracket : α
  distinct : [star, any, escape, bracket].Nodup

def Signs.Plain (g : Signs α) (c : α) : Prop :=
  c ≠ g.star ∧ c ≠ g.any ∧ c ≠ g.escape ∧ c ≠ g.bracket

instance decidablePlain [DecidableEq α] (g : Signs α) (c : α) : Decidable (g.Plain c) :=
  inferInstanceAs (Decidable (_ ∧ _ ∧ _ ∧ _))

/-- What a matcher says about patterns without brackets. -/
structure Matcher (g : Signs α) (m : List α → List α → Prop) : Prop where
  nil : ∀ s, m [] s ↔ s = []
  plain : ∀ c p s, g.Plain c → (m (c :: p) s ↔ ∃ t, s = c :: t ∧ m p t)
  star : ∀ p s, m (g.star :: p) s ↔ ∃ a t, s = a ++ t ∧ m p t
  any : ∀ p s, m (g.any :: p) s ↔ ∃ c t, s = c :: t ∧ m p t
  escape : ∀ c p s, m (g.escape :: c :: p) s ↔ ∃ t, s = c :: t ∧ m p t

section Plain
variable {g : Signs α} {m : List α → List α → Prop}

theorem match_star (h : Matcher g m) (s : List α) : m [g.star] s := by
  rw [h.star]
  exact ⟨s, [], (List.append_nil s).symm, (h.nil []).mpr rfl⟩

theorem match_plain (h : Matcher g m) {p : List α} (hp : ∀ c ∈ p, g.Plain c) (s : List α) :
    m (p ++ [g.star]) s ↔ p <+: s := by
  induction p generalizing s with
  | nil => exact ⟨fun _ => List.nil_prefix, fun _ => match_star h s⟩
  | cons c p ih =>
      have hrest : ∀ c' ∈ p, g.Plain c' := fun c' hc' => hp c' (List.mem_cons_of_mem c hc')
      rw [List.cons_append, h.plain c (p ++ [g.star]) s (hp c List.mem_cons_self)]
      constructor
      · intro hmatch
        obtain ⟨t, rfl, ht⟩ := hmatch
        exact (List.prefix_cons_inj c).mpr ((ih hrest t).mp ht)
      · intro hstart
        obtain ⟨t, rfl⟩ := hstart
        exact ⟨p ++ t, rfl, (ih hrest (p ++ t)).mpr (List.prefix_append p t)⟩

end Plain
section Formed
variable {g : Signs α}

/-- Patterns without brackets whose signs are complete. -/
inductive Formed (g : Signs α) : List α → Prop
  | nil : Formed g []
  | star {p : List α} : Formed g p → Formed g (g.star :: p)
  | any {p : List α} : Formed g p → Formed g (g.any :: p)
  | escape (c : α) {p : List α} : Formed g p → Formed g (g.escape :: c :: p)
  | plain {c : α} {p : List α} : g.Plain c → Formed g p → Formed g (c :: p)

theorem formed_of_length (n : Nat) : ∀ p : List α, p.length ≤ n → g.bracket ∉ p →
    p.getLast? ≠ some g.escape → Formed g p := by
  induction n with
  | zero =>
      intro p hlen _ _
      rw [List.length_eq_zero_iff.mp (Nat.le_zero.mp hlen)]
      exact .nil
  | succ n ih =>
      intro p hlen hbracket hlast
      cases p with
      | nil => exact .nil
      | cons c p =>
          have hrest : g.bracket ∉ p := fun hmem => hbracket (List.mem_cons_of_mem c hmem)
          rw [List.length_cons] at hlen
          have hlast' : p.getLast? ≠ some g.escape := by
            cases p with
            | nil => simp
            | cons d q => simpa using hlast
          have hp := ih p (by omega) hrest hlast'
          by_cases hstar : c = g.star
          · exact hstar ▸ .star hp
          by_cases hany : c = g.any
          · exact hany ▸ .any hp
          by_cases hescape : c = g.escape
          · cases p with
            | nil => exact absurd (by simp [hescape]) hlast
            | cons d q =>
                rw [List.length_cons] at hlen
                have hlast'' : q.getLast? ≠ some g.escape := by
                  cases q with
                  | nil => simp
                  | cons e r => simpa using hlast
                exact hescape ▸ .escape d (ih q (by omega)
                  (fun hmem => hrest (List.mem_cons_of_mem d hmem)) hlast'')
          · refine .plain ⟨hstar, hany, hescape, ?_⟩ hp
            intro heq
            exact hbracket (heq ▸ List.mem_cons_self)

/-- A pattern without a bracket is complete unless its last sign lacks a symbol. -/
theorem formed {p : List α} (hbracket : g.bracket ∉ p) (hlast : p.getLast? ≠ some g.escape) :
    Formed g p :=
  formed_of_length p.length p (Nat.le_refl _) hbracket hlast

end Formed
section Shortest
variable {g : Signs α} [DecidableEq α] {m : List α → List α → Prop} {x : α}

/-- A shortest text for a pattern, with `x` wherever any symbol would do. -/
def shortest (g : Signs α) (x : α) : List α → List α
  | [] => []
  | c :: p =>
      if c = g.star then shortest g x p
      else if c = g.any then x :: shortest g x p
      else if c = g.escape then
        match p with
        | [] => []
        | d :: q => d :: shortest g x q
      else c :: shortest g x p

theorem shortest_star (g : Signs α) (x : α) (p : List α) :
    shortest g x (g.star :: p) = shortest g x p := by
  rw [shortest.eq_def]
  exact if_pos rfl

theorem shortest_any (g : Signs α) (x : α) (p : List α) :
    shortest g x (g.any :: p) = x :: shortest g x p := by
  have hdistinct := g.distinct
  simp only [List.nodup_cons, List.mem_cons, not_or] at hdistinct
  rw [shortest.eq_def]
  simp [Ne.symm hdistinct.1.1]

theorem shortest_escape (g : Signs α) (x c : α) (p : List α) :
    shortest g x (g.escape :: c :: p) = c :: shortest g x p := by
  have hdistinct := g.distinct
  simp only [List.nodup_cons, List.mem_cons, not_or] at hdistinct
  rw [shortest.eq_def]
  simp [Ne.symm hdistinct.1.2.1, Ne.symm hdistinct.2.1.1]

theorem shortest_plain {c : α} (hc : g.Plain c) (p : List α) :
    shortest g x (c :: p) = c :: shortest g x p := by
  obtain ⟨hstar, hany, hescape, -⟩ := hc
  rw [shortest.eq_def]
  simp [hstar, hany, hescape]

theorem shortest_length_le {p : List α} (hp : Formed g p) :
    (shortest g x p).length ≤ p.length := by
  induction hp with
  | nil => exact Nat.le_refl _
  | star _ ih =>
      rw [shortest_star, List.length_cons]
      omega
  | any _ ih =>
      rw [shortest_any, List.length_cons, List.length_cons]
      omega
  | escape c _ ih =>
      rw [shortest_escape, List.length_cons, List.length_cons, List.length_cons]
      omega
  | plain hc _ ih =>
      rw [shortest_plain hc, List.length_cons, List.length_cons]
      omega

/-- Every sign leaves its mark on the shortest text. -/
theorem shortest_ne {p : List α} (hx : x ≠ g.any) (hp : Formed g p)
    (hsign : ¬ ∀ c ∈ p, g.Plain c) : shortest g x p ≠ p := by
  intro heq
  have hlen := congrArg List.length heq
  induction hp with
  | nil => exact hsign fun c hc => absurd hc List.not_mem_nil
  | star hp _ =>
      have hle := shortest_length_le (x := x) hp
      rw [shortest_star, List.length_cons] at hlen
      omega
  | any _ _ =>
      rw [shortest_any] at heq
      exact hx (List.cons.inj heq).1
  | escape c hp _ =>
      have hle := shortest_length_le (x := x) hp
      rw [shortest_escape, List.length_cons, List.length_cons, List.length_cons] at hlen
      omega
  | plain hc hp ih =>
      rw [shortest_plain hc] at heq
      have hrest := (List.cons.inj heq).2
      refine ih (fun hplain => hsign fun c' hc' => ?_) hrest (congrArg List.length hrest)
      cases List.mem_cons.mp hc' with
      | inl hhead => exact hhead ▸ hc
      | inr htail => exact hplain c' htail

theorem match_shortest (h : Matcher g m) {p : List α} (hp : Formed g p) (t : List α) :
    m (p ++ [g.star]) (shortest g x p ++ t) := by
  induction hp with
  | nil => exact match_star h _
  | star _ ih =>
      rw [List.cons_append, h.star, shortest_star]
      exact ⟨[], _, rfl, ih⟩
  | any _ ih =>
      rw [List.cons_append, h.any, shortest_any]
      exact ⟨x, _, rfl, ih⟩
  | escape c _ ih =>
      rw [List.cons_append, List.cons_append, h.escape, shortest_escape]
      exact ⟨_, rfl, ih⟩
  | plain hc _ ih =>
      rw [List.cons_append, h.plain _ _ _ hc, shortest_plain hc]
      exact ⟨_, rfl, ih⟩

/-- A pattern with a sign and a star finds texts that do not begin like the
pattern: one is by one symbol longer than what comes before the star. -/
theorem exists_foreign (h : Matcher g m) {p : List α} (hp : Formed g p)
    (hsign : ¬ ∀ c ∈ p, g.Plain c) :
    ∃ s, s.length = p.length + 1 ∧ m (p ++ [g.star]) s ∧ ¬ p <+: s := by
  have hdistinct := g.distinct
  simp only [List.nodup_cons, List.mem_cons, not_or] at hdistinct
  have hne := shortest_ne hdistinct.1.1 hp hsign
  have hle := shortest_length_le (x := g.star) hp
  have hmatch := match_shortest (x := g.star) h hp
  generalize shortest g g.star p = body at hne hle hmatch
  by_cases hlen : body.length = p.length
  · -- as long as `p` and not `p`
    refine ⟨body ++ [g.star], by simp [hlen], hmatch _, fun hstart => hne ?_⟩
    have hbody := List.prefix_of_prefix_length_le (List.prefix_append body [g.star]) hstart
      (Nat.le_of_eq hlen)
    exact hbody.eq_of_length hlen
  · -- the first symbol after `body` decides
    have hlt : body.length < p.length := by omega
    obtain ⟨d, hd⟩ : ∃ d, d ≠ p[body.length] := by
      by_cases hstar : p[body.length] = g.star
      · exact ⟨g.any, fun heq => hdistinct.1.1 (hstar.symm.trans heq.symm)⟩
      · exact ⟨g.star, fun heq => hstar heq.symm⟩
    refine ⟨body ++ d :: List.replicate (p.length - body.length) d, ?_, hmatch _, ?_⟩
    · rw [List.length_append, List.length_cons, List.length_replicate]
      omega
    · intro hstart
      apply hd
      rw [hstart.getElem hlt]
      simp

end Shortest
section Search
variable {g : Signs α} [DecidableEq α]

def head (c : α) (rest : List α → Bool) : List α → Bool
  | [] => false
  | d :: t => decide (d = c) && rest t

/-- A matcher; a bracket stands for itself, and so does a last escape. -/
def search (g : Signs α) : List α → List α → Bool
  | [] => fun s => s.isEmpty
  | c :: p =>
      if c = g.star then fun s => s.tails.any (search g p)
      else if c = g.any then fun s => s.tail.length < s.length && search g p s.tail
      else if c = g.escape then
        match p with
        | [] => head c List.isEmpty
        | d :: q => head d (search g q)
      else head c (search g p)

theorem head_iff {c : α} {rest : List α → Bool} {s : List α} :
    head c rest s = true ↔ ∃ t, s = c :: t ∧ rest t = true := by
  cases s with
  | nil => simp [head]
  | cons d t =>
      rw [head, Bool.and_eq_true, decide_eq_true_iff]
      constructor
      · intro hboth
        exact ⟨t, by rw [hboth.1], hboth.2⟩
      · intro hsplit
        obtain ⟨t', heq, ht'⟩ := hsplit
        obtain ⟨hd, ht⟩ := List.cons.inj heq
        exact ⟨hd, ht ▸ ht'⟩

theorem search_matcher (g : Signs α) : Matcher g fun p s => search g p s = true := by
  have hdistinct := g.distinct
  simp only [List.nodup_cons, List.mem_cons, not_or] at hdistinct
  refine ⟨?_, ?_, ?_, ?_, ?_⟩
  · intro s
    change s.isEmpty = true ↔ s = []
    exact List.isEmpty_iff
  · intro c p s hc
    obtain ⟨hstar, hany, hescape, -⟩ := hc
    rw [search.eq_def]
    simp [hstar, hany, hescape, head_iff]
  · intro p s
    rw [search.eq_def]
    simp only [if_true, List.any_eq_true, List.mem_tails]
    constructor
    · intro hfound
      obtain ⟨t, htail, ht⟩ := hfound
      obtain ⟨a, rfl⟩ := htail
      exact ⟨a, t, rfl, ht⟩
    · intro hsplit
      obtain ⟨a, t, rfl, ht⟩ := hsplit
      exact ⟨t, List.suffix_append a t, ht⟩
  · intro p s
    rw [search.eq_def]
    simp only [Ne.symm hdistinct.1.1, if_false, if_true]
    cases s with
    | nil => simp
    | cons c t => simp
  · intro c p s
    rw [search.eq_def]
    simp [Ne.symm hdistinct.1.2.1, Ne.symm hdistinct.2.1.1, head_iff]

end Search
end Glob
