import Mathlib.Data.List.Forall2

/-!
A pipelined connection. Commands go out in order, each with a call that waits for
its reply; the peer answers them in order; a reply goes to the oldest call that
has had none. Nothing on the wire says which reply belongs to which call: that
the two stay matched is an invariant, and what a call may rely on is a relation
between calls and replies that the peer's side of the wire keeps up.
-/

namespace Pipeline
universe u v w
variable {κ : Type u} {γ : Type v} {ρ : Type w}

/-- The oldest calls have the replies that are on their way, the others the
commands that the peer has not seen. -/
def Matched (asks : κ → γ → Prop) (answers : κ → ρ → Prop) (calls : List κ) (replies : List ρ)
    (pending : List γ) : Prop :=
  ∃ answered waiting, calls = answered ++ waiting ∧
    List.Forall₂ answers answered replies ∧ List.Forall₂ asks waiting pending

variable {asks : κ → γ → Prop} {answers : κ → ρ → Prop} {calls : List κ}
  {replies : List ρ} {pending : List γ}

theorem exists_of_mem_right {α : Type u} {β : Type v} {R : α → β → Prop} {l : List α} {m : List β}
    (h : List.Forall₂ R l m) {b : β} (hb : b ∈ m) : ∃ a ∈ l, R a b := by
  induction h with
  | nil => exact absurd hb List.not_mem_nil
  | @cons a c l m hR _ ih =>
      cases List.mem_cons.mp hb with
      | inl hfirst => exact ⟨a, List.mem_cons_self, hfirst ▸ hR⟩
      | inr hlater =>
          obtain ⟨d, hd, hRd⟩ := ih hlater
          exact ⟨d, List.mem_cons_of_mem a hd, hRd⟩

theorem matched_nil (asks : κ → γ → Prop) (answers : κ → ρ → Prop) :
    Matched asks answers [] [] [] :=
  ⟨[], [], rfl, .nil, .nil⟩

theorem imp_of_mem {α : Type u} {β : Type v} {R S : α → β → Prop} {l : List α} {m : List β}
    (h : List.Forall₂ R l m) (himp : ∀ a ∈ l, ∀ b, R a b → S a b) : List.Forall₂ S l m := by
  induction h with
  | nil => exact .nil
  | @cons a b l m hR _ ih =>
      refine .cons (himp a List.mem_cons_self b hR) (ih ?_)
      exact fun a' ha' => himp a' (List.mem_cons_of_mem a ha')

/-- Other relations, and other names for the calls. -/
theorem Matched.map {κ' : Type u} {asks' : κ' → γ → Prop} {answers' : κ' → ρ → Prop} (f : κ → κ')
    (h : Matched asks answers calls replies pending)
    (hasks : ∀ k ∈ calls, ∀ c, asks k c → asks' (f k) c)
    (hanswers : ∀ k ∈ calls, ∀ r, answers k r → answers' (f k) r) :
    Matched asks' answers' (calls.map f) replies pending := by
  obtain ⟨answered, waiting, rfl, hreplies, hpending⟩ := h
  refine ⟨answered.map f, waiting.map f, List.map_append, ?_, ?_⟩
  · rw [List.forall₂_map_left_iff]
    exact imp_of_mem hreplies fun k hk => hanswers k (List.mem_append_left _ hk)
  · rw [List.forall₂_map_left_iff]
    exact imp_of_mem hpending fun k hk => hasks k (List.mem_append_right _ hk)

theorem Matched.issue (h : Matched asks answers calls replies pending) {k : κ} {c : γ}
    (hask : asks k c) : Matched asks answers (calls ++ [k]) replies (pending ++ [c]) := by
  obtain ⟨answered, waiting, rfl, hreplies, hpending⟩ := h
  refine ⟨answered, waiting ++ [k], List.append_assoc _ _ _, hreplies, ?_⟩
  exact List.rel_append hpending (.cons hask .nil)

/-- The peer's next command has its call; what is known of that one and of the
others may be something else once it is answered. -/
theorem Matched.serve_cases {c : γ} (h : Matched asks answers calls replies (c :: pending)) :
    ∃ answered k waiting, calls = answered ++ k :: waiting ∧ asks k c ∧
      ∀ (asks' : κ → γ → Prop) (answers' : κ → ρ → Prop) (r : ρ),
        (∀ k' ∈ answered, ∀ r', answers k' r' → answers' k' r') →
        (∀ k' ∈ waiting, ∀ c', asks k' c' → asks' k' c') → answers' k r →
        Matched asks' answers' calls (replies ++ [r]) pending := by
  obtain ⟨answered, waiting, rfl, hreplies, hpending⟩ := h
  cases hpending with
  | @cons k _ waiting _ hask hrest =>
      refine ⟨answered, k, waiting, rfl, hask, ?_⟩
      intro asks' answers' r hbefore hafter hanswer
      refine ⟨answered ++ [k], waiting, (List.append_cons ..), ?_, imp_of_mem hrest hafter⟩
      exact List.rel_append (imp_of_mem hreplies hbefore) (.cons hanswer .nil)

/-- The peer may answer the call behind its next command. -/
theorem Matched.serve {c : γ} (h : Matched asks answers calls replies (c :: pending)) {r : ρ}
    (hanswer : ∀ k, asks k c → answers k r) :
    Matched asks answers calls (replies ++ [r]) pending := by
  obtain ⟨_, k, _, -, hask, hserve⟩ := h.serve_cases
  exact hserve asks answers r (fun _ _ _ => id) (fun _ _ _ => id) (hanswer k hask)

/-- The next reply is one that the oldest call may get. -/
theorem Matched.deliver {r : ρ} (h : Matched asks answers calls (r :: replies) pending) :
    ∃ k rest, calls = k :: rest ∧ answers k r ∧ Matched asks answers rest replies pending := by
  obtain ⟨answered, waiting, rfl, hreplies, hpending⟩ := h
  cases hreplies with
  | @cons k _ answered _ hanswer hrest =>
      exact ⟨k, answered ++ waiting, rfl, hanswer, answered, waiting, rfl, hrest, hpending⟩

/-- A reply on its way is for one of the calls. -/
theorem Matched.of_reply (h : Matched asks answers calls replies pending) {r : ρ}
    (hr : r ∈ replies) : ∃ k ∈ calls, answers k r := by
  obtain ⟨answered, waiting, rfl, hreplies, -⟩ := h
  obtain ⟨k, hk, hanswer⟩ := exists_of_mem_right hreplies hr
  exact ⟨k, List.mem_append_left _ hk, hanswer⟩

theorem Matched.length (h : Matched asks answers calls replies pending) :
    calls.length = replies.length + pending.length := by
  obtain ⟨answered, waiting, rfl, hreplies, hpending⟩ := h
  rw [List.length_append, hreplies.length_eq, hpending.length_eq]

end Pipeline
