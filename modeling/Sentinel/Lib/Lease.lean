import Sentinel.Lib.Run

/-!
A lease of a fixed length. Whoever comes while it runs is served on it; whoever
comes later renews it, from when the renewal is done. The renewals are those that
find every earlier one run out, and so there are few of them in any span of time.
-/

namespace Lease
universe u
variable {ι : Type u} {start finish : ι → Nat} {len : Nat}

/-- Whether the lease is renewed, and when it ends. -/
def step (start finish : ι → Nat) (len : Nat) (gone : Nat) (i : ι) : Bool × Nat :=
  if start i < gone then (false, gone) else (true, finish i + len)

/-- The lease ends when the last of the renewals so far runs out. -/
def EndsAt (finish : ι → Nat) (len : Nat) (past : List (ι × Bool)) (gone : Nat) : Prop :=
  ∀ t, gone ≤ t ↔ ∀ p ∈ past, p.2 = true → finish p.1 + len ≤ t

theorem endsAt_nil : EndsAt finish len [] 0 := by
  intro t
  simp

theorem step_renews {past : List (ι × Bool)} {gone : Nat} (h : EndsAt finish len past gone)
    (i : ι) : (step start finish len gone i).1 = true ↔
      ∀ p ∈ past, p.2 = true → finish p.1 + len ≤ start i := by
  rw [← h (start i), step]
  split
  next hlt => simp [hlt]
  next hge => simpa using hge

theorem step_endsAt {past : List (ι × Bool)} {gone : Nat} (h : EndsAt finish len past gone)
    {i : ι} (hi : start i ≤ finish i) :
    EndsAt finish len (past ++ [(i, (step start finish len gone i).1)])
      (step start finish len gone i).2 := by
  intro t
  rw [List.forall_mem_append, ← h t, step]
  split
  next => simp
  next hge =>
    have hgone : gone ≤ finish i := Nat.le_trans (Nat.not_lt.mp hge) hi
    simp only [List.forall_mem_singleton, true_implies]
    omega

/-- Who renews: whoever comes after every earlier renewal has run out. -/
theorem outputs_renews {is : List ι} (his : ∀ i ∈ is, start i ≤ finish i)
    {past : List (ι × Bool)} {gone : Nat} (h : EndsAt finish len past gone)
    {before after : List (ι × Bool)} {i : ι} {renewed : Bool}
    (hsplit : is.zip (Run.outputs (step start finish len) gone is) =
      before ++ (i, renewed) :: after) :
    renewed = true ↔ ∀ p ∈ past ++ before, p.2 = true → finish p.1 + len ≤ start i := by
  induction is generalizing past gone before with
  | nil => simp at hsplit
  | cons j is ih =>
      simp only [Run.outputs, List.zip_cons_cons] at hsplit
      cases before with
      | nil =>
          obtain ⟨hhead, -⟩ := List.cons.inj hsplit
          obtain ⟨rfl, rfl⟩ := Prod.mk.inj hhead
          rw [List.append_nil]
          exact step_renews h j
      | cons p before =>
          obtain ⟨rfl, htail⟩ := List.cons.inj hsplit
          have hnext := ih (fun i hi => his i (List.mem_cons_of_mem j hi))
            (step_endsAt h (his j List.mem_cons_self)) htail
          rwa [List.append_assoc] at hnext

/-- Each renewal takes up a length of its own; only the last may reach over the end. -/
theorem count_mul_le (len : Nat) {is : List ι} {lo hi : Nat}
    (his : ∀ i ∈ is, lo ≤ start i ∧ start i ≤ finish i ∧ finish i ≤ hi) (gone : Nat) :
    (Run.outputs (step start finish len) gone is).count true = 0 ∨
      (Run.outputs (step start finish len) gone is).count true * len + max lo gone ≤ hi + len := by
  induction is generalizing gone with
  | nil => exact .inl rfl
  | cons i is ih =>
      obtain ⟨hlo, hle, hhi⟩ := his i List.mem_cons_self
      have hrest := ih (fun j hj => his j (List.mem_cons_of_mem i hj))
      rw [Run.outputs, step]
      split
      next =>
        rw [List.count_cons_of_ne (by simp)]
        exact hrest gone
      next hge =>
        right
        rw [List.count_cons_self, Nat.succ_mul]
        have hnext := hrest (finish i + len)
        generalize (Run.outputs (step start finish len) (finish i + len) is).count true = c at hnext
        cases hnext with
        | inl hzero =>
            rw [hzero]
            omega
        | inr hsum => omega

end Lease
