import Mathlib.Order.Basic

/-!
Runs of deterministic step functions over lists of inputs, with the induction
rules the model's results are assembled from: an invariant kept by one step
holds after every run, and two machines related by a step-preserved relation
answer alike.
-/

namespace Run
universe u v w x y
variable {σ : Type u} {τ : Type v} {ι : Type w} {ο : Type x}

/-- The state after a run. -/
def exec (step : σ → ι → σ) (s : σ) (is : List ι) : σ := is.foldl step s

@[simp] theorem exec_nil (step : σ → ι → σ) (s : σ) : exec step s [] = s := rfl

@[simp] theorem exec_cons (step : σ → ι → σ) (s : σ) (i : ι) (is : List ι) :
    exec step s (i :: is) = exec step (step s i) is := rfl

theorem exec_append (step : σ → ι → σ) (s : σ) (is js : List ι) :
    exec step s (is ++ js) = exec step (exec step s is) js :=
  List.foldl_append

theorem exec_invariant {step : σ → ι → σ} {I : σ → Prop} (hstep : ∀ s i, I s → I (step s i))
    {s : σ} (hs : I s) (is : List ι) : I (exec step s is) := by
  induction is generalizing s with
  | nil => exact hs
  | cons i is ih => exact ih (hstep s i hs)

/-- `P` holds of every step of the run, judged on the state it is taken in. -/
def Along (P : σ → ι → Prop) (step : σ → ι → σ) : σ → List ι → Prop
  | _, [] => True
  | s, i :: is => P s i ∧ Along P step (step s i) is

instance decidableAlong {P : σ → ι → Prop} [∀ s i, Decidable (P s i)] (step : σ → ι → σ) :
    ∀ (s : σ) (is : List ι), Decidable (Along P step s is)
  | _, [] => isTrue trivial
  | s, i :: is =>
      have := decidableAlong (P := P) step (step s i) is
      inferInstanceAs (Decidable (P s i ∧ Along P step (step s i) is))

theorem along_append {step : σ → ι → σ} {P : σ → ι → Prop} {s : σ} {is js : List ι} :
    Along P step s (is ++ js) ↔ Along P step s is ∧ Along P step (exec step s is) js := by
  induction is generalizing s with
  | nil => simp [Along]
  | cons i is ih => simp only [List.cons_append, Along, ih, exec_cons, and_assoc]

/-- Step by step is at every place of the run. -/
theorem along_iff_split {step : σ → ι → σ} {P : σ → ι → Prop} {s : σ} {is : List ι} :
    Along P step s is ↔ ∀ before i after, is = before ++ i :: after → P (exec step s before) i := by
  induction is generalizing s with
  | nil => simp [Along]
  | cons j is ih =>
      simp only [Along, ih]
      constructor
      · intro ⟨hj, hrest⟩ before i after hsplit
        cases before with
        | nil =>
            obtain ⟨rfl, -⟩ := List.cons.inj hsplit
            exact hj
        | cons k before =>
            obtain ⟨rfl, htail⟩ := List.cons.inj hsplit
            exact hrest before i after htail
      · intro h
        refine ⟨h [] j is rfl, ?_⟩
        intro before i after hsplit
        exact h (j :: before) i after (congrArg (j :: ·) hsplit)

/-- A condition on the inputs alone. -/
theorem along_of_forall {P : ι → Prop} (step : σ → ι → σ) (s : σ) {is : List ι}
    (h : ∀ i ∈ is, P i) : Along (fun _ i => P i) step s is := by
  induction is generalizing s with
  | nil => trivial
  | cons i is ih =>
      exact ⟨h i List.mem_cons_self, ih _ fun j hj => h j (List.mem_cons_of_mem i hj)⟩

theorem along_iff_forall {P : ι → Prop} {step : σ → ι → σ} {s : σ} {is : List ι} :
    Along (fun _ i => P i) step s is ↔ ∀ i ∈ is, P i := by
  refine ⟨?_, along_of_forall step s⟩
  intro h
  induction is generalizing s with
  | nil => simp
  | cons i is ih => exact List.forall_mem_cons.mpr ⟨h.1, ih h.2⟩

theorem exec_invariant_along {step : σ → ι → σ} {P : σ → ι → Prop} {I : σ → Prop}
    (hstep : ∀ s i, P s i → I s → I (step s i)) {s : σ} {is : List ι}
    (hP : Along P step s is) (hs : I s) : I (exec step s is) := by
  induction is generalizing s with
  | nil => exact hs
  | cons i is ih => exact ih hP.2 (hstep s i hP.1 hs)

/-- An invariant that `P` keeps up makes `Q` hold wherever `P` does. -/
theorem along_imp {step : σ → ι → σ} {P Q : σ → ι → Prop} {I : σ → Prop}
    (hstep : ∀ s i, P s i → I s → I (step s i)) (hQ : ∀ s i, P s i → I s → Q s i)
    {s : σ} {is : List ι} (hP : Along P step s is) (hs : I s) : Along Q step s is := by
  induction is generalizing s with
  | nil => trivial
  | cons i is ih => exact ⟨hQ s i hP.1 hs, ih hP.2 (hstep s i hP.1 hs)⟩

/-- Two conditions that are one on the states of an invariant, which they keep up,
are one on a whole run. -/
theorem along_congr {step : σ → ι → σ} {P Q : σ → ι → Prop} {I : σ → Prop}
    (hPQ : ∀ s i, I s → (P s i ↔ Q s i)) (hstep : ∀ s i, P s i → I s → I (step s i))
    {s : σ} {is : List ι} (hs : I s) : Along P step s is ↔ Along Q step s is := by
  induction is generalizing s with
  | nil => exact Iff.rfl
  | cons i is ih =>
      constructor
      · intro ⟨hP, hrest⟩
        exact ⟨(hPQ s i hs).mp hP, (ih (hstep s i hP hs)).mp hrest⟩
      · intro ⟨hQ, hrest⟩
        have hP := (hPQ s i hs).mpr hQ
        exact ⟨hP, (ih (hstep s i hP hs)).mpr hrest⟩

/-- Where a step that breaks `P` does a damage that no later step repairs, an
undamaged end shows that `P` held throughout. -/
theorem along_of_undamaged {step : σ → ι → σ} {P : σ → ι → Prop} {I D : σ → Prop}
    (hI : ∀ s i, I s → I (step s i)) (hbreak : ∀ s i, I s → ¬ P s i → D (step s i))
    (hkeep : ∀ s i, I s → D s → D (step s i)) {s : σ} {is : List ι} (hs : I s)
    (hend : ¬ D (exec step s is)) : Along P step s is := by
  induction is generalizing s with
  | nil => trivial
  | cons i is ih =>
      refine ⟨?_, ih (hI s i hs) hend⟩
      by_contra hP
      have hkept : ∀ (t : σ) (js : List ι), I t → D t → D (exec step t js) := by
        intro t js ht hD
        have hboth := exec_invariant (I := fun t => I t ∧ D t)
          (fun t j h => ⟨hI t j h.1, hkeep t j h.1 h.2⟩) ⟨ht, hD⟩ js
        exact hboth.2
      exact hend (hkept _ is (hI s i hs) (hbreak s i hs hP))

/-- The answers given along a run of a machine with outputs. -/
def outputs (step : σ → ι → ο × σ) : σ → List ι → List ο
  | _, [] => []
  | s, i :: is => (step s i).1 :: outputs step (step s i).2 is

/-- Where every step brings what is wanted or keeps an invariant, which may speak
of the outputs so far, a run has brought it at some time or keeps the invariant. -/
theorem outputs_unless (step : σ → ι → ο × σ) {P : σ → ι → Prop} (I : List ο → σ → Prop)
    {D : σ → Prop}
    (hstep : ∀ past s i, P s i → I past s →
      D (step s i).2 ∨ I (past ++ [(step s i).1]) (step s i).2)
    {s : σ} {is : List ι} (past : List ο) (hP : Along P (fun s i => (step s i).2) s is)
    (hs : I past s) :
    (∃ js ks, is = js ++ ks ∧ D (exec (fun s i => (step s i).2) s js)) ∨
      I (past ++ outputs step s is) (exec (fun s i => (step s i).2) s is) := by
  induction is generalizing past s with
  | nil =>
      right
      simpa [outputs] using hs
  | cons i is ih =>
      cases hstep past s i hP.1 hs with
      | inl hdone => exact .inl ⟨[i], is, rfl, hdone⟩
      | inr hkept =>
          cases ih _ hP.2 hkept with
          | inl hlater =>
              obtain ⟨js, ks, rfl, hdone⟩ := hlater
              exact .inl ⟨i :: js, ks, rfl, hdone⟩
          | inr hend =>
              right
              simpa [outputs] using hend

/-- Simulation of machines whose inputs have a property and carry nondecreasing
times: the relation may speak about the time reached so far. -/
theorem outputs_eq_of_timed_sim {T : Type*} [Preorder T] (time : ι → T) {P : ι → Prop}
    {step : σ → ι → ο × σ} {step' : τ → ι → ο × τ} {R : T → σ → τ → Prop}
    (hstep : ∀ t s s' i, P i → R t s s' → t ≤ time i →
      (step s i).1 = (step' s' i).1 ∧ R (time i) (step s i).2 (step' s' i).2)
    {t : T} {s : σ} {s' : τ} (hR : R t s s') {is : List ι} (hP : ∀ i ∈ is, P i)
    (hlo : ∀ i ∈ is, t ≤ time i) (hmono : is.Pairwise (fun i j => time i ≤ time j)) :
    outputs step s is = outputs step' s' is := by
  induction is generalizing t s s' with
  | nil => rfl
  | cons i is ih =>
      obtain ⟨hhead, htail⟩ := List.pairwise_cons.mp hmono
      obtain ⟨hout, hnext⟩ := hstep t s s' i (hP i List.mem_cons_self) hR
        (hlo i List.mem_cons_self)
      simp only [outputs, hout, List.cons.injEq, true_and]
      exact ih hnext (fun j hj => hP j (List.mem_cons_of_mem i hj)) hhead htail

/-- Simulation of a machine by one with other outputs, over inputs with a property. -/
theorem outputs_eq_map_of_sim {ο' : Type y} (f : ο' → ο) {P : ι → Prop} {R : σ → τ → Prop}
    {step : σ → ι → ο × σ} {step' : τ → ι → ο' × τ}
    (hstep : ∀ s s' i, P i → R s s' →
      (step s i).1 = f (step' s' i).1 ∧ R (step s i).2 (step' s' i).2)
    {s : σ} {s' : τ} (hR : R s s') {is : List ι} (hP : ∀ i ∈ is, P i) :
    outputs step s is = (outputs step' s' is).map f := by
  induction is generalizing s s' with
  | nil => rfl
  | cons i is ih =>
      obtain ⟨hout, hnext⟩ := hstep s s' i (hP i List.mem_cons_self) hR
      simp only [outputs, List.map_cons, hout]
      rw [ih hnext fun j hj => hP j (List.mem_cons_of_mem i hj)]

section Fallible
variable {ε : Type y} {step : σ → ι → Except ε σ}

theorem bind_ok {α β : Type u} {x : Except ε α} {f : α → Except ε β} {b : β} :
    (x >>= f) = .ok b ↔ ∃ a, x = .ok a ∧ f a = .ok b := by
  cases x with
  | error e => simp [bind, Except.bind]
  | ok a => simp [bind, Except.bind]

theorem map_ok {α : Type u} {β : Type v} {x : Except ε α} {f : α → β} {b : β} :
    x.map f = .ok b ↔ ∃ a, x = .ok a ∧ f a = b := by
  cases x with
  | error e => simp [Except.map]
  | ok a => simp [Except.map]

/-- A run of a step that can fail; the first failure ends it. -/
def tryExec (step : σ → ι → Except ε σ) : σ → List ι → Except ε σ
  | s, [] => .ok s
  | s, i :: is => step s i >>= fun t => tryExec step t is

theorem tryExec_cons_ok {s u : σ} {i : ι} {is : List ι} :
    tryExec step s (i :: is) = .ok u ↔
      ∃ t, step s i = .ok t ∧ tryExec step t is = .ok u :=
  bind_ok

/-- A run of a step that is `f` where `P` holds and fails elsewhere. -/
theorem tryExec_eq_ok_iff {P : σ → ι → Prop} {f : σ → ι → σ}
    (hstep : ∀ s i t, step s i = .ok t ↔ P s i ∧ t = f s i) {s t : σ} {is : List ι} :
    tryExec step s is = .ok t ↔ Along P f s is ∧ t = exec f s is := by
  induction is generalizing s with
  | nil => simp [tryExec, Along, eq_comm]
  | cons i is ih =>
      simp only [tryExec_cons_ok, hstep, ih, Along, exec_cons]
      constructor
      · intro ⟨u, ⟨hP, hu⟩, hrest, ht⟩
        rw [hu] at hrest ht
        exact ⟨⟨hP, hrest⟩, ht⟩
      · intro ⟨⟨hP, hrest⟩, ht⟩
        exact ⟨f s i, ⟨hP, rfl⟩, hrest, ht⟩

theorem tryExec_append_ok {s u : σ} {is js : List ι} :
    tryExec step s (is ++ js) = .ok u ↔
      ∃ t, tryExec step s is = .ok t ∧ tryExec step t js = .ok u := by
  induction is generalizing s with
  | nil => simp [tryExec]
  | cons i is ih =>
      simp only [List.cons_append, tryExec_cons_ok, ih]
      constructor
      · intro ⟨t, ht, w, hw, hu⟩
        exact ⟨w, ⟨t, ht, hw⟩, hu⟩
      · intro ⟨w, ⟨t, ht, hw⟩, hu⟩
        exact ⟨t, ht, w, hw, hu⟩

theorem tryExec_invariant {I : σ → Prop} (hstep : ∀ s i t, step s i = .ok t → I s → I t)
    {s t : σ} {is : List ι} (hrun : tryExec step s is = .ok t) (hs : I s) : I t := by
  induction is generalizing s with
  | nil => exact Except.ok.inj hrun ▸ hs
  | cons i is ih =>
      obtain ⟨u, hu, hrun⟩ := tryExec_cons_ok.mp hrun
      exact ih hrun (hstep s i u hu hs)

/-- `P` holds of every step of a run that may fail. -/
def TryAlong (P : σ → ι → Prop) (step : σ → ι → Except ε σ) : σ → List ι → Prop
  | _, [] => True
  | s, i :: is => P s i ∧ ∀ t, step s i = .ok t → TryAlong P step t is

/-- A property that a step keeps exactly when `P` holds of it, and that no step
restores, is there at the end exactly when it was there at the start and `P`
held throughout. -/
theorem tryExec_kept_iff {P : σ → ι → Prop} {I K : σ → Prop}
    (hI : ∀ s i t, step s i = .ok t → I s → I t)
    (hK : ∀ s i t, step s i = .ok t → I s → (K t ↔ K s ∧ P s i))
    {s t : σ} {is : List ι} (hrun : tryExec step s is = .ok t) (hs : I s) :
    K t ↔ K s ∧ TryAlong P step s is := by
  induction is generalizing s with
  | nil =>
      have hst : s = t := Except.ok.inj hrun
      simp [hst, TryAlong]
  | cons i is ih =>
      obtain ⟨u, hu, hrun⟩ := tryExec_cons_ok.mp hrun
      have hrest : (∀ t, step s i = .ok t → TryAlong P step t is) ↔ TryAlong P step u is := by
        constructor
        · intro h
          exact h u hu
        · intro h t ht
          rw [hu] at ht
          exact Except.ok.inj ht ▸ h
      rw [ih hrun (hI s i u hu hs), hK s i u hu hs, TryAlong, hrest, and_assoc]

end Fallible
end Run
