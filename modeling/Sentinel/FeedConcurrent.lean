import Sentinel.FeedLoaders

/-!
Concurrent loads of one feed. A worker's sweep goes by the generation it took
itself, so a sweep may meet nodes that a worker with a later generation has
stamped. The loads agree on the feed's table exactly in the runs where no sweep
takes a decision of the feed that no worker is still going to write.
-/

namespace Sentinel
open Function

section Invariant
variable {ι : Type} {ngx : NgxCore} {g₀ : Nat} {ds : List Decision} {s : FeedSystem ι}

/-- What holds in every state of a run of loads of one feed with decisions `ds`
over a table with generation `g₀`. -/
structure FeedInv (ngx : NgxCore) (g₀ : Nat) (ds : List Decision) (s : FeedSystem ι) : Prop where
  wf : s.sh.Wf ngx
  gen_le : g₀ ≤ s.sh.csGeneration
  owned : ∀ w g, (s.loaders w).phase.generation = some g → g₀ < g ∧ g ≤ s.sh.csGeneration
  pending : ∀ w, (s.loaders w).pending ngx <:+ ds
  stamped : ∀ n ∈ s.sh.queue, g₀ < n.csGeneration → ∃ d ∈ ds, d.key = n.key
  swept : (∃ w, (s.loaders w).phase.rc.isSome) → ∀ n ∈ s.sh.queue, ∃ d ∈ ds, d.key = n.key

/-- A node of the new table is an old one, or has a written key. -/
theorem Written.mem {sh sh' : Shctx} {generation : Nat} {written : List Decision}
    (wf' : sh'.Wf ngx)
    (h : ∀ k, Written (sh.get k) (sh'.get k) generation (lastDecision written k))
    {n : Node} (hn : n ∈ sh'.queue) : n ∈ sh.queue ∨ ∃ d ∈ written, d.key = n.key := by
  have hk := h n.key
  rw [get_of_mem wf' hn] at hk
  cases hlast : lastDecision written n.key with
  | none =>
      rw [hlast] at hk
      exact .inl (mem_of_get (show sh.get n.key = some n from Eq.symm hk))
  | some d =>
      exact .inr (lastDecision_isSome_iff.mp (Option.isSome_iff_exists.mpr ⟨d, hlast⟩))

variable [DecidableEq ι]

theorem forall_update {s : FeedSystem ι} {P : Loader → Prop} {w : ι} {ld : Loader} (hw : P ld)
    (h : ∀ w, P (s.loaders w)) (w' : ι) : P (update s.loaders w ld w') := by
  rw [update_apply]
  split
  · exact hw
  · exact h w'

theorem returned_of_update {s : FeedSystem ι} {w : ι} {ld : Loader}
    (hld : ld.phase.rc = none)
    (h : ∃ w', (update s.loaders w ld w').phase.rc.isSome) :
    ∃ w', (s.loaders w').phase.rc.isSome := by
  obtain ⟨w', hw'⟩ := h
  rw [update_apply] at hw'
  split at hw'
  · rw [hld] at hw'
    contradiction
  · exact ⟨w', hw'⟩

theorem not_returned {phase : FeedPhase} {g : Nat} (h : phase.generation = some g) :
    phase.rc = none := by
  cases phase <;> first | rfl | simp [FeedPhase.generation] at h

/-- A step is one section of its worker, with the effect that such a section
has. -/
theorem FeedInv.step_effect (h : FeedInv ngx g₀ ds s) (z : Zone) (slab : Nat → Bool) (w : ι) :
    ∃ ld sh, feedSystemStep ngx (some z) slab s w = ⟨sh, update s.loaders w ld⟩ ∧
      SectionEffect ngx slab (s.loaders w) s.sh ld sh :=
  ⟨_, _, rfl, loaderSection_effect z slab (s.loaders w) h.wf fun g hg => (h.owned w g hg).2⟩

theorem feedInv_step (z : Zone) {slab : Nat → Bool} (hroom : ∀ i, slab i = true)
    (h : FeedInv ngx g₀ ds s) (w : ι) :
    FeedInv ngx g₀ ds (feedSystemStep ngx (some z) slab s w) := by
  obtain ⟨ld, sh, hstep, heff⟩ := h.step_effect z slab w
  rw [hstep]
  cases heff with
  | bump hphase =>
      have hpend := h.pending w
      refine ⟨wf_bump h.wf, Nat.le_succ_of_le h.gen_le, ?_, ?_, h.stamped, ?_⟩
      · refine fun w' => forall_update (P := fun ld => ∀ g, ld.phase.generation = some g →
          g₀ < g ∧ g ≤ s.sh.csGeneration + 1) ?_ ?_ w'
        · rintro g ⟨⟩
          exact ⟨Nat.lt_succ_of_le h.gen_le, Nat.le_refl _⟩
        · intro w' g hg
          obtain ⟨hlt, hle⟩ := h.owned w' g hg
          exact ⟨hlt, Nat.le_succ_of_le hle⟩
      · refine fun w' => forall_update (P := fun ld => ld.pending ngx <:+ ds) ?_ h.pending w'
        simpa only [Loader.pending, hphase] using hpend
      · exact fun hret => h.swept (returned_of_update rfl hret)
  | write generation written left phase sh' hg hsplit hphase hleft hwf hgen hwritten =>
      have hpend := h.pending w
      rw [hsplit] at hpend
      have hnode : ∀ n ∈ sh.queue, n ∈ s.sh.queue ∨ ∃ d ∈ ds, d.key = n.key := by
        intro n hn
        refine (Written.mem hwf hwritten hn).imp_right ?_
        rintro ⟨d, hd, hk⟩
        exact ⟨d, hpend.mem (List.mem_append_left _ hd), hk⟩
      refine ⟨hwf, hgen ▸ h.gen_le, ?_, ?_, ?_, ?_⟩
      · refine fun w' => forall_update (P := fun ld => ∀ g, ld.phase.generation = some g →
          g₀ < g ∧ g ≤ sh.csGeneration) ?_ (hgen ▸ h.owned) w'
        intro g hg'
        obtain rfl := Option.some.inj (hphase.symm.trans hg')
        obtain ⟨lines, applied, hw⟩ := hg
        exact hgen ▸ h.owned w generation (by rw [hw]; rfl)
      · refine fun w' => forall_update (P := fun ld => ld.pending ngx <:+ ds) ?_ h.pending w'
        rw [hleft hroom]
        exact (List.suffix_append _ _).trans hpend
      · intro n hn hlt
        exact (hnode n hn).elim (fun hold => h.stamped n hold hlt) id
      · intro hret n hn
        exact (hnode n hn).elim
          (h.swept (returned_of_update (not_returned hphase) hret) n) id
  | sweep generation applied phase sh' hphase hend hwf hgen hget =>
      have hgen₀ := h.owned w generation (by rw [hphase]; rfl)
      have hnode : ∀ n ∈ sh.queue, n ∈ s.sh.queue := fun n hn => mem_of_sweep hwf hget hn
      refine ⟨hwf, hgen ▸ h.gen_le, ?_, ?_, fun n hn => h.stamped n (hnode n hn), ?_⟩
      · refine fun w' => forall_update (P := fun ld => ∀ g, ld.phase.generation = some g →
          g₀ < g ∧ g ≤ sh.csGeneration) ?_ (hgen ▸ h.owned) w'
        intro g hg
        rcases hend with rfl | ⟨rfl, -⟩
        · obtain rfl := Option.some.inj hg
          exact hgen ▸ hgen₀
        · contradiction
      · refine fun w' => forall_update (P := fun ld => ld.pending ngx <:+ ds) ?_ h.pending w'
        rcases hend with rfl | ⟨rfl, -⟩ <;> exact List.nil_suffix
      · intro hret n hn
        rcases hend with rfl | ⟨-, hall⟩
        · exact h.swept (returned_of_update rfl hret) n (hnode n hn)
        · -- the sweep that found nothing: every stamp is of this run
          exact h.stamped n (hnode n hn) (hall n (hnode n hn) ▸ hgen₀.1)
  | idle reply hphase =>
      rw [update_eq_self]
      exact h

end Invariant

section Agreement
variable {ι : Type} {ngx : NgxCore} {g₀ : Nat} {ds : List Decision} {s : FeedSystem ι}

/-- The table has the feed's last decision for `k`. -/
def Served (ds : List Decision) (sh : Shctx) (k : Key) : Prop :=
  (sh.get k).map (fun n => (n.blockedUntil, n.csAction)) =
    (lastDecision ds k).map fun d => (d.expiry, d.action)

/-- The sweep call that worker `w` is about to make, if any, takes no decision
of the feed that nobody is going to write again. -/
def SweepSpares (ngx : NgxCore) (ds : List Decision) (s : FeedSystem ι) (w : ι) : Prop :=
  ∀ generation applied, (s.loaders w).phase = .sweeping generation applied →
    ∀ n ∈ crowdsecVictims generation ngxSentinelFeedApplyBatch s.sh,
      (∃ d ∈ ds, d.key = n.key) → s.Pending ngx n.key

/-- A decision of the feed is gone for good. -/
def Lost (ngx : NgxCore) (ds : List Decision) (s : FeedSystem ι) : Prop :=
  ∃ k, (∃ d ∈ ds, d.key = k) ∧ ¬ s.Pending ngx k ∧ s.sh.get k = none

theorem not_lost_of_served (h : ∀ k, Served ds s.sh k) : ¬ Lost ngx ds s := by
  rintro ⟨k, hk, -, hget⟩
  have hserved := h k
  rw [Served, hget, Option.map_none, eq_comm, Option.map_eq_none_iff] at hserved
  rw [← lastDecision_isSome_iff, hserved] at hk
  contradiction

/-- A run of writes from the end of the feed leaves the feed's own last value,
unless more writes of the key follow. -/
theorem lastDecision_of_suffix {written left : List Decision} {k : Key} {d : Decision}
    (hsuffix : written ++ left <:+ ds) (hleft : ∀ d ∈ left, d.key ≠ k)
    (hd : lastDecision written k = some d) : lastDecision ds k = some d := by
  obtain ⟨before, rfl⟩ := hsuffix
  rw [lastDecision_append, lastDecision_append, lastDecision_eq_none_iff.mpr hleft,
    Option.none_or, hd, Option.some_or]

theorem Served.congr {sh sh' : Shctx} {k : Key} (h : Served ds sh k)
    (hget : sh'.get k = sh.get k) : Served ds sh' k := by
  rw [Served, hget]
  exact h

variable [DecidableEq ι]

theorem pending_update (ngx : NgxCore) (s : FeedSystem ι) (w : ι) (ld : Loader) (sh : Shctx)
    (k : Key) :
    FeedSystem.Pending ngx ⟨sh, update s.loaders w ld⟩ k ↔
      (∃ d ∈ ld.pending ngx, d.key = k) ∨
        ∃ w', w' ≠ w ∧ ∃ d ∈ (s.loaders w').pending ngx, d.key = k := by
  rw [FeedSystem.Pending]
  dsimp only
  constructor
  · rintro ⟨w', d, hd, hk⟩
    by_cases hw : w' = w
    · subst hw
      rw [update_self] at hd
      exact .inl ⟨d, hd, hk⟩
    · rw [update_of_ne hw] at hd
      exact .inr ⟨w', hw, d, hd, hk⟩
  · rintro (⟨d, hd, hk⟩ | ⟨w', hw, d, hd, hk⟩)
    · exact ⟨w, d, by rwa [update_self], hk⟩
    · exact ⟨w', d, by rwa [update_of_ne hw], hk⟩

theorem pending_cases (ngx : NgxCore) (s : FeedSystem ι) (w : ι) (k : Key) :
    s.Pending ngx k ↔ (∃ d ∈ (s.loaders w).pending ngx, d.key = k) ∨
      ∃ w', w' ≠ w ∧ ∃ d ∈ (s.loaders w').pending ngx, d.key = k := by
  have h := pending_update ngx s w (s.loaders w) s.sh k
  rwa [update_eq_self] at h

/-- A section that writes nothing leaves what is pending. -/
theorem pending_congr {w : ι} {ld : Loader} {sh : Shctx} {k : Key}
    (h : ld.pending ngx = (s.loaders w).pending ngx) :
    FeedSystem.Pending ngx ⟨sh, update s.loaders w ld⟩ k ↔ s.Pending ngx k := by
  rw [pending_update, pending_cases ngx s w, h]

theorem served_step (z : Zone) {slab : Nat → Bool} (hroom : ∀ i, slab i = true)
    (h : FeedInv ngx g₀ ds s) {w : ι} (hspare : SweepSpares ngx ds s w)
    (hs : ∀ k, (∃ d ∈ ds, d.key = k) → s.Pending ngx k ∨ Served ds s.sh k) (k : Key)
    (hk : ∃ d ∈ ds, d.key = k) :
    (feedSystemStep ngx (some z) slab s w).Pending ngx k ∨
      Served ds (feedSystemStep ngx (some z) slab s w).sh k := by
  obtain ⟨ld, sh, hstep, heff⟩ := h.step_effect z slab w
  rw [hstep]
  cases heff with
  | bump hphase =>
      rw [pending_congr (by simp only [Loader.pending, hphase])]
      exact hs k hk
  | write generation written left phase sh' hg hsplit hphase hleft hwf hgen hwritten =>
      rw [pending_update, hleft hroom]
      by_cases hl : ∃ d ∈ left, d.key = k
      · exact .inl (.inl hl)
      by_cases hw : ∃ w', w' ≠ w ∧ ∃ d ∈ (s.loaders w').pending ngx, d.key = k
      · exact .inl (.inr hw)
      right
      have hnone : ∀ d ∈ left, d.key ≠ k := fun d hd he => hl ⟨d, hd, he⟩
      have hwk := hwritten k
      cases hlast : lastDecision written k with
      | none =>
          rw [hlast] at hwk
          refine Served.congr ((hs k hk).resolve_left ?_) hwk
          rw [pending_cases ngx s w, hsplit]
          rintro (⟨d, hd, he⟩ | h')
          · cases List.mem_append.mp hd with
            | inl hd => exact lastDecision_eq_none_iff.mp hlast d hd he
            | inr hd => exact hnone d hd he
          · exact hw h'
      | some d =>
          rw [hlast] at hwk
          obtain ⟨n, hn, -, hexp, hact, -⟩ := hwk
          have hpend := h.pending w
          rw [hsplit] at hpend
          rw [Served, hn, lastDecision_of_suffix hpend hnone hlast]
          simp [hexp, hact]
  | sweep generation applied phase sh' hphase hend hwf hgen hget =>
      have hsame := pending_sweep ngx hphase (hend.imp_right And.left)
      rw [pending_congr hsame]
      by_cases hv : ∃ n ∈ crowdsecVictims generation ngxSentinelFeedApplyBatch s.sh, n.key = k
      · obtain ⟨n, hn, rfl⟩ := hv
        exact .inl (hspare generation applied hphase n hn hk)
      · exact (hs k hk).imp_right fun hserved => hserved.congr (by rw [hget, if_neg hv])
  | idle reply hphase =>
      rw [update_eq_self]
      exact hs k hk

theorem lost_step (z : Zone) {slab : Nat → Bool} (hroom : ∀ i, slab i = true)
    (h : FeedInv ngx g₀ ds s) (w : ι) (hlost : Lost ngx ds s) :
    Lost ngx ds (feedSystemStep ngx (some z) slab s w) := by
  obtain ⟨ld, sh, hstep, heff⟩ := h.step_effect z slab w
  rw [hstep]
  obtain ⟨k, hk, hpend, hnone⟩ := hlost
  cases heff with
  | bump hphase =>
      refine ⟨k, hk, ?_, hnone⟩
      rwa [pending_congr (by simp only [Loader.pending, hphase])]
  | write generation written left phase sh' hg hsplit hphase hleft hwf hgen hwritten =>
      rw [pending_cases ngx s w, hsplit] at hpend
      simp only [not_or] at hpend
      obtain ⟨hown, hother⟩ := hpend
      refine ⟨k, hk, ?_, ?_⟩
      · rw [pending_update, hleft hroom]
        rintro (⟨d, hd, he⟩ | h')
        · exact hown ⟨d, List.mem_append_right _ hd, he⟩
        · exact hother h'
      · have hlast : lastDecision written k = none := by
          refine lastDecision_eq_none_iff.mpr fun d hd he => ?_
          exact hown ⟨d, List.mem_append_left _ hd, he⟩
        have hwk := hwritten k
        rw [hlast] at hwk
        exact Eq.trans hwk hnone
  | sweep generation applied phase sh' hphase hend hwf hgen hget =>
      have hsame := pending_sweep ngx hphase (hend.imp_right And.left)
      refine ⟨k, hk, ?_, ?_⟩
      · rwa [pending_congr hsame]
      · dsimp only
        rw [hget, hnone, ite_self]
  | idle reply hphase =>
      rw [update_eq_self]
      exact ⟨k, hk, hpend, hnone⟩

theorem lost_of_not_spared (z : Zone) {slab : Nat → Bool} (h : FeedInv ngx g₀ ds s) {w : ι}
    (hbad : ¬ SweepSpares ngx ds s w) :
    Lost ngx ds (feedSystemStep ngx (some z) slab s w) := by
  obtain ⟨ld, sh, hstep, heff⟩ := h.step_effect z slab w
  rw [hstep]
  rw [SweepSpares] at hbad
  push Not at hbad
  obtain ⟨generation, applied, hphase, n, hn, hk, hpend⟩ := hbad
  cases heff with
  | bump hphase' =>
      rw [hphase] at hphase'
      contradiction
  | write generation' written left phase sh' hg hsplit hphase' hleft hwf hgen hwritten =>
      obtain ⟨lines, applied', hw⟩ := hg
      rw [hphase] at hw
      contradiction
  | sweep generation' applied' phase sh' hphase' hend hwf hgen hget =>
      obtain ⟨rfl, rfl⟩ : generation = generation' ∧ applied = applied' := by
        simpa [hphase] using hphase'
      have hsame := pending_sweep ngx hphase (hend.imp_right And.left)
      refine ⟨n.key, hk, ?_, ?_⟩
      · rwa [pending_congr hsame]
      · dsimp only
        rw [hget, if_pos ⟨n, hn, rfl⟩]
  | idle reply hphase' =>
      rw [hphase] at hphase'
      contradiction

end Agreement
section Workers
variable {W : Nat}

/-- `W` workers that call the loader on the same feed. -/
def startLoads (ngx : NgxCore) (W : Nat) (sh : Shctx) (data : Buffer) (defaultTtl now : Int) :
    FeedSystem (Fin W) where
  sh := sh
  loaders := fun _ => Loader.start ngx data defaultTtl now

/-- A run of the workers' critical sections in the order of `schedule`. -/
def runLoads (ngx : NgxCore) (z : Zone) (s : FeedSystem (Fin W)) (schedule : List (Fin W)) :
    FeedSystem (Fin W) :=
  Run.exec (feedSystemStep ngx (some z) fun _ => true) s schedule

section Start
variable {ngx : NgxCore} {sh : Shctx} {data : Buffer} {defaultTtl now : Int}

theorem start_eq {lines : List Bytes} {trailer : Bytes}
    (hshape : FeedShape data.data lines trailer)
    (hacc : (feedValidate ngx data.data).isSome) :
    Loader.start ngx data defaultTtl now = ⟨defaultTtl, now, lines, .bump⟩ := by
  obtain ⟨body, hval⟩ := Option.isSome_iff_exists.mp hacc
  obtain ⟨lines', trailer', hshape', rfl, -⟩ := (feedValidate_eq_some_iff ngx data).mp hval
  obtain ⟨rfl, rfl⟩ := hshape.unique hshape'
  simp only [Loader.start, hval, Lines.split_join _ hshape.closed]

/-- A rejected feed is not loaded by anyone. -/
theorem accepted_of_rc (z : Zone) {schedule : List (Fin W)} {w : Fin W}
    (h : ((runLoads ngx z (startLoads ngx W sh data defaultTtl now) schedule).loaders
      w).phase.rc = some .ok) :
    (feedValidate ngx data.data).isSome := by
  cases hval : feedValidate ngx data.data with
  | some body => rfl
  | none =>
      have hstart : ∀ w : Fin W, ((startLoads ngx W sh data defaultTtl now).loaders w) =
          ⟨defaultTtl, now, [], .returned ⟨.declined, 0⟩⟩ := by
        intro w
        simp only [startLoads, Loader.start, hval]
      have hstep : ∀ (s : FeedSystem (Fin W)) w, s = startLoads ngx W sh data defaultTtl now →
          feedSystemStep ngx (some z) (fun _ => true) s w =
            startLoads ngx W sh data defaultTtl now := by
        rintro s w rfl
        simp only [feedSystemStep, hstart w, loaderSection]
        rw [← hstart w, update_eq_self]
      have hstay := Run.exec_invariant hstep rfl schedule
      rw [runLoads, hstay, hstart w] at h
      simp [FeedPhase.rc] at h

theorem feedInv_start (wf : sh.Wf ngx) {lines : List Bytes}
    (hstart : Loader.start ngx data defaultTtl now = ⟨defaultTtl, now, lines, .bump⟩) :
    FeedInv ngx sh.csGeneration (feedDecisions ngx defaultTtl now lines)
      (startLoads ngx W sh data defaultTtl now) where
  wf := wf
  gen_le := Nat.le_refl _
  owned := by
    intro w g hg
    simp only [startLoads, hstart] at hg
    contradiction
  pending := by
    intro w
    simp only [startLoads, hstart, Loader.pending]
    exact List.suffix_refl _
  stamped := fun n hn hlt => absurd (wf.gen_le n hn) (by omega)
  swept := by
    rintro ⟨w, hw⟩
    simp only [startLoads, hstart] at hw
    contradiction

end Start

/-- Once all calls have returned `NGX_OK`, the table is the feed's exactly when
every sweep call of the run spared the decisions that nobody was still to
write. -/
theorem concurrent_loads_agree_iff (ngx : NgxCore) (z : Zone) (hW : 0 < W) (sh : Shctx)
    (wf : sh.Wf ngx) (data : Buffer) (defaultTtl now : Int) (schedule : List (Fin W))
    (hdone : ∀ w, ((runLoads ngx z (startLoads ngx W sh data defaultTtl now)
      schedule).loaders w).phase.rc = some .ok)
    (lines : List Bytes) (trailer : Bytes) (hshape : FeedShape data.data lines trailer) :
    TableHolds ngx defaultTtl now lines
        (runLoads ngx z (startLoads ngx W sh data defaultTtl now) schedule).sh ↔
      Run.Along (SweepSpares ngx (feedDecisions ngx defaultTtl now lines))
        (feedSystemStep ngx (some z) fun _ => true) (startLoads ngx W sh data defaultTtl now)
        schedule := by
  rw [tableHolds_iff]
  have hroom : ∀ i : Nat, (fun _ => true) i = true := fun _ => rfl
  have hstart : Loader.start ngx data defaultTtl now = ⟨defaultTtl, now, lines, .bump⟩ :=
    start_eq hshape (accepted_of_rc z (hdone ⟨0, hW⟩))
  have hinv := feedInv_start (W := W) wf hstart
  generalize hds : feedDecisions ngx defaultTtl now lines = ds at hinv ⊢
  constructor
  · intro hserved
    exact Run.along_of_undamaged (fun s w h => feedInv_step z hroom h w)
      (fun s w h hbad => lost_of_not_spared z h hbad)
      (fun s w h hlost => lost_step z hroom h w hlost) hinv (not_lost_of_served hserved)
  · intro halong
    have hlive : ∀ k, (∃ d ∈ ds, d.key = k) →
        (startLoads ngx W sh data defaultTtl now).Pending ngx k ∨
          Served ds (startLoads ngx W sh data defaultTtl now).sh k := by
      rintro k ⟨d, hd, hk⟩
      refine .inl ⟨⟨0, hW⟩, d, ?_, hk⟩
      simpa only [startLoads, hstart, Loader.pending, hds] using hd
    obtain ⟨hend, hlive⟩ := Run.exec_invariant_along
      (I := fun s => FeedInv ngx sh.csGeneration ds s ∧
        ∀ k, (∃ d ∈ ds, d.key = k) → s.Pending ngx k ∨ Served ds s.sh k)
      (fun s w hspare h => ⟨feedInv_step z hroom h.1 w, served_step z hroom h.1 hspare h.2⟩)
      halong ⟨hinv, hlive⟩
    rw [runLoads] at hdone ⊢
    generalize Run.exec (feedSystemStep ngx (some z) fun _ => true)
      (startLoads ngx W sh data defaultTtl now) schedule = s at hend hlive hdone ⊢
    intro k
    have hpend : ¬ s.Pending ngx k := by
      rintro ⟨w, d, hd, -⟩
      have hw := hdone w
      rw [Loader.pending] at hd
      cases hphase : (s.loaders w).phase <;> simp [hphase, FeedPhase.rc] at hw hd
    by_cases hk : ∃ d ∈ ds, d.key = k
    · exact (hlive k hk).resolve_left hpend
    · have hnone : s.sh.get k = none := by
        rw [Option.eq_none_iff_forall_ne_some]
        intro n hn
        obtain ⟨d, hd, hdk⟩ := hend.swept ⟨⟨0, hW⟩, by rw [hdone]; rfl⟩ n (mem_of_get hn)
        exact hk ⟨d, hd, hdk.trans (get_key hn)⟩
      have hlast : lastDecision ds k = none :=
        lastDecision_eq_none_iff.mpr fun d hd he => hk ⟨d, hd, he⟩
      rw [hnone, hlast]
      rfl

/-- The first worker sweeps after the second has stamped its one decision anew;
the second has nothing left to write, and the table ends empty. -/
theorem concurrent_loads_lose :
    let data : Buffer :=
      ⟨str "# sentinel-crowdsec-feed v1\n1.2.3.4 ban 100\n%%EOF 1 9eb69a54\n", by decide⟩
    let lines := [str "1.2.3.4 ban 100"]
    let s := runLoads Ref.ngx ⟨0, 0, 0⟩
      (startLoads Ref.ngx 2 sentinelShmInitZone data 3600 50) [0, 0, 1, 1, 0, 0, 1]
    FeedShape data.data lines (str "%%EOF 1 9eb69a54") ∧
      (∀ w, (s.loaders w).phase.rc = some .ok) ∧ s.sh.queue.length = 0 ∧
      ¬ TableHolds Ref.ngx 3600 50 lines s.sh := by
  intro data lines s
  refine ⟨⟨⟨str "\n", by decide +kernel⟩, by decide +kernel, by decide +kernel, by decide +kernel,
    by decide +kernel⟩, by decide +kernel, by decide +kernel, ?_⟩
  rw [tableHolds_iff]
  intro h
  exact absurd (h (sentinelFeedDigest Ref.ngx (str "1.2.3.4"))) (by decide +kernel)

/-- One load after the other. -/
theorem serial_loads_agree_iff :
    let data : Buffer :=
      ⟨str "# sentinel-crowdsec-feed v1\n1.2.3.4 ban 100\n%%EOF 1 9eb69a54\n", by decide⟩
    let lines := [str "1.2.3.4 ban 100"]
    let start := startLoads Ref.ngx 2 sentinelShmInitZone data 3600 50
    let schedule : List (Fin 2) := [0, 0, 0, 1, 1, 1]
    TableHolds Ref.ngx 3600 50 lines (runLoads Ref.ngx ⟨0, 0, 0⟩ start schedule).sh ↔
      Run.Along (SweepSpares Ref.ngx (feedDecisions Ref.ngx 3600 50 lines))
        (feedSystemStep Ref.ngx (some ⟨0, 0, 0⟩) fun _ => true) start schedule :=
  concurrent_loads_agree_iff Ref.ngx _ (by decide) _ wf_init _ 3600 50 _ (by decide +kernel)
    _ (str "%%EOF 1 9eb69a54")
    ⟨⟨str "\n", by decide +kernel⟩, by decide +kernel, by decide +kernel, by decide +kernel,
      by decide +kernel⟩

end Workers
end Sentinel
