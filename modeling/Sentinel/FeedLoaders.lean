import Sentinel.FeedReplace
import Sentinel.Lib.Run

/-!
Several workers loading feeds into one zone. A load is the sequence of its
critical sections: the generation bump, one apply section for each batch of
upserts, one section for each sweep call. The sections of one load, run without
interruption, are `sentinelFeedParse`; the workers' sections interleave freely.
-/

namespace Sentinel
open Function

/-- Where a load stands between two of its critical sections. -/
inductive FeedPhase where
  | bump
  | applying (generation : Nat) (lines : List Bytes) (applied : Nat)
  | sweeping (generation : Nat) (applied : Nat)
  | returned (reply : FeedReply)

/-- A call of `sentinel_feed_parse` on a feed with these body lines. -/
structure Loader where
  defaultTtl : Int
  now : Int
  lines : List Bytes
  phase : FeedPhase

/-- A call up to its first critical section: validation takes no lock. -/
def Loader.start (ngx : NgxCore) (data : Buffer) (defaultTtl now : Int) : Loader :=
  match feedValidate ngx data.data with
  | some body => ⟨defaultTtl, now, Lines.split (ch '\n') body, .bump⟩
  | none => ⟨defaultTtl, now, [], .returned ⟨.declined, 0⟩⟩

/-- The insert loop up to the next unlock: the lines that are left after a full
batch, or `none` when the loop is over. -/
def feedApplySection (ngx : NgxCore) (zone : Option Zone) (defaultTtl now : Int)
    (generation : Nat) (slab : Nat → Bool) :
    List Bytes → (applied : Nat) → Shctx → Option (List Bytes) × Nat × Shctx
  | [], applied, sh => (none, applied, sh)
  | line :: lines, applied, sh =>
      match feedApplyLine ngx defaultTtl now line with
      | none => feedApplySection ngx zone defaultTtl now generation slab lines applied sh
      | some d =>
          let r := feedUpsert ngx zone now generation sh d (slab applied)
          if r.1 ≠ .ok then (none, applied, r.2)
          else if (applied + 1) % ngxSentinelFeedApplyBatch = 0 then
            (some lines, applied + 1, r.2)
          else
            feedApplySection ngx zone defaultTtl now generation slab lines (applied + 1) r.2

def loaderSection (ngx : NgxCore) (zone : Option Zone) (slab : Nat → Bool) (ld : Loader)
    (sh : Shctx) : Loader × Shctx :=
  match ld.phase with
  | .bump =>
      let sh := { sh with csGeneration := sh.csGeneration + 1 }
      ({ ld with phase := .applying sh.csGeneration ld.lines 0 }, sh)
  | .applying generation lines applied =>
      match feedApplySection ngx zone ld.defaultTtl ld.now generation slab lines applied sh with
      | (some rest, applied, sh) => ({ ld with phase := .applying generation rest applied }, sh)
      | (none, applied, sh) => ({ ld with phase := .sweeping generation applied }, sh)
  | .sweeping generation applied =>
      let r := sentinelShmCrowdsecSweep ngx zone sh generation ngxSentinelFeedApplyBatch
      if r.1 = 0 then ({ ld with phase := .returned ⟨.ok, applied⟩ }, r.2) else (ld, r.2)
  | .returned _ => (ld, sh)

section Alone
variable {ngx : NgxCore} {zone : Option Zone} {slab : Nat → Bool}

/-- Sections of one load with nothing in between. -/
def Sections (ngx : NgxCore) (zone : Option Zone) (slab : Nat → Bool)
    (a b : Loader × Shctx) : Prop :=
  ∃ n, (fun s : Loader × Shctx => loaderSection ngx zone slab s.1 s.2)^[n] a = b

theorem Sections.refl (a : Loader × Shctx) : Sections ngx zone slab a a := ⟨0, rfl⟩

theorem Sections.step {a b : Loader × Shctx}
    (h : Sections ngx zone slab (loaderSection ngx zone slab a.1 a.2) b) :
    Sections ngx zone slab a b := by
  obtain ⟨n, h⟩ := h
  exact ⟨n + 1, by rw [iterate_succ_apply]; exact h⟩

/-- Releasing the lock between batches changes nothing by itself. -/
theorem applyLoop_eq_section (defaultTtl now : Int) (generation : Nat) (lines : List Bytes)
    (applied : Nat) (sh : Shctx) :
    feedApplyLoop ngx zone defaultTtl now generation slab lines applied sh =
      match feedApplySection ngx zone defaultTtl now generation slab lines applied sh with
      | (some rest, applied, sh) =>
          feedApplyLoop ngx zone defaultTtl now generation slab rest applied sh
      | (none, applied, sh) => (applied, sh) := by
  induction lines generalizing applied sh with
  | nil => rfl
  | cons l lines ih =>
      simp only [feedApplyLoop, feedApplySection]
      cases feedApplyLine ngx defaultTtl now l with
      | none => exact ih applied sh
      | some d =>
          by_cases herr :
              (feedUpsert ngx zone now generation sh d (slab applied)).1 ≠ .ok
          · simp only [if_pos herr]
          by_cases hbatch : (applied + 1) % ngxSentinelFeedApplyBatch = 0
          · simp only [if_neg herr, if_pos hbatch]
          · simp only [if_neg herr, if_neg hbatch]
            exact ih _ _

theorem section_shorter (defaultTtl now : Int) (generation : Nat) (lines : List Bytes)
    (applied : Nat) (sh : Shctx) {rest : List Bytes} {r : Nat × Shctx}
    (h : feedApplySection ngx zone defaultTtl now generation slab lines applied sh =
      (some rest, r)) : rest.length < lines.length := by
  induction lines generalizing applied sh with
  | nil => simp [feedApplySection] at h
  | cons l lines ih =>
      simp only [feedApplySection] at h
      split at h
      · exact Nat.lt_succ_of_lt (ih _ _ h)
      · split at h
        · simp at h
        split at h
        · simp only [Prod.mk.injEq, Option.some.injEq] at h
          simp [h.1]
        · exact Nat.lt_succ_of_lt (ih _ _ h)

theorem sections_apply (ld : Loader) (generation : Nat) :
    ∀ (lines : List Bytes) (applied : Nat) (sh : Shctx) (b : Loader × Shctx),
      let r := feedApplyLoop ngx zone ld.defaultTtl ld.now generation slab lines applied sh
      Sections ngx zone slab ({ ld with phase := .sweeping generation r.1 }, r.2) b →
      Sections ngx zone slab ({ ld with phase := .applying generation lines applied }, sh) b := by
  intro lines
  induction hlen : lines.length using Nat.strong_induction_on generalizing lines with
  | _ m ih =>
      intro applied sh b r h
      have hr : r = _ := applyLoop_eq_section ld.defaultTtl ld.now generation lines applied sh
      apply Sections.step
      simp only [loaderSection]
      rcases hs : feedApplySection ngx zone ld.defaultTtl ld.now generation slab lines applied sh
        with ⟨_ | rest, applied', sh'⟩
      · rw [hs] at hr
        rw [hr] at h
        exact h
      · rw [hs] at hr
        rw [hr] at h
        exact ih rest.length (hlen ▸ section_shorter _ _ _ _ _ _ hs) rest rfl applied' sh' b h

theorem sections_sweep (z : Zone) (ld : Loader) (generation applied fuel : Nat) :
    ∀ sh : Shctx, sh.Wf ngx → sh.queue.length < fuel →
      Sections ngx (some z) slab ({ ld with phase := .sweeping generation applied }, sh)
        ({ ld with phase := .returned ⟨.ok, applied⟩ },
          feedSweepLoop ngx (some z) generation fuel sh) := by
  induction fuel with
  | zero =>
      intro sh _ h
      omega
  | succ fuel ih =>
      intro sh wf hlen
      obtain ⟨hcount, hwf, -, hlen', -⟩ := sweep_spec z wf generation ngxSentinelFeedApplyBatch
      apply Sections.step
      simp only [loaderSection, feedSweepLoop]
      split
      · exact .refl _
      · exact ih _ hwf (by omega)

/-- A worker that is left alone runs `sentinel_feed_parse`. -/
theorem sections_eq_parse (z : Zone) {sh : Shctx} (wf : sh.Wf ngx) (data : Buffer)
    (defaultTtl now : Int) :
    let ld := Loader.start ngx data defaultTtl now
    let r := sentinelFeedParse ngx (some z) sh data defaultTtl now slab
    Sections ngx (some z) slab (ld, sh) ({ ld with phase := .returned r.1 }, r.2) := by
  cases hval : feedValidate ngx data.data with
  | none =>
      simp only [Loader.start, sentinelFeedParse, hval]
      exact .refl _
  | some body =>
      have hwf := (applyLoop_spec z defaultTtl now slab (Lines.split (ch '\n') body) 0 _
        (wf_bump wf)).2.1
      simp only [Loader.start, sentinelFeedParse, hval]
      apply Sections.step
      apply sections_apply
      exact sections_sweep z _ _ _ _ _ hwf (Nat.lt_succ_self _)

end Alone
section Section
variable {ngx : NgxCore}

/-- One apply section writes a run of the loader's decisions; `left` is what it
has yet to write, or what a refusal made it give up. -/
theorem applySection_spec (z : Zone) (defaultTtl now : Int) (generation : Nat)
    (slab : Nat → Bool) (lines : List Bytes) :
    ∀ (applied : Nat) (sh : Shctx), sh.Wf ngx → generation ≤ sh.csGeneration →
      let r := feedApplySection ngx (some z) defaultTtl now generation slab lines applied sh
      ∃ written left, feedDecisions ngx defaultTtl now lines = written ++ left ∧
        (∀ rest, r.1 = some rest → left = feedDecisions ngx defaultTtl now rest) ∧
        ((∀ i, slab i = true) → r.1 = none → left = []) ∧
        r.2.2.Wf ngx ∧ r.2.2.csGeneration = sh.csGeneration ∧
        ∀ k, Written (sh.get k) (r.2.2.get k) generation (lastDecision written k) := by
  induction lines with
  | nil =>
      intro applied sh wf _
      exact ⟨[], [], rfl, by simp [feedApplySection], fun _ _ => rfl, wf, rfl, fun _ => rfl⟩
  | cons l lines ih =>
      intro applied sh wf hg
      cases hl : feedApplyLine ngx defaultTtl now l with
      | none =>
          simpa only [feedApplySection, hl, feedDecisions, List.filterMap_cons_none hl] using
            ih applied sh wf hg
      | some d =>
          simp only [feedApplySection, hl, feedDecisions, List.filterMap_cons_some hl]
          by_cases hroom : slab applied = true ∨ (sh.get d.key).isSome
          · obtain ⟨hrc, hwf, hgen, n, hn, hget⟩ := feedUpsert_room z wf hg now d hroom
            have hstep := ih (applied + 1) _ hwf (hgen ▸ hg)
            generalize feedUpsert ngx (some z) now generation sh d (slab applied) = r
              at hrc hwf hgen hget hstep ⊢
            have hmid : ∀ k, if k = d.key then
                ∃ n, r.2.get k = some n ∧ Upserted n d.key d.expiry d.action generation
                else r.2.get k = sh.get k := by
              intro k
              rw [hget]
              by_cases hk : k = d.key
              · simpa only [hk, if_true] using ⟨n, rfl, hn⟩
              · simp only [hk, if_false]
            rw [if_neg (by simp [hrc])]
            split
            · refine ⟨[d], feedDecisions ngx defaultTtl now lines, rfl, ?_, by simp, hwf, hgen,
                fun k => ?_⟩
              · rintro rest ⟨⟩
                rfl
              · have hlast : Written (r.2.get k) (r.2.get k) generation (lastDecision [] k) := rfl
                rw [lastDecision_cons]
                exact hlast.cons (hmid k)
            · obtain ⟨written, left, hsplit, hrest, hover, hwf', hgen', hwritten⟩ := hstep
              refine ⟨d :: written, left, ?_, hrest, hover, hwf', hgen'.trans hgen,
                fun k => ?_⟩
              · rw [List.cons_append, ← hsplit, feedDecisions]
              · rw [lastDecision_cons]
                exact (hwritten k).cons (hmid k)
          · simp only [not_or, Bool.not_eq_true, Option.isSome_eq_false_iff,
              Option.isNone_iff_eq_none] at hroom
            obtain ⟨hslab, hnew⟩ := hroom
            have herror : (NgxRc.error, sh).1 ≠ NgxRc.ok := by simp
            rw [feedUpsert_refused z wf generation now d hslab hnew, if_pos herror]
            refine ⟨[], _, rfl, by simp, fun h => ?_, wf, rfl, fun _ => rfl⟩
            rw [h applied] at hslab
            contradiction

end Section

section System
variable {ι : Type} [DecidableEq ι]

structure FeedSystem (ι : Type) where
  sh : Shctx
  loaders : ι → Loader

/-- One critical section of worker `w`. -/
def feedSystemStep (ngx : NgxCore) (zone : Option Zone) (slab : Nat → Bool)
    (s : FeedSystem ι) (w : ι) : FeedSystem ι :=
  let r := loaderSection ngx zone slab (s.loaders w) s.sh
  { sh := r.2, loaders := update s.loaders w r.1 }

/-- The return code of a call that is over. -/
def FeedPhase.rc : FeedPhase → Option NgxRc
  | .returned reply => some reply.rc
  | _ => none

def FeedPhase.generation : FeedPhase → Option Nat
  | .applying generation _ _ => some generation
  | .sweeping generation _ => some generation
  | _ => none

/-- The decisions that a load has yet to write. -/
def Loader.pending (ngx : NgxCore) (ld : Loader) : List Decision :=
  match ld.phase with
  | .bump => feedDecisions ngx ld.defaultTtl ld.now ld.lines
  | .applying _ lines _ => feedDecisions ngx ld.defaultTtl ld.now lines
  | _ => []

omit [DecidableEq ι] in
/-- Some worker has yet to write a decision for `k`. -/
def FeedSystem.Pending (ngx : NgxCore) (s : FeedSystem ι) (k : Key) : Prop :=
  ∃ w, ∃ d ∈ (s.loaders w).pending ngx, d.key = k

/-- What one critical section does: all that any later proof needs of it. -/
inductive SectionEffect (ngx : NgxCore) (slab : Nat → Bool) (ld : Loader) (sh : Shctx) :
    Loader → Shctx → Prop where
  | bump : ld.phase = .bump →
      SectionEffect ngx slab ld sh
        { ld with phase := .applying (sh.csGeneration + 1) ld.lines 0 }
        { sh with csGeneration := sh.csGeneration + 1 }
  | write (generation : Nat) (written left : List Decision) (phase : FeedPhase) (sh' : Shctx) :
      (∃ lines applied, ld.phase = .applying generation lines applied) →
      ld.pending ngx = written ++ left →
      phase.generation = some generation →
      ((∀ i, slab i = true) → Loader.pending ngx { ld with phase := phase } = left) →
      sh'.Wf ngx → sh'.csGeneration = sh.csGeneration →
      (∀ k, Written (sh.get k) (sh'.get k) generation (lastDecision written k)) →
      SectionEffect ngx slab ld sh { ld with phase := phase } sh'
  | sweep (generation applied : Nat) (phase : FeedPhase) (sh' : Shctx) :
      ld.phase = .sweeping generation applied →
      (phase = .sweeping generation applied ∨
        phase = .returned ⟨.ok, applied⟩ ∧ ∀ n ∈ sh.queue, n.csGeneration = generation) →
      sh'.Wf ngx → sh'.csGeneration = sh.csGeneration →
      (∀ k, sh'.get k =
        if ∃ n ∈ crowdsecVictims generation ngxSentinelFeedApplyBatch sh, n.key = k then none
        else sh.get k) →
      SectionEffect ngx slab ld sh { ld with phase := phase } sh'
  | idle (reply : FeedReply) : ld.phase = .returned reply → SectionEffect ngx slab ld sh ld sh

/-- A load that sweeps, or has swept for the last time, has nothing to write. -/
theorem pending_sweep (ngx : NgxCore) {ld : Loader} {generation applied : Nat} {phase : FeedPhase}
    {reply : FeedReply} (hphase : ld.phase = .sweeping generation applied)
    (hend : phase = .sweeping generation applied ∨ phase = .returned reply) :
    ({ ld with phase := phase } : Loader).pending ngx = ld.pending ngx := by
  rcases hend with rfl | rfl <;> simp only [Loader.pending, hphase]

/-- What a sweep leaves was there before. -/
theorem mem_of_sweep {ngx : NgxCore} {sh sh' : Shctx} {p : Key → Prop} [DecidablePred p]
    (wf' : sh'.Wf ngx) (h : ∀ k, sh'.get k = if p k then none else sh.get k) {n : Node} (hn : n ∈ sh'.queue) :
    n ∈ sh.queue := by
  have hk := h n.key
  rw [get_of_mem wf' hn] at hk
  split at hk
  · contradiction
  · exact mem_of_get hk.symm

theorem loaderSection_effect {ngx : NgxCore} (z : Zone) (slab : Nat → Bool) (ld : Loader)
    {sh : Shctx} (wf : sh.Wf ngx)
    (hgen : ∀ g, ld.phase.generation = some g → g ≤ sh.csGeneration) :
    let r := loaderSection ngx (some z) slab ld sh
    SectionEffect ngx slab ld sh r.1 r.2 := by
  obtain ⟨defaultTtl, now, lines, phase⟩ := ld
  cases phase with
  | bump => exact .bump rfl
  | applying generation lines' applied =>
      obtain ⟨written, left, hsplit, hrest, hover, hwf, hgen', hwritten⟩ :=
        applySection_spec z defaultTtl now generation slab lines' applied sh wf
          (hgen generation rfl)
      simp only [loaderSection]
      rcases hs : feedApplySection ngx (some z) defaultTtl now generation slab lines' applied sh
        with ⟨_ | rest, applied', sh'⟩
      · rw [hs] at hover hwf hgen' hwritten
        exact .write generation written left _ _ ⟨_, _, rfl⟩ hsplit rfl
          (fun hroom => (hover hroom rfl).symm) hwf hgen' hwritten
      · rw [hs] at hrest hwf hgen' hwritten
        exact .write generation written left _ _ ⟨_, _, rfl⟩ hsplit rfl
          (fun _ => (hrest rest rfl).symm) hwf hgen' hwritten
  | sweeping generation applied =>
      obtain ⟨hcount, hwf, hgen', -, hget⟩ :=
        sweep_spec z wf generation ngxSentinelFeedApplyBatch
      simp only [loaderSection]
      split
      next hzero =>
        have hnil := List.eq_nil_of_length_eq_zero (hcount.symm.trans hzero)
        exact .sweep generation applied _ _ rfl
          (.inr ⟨rfl, (victims_eq_nil_iff (by decide)).mp hnil⟩) hwf hgen' hget
      next =>
        exact .sweep generation applied (.sweeping generation applied) _ rfl (.inl rfl) hwf hgen'
          hget
  | returned reply => exact .idle reply rfl

end System
end Sentinel
