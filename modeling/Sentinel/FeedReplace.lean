import Sentinel.FeedAccept
import Sentinel.NgxRef

/-!
What one load does to the table, with no other writer: the decisions that found
room are there with the values of their last line, and nothing else is. A load
that meets no allocation failure is a full replace; one that does drops every
decision from the refused one on, also those the old table held.
-/

namespace Sentinel

/-- The decisions of a feed that have not run out, in the order of the lines. -/
def feedDecisions (ngx : NgxCore) (defaultTtl now : Int) (lines : List Bytes) :
    List Decision :=
  lines.filterMap (feedApplyLine ngx defaultTtl now)

def lastDecision (ds : List Decision) (k : Key) : Option Decision :=
  ds.reverse.find? fun d => d.key = k

/-- The decisions before the first refused one. A decision is refused when its
key is neither in the table nor earlier in the feed and the allocator, asked
after that many upserts, has no room. -/
def feedFits (slab : Nat → Bool) (known : Key → Bool) : (applied : Nat) → List Decision →
    List Decision
  | _, [] => []
  | applied, d :: ds =>
      if known d.key || slab applied then
        d :: feedFits slab (fun k => known k || k = d.key) (applied + 1) ds
      else []

def effectiveExpiry (defaultTtl now : Int) (e : FeedEntry) : Int :=
  if e.number = 0 then now + defaultTtl else e.number

/-- A decision line whose decision has not run out. -/
def LiveLine (ngx : NgxCore) (defaultTtl now : Int) (line : Bytes) (e : FeedEntry) : Prop :=
  DecisionLine ngx line e ∧ now < effectiveExpiry defaultTtl now e

/-- `e` is what the last live line for `k` says. -/
def LastLine (ngx : NgxCore) (defaultTtl now : Int) (lines : List Bytes) (k : Key)
    (e : FeedEntry) : Prop :=
  ∃ before line after, lines = before ++ line :: after ∧ LiveLine ngx defaultTtl now line e ∧
    sentinelFeedDigest ngx e.ip = k ∧
    ∀ l ∈ after, ∀ e', LiveLine ngx defaultTtl now l e' → sentinelFeedDigest ngx e'.ip ≠ k

/-- The table holds the decisions of these lines: every address with a live
line, with the values of its last one, and no other key. -/
def TableHolds (ngx : NgxCore) (defaultTtl now : Int) (lines : List Bytes) (sh : Shctx) : Prop :=
  (∀ k, (sh.get k).isSome ↔ ∃ line ∈ lines, ∃ e,
    LiveLine ngx defaultTtl now line e ∧ sentinelFeedDigest ngx e.ip = k) ∧
  ∀ k n, sh.get k = some n → ∃ e, LastLine ngx defaultTtl now lines k e ∧
    n.blockedUntil = effectiveExpiry defaultTtl now e ∧ n.csAction = e.action

open Classical in
noncomputable def expiredCount (ngx : NgxCore) (defaultTtl now : Int) (lines : List Bytes) :
    Nat :=
  lines.countP fun l => ∃ e, DecisionLine ngx l e ∧ effectiveExpiry defaultTtl now e ≤ now

section Decisions

theorem lastDecision_cons (d : Decision) (ds : List Decision) (k : Key) :
    lastDecision (d :: ds) k =
      (lastDecision ds k).or (if d.key = k then some d else none) := by
  simp only [lastDecision, List.reverse_cons, List.find?_append, List.find?_singleton,
    decide_eq_true_eq]

theorem lastDecision_append (ds ds' : List Decision) (k : Key) :
    lastDecision (ds ++ ds') k = (lastDecision ds' k).or (lastDecision ds k) := by
  simp only [lastDecision, List.reverse_append, List.find?_append]

theorem lastDecision_eq_none_iff {ds : List Decision} {k : Key} :
    lastDecision ds k = none ↔ ∀ d ∈ ds, d.key ≠ k := by
  simp [lastDecision]

theorem lastDecision_key {ds : List Decision} {k : Key} {d : Decision}
    (h : lastDecision ds k = some d) : d.key = k := by
  simpa using List.find?_some h

theorem lastDecision_isSome_iff {ds : List Decision} {k : Key} :
    (lastDecision ds k).isSome ↔ ∃ d ∈ ds, d.key = k := by
  simp [lastDecision]

theorem feedFits_of_room {slab : Nat → Bool} (h : ∀ i, slab i = true) (known : Key → Bool)
    (applied : Nat) (ds : List Decision) : feedFits slab known applied ds = ds := by
  induction ds generalizing known applied with
  | nil => rfl
  | cons d ds ih => simp [feedFits, h applied, ih]

theorem feedFits_initial (slab : Nat → Bool) (known : Key → Bool) (applied : Nat)
    (ds : List Decision) : feedFits slab known applied ds <+: ds := by
  induction ds generalizing known applied with
  | nil => exact List.prefix_refl _
  | cons d ds ih =>
      rw [feedFits]
      split
      · exact List.cons_prefix_cons.mpr ⟨rfl, ih _ _⟩
      · exact List.nil_prefix

end Decisions

section Load
variable {ngx : NgxCore} {sh : Shctx}

theorem wf_bump (wf : sh.Wf ngx) :
    ({ sh with csGeneration := sh.csGeneration + 1 } : Shctx).Wf ngx where
  sorted := wf.sorted
  perm := wf.perm
  hash_eq := wf.hash_eq
  gen_le := fun n hn => Nat.le_succ_of_le (wf.gen_le n hn)

/-- The entry a key has after a list of decisions was written over `old`. -/
def Written (old new : Option Node) (generation : Nat) : Option Decision → Prop
  | none => new = old
  | some d => ∃ n, new = some n ∧ Upserted n d.key d.expiry d.action generation

theorem feedUpsert_room (zone : Zone) (wf : sh.Wf ngx) {generation : Nat}
    (hg : generation ≤ sh.csGeneration) (now : Int) (d : Decision) {slab : Bool}
    (hroom : slab = true ∨ (sh.get d.key).isSome) :
    let r := feedUpsert ngx (some zone) now generation sh d slab
    r.1 = .ok ∧ r.2.Wf ngx ∧ r.2.csGeneration = sh.csGeneration ∧
      ∃ n, Upserted n d.key d.expiry d.action generation ∧
        ∀ k, r.2.get k = if k = d.key then some n else sh.get k :=
  upsert_spec zone d.expiry d.action now false wf hg hroom

theorem feedUpsert_refused (zone : Zone) (wf : sh.Wf ngx) (generation : Nat) (now : Int)
    (d : Decision) {slab : Bool} (hslab : slab = false) (hnew : sh.get d.key = none) :
    feedUpsert ngx (some zone) now generation sh d slab = (.error, sh) :=
  upsert_refused zone wf hslab hnew

theorem Written.cons {old mid new : Option Node} {generation : Nat} {d : Decision}
    {last : Option Decision} {k : Key} (hlast : Written mid new generation last)
    (hmid : if k = d.key then ∃ n, mid = some n ∧ Upserted n d.key d.expiry d.action generation
      else mid = old) :
    Written old new generation (last.or (if d.key = k then some d else none)) := by
  cases last with
  | some d' => exact hlast
  | none =>
      have hnew : new = mid := hlast
      rw [hnew, Option.none_or]
      by_cases hk : k = d.key
      · rw [if_pos hk] at hmid
        rw [if_pos hk.symm]
        exact hmid
      · rw [if_neg hk] at hmid
        rw [if_neg fun h => hk h.symm]
        exact hmid

theorem Written.values {new : Option Node} {generation : Nat} {last : Option Decision}
    (h : Written none new generation last) :
    new.map (fun n => (n.blockedUntil, n.csAction)) =
      last.map fun d => (d.expiry, d.action) := by
  cases last with
  | none =>
      rw [show new = none from h]
      rfl
  | some d =>
      obtain ⟨n, rfl, -, hexp, hact, -⟩ := h
      simp [hexp, hact]

theorem Written.stamp {new : Option Node} {generation : Nat} {last : Option Decision}
    (h : Written none new generation last) {n : Node} (hn : new = some n) :
    n.csGeneration = generation := by
  subst hn
  cases last with
  | none => exact absurd h (by simp [Written])
  | some d =>
      obtain ⟨m, hm, -, -, -, hgen⟩ := h
      rw [Option.some.inj hm, hgen]

/-- The insert loop writes the decisions that fit, one after the other. -/
theorem applyLoop_spec (zone : Zone) (defaultTtl now : Int) (slab : Nat → Bool)
    (lines : List Bytes) :
    ∀ (applied : Nat) (sh : Shctx), sh.Wf ngx →
      let r := feedApplyLoop ngx (some zone) defaultTtl now sh.csGeneration slab lines applied sh
      let fit := feedFits slab (fun k => (sh.get k).isSome) applied
        (feedDecisions ngx defaultTtl now lines)
      r.1 = applied + fit.length ∧ r.2.Wf ngx ∧ r.2.csGeneration = sh.csGeneration ∧
        ∀ k, Written (sh.get k) (r.2.get k) sh.csGeneration (lastDecision fit k) := by
  induction lines with
  | nil =>
      intro applied sh wf
      exact ⟨rfl, wf, rfl, fun _ => rfl⟩
  | cons l lines ih =>
      intro applied sh wf
      cases hl : feedApplyLine ngx defaultTtl now l with
      | none =>
          simpa only [feedApplyLoop, hl, feedDecisions, List.filterMap_cons_none hl] using
            ih applied sh wf
      | some d =>
          simp only [feedApplyLoop, hl, feedDecisions, List.filterMap_cons_some hl, feedFits]
          by_cases hroom : slab applied = true ∨ (sh.get d.key).isSome
          · obtain ⟨hrc, hwf, hgen, n, hn, hget⟩ :=
              feedUpsert_room zone wf (Nat.le_refl _) now d hroom
            have hfit : ((sh.get d.key).isSome || slab applied) = true := by
              simpa [or_comm] using hroom
            have hstep := ih (applied + 1) _ hwf
            generalize feedUpsert ngx (some zone) now sh.csGeneration sh d (slab applied) = r
              at hrc hwf hgen hget hstep ⊢
            have hknown : (fun k => (sh.get k).isSome || decide (k = d.key)) =
                fun k => (r.2.get k).isSome := by
              funext k
              rw [hget]
              by_cases hk : k = d.key <;> simp [hk]
            rw [if_pos hfit, hknown, if_neg (by simp [hrc])]
            rw [hgen] at hstep
            obtain ⟨hcount, hwf', hgen', hwritten⟩ := hstep
            refine ⟨?_, hwf', hgen', fun k => ?_⟩
            · rw [hcount]
              simp only [feedDecisions, List.length_cons]
              omega
            · rw [lastDecision_cons]
              refine (hwritten k).cons ?_
              rw [hget]
              by_cases hk : k = d.key
              · simpa only [hk, if_true] using ⟨n, rfl, hn⟩
              · simp only [hk, if_false]
          · simp only [not_or, Bool.not_eq_true, Option.isSome_eq_false_iff,
              Option.isNone_iff_eq_none] at hroom
            obtain ⟨hslab, hnew⟩ := hroom
            have hfit : ¬ ((sh.get d.key).isSome || slab applied) = true := by
              simp [hslab, hnew]
            have herror : (NgxRc.error, sh).1 ≠ NgxRc.ok := by simp
            rw [feedUpsert_refused zone wf sh.csGeneration now d hslab hnew, if_neg hfit,
              if_pos herror]
            exact ⟨rfl, wf, rfl, fun _ => rfl⟩

/-- The sweep loop leaves the nodes of its generation, and only these. -/
theorem sweepLoop_get (zone : Zone) (generation fuel : Nat) :
    ∀ (sh : Shctx), sh.Wf ngx → sh.queue.length < fuel →
      let r := feedSweepLoop ngx (some zone) generation fuel sh
      r.Wf ngx ∧ r.csGeneration = sh.csGeneration ∧
        ∀ k, r.get k = (sh.get k).filter fun n => n.csGeneration = generation := by
  induction fuel with
  | zero =>
      intro sh _ h
      omega
  | succ fuel ih =>
      intro sh wf hlen
      obtain ⟨hcount, hwf, hgen, hlen', hget⟩ :=
        sweep_spec zone wf generation ngxSentinelFeedApplyBatch
      simp only [feedSweepLoop]
      split
      next hzero =>
        have hnil : crowdsecVictims generation ngxSentinelFeedApplyBatch sh = [] :=
          List.eq_nil_of_length_eq_zero (hcount.symm.trans hzero)
        have hall := (victims_eq_nil_iff (by decide)).mp hnil
        refine ⟨hwf, hgen, fun k => ?_⟩
        rw [hget, hnil]
        cases hk : sh.get k with
        | none => rfl
        | some n => simp [Option.filter, hall n (mem_of_get hk)]
      next hpos =>
        obtain ⟨hwf', hgen', hget'⟩ := ih _ hwf (by omega)
        refine ⟨hwf', hgen'.trans hgen, fun k => ?_⟩
        rw [hget', hget]
        split
        next hv =>
          obtain ⟨n, hn, rfl⟩ := hv
          obtain ⟨hmem, hstale⟩ := mem_victims hn
          simp [get_of_mem wf hmem, Option.filter, hstale]
        next => rfl

/-- A load of an accepted feed, in one equation for each key. -/
theorem load_spec (zone : Zone) (wf : sh.Wf ngx) {data : Buffer} {body : Bytes}
    (hval : feedValidate ngx data.data = some body) (defaultTtl now : Int)
    (slab : Nat → Bool) :
    let r := sentinelFeedParse ngx (some zone) sh data defaultTtl now slab
    let fit := feedFits slab (fun k => (sh.get k).isSome) 0
      (feedDecisions ngx defaultTtl now (Lines.split (ch '\n') body))
    r.1 = ⟨.ok, fit.length⟩ ∧ r.2.Wf ngx ∧ r.2.csGeneration = sh.csGeneration + 1 ∧
      ∀ k, Written none (r.2.get k) (sh.csGeneration + 1) (lastDecision fit k) := by
  obtain ⟨hcount, hwf, hgen, hwritten⟩ := applyLoop_spec zone defaultTtl now slab
    (Lines.split (ch '\n') body) 0 _ (wf_bump wf)
  simp only [sentinelFeedParse, hval]
  obtain ⟨hwf', hgen', hget⟩ := sweepLoop_get zone (sh.csGeneration + 1) _ _ hwf
    (Nat.lt_succ_self _)
  refine ⟨by simp [hcount, Shctx.get], hwf', hgen'.trans hgen, fun k => ?_⟩
  rw [hget]
  have hk := hwritten k
  change Written (sh.get k) _ _ (lastDecision (feedFits slab (fun k => (sh.get k).isSome) 0 _) k)
    at hk
  cases hlast : lastDecision (feedFits slab (fun k => (sh.get k).isSome) 0
      (feedDecisions ngx defaultTtl now (Lines.split (ch '\n') body))) k with
  | none =>
      rw [hlast] at hk
      -- an old node has an older stamp, so the sweep took it
      rw [show _ = sh.get k from hk]
      cases hold : sh.get k with
      | none => rfl
      | some n =>
          have := wf.gen_le n (mem_of_get hold)
          have hne : ¬ n.csGeneration = sh.csGeneration + 1 := by omega
          simp [Written, Option.filter, hne]
  | some d =>
      rw [hlast] at hk
      obtain ⟨n, hn, hup⟩ := hk
      rw [hn]
      refine ⟨n, ?_, hup⟩
      simp [Option.filter, hup.2.2.2]

end Load
section Lines
variable {ngx : NgxCore} {defaultTtl now : Int} {lines : List Bytes} {k : Key}

theorem DecisionLine.unique {line : Bytes} {e e' : FeedEntry} (h : DecisionLine ngx line e)
    (h' : DecisionLine ngx line e') : e = e' := by
  have hs := feedApplyScan_eq_some_iff.mpr h
  rw [feedApplyScan_eq_some_iff.mpr h'] at hs
  cases e
  cases e'
  simp only [Option.some.injEq, Prod.mk.injEq] at hs
  simp [hs]

theorem feedApplyLine_eq_some_iff {line : Bytes} {d : Decision} :
    feedApplyLine ngx defaultTtl now line = some d ↔
      ∃ e, LiveLine ngx defaultTtl now line e ∧
        d = ⟨sentinelFeedDigest ngx e.ip, effectiveExpiry defaultTtl now e, e.action⟩ := by
  rw [feedApplyLine]
  cases hscan : feedApplyScan ngx line with
  | none =>
      simp only [reduceCtorEq, false_iff]
      rintro ⟨e, ⟨h, -⟩, -⟩
      rw [feedApplyScan_eq_some_iff.mpr h] at hscan
      contradiction
  | some f =>
      obtain ⟨ip, action, n⟩ := f
      have hline := feedApplyScan_eq_some_iff.mp hscan
      change (if effectiveExpiry defaultTtl now ⟨ip, action, n⟩ ≤ now then none else
        some ⟨sentinelFeedDigest ngx ip, effectiveExpiry defaultTtl now ⟨ip, action, n⟩,
          action⟩) = some d ↔ _
      split
      next hexp =>
        simp only [reduceCtorEq, false_iff]
        rintro ⟨e, ⟨h, hlive⟩, -⟩
        obtain rfl := h.unique hline
        omega
      next hexp =>
        rw [Option.some.injEq]
        constructor
        · rintro rfl
          exact ⟨_, ⟨hline, by omega⟩, rfl⟩
        · rintro ⟨e, ⟨h, -⟩, rfl⟩
          obtain rfl := h.unique hline
          rfl

theorem mem_feedDecisions {d : Decision} :
    d ∈ feedDecisions ngx defaultTtl now lines ↔
      ∃ line ∈ lines, ∃ e, LiveLine ngx defaultTtl now line e ∧
        d = ⟨sentinelFeedDigest ngx e.ip, effectiveExpiry defaultTtl now e, e.action⟩ := by
  simp only [feedDecisions, List.mem_filterMap, feedApplyLine_eq_some_iff]

theorem LastLine.cons {line : Bytes} {e : FeedEntry}
    (h : LastLine ngx defaultTtl now lines k e) :
    LastLine ngx defaultTtl now (line :: lines) k e := by
  obtain ⟨before, l, after, rfl, h⟩ := h
  exact ⟨line :: before, l, after, rfl, h⟩

theorem lastDecision_feed {d : Decision}
    (h : lastDecision (feedDecisions ngx defaultTtl now lines) k = some d) :
    ∃ e, LastLine ngx defaultTtl now lines k e ∧
      d = ⟨sentinelFeedDigest ngx e.ip, effectiveExpiry defaultTtl now e, e.action⟩ := by
  induction lines with
  | nil => simp [feedDecisions, lastDecision] at h
  | cons l lines ih =>
      cases hl : feedApplyLine ngx defaultTtl now l with
      | none =>
          rw [feedDecisions, List.filterMap_cons_none hl] at h
          obtain ⟨e, he, hd⟩ := ih h
          exact ⟨e, he.cons, hd⟩
      | some c =>
          rw [feedDecisions, List.filterMap_cons_some hl, lastDecision_cons] at h
          cases hlast : lastDecision (feedDecisions ngx defaultTtl now lines) k with
          | some d' =>
              rw [← feedDecisions, hlast, Option.some_or, Option.some.injEq] at h
              subst h
              obtain ⟨e, he, hd⟩ := ih hlast
              exact ⟨e, he.cons, hd⟩
          | none =>
              rw [← feedDecisions, hlast, Option.none_or] at h
              split at h
              next hc =>
                obtain rfl := Option.some.inj h
                obtain ⟨e, he, rfl⟩ := feedApplyLine_eq_some_iff.mp hl
                refine ⟨e, ⟨[], l, lines, rfl, he, hc, ?_⟩, rfl⟩
                intro m hm e' hlive hk
                have hmem := mem_feedDecisions.mpr ⟨m, hm, e', hlive, rfl⟩
                have hsome := lastDecision_isSome_iff.mpr ⟨_, hmem, hk⟩
                rw [hlast] at hsome
                contradiction
              next => contradiction

theorem LastLine.lastDecision {e : FeedEntry} (h : LastLine ngx defaultTtl now lines k e) :
    lastDecision (feedDecisions ngx defaultTtl now lines) k =
      some ⟨sentinelFeedDigest ngx e.ip, effectiveExpiry defaultTtl now e, e.action⟩ := by
  obtain ⟨before, line, after, rfl, hlive, hk, hafter⟩ := h
  have hline := feedApplyLine_eq_some_iff.mpr ⟨e, hlive, rfl⟩
  have hnone : Sentinel.lastDecision (feedDecisions ngx defaultTtl now after) k = none := by
    refine lastDecision_eq_none_iff.mpr fun d hd => ?_
    obtain ⟨l, hl, e', he', rfl⟩ := mem_feedDecisions.mp hd
    exact hafter l hl e' he'
  simp only [feedDecisions] at hnone
  rw [feedDecisions, List.filterMap_append, List.filterMap_cons_some hline, lastDecision_append,
    lastDecision_cons, hnone, Option.none_or, if_pos hk, Option.some_or]

theorem tableHolds_iff {sh : Shctx} :
    TableHolds ngx defaultTtl now lines sh ↔
      ∀ k, (sh.get k).map (fun n => (n.blockedUntil, n.csAction)) =
        (lastDecision (feedDecisions ngx defaultTtl now lines) k).map
          fun d => (d.expiry, d.action) := by
  have hlisted : ∀ k, (lastDecision (feedDecisions ngx defaultTtl now lines) k).isSome ↔
      ∃ line ∈ lines, ∃ e, LiveLine ngx defaultTtl now line e ∧
        sentinelFeedDigest ngx e.ip = k := by
    intro k
    simp only [lastDecision_isSome_iff, mem_feedDecisions]
    constructor
    · rintro ⟨d, ⟨line, hline, e, he, rfl⟩, rfl⟩
      exact ⟨line, hline, e, he, rfl⟩
    · rintro ⟨line, hline, e, he, rfl⟩
      exact ⟨_, ⟨line, hline, e, he, rfl⟩, rfl⟩
  constructor
  · rintro ⟨hkeys, hvals⟩ k
    cases hget : sh.get k with
    | none =>
        have hk : ¬ (lastDecision (feedDecisions ngx defaultTtl now lines) k).isSome := by
          rw [hlisted, ← hkeys, hget]
          simp
        rw [Option.not_isSome_iff_eq_none.mp hk]
        rfl
    | some n =>
        obtain ⟨e, he, hexp, hact⟩ := hvals k n hget
        rw [he.lastDecision, Option.map_some, Option.map_some, hexp, hact]
  · intro h
    refine ⟨fun k => ?_, fun k n hn => ?_⟩
    · rw [← hlisted, ← Option.isSome_map, h k, Option.isSome_map]
    · have hk := h k
      rw [hn, Option.map_some] at hk
      obtain ⟨d, hd, hval⟩ := Option.map_eq_some_iff.mp hk.symm
      obtain ⟨e, he, rfl⟩ := lastDecision_feed hd
      rw [Prod.mk.injEq] at hval
      exact ⟨e, he, hval.1.symm, hval.2.symm⟩

/-- A decision line is live or expired, and not both. -/
theorem validCount_eq (ngx : NgxCore) (defaultTtl now : Int) (lines : List Bytes) :
    validCount ngx lines =
      (feedDecisions ngx defaultTtl now lines).length + expiredCount ngx defaultTtl now lines := by
  rw [validCount, expiredCount]
  induction lines with
  | nil => rfl
  | cons l lines ih =>
      rw [List.countP_cons, List.countP_cons, ih]
      by_cases hvalid : ∃ e, DecisionLine ngx l e
      · obtain ⟨e, he⟩ := hvalid
        have hv : ∃ e, DecisionLine ngx l e := ⟨e, he⟩
        by_cases hlive : now < effectiveExpiry defaultTtl now e
        · have hsome := feedApplyLine_eq_some_iff.mpr ⟨e, ⟨he, hlive⟩, rfl⟩
          have hx : ¬ ∃ e, DecisionLine ngx l e ∧ effectiveExpiry defaultTtl now e ≤ now := by
            rintro ⟨e', he', hexp⟩
            obtain rfl := he.unique he'
            omega
          simp only [feedDecisions, List.filterMap_cons_some hsome, List.length_cons, hv, hx,
            decide_true, decide_false, if_true, if_false, Bool.false_eq_true]
          omega
        · have hx : ∃ e, DecisionLine ngx l e ∧ effectiveExpiry defaultTtl now e ≤ now :=
            ⟨e, he, by omega⟩
          have hnone : feedApplyLine ngx defaultTtl now l = none := by
            rw [Option.eq_none_iff_forall_ne_some]
            intro d hd
            obtain ⟨e', ⟨he', hlive'⟩, -⟩ := feedApplyLine_eq_some_iff.mp hd
            obtain rfl := he.unique he'
            exact hlive hlive'
          simp only [feedDecisions, List.filterMap_cons_none hnone, hv, hx, decide_true, if_true]
          omega
      · have hx : ¬ ∃ e, DecisionLine ngx l e ∧ effectiveExpiry defaultTtl now e ≤ now := by
          rintro ⟨e, he, -⟩
          exact hvalid ⟨e, he⟩
        have hnone : feedApplyLine ngx defaultTtl now l = none := by
          rw [Option.eq_none_iff_forall_ne_some]
          intro d hd
          obtain ⟨e, ⟨he, -⟩, -⟩ := feedApplyLine_eq_some_iff.mp hd
          exact hvalid ⟨e, he⟩
        simp only [feedDecisions, List.filterMap_cons_none hnone, hvalid, hx, decide_false,
          if_false, Bool.false_eq_true]
        omega

theorem TrailerLine.count_eq {line : Bytes} {count count' : Nat} {crc crc' : UInt32}
    (h : TrailerLine line count crc) (h' : TrailerLine line count' crc') : count = count' := by
  obtain ⟨cnt, hex, rfl, -, hdig, rfl, -⟩ := h
  obtain ⟨cnt', hex', hline, -, hdig', rfl, -⟩ := h'
  have hcnt := Lines.append_inj _ (digits_no_space hdig) (digits_no_space hdig')
    (List.append_cancel_left hline)
  rw [hcnt.1]

end Lines

section Replace
variable (ngx : NgxCore) (zone : Option Zone) (sh : Shctx) (data : Buffer) (defaultTtl now : Int)

/-- An accepted load has an attached zone and an accepted body. -/
theorem exists_body_of_ok {slab : Nat → Bool}
    (hok : (sentinelFeedParse ngx zone sh data defaultTtl now slab).1.rc = .ok) :
    ∃ z body, zone = some z ∧ feedValidate ngx data.data = some body := by
  simp only [sentinelFeedParse] at hok
  split at hok
  · contradiction
  next z =>
    split at hok
    · contradiction
    next body hval => exact ⟨z, body, rfl, hval⟩

/-- A successful load is a full replace. -/
theorem feed_load_replaces (wf : sh.Wf ngx)
    (hok : (sentinelFeedParse ngx zone sh data defaultTtl now fun _ => true).1.rc = .ok) :
    let r := sentinelFeedParse ngx zone sh data defaultTtl now fun _ => true
    ∃ lines trailer, FeedShape data.data lines trailer ∧
      TableHolds ngx defaultTtl now lines r.2 ∧
      (∀ n ∈ r.2.queue, n.csGeneration = sh.csGeneration + 1) ∧
      (∀ line ∈ lines, feedCountLine ngx line = .decision ↔ (feedApplyScan ngx line).isSome) ∧
      ∀ count crc, TrailerLine (feedStripCr trailer) count crc →
        count = r.1.entries + expiredCount ngx defaultTtl now lines := by
  obtain ⟨z, body, rfl, hval⟩ := exists_body_of_ok ngx zone sh data defaultTtl now hok
  obtain ⟨lines, trailer, hshape, rfl, htrailer, -⟩ := (feedValidate_eq_some_iff ngx data).mp hval
  obtain ⟨hreply, hwf, -, hget⟩ := load_spec z wf hval defaultTtl now fun _ => true
  simp only [Lines.split_join _ hshape.closed, feedFits_of_room (fun _ => rfl)] at hreply hget
  intro r
  refine ⟨lines, trailer, hshape, tableHolds_iff.mpr fun k => ?_, fun n hn => ?_,
    fun line _ => ?_, fun count crc hline => ?_⟩
  · exact (hget k).values
  · exact (hget n.key).stamp (get_of_mem hwf hn)
  · rw [countLine_decision_iff, Option.isSome_iff_exists]
    constructor
    · rintro ⟨e, he⟩
      exact ⟨_, feedApplyScan_eq_some_iff.mpr he⟩
    · rintro ⟨f, hf⟩
      exact ⟨⟨f.1, f.2.1, f.2.2⟩, feedApplyScan_eq_some_iff.mp hf⟩
  · rw [hline.count_eq htrailer, validCount_eq ngx defaultTtl now]
    simp [r, hreply]

/-- No load spoils the table. -/
theorem wf_parse (wf : sh.Wf ngx) (slab : Nat → Bool) :
    (sentinelFeedParse ngx zone sh data defaultTtl now slab).2.Wf ngx := by
  cases zone with
  | none => exact wf
  | some z =>
      cases hval : feedValidate ngx data.data with
      | none => simpa only [sentinelFeedParse, hval] using wf
      | some body => exact (load_spec z wf hval defaultTtl now slab).2.1

/-- Two spellings of one address, a decision that has run out, one without an
expiry of its own, a comment and a CR, over a table that holds another address. -/
theorem feed_load_replaces_two :
    let zone : Option Zone := some ⟨0, 0, 0⟩
    let old := (sentinelFeedParse Ref.ngx zone sentinelShmInitZone
      ⟨str "# sentinel-crowdsec-feed v1\n8.8.8.8 ban 100\n%%EOF 1 fa540a91\n", by decide +kernel⟩
      3600 50 fun _ => true).2
    let data : Buffer := ⟨str "# sentinel-crowdsec-feed v1\n# x\n1.2.3.4 ban 100\r\n" ++
      str "5.6.7.8 captcha 0\n9.9.9.9 ban 10\n001.2.3.4 throttle 90\n%%EOF 4 e94a11d3\n",
      by decide +kernel⟩
    let r := sentinelFeedParse Ref.ngx zone old data 3600 50 fun _ => true
    ∃ lines trailer, FeedShape data.data lines trailer ∧
      TableHolds Ref.ngx 3600 50 lines r.2 ∧
      (∀ n ∈ r.2.queue, n.csGeneration = old.csGeneration + 1) ∧
      (∀ line ∈ lines, feedCountLine Ref.ngx line = .decision ↔
        (feedApplyScan Ref.ngx line).isSome) ∧
      ∀ count crc, TrailerLine (feedStripCr trailer) count crc →
        count = r.1.entries + expiredCount Ref.ngx 3600 50 lines :=
  feed_load_replaces Ref.ngx _ _ _ 3600 50 (wf_parse _ _ _ _ _ _ wf_init _)
    (by decide +kernel)

end Replace

section ZoneFull
variable (ngx : NgxCore) (zone : Option Zone) (sh : Shctx) (data : Buffer) (defaultTtl now : Int)

/-- An unexpired decision in the table. -/
def Banned (sh : Shctx) (now : Int) (k : Key) : Prop :=
  ∃ n, sh.get k = some n ∧ now < n.blockedUntil

/-- An unexpired decision in the feed. -/
def Listed (k : Key) : Prop :=
  ∃ lines trailer, FeedShape data.data lines trailer ∧ ∃ line ∈ lines, ∃ e,
    LiveLine ngx defaultTtl now line e ∧ sentinelFeedDigest ngx e.ip = k

theorem banned_iff {sh : Shctx} {now : Int} {k : Key} :
    Banned sh now k ↔ (sh.get k).any (fun n => now < n.blockedUntil) = true := by
  rw [Banned]
  cases sh.get k <;> simp

instance (sh : Shctx) (now : Int) (k : Key) : Decidable (Banned sh now k) :=
  decidable_of_iff _ banned_iff.symm

variable {ngx data defaultTtl now} in
theorem listed_iff {body : Bytes} (hval : feedValidate ngx data.data = some body) {k : Key} :
    Listed ngx data defaultTtl now k ↔
      ∃ d ∈ feedDecisions ngx defaultTtl now (Lines.split (ch '\n') body), d.key = k := by
  obtain ⟨lines, trailer, hshape, rfl, -⟩ := (feedValidate_eq_some_iff ngx data).mp hval
  rw [Lines.split_join _ hshape.closed]
  simp only [mem_feedDecisions]
  constructor
  · rintro ⟨lines', trailer', hshape', line, hline, e, he, rfl⟩
    obtain ⟨rfl, rfl⟩ := hshape.unique hshape'
    exact ⟨_, ⟨line, hline, e, he, rfl⟩, rfl⟩
  · rintro ⟨d, ⟨line, hline, e, he, rfl⟩, rfl⟩
    exact ⟨lines, trailer, hshape, line, hline, e, he, rfl⟩

/-- A load keeps the listed bans exactly when each of them stands in the feed
before the first decision that is refused. -/
theorem load_keeps_listed_iff (slab : Nat → Bool) (wf : sh.Wf ngx)
    (hok : (sentinelFeedParse ngx zone sh data defaultTtl now slab).1.rc = .ok) :
    (∀ k, Banned sh now k → Listed ngx data defaultTtl now k →
        Banned (sentinelFeedParse ngx zone sh data defaultTtl now slab).2 now k) ↔
      ∀ lines trailer, FeedShape data.data lines trailer →
        ∀ k, Banned sh now k → Listed ngx data defaultTtl now k →
          ∃ d ∈ feedFits slab (fun k => (sh.get k).isSome) 0
            (feedDecisions ngx defaultTtl now lines), d.key = k := by
  obtain ⟨z, body, rfl, hval⟩ := exists_body_of_ok ngx zone sh data defaultTtl now hok
  obtain ⟨lines, trailer, hshape, rfl, -⟩ := (feedValidate_eq_some_iff ngx data).mp hval
  obtain ⟨-, -, -, hget⟩ := load_spec z wf hval defaultTtl now slab
  rw [Lines.split_join _ hshape.closed] at hget
  have hafter : ∀ k, Banned (sentinelFeedParse ngx (some z) sh data defaultTtl now slab).2 now k ↔
      ∃ d ∈ feedFits slab (fun k => (sh.get k).isSome) 0
        (feedDecisions ngx defaultTtl now lines), d.key = k := by
    intro k
    have hk := hget k
    rw [← lastDecision_isSome_iff]
    cases hlast : lastDecision (feedFits slab (fun k => (sh.get k).isSome) 0
        (feedDecisions ngx defaultTtl now lines)) k with
    | none =>
        rw [hlast] at hk
        rw [Banned, show Shctx.get _ k = none from hk]
        simp
    | some d =>
        rw [hlast] at hk
        obtain ⟨n, hn, -, hexp, -⟩ := hk
        obtain ⟨e, he, rfl⟩ : ∃ e, (∃ line, LiveLine ngx defaultTtl now line e) ∧
            d = ⟨sentinelFeedDigest ngx e.ip, effectiveExpiry defaultTtl now e, e.action⟩ := by
          have hmem : d ∈ feedDecisions ngx defaultTtl now lines :=
            (feedFits_initial _ _ _ _).mem
              (List.mem_reverse.mp (List.mem_of_find?_eq_some hlast))
          obtain ⟨line, -, e, he, rfl⟩ := mem_feedDecisions.mp hmem
          exact ⟨e, ⟨line, he⟩, rfl⟩
        obtain ⟨line, -, hlive⟩ := he
        simp only [Option.isSome_some, iff_true]
        exact ⟨n, hn, by rw [hexp]; exact hlive⟩
  simp only [hafter]
  constructor
  · intro h lines' trailer' hshape'
    obtain ⟨rfl, rfl⟩ := hshape.unique hshape'
    exact h
  · exact fun h => h lines trailer hshape

/-- A zone with room for one node: the new address in front of the old one is
refused, and the sweep takes the old one. -/
theorem zone_full_load_unbans :
    let zone : Option Zone := some ⟨0, 0, 0⟩
    let old := (sentinelFeedParse Ref.ngx zone sentinelShmInitZone
      ⟨str "# sentinel-crowdsec-feed v1\n1.2.3.4 ban 100\n%%EOF 1 9eb69a54\n", by decide +kernel⟩
      3600 50 fun _ => true).2
    let data : Buffer := ⟨str "# sentinel-crowdsec-feed v1\n9.9.9.9 ban 100\n" ++
      str "1.2.3.4 ban 100\n%%EOF 2 d87f63a2\n", by decide +kernel⟩
    let r := sentinelFeedParse Ref.ngx zone old data 3600 50 fun _ => false
    let k := sentinelFeedDigest Ref.ngx (str "1.2.3.4")
    r.1.rc = .ok ∧ Banned old 50 k ∧ Listed Ref.ngx data 3600 50 k ∧ ¬ Banned r.2 50 k := by
  intro zone old data r k
  have hval : feedValidate Ref.ngx data.data =
      some (str "9.9.9.9 ban 100\n1.2.3.4 ban 100\n") := by decide +kernel
  refine ⟨by decide +kernel, by decide +kernel, (listed_iff hval).mpr ?_, by decide +kernel⟩
  decide +kernel

/-- The same zone with the old address in front. -/
theorem load_keeps_listed_in_front :
    let zone : Option Zone := some ⟨0, 0, 0⟩
    let old := (sentinelFeedParse Ref.ngx zone sentinelShmInitZone
      ⟨str "# sentinel-crowdsec-feed v1\n1.2.3.4 ban 100\n%%EOF 1 9eb69a54\n", by decide +kernel⟩
      3600 50 fun _ => true).2
    let data : Buffer := ⟨str "# sentinel-crowdsec-feed v1\n1.2.3.4 ban 100\n" ++
      str "9.9.9.9 ban 100\n%%EOF 2 f23aa4bb\n", by decide +kernel⟩
    let slab : Nat → Bool := fun _ => false
    (∀ k, Banned old 50 k → Listed Ref.ngx data 3600 50 k →
        Banned (sentinelFeedParse Ref.ngx zone old data 3600 50 slab).2 50 k) ↔
      ∀ lines trailer, FeedShape data.data lines trailer →
        ∀ k, Banned old 50 k → Listed Ref.ngx data 3600 50 k →
          ∃ d ∈ feedFits slab (fun k => (old.get k).isSome) 0
            (feedDecisions Ref.ngx 3600 50 lines), d.key = k :=
  load_keeps_listed_iff Ref.ngx _ _ _ 3600 50 _ (wf_parse _ _ _ _ _ _ wf_init _)
    (by decide +kernel)

end ZoneFull
end Sentinel
