import Sentinel.FeedLoaders

/-!
The writers of one CrowdSec zone: loads of any feeds by any workers, in critical
sections that interleave, and pull replies from Redis. A ban belongs to nobody:
whoever writes an address next decides its expiry and action, and the sweep of a
load takes every ban that the load itself has not written.
-/

namespace Sentinel
open Function

/-- `sentinel_redis_action` -/
def sentinelRedisAction (s : Bytes) : UInt8 :=
  if s = str "ban" then ngxSentinelCsBan
  else if s = str "captcha" then ngxSentinelCsCaptcha
  else if s = str "throttle" then ngxSentinelCsThrottle
  else ngxSentinelCsBan

/-- What `sentinel_redis_get_reply` reads from a reply, `"<action> <expiry>"`;
`none` where it returns without a store. A reply that is no string is `none`. -/
def redisDecision (ngx : NgxCore) (ip : Bytes) (reply : Option Bytes) (now : Int) :
    Option Decision :=
  match reply with
  | none => none
  | some r =>
      if r.length = 0 then none
      else
        match Lines.field (ch ' ') r with
        | (_, []) => none
        | (name, _ :: estr) =>
            match ngx.atoi estr with
            | none => none
            | some e =>
                if (e : Int) ≤ now then none
                else some ⟨sentinelFeedDigest ngx ip, e, sentinelRedisAction name⟩

/-- What a reply does to a zone that has its segment. -/
def redisStore (ngx : NgxCore) (zone : Zone) (sh : Shctx) (ip : Bytes) (reply : Option Bytes)
    (now : Int) (slab : Bool) : Shctx :=
  match redisDecision ngx ip reply now with
  | none => sh
  | some d =>
      (sentinelShmCrowdsecUpsert ngx (some zone) sh d.key d.expiry d.action sh.csGeneration now
        true slab).2

/-- `csZone` is `none` where no segment is attached to the zone. A decision is then
stored through a `NULL` pointer, and the process is killed, which is `none`. That
`rc->cs_zone` is not `NULL` itself `sentinel_redis_find_loc` has seen to. -/
def sentinelRedisGetReply (ngx : NgxCore) (csZone : Option Zone) (sh : Shctx) (ip : Bytes)
    (reply : Option Bytes) (now : Int) (slab : Bool) : Option Shctx :=
  match csZone with
  | some zone => some (redisStore ngx zone sh ip reply now slab)
  | none => if redisDecision ngx ip reply now = none then some sh else none

/-- One operation on the zone: a worker begins a load, passes its next critical
section, or hands on a Redis reply. `slab` is what the allocator would answer. -/
inductive SourceOp (ι : Type) where
  | load (w : ι) (data : Buffer) (defaultTtl now : Int)
  | advance (w : ι) (slab : Nat → Bool)
  | pull (ip : Bytes) (reply : Option Bytes) (now : Int) (slab : Bool)

section Step
variable {ι : Type} [DecidableEq ι]

/-- A worker begins a load when its last one is over. -/
def sourceStep (ngx : NgxCore) (z : Zone) (s : FeedSystem ι) (op : SourceOp ι) : FeedSystem ι :=
  match op with
  | .load w data defaultTtl now =>
      if (s.loaders w).phase.rc.isSome then
        { s with loaders := update s.loaders w (Loader.start ngx data defaultTtl now) }
      else s
  | .advance w slab => feedSystemStep ngx (some z) slab s w
  | .pull ip reply now slab =>
      { s with sh := redisStore ngx z s.sh ip reply now slab }

/-- A fresh zone and idle workers. -/
def sourceStart : FeedSystem ι where
  sh := sentinelShmInitZone
  loaders := fun _ => ⟨0, 0, [], .returned ⟨.ok, 0⟩⟩

/-- The operation, taken in `s`, has `d` to write. -/
def Writes (ngx : NgxCore) (s : FeedSystem ι) (op : SourceOp ι) (d : Decision) : Prop :=
  match op with
  | .load _ _ _ _ => False
  | .advance w _ => (∃ generation lines applied,
      (s.loaders w).phase = .applying generation lines applied) ∧ d ∈ (s.loaders w).pending ngx
  | .pull ip reply now _ => redisDecision ngx ip reply now = some d

/-- The operation is a sweep call of a load with this generation. -/
def Sweeps (s : FeedSystem ι) (op : SourceOp ι) (generation : Nat) : Prop :=
  ∃ w slab applied, op = .advance w slab ∧
    (s.loaders w).phase = .sweeping generation applied

structure SourceInv (ngx : NgxCore) (s : FeedSystem ι) : Prop where
  wf : s.sh.Wf ngx
  owned : ∀ w g, (s.loaders w).phase.generation = some g → g ≤ s.sh.csGeneration

omit [DecidableEq ι] in
theorem sourceInv_start (ngx : NgxCore) : SourceInv ngx (sourceStart : FeedSystem ι) where
  wf := wf_init
  owned := by
    intro w g hg
    contradiction

variable {ngx : NgxCore} {s : FeedSystem ι}

theorem forall_owned {w : ι} {ld : Loader} {bound : Nat}
    (hw : ∀ g, ld.phase.generation = some g → g ≤ bound)
    (h : ∀ w g, (s.loaders w).phase.generation = some g → g ≤ bound) :
    ∀ w' g, (update s.loaders w ld w').phase.generation = some g → g ≤ bound := by
  intro w' g hg
  rw [update_apply] at hg
  split at hg
  · exact hw g hg
  · exact h w' g hg

/-- What a reply does to the table. -/
theorem redisStore_spec (z : Zone) {sh : Shctx} (wf : sh.Wf ngx) (ip : Bytes)
    (reply : Option Bytes) (now : Int) (slab : Bool) :
    let sh' := redisStore ngx z sh ip reply now slab
    sh' = sh ∨ sh'.Wf ngx ∧ sh'.csGeneration = sh.csGeneration ∧
      ∃ d n, redisDecision ngx ip reply now = some d ∧
        Upserted n d.key d.expiry d.action sh.csGeneration ∧
        ∀ k, sh'.get k = if k = d.key then some n else sh.get k := by
  rw [redisStore]
  cases hd : redisDecision ngx ip reply now with
  | none => exact .inl rfl
  | some d =>
      by_cases hroom : slab = true ∨ (sh.get d.key).isSome
      · obtain ⟨-, hwf, hgen, n, hn, hget⟩ := upsert_spec z d.expiry d.action now true wf
          (Nat.le_refl _) hroom
        exact .inr ⟨hwf, hgen, d, n, rfl, hn, hget⟩
      · left
        simp only [not_or, Bool.not_eq_true, Option.isSome_eq_false_iff,
          Option.isNone_iff_eq_none] at hroom
        simp only [upsert_refused z wf hroom.1 hroom.2]

theorem SourceInv.step_effect (h : SourceInv ngx s) (z : Zone) (w : ι) (slab : Nat → Bool) :
    ∃ ld sh, sourceStep ngx z s (.advance w slab) = ⟨sh, update s.loaders w ld⟩ ∧
      SectionEffect ngx slab (s.loaders w) s.sh ld sh :=
  ⟨_, _, rfl, loaderSection_effect z slab (s.loaders w) h.wf (h.owned w)⟩

theorem sourceInv_step (z : Zone) (h : SourceInv ngx s) (op : SourceOp ι) :
    SourceInv ngx (sourceStep ngx z s op) := by
  cases op with
  | load w data defaultTtl now =>
      simp only [sourceStep]
      split
      · refine ⟨h.wf, forall_owned ?_ h.owned⟩
        intro g hg
        rw [Loader.start] at hg
        split at hg <;> contradiction
      · exact h
  | pull ip reply now slab =>
      simp only [sourceStep]
      cases redisStore_spec z h.wf ip reply now slab with
      | inl hsame =>
          rw [hsame]
          exact h
      | inr hwrite => exact ⟨hwrite.1, fun w g hg => hwrite.2.1 ▸ h.owned w g hg⟩
  | advance w slab =>
      obtain ⟨ld, sh, hstep, heff⟩ := h.step_effect z w slab
      rw [hstep]
      cases heff with
      | bump hphase =>
          refine ⟨wf_bump h.wf, ?_⟩
          apply forall_owned
          · intro g hg
            exact (Option.some.inj hg).ge
          · intro w' g hg
            exact Nat.le_succ_of_le (h.owned w' g hg)
      | write generation written left phase sh' hg hsplit hphase hleft hwf hgen hwritten =>
          refine ⟨hwf, ?_⟩
          apply forall_owned
          · intro g hg'
            obtain ⟨lines, applied, hw⟩ := hg
            rw [← Option.some.inj (hphase.symm.trans hg'), hgen]
            exact h.owned w generation (by rw [hw]; rfl)
          · rw [hgen]
            exact h.owned
      | sweep generation applied phase sh' hphase hend hwf hgen hget =>
          refine ⟨hwf, ?_⟩
          apply forall_owned
          · intro g hg
            rw [hgen]
            apply h.owned w g
            rw [hphase]
            cases hend with
            | inl he => rwa [he] at hg
            | inr he =>
                rw [he.1] at hg
                contradiction
          · rw [hgen]
            exact h.owned
      | idle reply hphase =>
          rw [update_eq_self]
          exact h

/-- The frame of one operation: it leaves a ban as it is, writes it, or sweeps
it away. -/
theorem sourceStep_frame (z : Zone) (h : SourceInv ngx s) (op : SourceOp ι) {k : Key} {n : Node}
    (hn : s.sh.get k = some n) :
    (sourceStep ngx z s op).sh.get k = some n ∨
      (∃ d n', Writes ngx s op d ∧ d.key = k ∧ (sourceStep ngx z s op).sh.get k = some n' ∧
        n'.blockedUntil = d.expiry ∧ n'.csAction = d.action) ∨
      ∃ g, Sweeps s op g ∧ n.csGeneration ≠ g ∧ (sourceStep ngx z s op).sh.get k = none := by
  cases op with
  | load w data defaultTtl now =>
      left
      simp only [sourceStep]
      split <;> exact hn
  | pull ip reply now slab =>
      simp only [sourceStep]
      cases redisStore_spec z h.wf ip reply now slab with
      | inl hsame =>
          rw [hsame]
          exact .inl hn
      | inr hwrite =>
          obtain ⟨-, -, d, m, hd, hm, hget⟩ := hwrite
          by_cases hk : k = d.key
          · refine .inr (.inl ⟨d, m, hd, hk.symm, ?_, hm.2.1, hm.2.2.1⟩)
            rw [hget, if_pos hk]
          · left
            rw [hget, if_neg hk]
            exact hn
  | advance w slab =>
      obtain ⟨ld, sh, hstep, heff⟩ := h.step_effect z w slab
      rw [hstep]
      cases heff with
      | bump hphase => exact .inl hn
      | write generation written left phase sh' hg hsplit hphase hleft hwf hgen hwritten =>
          have hk := hwritten k
          cases hlast : lastDecision written k with
          | none =>
              rw [hlast] at hk
              exact .inl (Eq.trans hk hn)
          | some d =>
              rw [hlast] at hk
              obtain ⟨n', hn', -, hexp, hact, -⟩ := hk
              have hd : d ∈ written := List.mem_reverse.mp (List.mem_of_find?_eq_some hlast)
              have hpend : d ∈ (s.loaders w).pending ngx := by
                rw [hsplit]
                exact List.mem_append_left _ hd
              exact .inr (.inl ⟨d, n', ⟨⟨generation, hg⟩, hpend⟩, lastDecision_key hlast, hn',
                hexp, hact⟩)
      | sweep generation applied phase sh' hphase hend hwf hgen hget =>
          have hk := hget k
          split at hk
          next hv =>
            obtain ⟨m, hm, rfl⟩ := hv
            obtain ⟨hmem, hstale⟩ := mem_victims hm
            rw [get_of_mem h.wf hmem] at hn
            rw [← Option.some.inj hn]
            exact .inr (.inr ⟨generation, ⟨w, slab, applied, rfl, hphase⟩, hstale, hk⟩)
          next => exact .inl (hk.trans hn)
      | idle reply hphase =>
          rw [update_eq_self]
          exact .inl hn

theorem sourceInv_run (ngx : NgxCore) (z : Zone) (ops : List (SourceOp ι)) :
    SourceInv ngx (Run.exec (sourceStep ngx z) sourceStart ops) := by
  have hstep : ∀ (s : FeedSystem ι) op, SourceInv ngx s → SourceInv ngx (sourceStep ngx z s op) :=
    fun s op h => sourceInv_step z h op
  exact Run.exec_invariant hstep (sourceInv_start ngx) ops

/-- A ban outlives every run that neither writes its address nor sweeps with a
generation other than its stamp. -/
theorem ban_survives (z : Zone) (h : SourceInv ngx s) {k : Key} {n : Node}
    (hn : s.sh.get k = some n) {ops : List (SourceOp ι)}
    (hops : Run.Along (fun s op => (∀ d, Writes ngx s op d → d.key ≠ k) ∧
      ∀ g, Sweeps s op g → n.csGeneration = g) (sourceStep ngx z) s ops) :
    (Run.exec (sourceStep ngx z) s ops).sh.get k = some n := by
  have hstep : ∀ (s : FeedSystem ι) op, ((∀ d, Writes ngx s op d → d.key ≠ k) ∧
      ∀ g, Sweeps s op g → n.csGeneration = g) → SourceInv ngx s ∧ s.sh.get k = some n →
      SourceInv ngx (sourceStep ngx z s op) ∧ (sourceStep ngx z s op).sh.get k = some n := by
    intro s op hop hs
    refine ⟨sourceInv_step z hs.1 op, ?_⟩
    cases sourceStep_frame z hs.1 op hs.2 with
    | inl hsame => exact hsame
    | inr hcases =>
        cases hcases with
        | inl hwrite =>
            obtain ⟨d, -, hd, hk, -⟩ := hwrite
            exact absurd hk (hop.1 d hd)
        | inr hsweep =>
            obtain ⟨g, hg, hne, -⟩ := hsweep
            exact absurd (hop.2 g hg) hne
  exact (Run.exec_invariant_along hstep hops ⟨h, hn⟩).2

/-- In every run of loads and pulls, an operation leaves a ban as it is unless
it writes that address, which gives it exactly the written expiry and action,
or is a sweep of a load that has not stamped the ban. -/
theorem sources_frame (ngx : NgxCore) (z : Zone) (ops : List (SourceOp ι)) (op : SourceOp ι)
    (k : Key) (n : Node) :
    let s := Run.exec (sourceStep ngx z) sourceStart ops
    let s' := sourceStep ngx z s op
    s.sh.get k = some n →
      s'.sh.get k = some n ∨
      (∃ d n', Writes ngx s op d ∧ d.key = k ∧ s'.sh.get k = some n' ∧
        n'.blockedUntil = d.expiry ∧ n'.csAction = d.action) ∨
      ∃ g, Sweeps s op g ∧ n.csGeneration ≠ g ∧ s'.sh.get k = none := by
  intro s s' hn
  exact sourceStep_frame z (sourceInv_run ngx z ops) op hn

/-- A pulled ban and the sweep of a load about another address: the ban goes, and
the load has not stamped it. -/
theorem sources_frame_pull :
    let other : Buffer :=
      ⟨str "# sentinel-crowdsec-feed v1\n5.6.7.8 ban 100\n%%EOF 1 4a118239\n", by decide⟩
    let op : SourceOp (Fin 1) := .advance 0 fun _ => true
    let ops : List (SourceOp (Fin 1)) :=
      [.pull (str "1.2.3.4") (some (str "ban 100")) 50 true, .load 0 other 3600 50, op, op]
    let s := Run.exec (sourceStep Ref.ngx ⟨0, 0, 0⟩) sourceStart ops
    let s' := sourceStep Ref.ngx ⟨0, 0, 0⟩ s op
    let k := sentinelFeedDigest Ref.ngx (str "1.2.3.4")
    s'.sh.get k = none ∧
      ∃ n g, s.sh.get k = some n ∧ Sweeps s op g ∧ n.csGeneration ≠ g := by
  intro other op ops s s' k
  have hsome : (s.sh.get k).isSome := by decide +kernel
  have hget : s.sh.get k = some ((s.sh.get k).get hsome) := (Option.some_get hsome).symm
  have hgone : s'.sh.get k = none := Option.isNone_iff_eq_none.mp (by decide +kernel)
  refine ⟨hgone, ?_⟩
  rcases sources_frame Ref.ngx ⟨0, 0, 0⟩ ops op k _ hget with hsame | hwritten | hswept
  · exact absurd (hgone.symm.trans hsame) (Option.some_ne_none _).symm
  · obtain ⟨d, n', -, -, hn', -⟩ := hwritten
    exact absurd (hgone.symm.trans hn') (Option.some_ne_none _).symm
  · obtain ⟨g, hsweeps, hstamp, -⟩ := hswept
    exact ⟨_, g, hget, hsweeps, hstamp⟩

/-- A pulled ban is taken away by a load about another address, and weakened and
cut short by a load about its own; a pull does the same to a loaded ban. -/
theorem pulled_and_loaded_bans_give_way :
    let other : Buffer :=
      ⟨str "# sentinel-crowdsec-feed v1\n5.6.7.8 ban 100\n%%EOF 1 4a118239\n", by decide⟩
    let own : Buffer :=
      ⟨str "# sentinel-crowdsec-feed v1\n1.2.3.4 captcha 60\n%%EOF 1 c8a60d3c\n", by decide⟩
    let run := Run.exec (sourceStep Ref.ngx ⟨0, 0, 0⟩)
    let load (data : Buffer) : List (SourceOp (Fin 1)) :=
      .load 0 data 3600 50 :: List.replicate 4 (.advance 0 fun _ => true)
    let ban (s : FeedSystem (Fin 1)) (ip : Bytes) :=
      (s.sh.get (sentinelFeedDigest Ref.ngx ip)).map fun n => (n.blockedUntil, n.csAction)
    let pulled := run sourceStart [.pull (str "1.2.3.4") (some (str "ban 100")) 50 true]
    let loaded := run sourceStart (load other)
    ban pulled (str "1.2.3.4") = some (100, ngxSentinelCsBan) ∧
      ban (run pulled (load other)) (str "1.2.3.4") = none ∧
      ban (run pulled (load own)) (str "1.2.3.4") = some (60, ngxSentinelCsCaptcha) ∧
      ban loaded (str "5.6.7.8") = some (100, ngxSentinelCsBan) ∧
      ban (run loaded [.pull (str "5.6.7.8") (some (str "captcha 60")) 50 true]) (str "5.6.7.8") =
        some (60, ngxSentinelCsCaptcha) := by
  decide +kernel

end Step
end Sentinel
