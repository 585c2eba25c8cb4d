import Mathlib.Algebra.Ring.Int.Defs
import Sentinel.Fcrdns
import Sentinel.Preaccess
import Sentinel.ZoneCycle

/-!
The seven places that add a configured duration to the clock, in the arithmetic
of a 64-bit `time_t`, and how large the durations get that the configuration lets
through. Three of them are kept within a day by the merge; the other four take
any number that nginx reads.
-/

namespace Sentinel

/-- The configuration also takes this from nginx. -/
structure ConfCore extends NgxCore where
  /-- `ngx_parse_time` in seconds, else `NGX_ERROR`. -/
  parseTime : Bytes → Option Nat
  parseTime_le : ∀ s n, parseTime s = some n → n ≤ ngxMaxIntT

section Directives

/-- The durations of one level, with the two settings that switch their checks
on. A duration is `none` while it is `NGX_CONF_UNSET`. -/
structure LocTtls where
  csDefaultTtl : Option Int
  redisHost : Bytes
  redisTtl : Option Int
  csSinkPath : Bytes
  csSinkTtl : Option Int
  blockTtl : Option Int
  powTtl : Option Int
  fcrdnsTtl : Option Int
  deriving DecidableEq, Repr

def LocTtls.unset : LocTtls := ⟨none, [], none, [], none, none, none, none⟩

inductive TtlDirective where
  | crowdsecDefaultTtl (value : Bytes)
  | redis (host : Bytes)
  | redisTtl (value : Bytes)
  | csSinkPath (path : Bytes)
  | csSinkTtl (value : Bytes)
  | blockTtl (value : Bytes)
  | powTtl (value : Bytes)
  | fcrdnsTtl (value : Bytes)

/-- What `ngx_conf_set_num_slot` and `ngx_conf_set_sec_slot` share. -/
def setSlot (parse : Bytes → Option Nat) (error : Bytes) (np : Option Int) (value : Bytes) :
    Except Bytes (Option Int) :=
  match np with
  | some _ => .error (str "is duplicate")
  | none =>
      match parse value with
      | none => .error error
      | some n => .ok (some n)

variable (ngx : ConfCore)

def ngxConfSetNumSlot : Option Int → Bytes → Except Bytes (Option Int) :=
  setSlot ngx.atoi (str "invalid number")

def ngxConfSetSecSlot : Option Int → Bytes → Except Bytes (Option Int) :=
  setSlot ngx.parseTime (str "invalid value")

def ttlDirective (conf : LocTtls) : TtlDirective → Except Bytes LocTtls
  | .crowdsecDefaultTtl value =>
      (ngxConfSetSecSlot ngx conf.csDefaultTtl value).map fun v => { conf with csDefaultTtl := v }
  | .redis host => .ok { conf with redisHost := host }
  | .redisTtl value =>
      (ngxConfSetSecSlot ngx conf.redisTtl value).map fun v => { conf with redisTtl := v }
  | .csSinkPath path => .ok { conf with csSinkPath := path }
  | .csSinkTtl value =>
      (ngxConfSetSecSlot ngx conf.csSinkTtl value).map fun v => { conf with csSinkTtl := v }
  | .blockTtl value =>
      (ngxConfSetNumSlot ngx conf.blockTtl value).map fun v => { conf with blockTtl := v }
  | .powTtl value =>
      (ngxConfSetSecSlot ngx conf.powTtl value).map fun v => { conf with powTtl := v }
  | .fcrdnsTtl value =>
      (ngxConfSetSecSlot ngx conf.fcrdnsTtl value).map fun v => { conf with fcrdnsTtl := v }

/-- One level as it is read. -/
def readTtls (directives : List TtlDirective) : Except Bytes LocTtls :=
  Run.tryExec (ttlDirective ngx) LocTtls.unset directives

end Directives

section Merge

/-- The durations of a merged level. -/
structure Ttls where
  csDefaultTtl : Int
  redisHost : Bytes
  redisTtl : Int
  csSinkPath : Bytes
  csSinkTtl : Int
  blockTtl : Int
  powTtl : Int
  fcrdnsTtl : Int
  deriving DecidableEq, Repr

/-- A merged level as the parent of another. -/
def Ttls.level (t : Ttls) : LocTtls :=
  ⟨some t.csDefaultTtl, t.redisHost, some t.redisTtl, t.csSinkPath, some t.csSinkTtl,
    some t.blockTtl, some t.powTtl, some t.fcrdnsTtl⟩

def ngxConfMergeValue (conf prev : Option Int) (default : Int) : Int :=
  (conf.or prev).getD default

/-- The part of `ngx_sentinel_merge_loc_conf` that sets and checks durations. -/
def ngxSentinelMergeTtls (conf prev : LocTtls) : Except Bytes Ttls :=
  let fcrdnsTtl := ngxConfMergeValue conf.fcrdnsTtl prev.fcrdnsTtl ngxSentinelFcrdnsDefaultTtl
  let csDefaultTtl := ngxConfMergeValue conf.csDefaultTtl prev.csDefaultTtl 3600
  if csDefaultTtl < 60 ∨ csDefaultTtl > 86400 then
    .error (str "sentinel_crowdsec_default_ttl must be 60..86400 s")
  else
    let redisHost := mergeName conf.redisHost prev.redisHost
    let redisTtl := ngxConfMergeValue conf.redisTtl prev.redisTtl 3600
    if redisHost.length > 0 ∧ (redisTtl < 60 ∨ redisTtl > 86400) then
      .error (str "sentinel_redis_ttl must be 60..86400 s")
    else
      let csSinkPath := mergeName conf.csSinkPath prev.csSinkPath
      let csSinkTtl := ngxConfMergeValue conf.csSinkTtl prev.csSinkTtl 3600
      if csSinkPath.length > 0 ∧ (csSinkTtl < 60 ∨ csSinkTtl > 86400) then
        .error (str "sentinel_cs_sink_ttl must be 60..86400 s")
      else
        let blockTtl := ngxConfMergeValue conf.blockTtl prev.blockTtl 0
        if blockTtl < 0 then .error (str "sentinel_block_ttl must be >= 0 (0 = off)")
        else
          let powTtl := ngxConfMergeValue conf.powTtl prev.powTtl 3600
          if powTtl < 1 then .error (str "sentinel_pow_ttl must be >= 1")
          else
            .ok { csDefaultTtl, redisHost, redisTtl, csSinkPath, csSinkTtl, blockTtl, powTtl,
                  fcrdnsTtl }

/-- The levels that a configuration has: those read, and those merged. -/
inductive Configured (ngx : ConfCore) : LocTtls → Prop
  | read {directives : List TtlDirective} {conf : LocTtls} :
      readTtls ngx directives = .ok conf → Configured ngx conf
  | merge {conf prev : LocTtls} {t : Ttls} : Configured ngx conf → Configured ngx prev →
      ngxSentinelMergeTtls conf prev = .ok t → Configured ngx t.level

/-- A zone that bursts are counted in, as its directive sets it up. -/
inductive BurstZone (ngx : NgxCore) (cf : NgxConf) : Zone → Prop
  | zone {value : Bytes} {d : ZoneDecl} : ngxSentinelSetZone cf value = .ok d →
      BurstZone ngx cf d.zone
  | velocity {value : Bytes} {args : List Bytes} {d : ZoneDecl} :
      ngxSentinelSetVelocityZone ngx cf value args = .ok d → BurstZone ngx cf d.zone

end Merge

section Sites

/-- The statements that compute an absolute expiry. -/
inductive ExpirySite where
  /-- `n->blocked_until = now + ttl` of `sentinel_shm_softban_set` -/
  | softban
  /-- `n->blocked_until = now + zone->block` of `sentinel_shm_errrate_record` -/
  | burst
  /-- `expiry = ngx_time() + …` of `sentinel_pow_set_cookie` -/
  | powCookie
  /-- `now + ttl` of `sentinel_shm_fcrdns_set`, with the carrier's duration -/
  | fcrdns
  /-- `exp = now + default_ttl` of `sentinel_feed_parse` -/
  | feed
  /-- `ngx_time() + lcf->redis_ttl` and `ngx_time() + lcf->cs_sink_ttl` of a block -/
  | redis
  | csSink
  deriving DecidableEq, Repr

/-- The duration that a site adds; `none` where the setting turns the site off. -/
def ExpirySite.duration (t : Ttls) (zone : Zone) : ExpirySite → Option Int
  | .softban => if t.blockTtl > 0 then some t.blockTtl else none
  | .burst => some zone.block
  | .powCookie => some (if t.powTtl > 0 then t.powTtl else 1)
  | .fcrdns => some (if t.fcrdnsTtl > 0 then t.fcrdnsTtl else ngxSentinelFcrdnsDefaultTtl)
  | .feed => some t.csDefaultTtl
  | .redis => if t.redisHost.length > 0 then some t.redisTtl else none
  | .csSink => if t.csSinkPath.length > 0 then some t.csSinkTtl else none

/-- Every expiry is the sum and lies ahead. -/
def ExpiriesExact (t : Ttls) (zone : Zone) (now : Int) : Prop :=
  ∀ (site : ExpirySite) (d : Int), site.duration t zone = some d →
    timeAdd now d = now + d ∧ now < timeAdd now d

/-- A sum that is not beyond the last `time_t` is exact; one beyond it is negative. -/
theorem timeAdd_exact_iff {now d : Int} (h0 : 0 ≤ now) (h62 : now < 2 ^ 62) (hd : 0 < d)
    (hmax : d < 2 ^ 63) :
    (timeAdd now d = now + d ∧ now < timeAdd now d) ↔ d ≤ 2 ^ 63 - 1 - now := by
  rw [timeAdd, Int.bmod_def]
  split
  · omega
  · omega

end Sites

section Ranges

/-- What a directive can store. -/
def Readable (v : Option Int) : Prop := ∀ n, v = some n → 0 ≤ n ∧ n < 2 ^ 63

/-- The durations that nothing else bounds. -/
structure LocTtls.Readable (c : LocTtls) : Prop where
  blockTtl : Sentinel.Readable c.blockTtl
  powTtl : Sentinel.Readable c.powTtl
  fcrdnsTtl : Sentinel.Readable c.fcrdnsTtl

theorem readable_none : Readable none := by
  intro n h
  contradiction

theorem setSlot_readable {parse : Bytes → Option Nat} (hparse : ∀ s n, parse s = some n →
    n ≤ ngxMaxIntT) {error value : Bytes} {np v : Option Int}
    (h : setSlot parse error np value = .ok v) : Readable v := by
  cases np with
  | some _ => simp [setSlot] at h
  | none =>
      cases hv : parse value with
      | none => simp [setSlot, hv] at h
      | some m =>
          simp only [setSlot, hv, Except.ok.injEq] at h
          have hm := hparse value m hv
          intro n hn
          rw [← h, Option.some.injEq] at hn
          rw [ngxMaxIntT] at hm
          omega

variable {ngx : ConfCore}

theorem numSlot_readable {np v : Option Int} {value : Bytes}
    (h : ngxConfSetNumSlot ngx np value = .ok v) : Readable v :=
  setSlot_readable (fun s n hn => ((ngx.atoi_eq_some s n).mp hn).2.2.2) h

theorem secSlot_readable {np v : Option Int} {value : Bytes}
    (h : ngxConfSetSecSlot ngx np value = .ok v) : Readable v :=
  setSlot_readable ngx.parseTime_le h

theorem directive_readable {c c' : LocTtls} {d : TtlDirective} (h : ttlDirective ngx c d = .ok c')
    (hc : c.Readable) : c'.Readable := by
  cases d with
  | crowdsecDefaultTtl value | redisTtl value | csSinkTtl value =>
      obtain ⟨v, -, rfl⟩ := Run.map_ok.mp h
      exact ⟨hc.blockTtl, hc.powTtl, hc.fcrdnsTtl⟩
  | redis value | csSinkPath value =>
      cases h
      exact ⟨hc.blockTtl, hc.powTtl, hc.fcrdnsTtl⟩
  | blockTtl value =>
      obtain ⟨v, hv, rfl⟩ := Run.map_ok.mp h
      exact ⟨numSlot_readable hv, hc.powTtl, hc.fcrdnsTtl⟩
  | powTtl value =>
      obtain ⟨v, hv, rfl⟩ := Run.map_ok.mp h
      exact ⟨hc.blockTtl, secSlot_readable hv, hc.fcrdnsTtl⟩
  | fcrdnsTtl value =>
      obtain ⟨v, hv, rfl⟩ := Run.map_ok.mp h
      exact ⟨hc.blockTtl, hc.powTtl, secSlot_readable hv⟩

theorem mergeValue_readable {conf prev : Option Int} {default : Int} (hconf : Readable conf)
    (hprev : Readable prev) (hdefault : 0 ≤ default ∧ default < 2 ^ 63) :
    0 ≤ ngxConfMergeValue conf prev default ∧ ngxConfMergeValue conf prev default < 2 ^ 63 := by
  cases conf with
  | some n => exact hconf n rfl
  | none =>
      cases prev with
      | some n => exact hprev n rfl
      | none => exact hdefault

/-- What the merge lets through. -/
structure Ttls.Accepted (t : Ttls) : Prop where
  csDefaultTtl : 60 ≤ t.csDefaultTtl ∧ t.csDefaultTtl ≤ 86400
  redisTtl : 0 < t.redisHost.length → 60 ≤ t.redisTtl ∧ t.redisTtl ≤ 86400
  csSinkTtl : 0 < t.csSinkPath.length → 60 ≤ t.csSinkTtl ∧ t.csSinkTtl ≤ 86400
  blockTtl : 0 ≤ t.blockTtl ∧ t.blockTtl < 2 ^ 63
  powTtl : 1 ≤ t.powTtl ∧ t.powTtl < 2 ^ 63
  fcrdnsTtl : 0 ≤ t.fcrdnsTtl ∧ t.fcrdnsTtl < 2 ^ 63

theorem merge_accepted {conf prev : LocTtls} {t : Ttls} (hconf : conf.Readable)
    (hprev : prev.Readable) (h : ngxSentinelMergeTtls conf prev = .ok t) : t.Accepted := by
  have hblock := mergeValue_readable hconf.blockTtl hprev.blockTtl
    (show 0 ≤ (0 : Int) ∧ (0 : Int) < 2 ^ 63 by decide)
  have hpow := mergeValue_readable hconf.powTtl hprev.powTtl
    (show 0 ≤ (3600 : Int) ∧ (3600 : Int) < 2 ^ 63 by decide)
  have hfcrdns := mergeValue_readable hconf.fcrdnsTtl hprev.fcrdnsTtl
    (show 0 ≤ ngxSentinelFcrdnsDefaultTtl ∧ ngxSentinelFcrdnsDefaultTtl < 2 ^ 63 by decide)
  simp only [ngxSentinelMergeTtls] at h
  split at h
  · contradiction
  next hcs =>
    split at h
    · contradiction
    next hredis =>
      split at h
      · contradiction
      next hsink =>
        split at h
        · contradiction
        split at h
        · contradiction
        next hpow1 =>
          cases h
          rw [not_or, not_lt, not_lt] at hcs
          refine ⟨hcs, fun hlen => ?_, fun hlen => ?_, hblock, ⟨not_lt.mp hpow1, hpow.2⟩, hfcrdns⟩
          · rw [not_and, not_or] at hredis
            have hbounds := hredis hlen
            exact ⟨not_lt.mp hbounds.1, not_lt.mp hbounds.2⟩
          · rw [not_and, not_or] at hsink
            have hbounds := hsink hlen
            exact ⟨not_lt.mp hbounds.1, not_lt.mp hbounds.2⟩

theorem Configured.readable {c : LocTtls} (h : Configured ngx c) : c.Readable := by
  induction h with
  | read hread =>
      refine Run.tryExec_invariant (fun _ _ _ hstep hc => directive_readable hstep hc) hread ?_
      exact ⟨readable_none, readable_none, readable_none⟩
  | merge _ _ hmerge ihconf ihprev =>
      have haccepted := merge_accepted ihconf ihprev hmerge
      refine ⟨?_, ?_, ?_⟩
      · intro n hn
        exact Option.some.inj hn ▸ haccepted.blockTtl
      · intro n hn
        have hpow := haccepted.powTtl
        have heq := Option.some.inj hn
        omega
      · intro n hn
        exact Option.some.inj hn ▸ haccepted.fcrdnsTtl

theorem velocityValue_ok {ngx : NgxCore} {key arg : Bytes} {v : Nat}
    (h : velocityValue ngx key arg = .ok v) : 1 ≤ v ∧ v ≤ ngxMaxIntT := by
  rw [velocityValue] at h
  split at h
  next hatoi =>
    split at h
    · cases h
    next hlt =>
      cases h
      exact ⟨Nat.not_lt.mp hlt, ((ngx.atoi_eq_some _ _).mp hatoi).2.2.2⟩
  next => cases h

theorem velocityArg_block {ngx : NgxCore} {zone zone' : Zone} {arg : Bytes}
    (harg : velocityArg ngx zone arg = .ok zone') (h : 1 ≤ zone.block ∧ zone.block < 2 ^ 63) :
    1 ≤ zone'.block ∧ zone'.block < 2 ^ 63 := by
  rw [velocityArg] at harg
  split at harg
  · obtain ⟨v, -, rfl⟩ := Run.map_ok.mp harg
    exact h
  split at harg
  · obtain ⟨v, -, rfl⟩ := Run.map_ok.mp harg
    exact h
  split at harg
  · obtain ⟨v, hv, rfl⟩ := Run.map_ok.mp harg
    obtain ⟨w, hw, hv⟩ := Run.bind_ok.mp hv
    cases hv
    obtain ⟨hlo, hhi⟩ := velocityValue_ok hw
    rw [ngxMaxIntT] at hhi
    constructor
    · exact Int.ofNat_le.mpr hlo
    · change (w : Int) < 2 ^ 63
      omega
  · cases harg

/-- Every way to declare a zone gives it a ban of at least a second. -/
theorem BurstZone.block {ngx : NgxCore} {cf : NgxConf} {zone : Zone} (h : BurstZone ngx cf zone) :
    1 ≤ zone.block ∧ zone.block < 2 ^ 63 := by
  cases h with
  | zone hset =>
      rw [(zoneDecl_ok hset).2]
      decide
  | velocity hset =>
      obtain ⟨d, hd, hset⟩ := Run.bind_ok.mp hset
      obtain ⟨zone, hargs, hset⟩ := Run.bind_ok.mp hset
      cases hset
      refine Run.tryExec_invariant (I := fun z : Zone => 1 ≤ z.block ∧ z.block < 2 ^ 63)
        (fun s arg t hstep hs => velocityArg_block hstep hs) hargs ?_
      rw [(zoneDecl_ok hd).2]
      decide

end Ranges

section Exact

/-- A duration that is added is a day at most, or one of the four that nothing
else bounds. -/
theorem duration_spec {t : Ttls} (ht : t.Accepted) {zone : Zone}
    (hzone : 1 ≤ zone.block ∧ zone.block < 2 ^ 63) {site : ExpirySite} {d : Int}
    (hd : site.duration t zone = some d) :
    0 < d ∧ d < 2 ^ 63 ∧ (d ≤ 86400 ∨ d = t.blockTtl ∨ d = zone.block ∨ d = t.powTtl ∨
      d = t.fcrdnsTtl) := by
  have hday : ∀ {d : Int}, 60 ≤ d ∧ d ≤ 86400 → 0 < d ∧ d < 2 ^ 63 ∧ d ≤ 86400 := by omega
  cases site with
  | softban =>
      rw [ExpirySite.duration, Option.ite_none_right_eq_some] at hd
      obtain ⟨hon, hd⟩ := hd
      cases hd
      exact ⟨hon, ht.blockTtl.2, .inr (.inl rfl)⟩
  | burst =>
      cases hd
      exact ⟨by omega, hzone.2, .inr (.inr (.inl rfl))⟩
  | powCookie =>
      have hpow := ht.powTtl
      rw [ExpirySite.duration, if_pos (by omega)] at hd
      cases hd
      exact ⟨by omega, hpow.2, .inr (.inr (.inr (.inl rfl)))⟩
  | fcrdns =>
      rw [ExpirySite.duration, Option.some.injEq] at hd
      by_cases hon : t.fcrdnsTtl > 0
      · rw [if_pos hon] at hd
        subst hd
        exact ⟨hon, ht.fcrdnsTtl.2, .inr (.inr (.inr (.inr rfl)))⟩
      · rw [if_neg hon, ngxSentinelFcrdnsDefaultTtl] at hd
        subst hd
        exact ⟨by decide, by decide, .inl (by decide)⟩
  | feed =>
      cases hd
      obtain ⟨hpos, hmax, hle⟩ := hday ht.csDefaultTtl
      exact ⟨hpos, hmax, .inl hle⟩
  | redis =>
      rw [ExpirySite.duration, Option.ite_none_right_eq_some] at hd
      obtain ⟨hon, hd⟩ := hd
      cases hd
      obtain ⟨hpos, hmax, hle⟩ := hday (ht.redisTtl hon)
      exact ⟨hpos, hmax, .inl hle⟩
  | csSink =>
      rw [ExpirySite.duration, Option.ite_none_right_eq_some] at hd
      obtain ⟨hon, hd⟩ := hd
      cases hd
      obtain ⟨hpos, hmax, hle⟩ := hday (ht.csSinkTtl hon)
      exact ⟨hpos, hmax, .inl hle⟩

theorem expiries_exact_iff {t : Ttls} (ht : t.Accepted) {zone : Zone}
    (hzone : 1 ≤ zone.block ∧ zone.block < 2 ^ 63) {now : Int} (h0 : 0 ≤ now)
    (h62 : now < 2 ^ 62) :
    ExpiriesExact t zone now ↔ t.blockTtl ≤ 2 ^ 63 - 1 - now ∧ zone.block ≤ 2 ^ 63 - 1 - now ∧
      t.powTtl ≤ 2 ^ 63 - 1 - now ∧ t.fcrdnsTtl ≤ 2 ^ 63 - 1 - now := by
  constructor
  · intro h
    have hexact : ∀ (site : ExpirySite) (d : Int), site.duration t zone = some d →
        d ≤ 2 ^ 63 - 1 - now := by
      intro site d hd
      obtain ⟨hpos, hmax, -⟩ := duration_spec ht hzone hd
      exact (timeAdd_exact_iff h0 h62 hpos hmax).mp (h site d hd)
    have hpow := ht.powTtl
    refine ⟨?_, hexact .burst _ rfl, ?_, ?_⟩
    · by_cases hon : t.blockTtl > 0
      · exact hexact .softban _ (if_pos hon)
      · omega
    · apply hexact .powCookie
      rw [ExpirySite.duration, if_pos (by omega)]
    · by_cases hon : t.fcrdnsTtl > 0
      · apply hexact .fcrdns
        rw [ExpirySite.duration, if_pos hon]
      · omega
  · intro h site d hd
    obtain ⟨hpos, hmax, hone⟩ := duration_spec ht hzone hd
    rw [timeAdd_exact_iff h0 h62 hpos hmax]
    omega

/-- The expiries of a configuration that is accepted are exact at a time exactly
when the four durations without an upper bound end within a `time_t`. -/
theorem expiry_arithmetic_iff {ngx : ConfCore} {cf : NgxConf} {conf prev : LocTtls} {t : Ttls}
    (hconf : Configured ngx conf) (hprev : Configured ngx prev)
    (hmerge : ngxSentinelMergeTtls conf prev = .ok t) {zone : Zone}
    (hzone : BurstZone ngx.toNgxCore cf zone) {now : Int} (h0 : 0 ≤ now) (h62 : now < 2 ^ 62) :
    ExpiriesExact t zone now ↔ t.blockTtl ≤ 2 ^ 63 - 1 - now ∧ zone.block ≤ 2 ^ 63 - 1 - now ∧
      t.powTtl ≤ 2 ^ 63 - 1 - now ∧ t.fcrdnsTtl ≤ 2 ^ 63 - 1 - now :=
  expiries_exact_iff (merge_accepted hconf.readable hprev.readable hmerge) hzone.block h0 h62

end Exact

section Modelled
variable {t : Ttls} {zone : Zone} {lcf : RequestConf} {d now : Int}

/-- The durations of a location are those of its merge. -/
structure RequestConf.HasTtls (lcf : RequestConf) (t : Ttls) : Prop where
  blockTtl : lcf.blockTtl = t.blockTtl
  powTtl : lcf.pow.powTtl = t.powTtl
  redisHost : lcf.redisHost = t.redisHost
  redisTtl : lcf.redisTtl = t.redisTtl
  csSinkPath : lcf.csSinkPath = t.csSinkPath
  csSinkTtl : lcf.csSinkTtl = t.csSinkTtl

/-- An exact sum of the clock and a day at most. -/
theorem timeAdd_day (h0 : 0 ≤ now) (h62 : now < 2 ^ 62) (hd : 0 ≤ d ∧ d ≤ 86400) :
    timeAdd now d = now + d :=
  timeAdd_eq (by omega) (by omega)

/-- The sites of the model: each adds its duration as a `time_t` has it. -/
theorem softban_site (hlcf : lcf.HasTtls t) (hd : ExpirySite.softban.duration t zone = some d)
    (n : Node) (now : Int) :
    (softbanNode n now lcf.blockTtl).blockedUntil = timeAdd now d := by
  rw [ExpirySite.duration, Option.ite_none_right_eq_some] at hd
  obtain ⟨-, hd⟩ := hd
  cases hd
  rw [hlcf.blockTtl]
  rfl

theorem burst_site (hd : ExpirySite.burst.duration t zone = some d) (n : Node) (now : Int) :
    (errrateRecordEvent zone n now).blockedUntil =
      if zone.threshold ≤ n.eventCount + 1 then timeAdd now d else n.blockedUntil := by
  cases hd
  rw [errrateRecordEvent]
  split <;> rfl

theorem powCookie_site {pow : PowCore} {r : PowRequest} {now : Nat} {io : PowIo} {c : PowCookie}
    (hlcf : lcf.HasTtls t) (hd : ExpirySite.powCookie.duration t zone = some d)
    (hc : sentinelPowSetCookie pow lcf.pow r now io = some c) (hfits : now + d < 2 ^ 63) :
    (c.expiry : Int) = timeAdd now d := by
  rw [ExpirySite.duration, Option.some.injEq] at hd
  have hexpiry : c.expiry = now + lcf.pow.ttl := by
    rw [sentinelPowSetCookie] at hc
    grind
  have httl : (lcf.pow.ttl : Int) = d := by
    rw [PowConf.ttl, hlcf.powTtl, ← hd]
    split
    next hpos => exact Int.toNat_of_nonneg (by omega)
    next => rfl
  rw [timeAdd_eq (by omega) hfits, hexpiry]
  omega

theorem fcrdns_site {ngx : NgxCore} {conf : FcrdnsConf} {z : BoundZone} {key : Key} {ss : SockAddr}
    {env : ResolveEnv} {c : Carrier} (hconf : conf.fcrdnsTtl = t.fcrdnsTtl)
    (hd : ExpirySite.fcrdns.duration t zone = some d)
    (hc : sentinelFcrdnsResolveStart conf z key ss env = some c) (segment : Zone) (sh : Shctx)
    (verdict : UInt8) (now : Int) (slab : Bool) :
    sentinelShmFcrdnsSet ngx (some segment) sh c.key verdict now c.ttl slab =
      sentinelShmCrowdsecUpsert ngx (some segment) sh c.key (timeAdd now d) verdict 0 now false
        slab := by
  rw [ExpirySite.duration, Option.some.injEq] at hd
  have httl : c.ttl = d := by
    rw [sentinelFcrdnsResolveStart, hconf, hd] at hc
    grind
  rw [sentinelShmFcrdnsSet, httl]

theorem feed_site {ngx : NgxCore} (ht : t.Accepted) (hd : ExpirySite.feed.duration t zone = some d)
    (h0 : 0 ≤ now) (h62 : now < 2 ^ 62) {line canon : Bytes} {act : UInt8}
    (hline : feedApplyScan ngx line = some (canon, act, 0)) :
    feedApplyLine ngx t.csDefaultTtl now line =
      some ⟨sentinelFeedDigest ngx canon, timeAdd now d, act⟩ := by
  cases hd
  obtain ⟨hlow, hhigh⟩ := ht.csDefaultTtl
  rw [timeAdd_day h0 h62 ⟨by omega, hhigh⟩, feedApplyLine, hline]
  simp only [if_true]
  rw [if_neg (by omega)]

variable (pow : PowCore) {r : Request} {io : RequestIo} {ctx : SentinelCtx}

theorem redis_site (ht : t.Accepted) (hlcf : lcf.HasTtls t)
    (hd : ExpirySite.redis.duration t zone = some d) (h62 : (io.now : Int) < 2 ^ 62)
    (hhit : ctx.inputs.crowdsecHit = false) (haddr : r.addrText ≠ []) (s : Shared) :
    (preaccessBlock pow lcf r io ctx s).2.redisPush =
      sentinelRedisEnqueueBan io.redisPush lcf.redisPushZone s.redisPush r.addrText ngxSentinelCsBan
        (timeAdd io.now d) := by
  rw [ExpirySite.duration, Option.ite_none_right_eq_some] at hd
  obtain ⟨hhost, hd⟩ := hd
  cases hd
  obtain ⟨hlow, hhigh⟩ := ht.redisTtl hhost
  have hset : lcf.redisHost.length > 0 ∧ ¬ ctx.inputs.crowdsecHit ∧ r.addrText.length ≠ 0 := by
    rw [hlcf.redisHost]
    simp [hhost, hhit, haddr]
  rw [timeAdd_day (by omega) h62 ⟨by omega, hhigh⟩, ← hlcf.redisTtl, preaccessBlock]
  exact if_pos hset

theorem csSink_site (ht : t.Accepted) (hlcf : lcf.HasTtls t)
    (hd : ExpirySite.csSink.duration t zone = some d) (h62 : (io.now : Int) < 2 ^ 62)
    (hhit : ctx.inputs.crowdsecHit = false) (haddr : r.addrText ≠ []) (s : Shared) :
    (preaccessBlock pow lcf r io ctx s).2.cssink =
      sentinelCssinkEnqueueBan io.cssink lcf.csSinkZone s.cssink r.addrText ngxSentinelCsBan
        (timeAdd io.now d) := by
  rw [ExpirySite.duration, Option.ite_none_right_eq_some] at hd
  obtain ⟨hpath, hd⟩ := hd
  cases hd
  obtain ⟨hlow, hhigh⟩ := ht.csSinkTtl hpath
  have hset : lcf.csSinkPath.length > 0 ∧ ¬ ctx.inputs.crowdsecHit ∧ r.addrText.length ≠ 0 := by
    rw [hlcf.csSinkPath]
    simp [hpath, hhit, haddr]
  rw [timeAdd_day (by omega) h62 ⟨by omega, hhigh⟩, ← hlcf.csSinkTtl, preaccessBlock]
  exact if_pos hset

end Modelled

namespace Ref

def confCore : ConfCore where
  toNgxCore := ngx
  parseTime := atoi
  parseTime_le := fun s n h => ((ngx.atoi_eq_some s n).mp h).2.2.2

end Ref

section Longest

/-- `sentinel_block_ttl 9223372036854775807` -/
def longestBan : LocTtls := { LocTtls.unset with blockTtl := some (2 ^ 63 - 1) }

theorem longestBan_configured : Configured Ref.confCore longestBan :=
  .read (show readTtls Ref.confCore [.blockTtl (str "9223372036854775807")] = .ok longestBan by
    decide +kernel)

theorem unset_configured : Configured Ref.confCore LocTtls.unset :=
  .read (show readTtls Ref.confCore [] = .ok LocTtls.unset from rfl)

/-- The longest soft-ban that can be written is over before it starts. -/
theorem longest_ban_wraps :
    Configured Ref.confCore longestBan ∧ Configured Ref.confCore LocTtls.unset ∧
      ∃ t, ngxSentinelMergeTtls longestBan LocTtls.unset = .ok t ∧
        ExpirySite.softban.duration t ⟨300, 3600, 64⟩ = some (2 ^ 63 - 1) ∧
        timeAdd 1700000000 (2 ^ 63 - 1) = -9223372035154775809 ∧
        ¬ ExpiriesExact t ⟨300, 3600, 64⟩ 1700000000 := by
  refine ⟨longestBan_configured, unset_configured,
    ⟨3600, [], 3600, [], 3600, 2 ^ 63 - 1, 3600, 3600⟩, by decide +kernel, by decide +kernel,
    by decide +kernel, fun h => ?_⟩
  exact absurd (h .softban _ rfl).1 (by decide +kernel)

/-- The same configuration at the start of the epoch, where it does no harm. -/
theorem expiry_arithmetic_at_zero :
    ∃ t, ngxSentinelMergeTtls longestBan LocTtls.unset = .ok t ∧
      (ExpiriesExact t ⟨300, 3600, 64⟩ 0 ↔
        t.blockTtl ≤ 2 ^ 63 - 1 - 0 ∧ (3600 : Int) ≤ 2 ^ 63 - 1 - 0 ∧
          t.powTtl ≤ 2 ^ 63 - 1 - 0 ∧ t.fcrdnsTtl ≤ 2 ^ 63 - 1 - 0) := by
  have hmerge : ngxSentinelMergeTtls longestBan LocTtls.unset =
      .ok ⟨3600, [], 3600, [], 3600, 2 ^ 63 - 1, 3600, 3600⟩ := by decide +kernel
  have hset : ngxSentinelSetZone Ref.conf (str "z:1m") =
      .ok ⟨.zones, str "z", 1048576, ⟨300, 3600, 64⟩⟩ := by decide +kernel
  exact ⟨_, hmerge, expiry_arithmetic_iff longestBan_configured unset_configured hmerge
    (.zone hset) (Int.le_refl 0) (by decide)⟩

end Longest
end Sentinel
