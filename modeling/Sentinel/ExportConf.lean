import Sentinel.Expiry

/-!
The two export targets of a location: how `sentinel_redis` and
`sentinel_cs_sink_path` are read, each with a ring zone of its own, and how the
levels of the configuration are merged. A zone is named here by what it is called
in the configuration, and no other directive takes these names.
-/

namespace Sentinel

section Directives

/-- What one level says of the targets, with the two fields that the binding of
the CrowdSec zone goes by. A port is `none` while it is `NGX_CONF_UNSET`. -/
structure ExportLevel where
  csFeed : Bytes
  csZone : Option Nat
  redisHost : Bytes
  redisPort : Option Int
  redisPushZone : Option Bytes
  csSinkPath : Bytes
  csSinkZone : Option Bytes
  deriving DecidableEq, Repr

def ExportLevel.unset : ExportLevel := ⟨[], none, [], none, none, [], none⟩

inductive ExportDirective where
  | crowdsecFeed (value : Bytes)
  | redis (value : Bytes)
  | csSinkPath (value : Bytes)

def ngxSentinelRedisDefaultPort : Int := 6379

def redisZoneName (value : Bytes) : Bytes := str "sentinel_redis_push_" ++ value

def cssinkZoneName (value : Bytes) : Bytes := str "sentinel_cs_sink_" ++ value

theorem redisZoneName_inj {value value' : Bytes} (h : redisZoneName value = redisZoneName value') :
    value = value' :=
  List.append_cancel_left h

variable (ngx : ConfCore)

/-- The host and the port of an argument, which is split at its first colon. -/
def redisEndpoint (value : Bytes) : Except Bytes (Bytes × Int) :=
  match Lines.field (ch ':') value with
  | (host, []) => .ok (host, ngxSentinelRedisDefaultPort)
  | (host, _ :: pstr) =>
      if pstr.length = 0 then .error (str "sentinel_redis: empty port in " ++ quoted value)
      else
        match ngx.atoi pstr with
        | none => .error (str "sentinel_redis: bad port in " ++ quoted value)
        | some port =>
            if port < 1 ∨ port > 65535 then
              .error (str "sentinel_redis: bad port in " ++ quoted value)
            else .ok (host, port)

def ngxSentinelSetRedis (lcf : ExportLevel) (value : Bytes) : Except Bytes ExportLevel :=
  if lcf.redisHost.length > 0 then .error (str "is duplicate")
  else if value.length = 0 then .error (str "sentinel_redis host must be non-empty")
  else
    match redisEndpoint ngx value with
    | .error e => .error e
    | .ok (host, port) =>
        if host.length = 0 then .error (str "sentinel_redis host must be non-empty")
        else
          .ok { lcf with
            redisHost := host
            redisPort := some port
            redisPushZone := some (redisZoneName value) }

def ngxSentinelSetCsSink (lcf : ExportLevel) (value : Bytes) : Except Bytes ExportLevel :=
  if lcf.csSinkPath.length > 0 then .error (str "is duplicate")
  else if value.length = 0 then .error (str "sentinel_cs_sink_path must be non-empty")
  else .ok { lcf with csSinkPath := value, csSinkZone := some (cssinkZoneName value) }

def ngxSentinelSetCrowdsecFeed (lcf : ExportLevel) (value : Bytes) : Except Bytes ExportLevel :=
  if value.length = 0 then .error (str "sentinel_crowdsec_feed path must be non-empty")
  else .ok { lcf with csFeed := value }

def exportDirective (lcf : ExportLevel) : ExportDirective → Except Bytes ExportLevel
  | .crowdsecFeed value => ngxSentinelSetCrowdsecFeed lcf value
  | .redis value => ngxSentinelSetRedis ngx lcf value
  | .csSinkPath value => ngxSentinelSetCsSink lcf value

/-- One level as it is read. -/
def readExports (directives : List ExportDirective) : Except Bytes ExportLevel :=
  Run.tryExec (exportDirective ngx) ExportLevel.unset directives

/-- The part of `ngx_sentinel_merge_loc_conf` that is about the targets;
`csZones` is how many CrowdSec zones are declared. -/
def ngxSentinelMergeExports (csZones : Nat) (conf prev : ExportLevel) :
    Except Bytes ExportLevel :=
  let csFeed := mergeName conf.csFeed prev.csFeed
  let redisHost := mergeName conf.redisHost prev.redisHost
  let redisPushZone :=
    if conf.redisHost = [] then conf.redisPushZone.or prev.redisPushZone else conf.redisPushZone
  let redisPort := some (ngxConfMergeValue conf.redisPort prev.redisPort
    ngxSentinelRedisDefaultPort)
  let csSinkPath := mergeName conf.csSinkPath prev.csSinkPath
  let csSinkZone :=
    if conf.csSinkPath = [] then conf.csSinkZone.or prev.csSinkZone else conf.csSinkZone
  let csZone := conf.csZone.or prev.csZone
  if csZone = none ∧ (csFeed.length > 0 ∨ redisHost.length > 0) then
    if csZones > 0 then
      .ok { csFeed, csZone := some 0, redisHost, redisPort, redisPushZone, csSinkPath, csSinkZone }
    else
      .error (str "sentinel_crowdsec_feed/sentinel_redis set but " ++
        str "no sentinel_crowdsec_zone declared")
  else .ok { csFeed, csZone, redisHost, redisPort, redisPushZone, csSinkPath, csSinkZone }

/-- The levels that a configuration has: those read, and those merged. -/
inductive ExportConfigured (csZones : Nat) : ExportLevel → Prop
  | read {directives : List ExportDirective} {conf : ExportLevel} :
      readExports ngx directives = .ok conf → ExportConfigured csZones conf
  | merge {directives : List ExportDirective} {conf prev lcf : ExportLevel} :
      readExports ngx directives = .ok conf → ExportConfigured csZones prev →
      ngxSentinelMergeExports csZones conf prev = .ok lcf → ExportConfigured csZones lcf

/-- What a server or a location is configured with: a level that has been merged. -/
structure ExportConf (csZones : Nat) where
  lcf : ExportLevel
  merged : ∃ directives conf prev, readExports ngx directives = .ok conf ∧
    ExportConfigured ngx csZones prev ∧ ngxSentinelMergeExports csZones conf prev = .ok lcf

end Directives

section Sync
variable {ngx : ConfCore} {csZones : Nat}

/-- A Redis target is the one that its ring zone was named by. -/
def RedisSync (ngx : ConfCore) (lcf : ExportLevel) : Prop :=
  (lcf.redisHost = [] ∧ lcf.redisPushZone = none) ∨
    ∃ value host port, redisEndpoint ngx value = .ok (host, port) ∧ host ≠ [] ∧
      lcf.redisHost = host ∧ lcf.redisPort = some port ∧
      lcf.redisPushZone = some (redisZoneName value)

def CssinkSync (lcf : ExportLevel) : Prop :=
  lcf.csSinkZone = if lcf.csSinkPath = [] then none else some (cssinkZoneName lcf.csSinkPath)

structure ExportLevel.Sync (ngx : ConfCore) (lcf : ExportLevel) : Prop where
  redis : RedisSync ngx lcf
  cssink : CssinkSync lcf

/-- What a directive can do that is not refused. -/
theorem directive_cases {lcf lcf' : ExportLevel} {d : ExportDirective}
    (h : exportDirective ngx lcf d = .ok lcf') :
    (∃ value, lcf' = { lcf with csFeed := value }) ∨
    (∃ value host port, redisEndpoint ngx value = .ok (host, port) ∧ host ≠ [] ∧
      lcf' = { lcf with
        redisHost := host
        redisPort := some port
        redisPushZone := some (redisZoneName value) }) ∨
    ∃ value, value ≠ [] ∧
      lcf' = { lcf with csSinkPath := value, csSinkZone := some (cssinkZoneName value) } := by
  cases d with
  | crowdsecFeed value =>
      simp only [exportDirective, ngxSentinelSetCrowdsecFeed] at h
      split at h
      · contradiction
      · cases h
        exact .inl ⟨value, rfl⟩
  | redis value =>
      simp only [exportDirective, ngxSentinelSetRedis] at h
      split at h
      · contradiction
      split at h
      · contradiction
      split at h
      · contradiction
      next host port hendpoint =>
        split at h
        · contradiction
        next hhost =>
          cases h
          rw [List.length_eq_zero_iff] at hhost
          exact .inr (.inl ⟨value, host, port, hendpoint, hhost, rfl⟩)
  | csSinkPath value =>
      simp only [exportDirective, ngxSentinelSetCsSink] at h
      split at h
      · contradiction
      split at h
      · contradiction
      next hvalue =>
        cases h
        rw [List.length_eq_zero_iff] at hvalue
        exact .inr (.inr ⟨value, hvalue, rfl⟩)

theorem directive_sync {lcf lcf' : ExportLevel} {d : ExportDirective}
    (h : exportDirective ngx lcf d = .ok lcf') (hsync : lcf.Sync ngx) : lcf'.Sync ngx := by
  cases directive_cases h with
  | inl hfeed =>
      obtain ⟨value, rfl⟩ := hfeed
      exact ⟨hsync.redis, hsync.cssink⟩
  | inr htarget =>
      cases htarget with
      | inl hredis =>
          obtain ⟨value, host, port, hendpoint, hhost, rfl⟩ := hredis
          exact ⟨.inr ⟨value, host, port, hendpoint, hhost, rfl, rfl, rfl⟩, hsync.cssink⟩
      | inr hsink =>
          obtain ⟨value, hvalue, rfl⟩ := hsink
          exact ⟨hsync.redis, (if_neg hvalue).symm⟩

/-- Before a merge a port comes with a host only. -/
def PortSync (lcf : ExportLevel) : Prop := lcf.redisHost = [] → lcf.redisPort = none

theorem directive_port {lcf lcf' : ExportLevel} {d : ExportDirective}
    (h : exportDirective ngx lcf d = .ok lcf') (hport : PortSync lcf) : PortSync lcf' := by
  cases directive_cases h with
  | inl hfeed =>
      obtain ⟨value, rfl⟩ := hfeed
      exact hport
  | inr htarget =>
      cases htarget with
      | inl hredis =>
          obtain ⟨value, host, port, -, hhost, rfl⟩ := hredis
          exact fun hnil => absurd hnil hhost
      | inr hsink =>
          obtain ⟨value, -, rfl⟩ := hsink
          exact hport

theorem read_sync {directives : List ExportDirective} {conf : ExportLevel}
    (h : readExports ngx directives = .ok conf) : conf.Sync ngx := by
  refine Run.tryExec_invariant (fun _ _ _ hstep hsync => directive_sync hstep hsync) h ?_
  exact ⟨.inl ⟨rfl, rfl⟩, rfl⟩

theorem read_port {directives : List ExportDirective} {conf : ExportLevel}
    (h : readExports ngx directives = .ok conf) : PortSync conf :=
  Run.tryExec_invariant (fun _ _ _ hstep hport => directive_port hstep hport) h fun _ => rfl

/-- The targets that a merge leaves, whatever it does about the CrowdSec zone. -/
theorem merge_fields {conf prev lcf : ExportLevel}
    (h : ngxSentinelMergeExports csZones conf prev = .ok lcf) :
    lcf.redisHost = mergeName conf.redisHost prev.redisHost ∧
      lcf.redisPort = some (ngxConfMergeValue conf.redisPort prev.redisPort
        ngxSentinelRedisDefaultPort) ∧
      lcf.redisPushZone = (if conf.redisHost = [] then conf.redisPushZone.or prev.redisPushZone
        else conf.redisPushZone) ∧
      lcf.csSinkPath = mergeName conf.csSinkPath prev.csSinkPath ∧
      lcf.csSinkZone = (if conf.csSinkPath = [] then conf.csSinkZone.or prev.csSinkZone
        else conf.csSinkZone) ∧
      (lcf.redisHost ≠ [] → lcf.csZone ≠ none) := by
  simp only [ngxSentinelMergeExports] at h
  split at h
  · split at h
    · cases h
      exact ⟨rfl, rfl, rfl, rfl, rfl, fun _ => nofun⟩
    · contradiction
  next hzone =>
    cases h
    refine ⟨rfl, rfl, rfl, rfl, rfl, fun hhost hnone => hzone ⟨hnone, .inr ?_⟩⟩
    exact List.length_pos_iff.mpr hhost

theorem merge_sync {conf prev lcf : ExportLevel}
    (h : ngxSentinelMergeExports csZones conf prev = .ok lcf) (hconf : conf.Sync ngx)
    (hport : PortSync conf) (hprev : prev.Sync ngx) : lcf.Sync ngx := by
  obtain ⟨hlhost, hlport, hlpush, hlpath, hlsink, -⟩ := merge_fields h
  constructor
  · simp only [RedisSync, hlhost, hlport, hlpush]
    cases hconf.redis with
    | inr hset =>
        -- The level has a directive of its own, which decides all three fields.
        obtain ⟨value, host, port, hendpoint, hne, rfl, hport, hzone⟩ := hset
        refine .inr ⟨value, conf.redisHost, port, hendpoint, hne, ?_, ?_, ?_⟩
        · exact if_neg hne
        · rw [hport]
          rfl
        · rw [if_neg hne, hzone]
    | inl hunset =>
        rw [mergeName, if_pos hunset.1, if_pos hunset.1, hunset.2, hport hunset.1, Option.none_or]
        cases hprev.redis with
        | inl hnone => exact .inl hnone
        | inr hset =>
            obtain ⟨value, host, port, hendpoint, hne, hhost, hport, hzone⟩ := hset
            refine .inr ⟨value, host, port, hendpoint, hne, hhost, ?_, hzone⟩
            rw [hport]
            rfl
  · simp only [CssinkSync, hlpath, hlsink]
    have hconf := hconf.cssink
    have hprev := hprev.cssink
    rw [CssinkSync] at hconf hprev
    by_cases hnil : conf.csSinkPath = []
    · rw [if_pos hnil, hconf, if_pos hnil, Option.none_or, hprev, mergeName, if_pos hnil]
    · rw [if_neg hnil, hconf, if_neg hnil, mergeName, if_neg hnil, if_neg hnil]

theorem ExportConfigured.unset : ExportConfigured ngx csZones .unset := by
  have hread : readExports ngx [] = .ok .unset := rfl
  exact .read hread

theorem ExportConfigured.sync {lcf : ExportLevel} (h : ExportConfigured ngx csZones lcf) :
    lcf.Sync ngx := by
  induction h with
  | read hread => exact read_sync hread
  | merge hread _ hmerge ih => exact merge_sync hmerge (read_sync hread) (read_port hread) ih

namespace ExportConf
variable (conf conf' : ExportConf ngx csZones)

theorem sync : conf.lcf.Sync ngx := by
  obtain ⟨directives, read, prev, hread, hprev, hmerge⟩ := conf.merged
  exact (ExportConfigured.merge hread hprev hmerge).sync

/-- Where there is a Redis target there is a zone for what is pulled from it. -/
theorem csZone_ne_none (h : conf.lcf.redisHost ≠ []) : conf.lcf.csZone ≠ none := by
  obtain ⟨directives, read, prev, hread, hprev, hmerge⟩ := conf.merged
  obtain ⟨-, -, -, -, -, hzone⟩ := merge_fields hmerge
  exact hzone h

theorem csSinkZone_eq (h : conf.lcf.csSinkPath ≠ []) :
    conf.lcf.csSinkZone = some (cssinkZoneName conf.lcf.csSinkPath) :=
  conf.sync.cssink.trans (if_neg h)

/-- Where there is a host there is a ring for it. -/
theorem exists_redisPushZone (h : conf.lcf.redisHost ≠ []) :
    ∃ name, conf.lcf.redisPushZone = some name := by
  cases conf.sync.redis with
  | inl hunset => exact absurd hunset.1 h
  | inr hset =>
      obtain ⟨value, host, port, -, -, -, -, hzone⟩ := hset
      exact ⟨_, hzone⟩

variable {conf conf'}

/-- One ring is for one endpoint. -/
theorem endpoint_eq (hhost : conf.lcf.redisHost ≠ [])
    (h : conf.lcf.redisPushZone = conf'.lcf.redisPushZone) :
    conf.lcf.redisHost = conf'.lcf.redisHost ∧ conf.lcf.redisPort = conf'.lcf.redisPort := by
  cases conf.sync.redis with
  | inl hunset => exact absurd hunset.1 hhost
  | inr hset =>
      obtain ⟨value, host, port, hendpoint, -, hhost, hport, hzone⟩ := hset
      cases conf'.sync.redis with
      | inl hunset =>
          rw [hzone, hunset.2] at h
          contradiction
      | inr hset' =>
          obtain ⟨value', host', port', hendpoint', -, hhost', hport', hzone'⟩ := hset'
          rw [hzone, hzone', Option.some.injEq] at h
          rw [redisZoneName_inj h, hendpoint', Except.ok.injEq, Prod.mk.injEq] at hendpoint
          rw [hhost, hhost', hport, hport', hendpoint.1, hendpoint.2]
          exact ⟨rfl, rfl⟩

end ExportConf
end Sync
end Sentinel
