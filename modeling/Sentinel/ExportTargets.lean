import Mathlib.Logic.Equiv.List
import Sentinel.BanLoop
import Sentinel.ExportConf
import Sentinel.HttpConf

/-!
Which export targets a worker serves. Each worker arms one sink and one Redis
endpoint, the first that is found in the servers and their trees; a ban that is
made for another target goes nowhere.
-/

namespace Sentinel
open Collect Function

section Init
variable {ngx : ConfCore} {csZones : Nat}

/-- The segments that the ring zones are mapped to, each its own. -/
structure RingZones where
  data : Bytes → Nat
  data_inj : Injective data

/-- The two `find_loc` walks: each server, and then its tree. -/
def findLoc {α : Type} (wanted : α → Bool) : List (CoreSrv α) → Option α
  | [] => none
  | s :: servers =>
      if wanted s.loc.sentinel then some s.loc.sentinel
      else
        match s.loc.statics.search fun clcf => wanted clcf.sentinel with
        | some clcf => some clcf.sentinel
        | none => findLoc wanted servers

variable (zones : RingZones) (servers : List (CoreSrv (ExportConf ngx csZones)))

def sentinelRedisFindLoc : Option (ExportConf ngx csZones) :=
  findLoc (fun conf => conf.lcf.redisHost.length > 0 ∧ conf.lcf.csZone ≠ none) servers

def sentinelCssinkFindLoc : Option (ExportConf ngx csZones) :=
  findLoc (fun conf => conf.lcf.csSinkPath.length > 0 ∧ conf.lcf.csSinkZone ≠ none) servers

/-- What `sentinel_redis_ctx_t` keeps of the location: where it connects to, and
the ring that is flushed there. -/
structure RedisTarget where
  host : Bytes
  port : Option Int
  push : Option Nat
  deriving DecidableEq, Repr

/-- What `sentinel_cssink_ctx_t` keeps of the location, the ring and the path
that it is drained into; only the owner drains. -/
structure CssinkTarget where
  path : Bytes
  ring : Nat
  owner : Bool
  deriving DecidableEq, Repr

/-- `sentinel_redis_init_process`: what the worker is armed with. -/
def RedisTarget.initProcess : Option RedisTarget :=
  (sentinelRedisFindLoc servers).map fun conf =>
    ⟨conf.lcf.redisHost, conf.lcf.redisPort, conf.lcf.redisPushZone.map zones.data⟩

/-- `sentinel_cssink_init_process` -/
def CssinkTarget.initProcess (ngxWorker : Nat) : Option CssinkTarget :=
  match sentinelCssinkFindLoc servers with
  | none => none
  | some conf =>
      conf.lcf.csSinkZone.map fun zone =>
        ⟨conf.lcf.csSinkPath, zones.data zone, decide (ngxWorker = 0)⟩

end Init

section Scanned
variable {α : Type}

/-- What the walks come upon of a server. -/
def CoreSrv.scanned (s : CoreSrv α) : List α := s.loc.sentinel :: s.treeConfs

theorem findLoc_eq (wanted : α → Bool) (servers : List (CoreSrv α)) :
    findLoc wanted servers = (servers.flatMap CoreSrv.scanned).find? wanted := by
  have hcomp : (fun clcf => wanted clcf.sentinel) = wanted ∘ CoreLoc.sentinel := rfl
  induction servers with
  | nil => rfl
  | cons s servers ih =>
      rw [findLoc, hcomp, List.flatMap_cons, List.find?_append, CoreSrv.scanned, List.find?_cons,
        search_eq, CoreSrv.treeConfs, List.find?_map, ih]
      cases wanted s.loc.sentinel with
      | true => rfl
      | false =>
          cases s.loc.statics.entries.find? (wanted ∘ CoreLoc.sentinel) with
          | none | some clcf => rfl

theorem serves_scanned {servers : List (CoreSrv α)} {s : CoreSrv α} (hs : s ∈ servers) {lcf : α}
    (h : lcf ∈ s.scanned) : Serves servers lcf := by
  cases h with
  | head => exact serves_server hs
  | tail _ h => exact serves_tree hs h

theorem serves_found {wanted : α → Bool} {servers : List (CoreSrv α)} {lcf : α}
    (h : findLoc wanted servers = some lcf) : Serves servers lcf ∧ wanted lcf = true := by
  rw [findLoc_eq] at h
  obtain ⟨s, hs, hlcf⟩ := List.mem_flatMap.mp (List.mem_of_find?_eq_some h)
  exact ⟨serves_scanned hs hlcf, List.find?_some h⟩

theorem scanned_found {wanted : α → Bool} {servers : List (CoreSrv α)} {lcf : α}
    (h : findLoc wanted servers = some lcf) :
    ∃ s ∈ servers, ∃ lcf' ∈ s.scanned, wanted lcf' = true := by
  rw [findLoc_eq] at h
  obtain ⟨s, hs, hlcf⟩ := List.mem_flatMap.mp (List.mem_of_find?_eq_some h)
  exact ⟨s, hs, lcf, hlcf, List.find?_some h⟩

theorem exists_found {wanted : α → Bool} {servers : List (CoreSrv α)} {s : CoreSrv α}
    (hs : s ∈ servers) {lcf : α} (hlcf : lcf ∈ s.scanned) (h : wanted lcf = true) :
    ∃ lcf', findLoc wanted servers = some lcf' := by
  rw [findLoc_eq]
  refine Option.isSome_iff_exists.mp (List.find?_isSome.mpr ⟨lcf, ?_, h⟩)
  exact List.mem_flatMap.mpr ⟨s, hs, hlcf⟩

theorem exists_some_iff {found : Option α} {first : α} (h : found = some first) {p : α → Prop} :
    (∃ lcf, found = some lcf ∧ p lcf) ↔ p first := by
  constructor
  · intro ⟨lcf, hfound, hp⟩
    obtain rfl := Option.some.inj (hfound.symm.trans h)
    exact hp
  · exact fun hp => ⟨first, h, hp⟩

end Scanned

section Block

/-- A BLOCK decision that the worker makes itself: there is no CrowdSec hit, the
address fits an entry, and no ring is full. -/
structure LocalBlock where
  pow : PowCore
  lcf : RequestConf
  r : Request
  io : RequestIo
  ctx : SentinelCtx
  s : Shared
  block : ctx.verdict = .block
  noHit : ctx.inputs.crowdsecHit = false
  addr : r.addrText.length ≠ 0 ∧ r.addrText.length < ngxSockaddrStrlen
  redisRoom : ∀ g, (s.redisPush g).head - (s.redisPush g).tail < ngxSentinelRedisPushRing
  cssinkRoom : ∀ g, (s.cssink g).head - (s.cssink g).tail < ngxSentinelCssinkRing

variable {ngx : ConfCore} {csZones : Nat} (zones : RingZones)
  (servers : List (CoreSrv (ExportConf ngx csZones))) (d : LocalBlock)

/-- A location's configuration as the handler sees it. -/
def ExportLevel.request (conf : ExportLevel) (lcf : RequestConf) : RequestConf :=
  { lcf with
    redisHost := conf.redisHost
    redisPushZone := conf.redisPushZone.map zones.data
    csSinkPath := conf.csSinkPath
    csSinkZone := conf.csSinkZone.map zones.data }

/-- The decision as a worker of that configuration enforces it. -/
def LocalBlock.enforce (ngxWorker : Nat) (conf : ExportLevel) : Shared :=
  let io : RequestIo :=
    { d.io with
      redisPush := (RedisTarget.initProcess zones servers).bind RedisTarget.push
      cssink := (CssinkTarget.initProcess zones servers ngxWorker).map CssinkTarget.ring }
  (preaccessEnforce d.pow (conf.request zones d.lcf) d.r io d.ctx d.s).2

/-- In any worker, the ban of a location with a Redis endpoint goes to the ring
that is flushed to that endpoint. -/
def RedisServed (conf : ExportLevel) : Prop :=
  conf.redisHost ≠ [] → ∀ ngxWorker, ∃ rc, RedisTarget.initProcess zones servers = some rc ∧
    rc.host = conf.redisHost ∧ rc.port = conf.redisPort ∧
    ∃ g, rc.push = some g ∧ (d.s.redisPush g).Gained ngxSentinelRedisPushRing
      ((d.enforce zones servers ngxWorker conf).redisPush g) d.r.addrText

/-- In any worker, the ban of a location with a sink goes to the ring that worker
0 drains into that sink. -/
def CssinkServed (conf : ExportLevel) : Prop :=
  conf.csSinkPath ≠ [] → ∀ ngxWorker, ∃ sc, CssinkTarget.initProcess zones servers 0 = some sc ∧
    sc.owner = true ∧ sc.path = conf.csSinkPath ∧
    (d.s.cssink sc.ring).Gained ngxSentinelCssinkRing
      ((d.enforce zones servers ngxWorker conf).cssink sc.ring) d.r.addrText

/-- Every target is served. -/
def TargetsServed : Prop :=
  ∀ conf, Serves servers conf →
    CssinkServed zones servers d conf.lcf ∧ RedisServed zones servers d conf.lcf

/-- The first target of each kind is served, and in whatever location it is set;
no other is, and what is meant for another reaches no ring. A server or a location
of its tree that has one is enough for there to be a first. -/
structure FirstServed : Prop where
  cssink : ∀ conf, Serves servers conf → conf.lcf.csSinkPath ≠ [] →
    ∀ first, sentinelCssinkFindLoc servers = some first →
      (CssinkServed zones servers d conf.lcf ↔ conf.lcf.csSinkPath = first.lcf.csSinkPath)
  redis : ∀ conf, Serves servers conf → conf.lcf.redisHost ≠ [] →
    ∀ first, sentinelRedisFindLoc servers = some first →
      (RedisServed zones servers d conf.lcf ↔ conf.lcf.redisPushZone = first.lcf.redisPushZone)
  cssinkOther : ∀ conf, Serves servers conf → conf.lcf.csSinkPath ≠ [] →
    (∀ first, sentinelCssinkFindLoc servers = some first →
      conf.lcf.csSinkPath ≠ first.lcf.csSinkPath) →
    ∀ ngxWorker, (d.enforce zones servers ngxWorker conf.lcf).cssink = d.s.cssink
  redisOther : ∀ conf, Serves servers conf → conf.lcf.redisHost ≠ [] →
    (∀ first, sentinelRedisFindLoc servers = some first →
      conf.lcf.redisPushZone ≠ first.lcf.redisPushZone) →
    ∀ ngxWorker, (d.enforce zones servers ngxWorker conf.lcf).redisPush = d.s.redisPush
  cssinkFirst : ∀ s ∈ servers, ∀ conf ∈ s.scanned, conf.lcf.csSinkPath ≠ [] →
    ∃ first, sentinelCssinkFindLoc servers = some first ∧ Serves servers first ∧
      first.lcf.csSinkPath ≠ []
  redisFirst : ∀ s ∈ servers, ∀ conf ∈ s.scanned, conf.lcf.redisHost ≠ [] →
    ∃ first, sentinelRedisFindLoc servers = some first ∧ Serves servers first ∧
      first.lcf.redisHost ≠ []

/-- There is one sink, and a server or a location of its tree has it. -/
structure OneSink : Prop where
  one : ∀ conf conf', Serves servers conf → Serves servers conf' → conf.lcf.csSinkPath ≠ [] →
    conf'.lcf.csSinkPath ≠ [] → conf.lcf.csSinkPath = conf'.lcf.csSinkPath
  found : ∀ conf, Serves servers conf → conf.lcf.csSinkPath ≠ [] →
    ∃ s ∈ servers, ∃ conf' ∈ s.scanned, conf'.lcf.csSinkPath ≠ []

/-- There is one ring zone for Redis, which is one way to write one endpoint, and
a server or a location of its tree has it. -/
structure OneRedis : Prop where
  one : ∀ conf conf', Serves servers conf → Serves servers conf' → conf.lcf.redisHost ≠ [] →
    conf'.lcf.redisHost ≠ [] → conf.lcf.redisPushZone = conf'.lcf.redisPushZone
  found : ∀ conf, Serves servers conf → conf.lcf.redisHost ≠ [] →
    ∃ s ∈ servers, ∃ conf' ∈ s.scanned, conf'.lcf.redisHost ≠ []

end Block

section Served
variable {ngx : ConfCore} {csZones : Nat} {zones : RingZones}
  {servers : List (CoreSrv (ExportConf ngx csZones))} {d : LocalBlock}
  {conf conf' : ExportConf ngx csZones}

theorem enforce_cssink (ngxWorker : Nat) {conf : ExportLevel} (h : conf.csSinkPath ≠ []) :
    (d.enforce zones servers ngxWorker conf).cssink =
      sentinelCssinkEnqueueBan ((CssinkTarget.initProcess zones servers ngxWorker).map
        CssinkTarget.ring) (conf.csSinkZone.map zones.data) d.s.cssink d.r.addrText
        ngxSentinelCsBan (d.io.now + d.lcf.csSinkTtl) := by
  have hlen : conf.csSinkPath.length > 0 := List.length_pos_iff.mpr h
  simp only [LocalBlock.enforce, preaccessEnforce, d.block, preaccessBlock, ExportLevel.request]
  exact if_pos ⟨hlen, by simp [d.noHit], d.addr.1⟩

theorem enforce_redisPush (ngxWorker : Nat) {conf : ExportLevel} (h : conf.redisHost ≠ []) :
    (d.enforce zones servers ngxWorker conf).redisPush =
      sentinelRedisEnqueueBan ((RedisTarget.initProcess zones servers).bind RedisTarget.push)
        (conf.redisPushZone.map zones.data) d.s.redisPush d.r.addrText ngxSentinelCsBan
        (d.io.now + d.lcf.redisTtl) := by
  have hlen : conf.redisHost.length > 0 := List.length_pos_iff.mpr h
  simp only [LocalBlock.enforce, preaccessEnforce, d.block, preaccessBlock, ExportLevel.request]
  exact if_pos ⟨hlen, by simp [d.noHit], d.addr.1⟩

theorem cssinkFindLoc_some (h : sentinelCssinkFindLoc servers = some conf) :
    Serves servers conf ∧ conf.lcf.csSinkPath ≠ [] := by
  obtain ⟨hserves, hwanted⟩ := serves_found h
  rw [decide_eq_true_eq] at hwanted
  exact ⟨hserves, List.length_pos_iff.mp hwanted.1⟩

theorem redisFindLoc_some (h : sentinelRedisFindLoc servers = some conf) :
    Serves servers conf ∧ conf.lcf.redisHost ≠ [] := by
  obtain ⟨hserves, hwanted⟩ := serves_found h
  rw [decide_eq_true_eq] at hwanted
  exact ⟨hserves, List.length_pos_iff.mp hwanted.1⟩

theorem exists_cssinkFindLoc {s : CoreSrv (ExportConf ngx csZones)} (hs : s ∈ servers)
    (hconf : conf ∈ s.scanned) (hpath : conf.lcf.csSinkPath ≠ []) :
    ∃ conf', sentinelCssinkFindLoc servers = some conf' := by
  refine exists_found hs hconf (decide_eq_true ⟨List.length_pos_iff.mpr hpath, ?_⟩)
  rw [conf.csSinkZone_eq hpath]
  exact nofun

theorem exists_redisFindLoc {s : CoreSrv (ExportConf ngx csZones)} (hs : s ∈ servers)
    (hconf : conf ∈ s.scanned) (hhost : conf.lcf.redisHost ≠ []) :
    ∃ conf', sentinelRedisFindLoc servers = some conf' :=
  exists_found hs hconf
    (decide_eq_true ⟨List.length_pos_iff.mpr hhost, conf.csZone_ne_none hhost⟩)

theorem cssinkInit_eq (h : sentinelCssinkFindLoc servers = some conf') (ngxWorker : Nat) :
    CssinkTarget.initProcess zones servers ngxWorker =
      some ⟨conf'.lcf.csSinkPath, zones.data (cssinkZoneName conf'.lcf.csSinkPath),
        decide (ngxWorker = 0)⟩ := by
  rw [CssinkTarget.initProcess, h]
  dsimp only
  rw [conf'.csSinkZone_eq (cssinkFindLoc_some h).2]
  rfl

/-- A sink is served if and only if it is the one that the walk finds. -/
theorem cssinkServed_iff (hpath : conf.lcf.csSinkPath ≠ []) :
    CssinkServed zones servers d conf.lcf ↔
      ∃ conf', sentinelCssinkFindLoc servers = some conf' ∧
        conf'.lcf.csSinkPath = conf.lcf.csSinkPath := by
  constructor
  · intro hserved
    obtain ⟨sc, hinit, -, hsink, -⟩ := hserved hpath 0
    cases hfind : sentinelCssinkFindLoc servers with
    | none =>
        rw [CssinkTarget.initProcess, hfind] at hinit
        contradiction
    | some conf' =>
        rw [cssinkInit_eq hfind, Option.some.injEq] at hinit
        exact ⟨conf', rfl, by rw [← hsink, ← hinit]⟩
  · intro ⟨conf', hfind, hsame⟩ _ ngxWorker
    refine ⟨_, cssinkInit_eq hfind 0, rfl, hsame, ?_⟩
    rw [enforce_cssink ngxWorker hpath, sentinelCssinkEnqueueBan,
      gained_enqueueBan_iff d.addr (d.cssinkRoom _), cssinkInit_eq hfind, hsame,
      conf.csSinkZone_eq hpath]
    exact ⟨rfl, rfl⟩

/-- A Redis endpoint is served if and only if its ring is that of the one that
the walk finds. -/
theorem redisServed_iff (hhost : conf.lcf.redisHost ≠ []) :
    RedisServed zones servers d conf.lcf ↔
      ∃ conf', sentinelRedisFindLoc servers = some conf' ∧
        conf'.lcf.redisPushZone = conf.lcf.redisPushZone := by
  constructor
  · intro hserved
    obtain ⟨rc, hinit, -, -, g, hpush, hgained⟩ := hserved hhost 0
    rw [enforce_redisPush 0 hhost, sentinelRedisEnqueueBan,
      gained_enqueueBan_iff d.addr (d.redisRoom g)] at hgained
    cases hfind : sentinelRedisFindLoc servers with
    | none =>
        rw [RedisTarget.initProcess, hfind] at hinit
        contradiction
    | some conf' =>
        rw [RedisTarget.initProcess, hfind, Option.map_some, Option.some.injEq] at hinit
        rw [← hinit, ← hgained.2] at hpush
        exact ⟨conf', rfl, Option.map_injective zones.data_inj hpush⟩
  · intro ⟨conf', hfind, hsame⟩ _ ngxWorker
    obtain ⟨hhost', hport'⟩ := ExportConf.endpoint_eq (redisFindLoc_some hfind).2 hsame
    obtain ⟨name, hname⟩ := conf.exists_redisPushZone hhost
    have hinit : RedisTarget.initProcess zones servers =
        some ⟨conf'.lcf.redisHost, conf'.lcf.redisPort, some (zones.data name)⟩ := by
      rw [RedisTarget.initProcess, hfind, Option.map_some, hsame, hname, Option.map_some]
    refine ⟨_, hinit, hhost', hport', _, rfl, ?_⟩
    rw [enforce_redisPush ngxWorker hhost, sentinelRedisEnqueueBan,
      gained_enqueueBan_iff d.addr (d.redisRoom _), hinit, hname]
    exact ⟨rfl, rfl⟩

/-- A ban for a sink that is not the armed one reaches no ring. -/
theorem cssink_dropped (hpath : conf.lcf.csSinkPath ≠ [])
    (hother : ∀ first, sentinelCssinkFindLoc servers = some first →
      conf.lcf.csSinkPath ≠ first.lcf.csSinkPath) (ngxWorker : Nat) :
    (d.enforce zones servers ngxWorker conf.lcf).cssink = d.s.cssink := by
  rw [enforce_cssink ngxWorker hpath, sentinelCssinkEnqueueBan]
  apply enqueueBan_unbound
  intro g harmed hbound
  cases hfind : sentinelCssinkFindLoc servers with
  | none => simp [CssinkTarget.initProcess, hfind] at harmed
  | some first =>
      rw [cssinkInit_eq hfind, Option.map_some, Option.some.injEq] at harmed
      rw [conf.csSinkZone_eq hpath, Option.map_some, Option.some.injEq, ← harmed] at hbound
      exact hother first hfind (List.append_cancel_left (zones.data_inj hbound))

/-- So does one for another endpoint. -/
theorem redis_dropped (hhost : conf.lcf.redisHost ≠ [])
    (hother : ∀ first, sentinelRedisFindLoc servers = some first →
      conf.lcf.redisPushZone ≠ first.lcf.redisPushZone) (ngxWorker : Nat) :
    (d.enforce zones servers ngxWorker conf.lcf).redisPush = d.s.redisPush := by
  rw [enforce_redisPush ngxWorker hhost, sentinelRedisEnqueueBan]
  apply enqueueBan_unbound
  intro g harmed hbound
  cases hfind : sentinelRedisFindLoc servers with
  | none => simp [RedisTarget.initProcess, hfind] at harmed
  | some first =>
      simp only [RedisTarget.initProcess, hfind, Option.map_some, Option.bind_some] at harmed
      exact hother first hfind (Option.map_injective zones.data_inj (hbound.trans harmed.symm))

theorem first_target_served (ngx : ConfCore) (csZones : Nat) (zones : RingZones)
    (servers : List (CoreSrv (ExportConf ngx csZones))) (d : LocalBlock) :
    FirstServed zones servers d := by
  refine ⟨?_, ?_, ?_, ?_, ?_, ?_⟩
  · intro conf _ hpath first hfirst
    rw [cssinkServed_iff hpath, exists_some_iff hfirst]
    exact eq_comm
  · intro conf _ hhost first hfirst
    rw [redisServed_iff hhost, exists_some_iff hfirst]
    exact eq_comm
  · intro conf _ hpath hother ngxWorker
    exact cssink_dropped hpath hother ngxWorker
  · intro conf _ hhost hother ngxWorker
    exact redis_dropped hhost hother ngxWorker
  · intro s hs conf hconf hpath
    obtain ⟨first, hfirst⟩ := exists_cssinkFindLoc hs hconf hpath
    exact ⟨first, hfirst, cssinkFindLoc_some hfirst⟩
  · intro s hs conf hconf hhost
    obtain ⟨first, hfirst⟩ := exists_redisFindLoc hs hconf hhost
    exact ⟨first, hfirst, redisFindLoc_some hfirst⟩

/-- Every target is served exactly when there is but one of each kind, and the
walks come upon it. -/
theorem targets_served_iff (ngx : ConfCore) (csZones : Nat) (zones : RingZones)
    (servers : List (CoreSrv (ExportConf ngx csZones))) (d : LocalBlock) :
    TargetsServed zones servers d ↔ OneSink servers ∧ OneRedis servers := by
  constructor
  · intro hserved
    have hsink : ∀ conf, Serves servers conf → conf.lcf.csSinkPath ≠ [] →
        ∃ conf', sentinelCssinkFindLoc servers = some conf' ∧
          conf'.lcf.csSinkPath = conf.lcf.csSinkPath :=
      fun conf hserves hpath => (cssinkServed_iff hpath).mp (hserved conf hserves).1
    have hredis : ∀ conf, Serves servers conf → conf.lcf.redisHost ≠ [] →
        ∃ conf', sentinelRedisFindLoc servers = some conf' ∧
          conf'.lcf.redisPushZone = conf.lcf.redisPushZone :=
      fun conf hserves hhost => (redisServed_iff hhost).mp (hserved conf hserves).2
    refine ⟨⟨?_, ?_⟩, ⟨?_, ?_⟩⟩
    · intro conf conf' hserves hserves' hpath hpath'
      obtain ⟨found, hfound, heq⟩ := hsink conf hserves hpath
      have heq' := (exists_some_iff hfound).mp (hsink conf' hserves' hpath')
      exact heq.symm.trans heq'
    · intro conf hserves hpath
      obtain ⟨found, hfound, -⟩ := hsink conf hserves hpath
      obtain ⟨s, hs, conf', hconf', hwanted⟩ := scanned_found hfound
      rw [decide_eq_true_eq] at hwanted
      exact ⟨s, hs, conf', hconf', List.length_pos_iff.mp hwanted.1⟩
    · intro conf conf' hserves hserves' hhost hhost'
      obtain ⟨found, hfound, heq⟩ := hredis conf hserves hhost
      have heq' := (exists_some_iff hfound).mp (hredis conf' hserves' hhost')
      exact heq.symm.trans heq'
    · intro conf hserves hhost
      obtain ⟨found, hfound, -⟩ := hredis conf hserves hhost
      obtain ⟨s, hs, conf', hconf', hwanted⟩ := scanned_found hfound
      rw [decide_eq_true_eq] at hwanted
      exact ⟨s, hs, conf', hconf', List.length_pos_iff.mp hwanted.1⟩
  · intro ⟨hsink, hredis⟩ conf hserves
    constructor
    · intro hpath
      obtain ⟨s, hs, conf', hconf', hpath'⟩ := hsink.found conf hserves hpath
      obtain ⟨found, hfound⟩ := exists_cssinkFindLoc hs hconf' hpath'
      obtain ⟨hserves', hfoundPath⟩ := cssinkFindLoc_some hfound
      have hone := hsink.one found conf hserves' hserves hfoundPath hpath
      exact (cssinkServed_iff hpath).mpr ⟨found, hfound, hone⟩ hpath
    · intro hhost
      obtain ⟨s, hs, conf', hconf', hhost'⟩ := hredis.found conf hserves hhost
      obtain ⟨found, hfound⟩ := exists_redisFindLoc hs hconf' hhost'
      obtain ⟨hserves', hfoundHost⟩ := redisFindLoc_some hfound
      have hone := hredis.one found conf hserves' hserves hfoundHost hhost
      exact (redisServed_iff hhost).mpr ⟨found, hfound, hone⟩ hhost

/-- A location that says nothing. -/
def plainTarget : ExportConf Ref.confCore 0 where
  lcf := ⟨[], none, [], some 6379, none, [], none⟩
  merged := ⟨[], .unset, .unset, rfl, .unset, rfl⟩

/-- A location with a sink. -/
def sinkTarget (path : Bytes) (h : path ≠ []) : ExportConf Ref.confCore 0 where
  lcf := ⟨[], none, [], some 6379, none, path, some (cssinkZoneName path)⟩
  merged := by
    refine ⟨[.csSinkPath path], ⟨[], none, [], none, none, path, some (cssinkZoneName path)⟩,
      .unset, ?_, .unset, ?_⟩
    · simp [readExports, Run.tryExec, exportDirective, ngxSentinelSetCsSink, ExportLevel.unset, h]
      rfl
    · simp [ngxSentinelMergeExports, mergeName, ExportLevel.unset, h]
      rfl

/-- A segment for each name. -/
def countedZones : RingZones where
  data name := Encodable.encode (name.map UInt8.toNat)
  data_inj := by
    intro name name' h
    refine List.map_injective_iff.mpr ?_ (Encodable.encode_injective h)
    exact fun a b hab => UInt8.toNat_inj.mp hab

def plainBlock : LocalBlock where
  pow := Ref.pow
  lcf := defaultConf
  r := plainRequest (str "192.0.2.7") (str "/") (.inet [192, 0, 2, 7] rfl)
  io := plainIo 60 noInputs
  ctx := ⟨noInputs, 100, .block, false, false, .off⟩
  s := loopStart.shared
  block := rfl
  noHit := rfl
  addr := by decide
  redisRoom := fun _ => show (0 : UInt64) - 0 < 4096 by decide
  cssinkRoom := fun _ => show (0 : UInt64) - 0 < 4096 by decide

/-- A server with two exact locations, and a sink for each. -/
def twoSinks : CoreSrv (ExportConf Ref.confCore 0) where
  loc := .mk plainTarget
    (.node (some (.mk (sinkTarget (str "/a") (by decide)) .nil [])) none .nil .nil
      (.node (some (.mk (sinkTarget (str "/b") (by decide)) .nil [])) none .nil .nil .nil)) []
  named := []

/-- The bans of the second location reach no sink. -/
theorem second_sink_not_served : ¬ TargetsServed countedZones [twoSinks] plainBlock := by
  intro hserved
  have hserves : Serves [twoSinks] (sinkTarget (str "/b") (by decide)) :=
    serves_tree List.mem_cons_self (.tail _ (.head _))
  obtain ⟨found, hfound, heq⟩ := (cssinkServed_iff (by decide)).mp (hserved _ hserves).1
  cases hfound
  exact absurd heq (by decide)

end Served

end Sentinel
