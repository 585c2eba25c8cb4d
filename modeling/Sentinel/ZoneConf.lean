import Mathlib.Logic.Function.Basic
import Sentinel.Lib.Keyed
import Sentinel.Lib.Lines
import Sentinel.Lib.Run
import Sentinel.Shm

/-!
The shared zones of a configuration: the directives of
`ngx_http_sentinel_module.c` that declare one, the growable arrays their
descriptors live in, the binding of locations to descriptors at merge time, and
what nginx does with the zones when it starts a cycle.

`ngx_array_push`, `ngx_shared_memory_add` and the choice that `ngx_init_cycle`
makes among the zones of the previous cycle are nginx's, and parameters here with
what the code relies on. Whether an array can be extended in place depends on the
pool, so each push is given that answer. Left out: allocation failures of the
configuration pool, and the directives and merged values that can only refuse a
configuration.
-/

namespace Sentinel

/-- The four arrays of `ngx_sentinel_main_conf_t`. -/
inductive ZoneKind where
  | zones | csZones | velZones | fcrdnsZones
  deriving DecidableEq, Repr

/-- The address of an element: its array, the block the array was in, and its
place there. -/
structure ZonePtr where
  kind : ZoneKind
  block : Nat
  index : Nat
  deriving DecidableEq, Repr

/-- `ngx_sentinel_zone_t`. Both pointers into a shared segment are named by the
number of the segment. -/
structure ZoneDesc where
  name : Bytes
  zone : Zone
  sh : Option Nat
  shpool : Option Nat
  deriving DecidableEq, Repr

/-- `ngx_array_t` -/
structure NgxArray where
  block : Nat
  nelts : Nat
  nalloc : Nat
  deriving DecidableEq, Repr

/-- The `init` callback and the `data` pointer of an `ngx_shm_zone_t`, which a
directive stores together. -/
inductive ShmInit where
  | zone (data : ZonePtr)
  | redis | cssink | tarpit
  deriving DecidableEq, Repr

/-- An `ngx_shm_zone_t` with this module's tag. -/
structure ShmZone where
  name : Bytes
  size : Nat
  init : ShmInit
  deriving DecidableEq, Repr

/-- A shared zone of a running cycle, with the number of its segment. -/
structure MappedZone extends ShmZone where
  addr : Nat

def NgxArray.full (a : NgxArray) : Bool := a.nelts = a.nalloc

/-- What `ngx_array_push` and the stores that fill the new element come to. A full
array is extended in place, or its elements are copied to a new block; the old
block keeps its contents. -/
structure Pushed (kind : ZoneKind) (inPlace : Bool) (d : ZoneDesc) (a : NgxArray)
    (mem : ZonePtr → ZoneDesc) (b : NgxArray) (mem' : ZonePtr → ZoneDesc) : Prop where
  nelts : b.nelts = a.nelts + 1
  block : b.block = if a.full ∧ inPlace = false then a.block + 1 else a.block
  filled : mem' ⟨kind, b.block, a.nelts⟩ = d
  copied : ∀ i < a.nelts, mem' ⟨kind, b.block, i⟩ = mem ⟨kind, a.block, i⟩
  frame : ∀ p : ZonePtr, ¬ (p.kind = kind ∧ p.block = b.block ∧ p.index ≤ a.nelts) →
    mem' p = mem p

/-- The platform and nginx as far as the configuration depends on them. -/
structure NgxConf where
  pagesize : Nat
  /-- `ngx_parse_size` -/
  parseSize : Bytes → Option Nat
  /-- Whether a fresh pool of this size serves the two allocations of
  `sentinel_shm_init_zone`. -/
  slabServes : Nat → Bool
  /-- `ngx_array_push` -/
  arrayPush : ZoneKind → Bool → ZoneDesc → NgxArray → (ZonePtr → ZoneDesc) →
    NgxArray × (ZonePtr → ZoneDesc)
  arrayPush_pushed : ∀ kind inPlace d a mem,
    Pushed kind inPlace d a mem (arrayPush kind inPlace d a mem).1
      (arrayPush kind inPlace d a mem).2
  /-- `ngx_shared_memory_add`: a name that is already there gives the existing
  zone, which has to have the same size. -/
  sharedMemoryAdd : List ShmZone → ShmZone → Except Bytes (List ShmZone)
  sharedMemoryAdd_new : ∀ shms z, Keyed.get ShmZone.name shms z.name = none →
    sharedMemoryAdd shms z = .ok (shms ++ [z])
  sharedMemoryAdd_old : ∀ shms z old, Keyed.get ShmZone.name shms z.name = some old →
    old.size = z.size → sharedMemoryAdd shms z = .ok shms
  sharedMemoryAdd_conflict : ∀ shms z old, Keyed.get ShmZone.name shms z.name = some old →
    old.size ≠ z.size → ∃ e, sharedMemoryAdd shms z = .error e
  /-- The zone of the previous cycle whose segment `ngx_init_cycle` keeps. -/
  survivor : List MappedZone → ShmZone → Option MappedZone
  survivor_mem : ∀ shms z m, survivor shms z = some m →
    m ∈ shms ∧ m.name = z.name ∧ m.size = z.size

/-- The main configuration and the shared zones declared so far. -/
structure ConfState where
  arrays : ZoneKind → NgxArray
  mem : ZonePtr → ZoneDesc
  shms : List ShmZone

section Arrays

/-- The initial room that `ngx_sentinel_create_main_conf` gives each array. -/
def ZoneKind.room : ZoneKind → Nat
  | .zones => 4
  | .csZones => 2
  | .velZones => 2
  | .fcrdnsZones => 2

def ngxSentinelCreateMainConf : ConfState where
  arrays kind := ⟨0, 0, kind.room⟩
  mem _ := ⟨[], ⟨0, 0, 0⟩, none, none⟩
  shms := []

/-- `ngx_array_push` and the stores that fill the new element. -/
def ngxArrayPush (cf : NgxConf) (s : ConfState) (kind : ZoneKind) (inPlace : Bool) (d : ZoneDesc) :
    ConfState × ZonePtr :=
  let a := s.arrays kind
  let r := cf.arrayPush kind inPlace d a s.mem
  ({ s with arrays := Function.update s.arrays kind r.1, mem := r.2 }, ⟨kind, r.1.block, a.nelts⟩)

end Arrays

section Directives

def quoted (s : Bytes) : Bytes := str "\"" ++ s ++ str "\""

/-- What the arguments of a zone directive come to. -/
structure ZoneDecl where
  kind : ZoneKind
  name : Bytes
  size : Nat
  zone : Zone
  deriving DecidableEq, Repr

/-- The head that the four zone directives share: "name:size", split at the
first colon. -/
def zoneDecl (cf : NgxConf) (directive : Bytes) (kind : ZoneKind) (zone : Zone)
    (value : Bytes) : Except Bytes ZoneDecl :=
  match Lines.field (ch ':') value with
  | (_, []) =>
      .error (str "invalid " ++ directive ++ str " " ++ quoted value ++
        str ": expected name:size")
  | (name, _ :: size) =>
      match cf.parseSize size with
      | none => .error (str "invalid " ++ directive ++ str " size in " ++ quoted value)
      | some size =>
          if size < cf.pagesize then
            .error (str "invalid " ++ directive ++ str " size in " ++ quoted value)
          else .ok { kind, name, size, zone }

/-- `NGX_SENTINEL_MAX_WINDOW_EVENTS` -/
def ngxSentinelMaxWindowEvents : Nat := 64

def ngxSentinelSetZone (cf : NgxConf) : Bytes → Except Bytes ZoneDecl :=
  zoneDecl cf (str "sentinel_zone") .zones ⟨300, 3600, ngxSentinelMaxWindowEvents⟩

def ngxSentinelSetCrowdsecZone (cf : NgxConf) : Bytes → Except Bytes ZoneDecl :=
  zoneDecl cf (str "sentinel_crowdsec_zone") .csZones ⟨600, 0, 0⟩

def ngxSentinelSetFcrdnsZone (cf : NgxConf) : Bytes → Except Bytes ZoneDecl :=
  zoneDecl cf (str "sentinel_fcrdns_zone") .fcrdnsZones ⟨3600, 0, 0⟩

/-- The value of a `key=value` argument that must be a number from 1 on. -/
def velocityValue (ngx : NgxCore) (key : Bytes) (arg : Bytes) : Except Bytes Nat :=
  match ngx.atoi (arg.drop (key.length + 1)) with
  | some v =>
      if v < 1 then .error (str "sentinel_velocity_zone: " ++ key ++ str " must be >= 1")
      else .ok v
  | none => .error (str "sentinel_velocity_zone: " ++ key ++ str " must be >= 1")

def velocityArg (ngx : NgxCore) (zone : Zone) (arg : Bytes) : Except Bytes Zone :=
  if (str "rate=").isPrefixOf arg then
    (velocityValue ngx (str "rate") arg).map fun v => { zone with threshold := v }
  else if (str "window=").isPrefixOf arg then
    (velocityValue ngx (str "window") arg).map fun v => { zone with interval := v }
  else if (str "block=").isPrefixOf arg then
    (velocityValue ngx (str "block") arg).map fun v => { zone with block := v }
  else .error (str "sentinel_velocity_zone: unknown parameter " ++ quoted arg)

def ngxSentinelSetVelocityZone (ngx : NgxCore) (cf : NgxConf) (value : Bytes)
    (args : List Bytes) : Except Bytes ZoneDecl := do
  let d ← zoneDecl cf (str "sentinel_velocity_zone") .velZones ⟨10, 3600, 100⟩ value
  let zone ← Run.tryExec (velocityArg ngx) d.zone args
  return { d with zone }

/-- `sizeof(ngx_sentinel_redis_shctx_t)`, which the sink's ring shares: three
words and 4096 entries of 128 bytes. -/
def sizeofRingShctx : Nat := 3 * 8 + 4096 * 128

def ringZoneSize (cf : NgxConf) : Nat :=
  (sizeofRingShctx + 4 * cf.pagesize + (cf.pagesize - 1)) / cf.pagesize * cf.pagesize

/-- The directives that declare a shared zone. Of `sentinel_redis` and
`sentinel_cs_sink_path` only that part is here. -/
inductive ShmDirective where
  | sentinelZone (value : Bytes)
  | velocityZone (value : Bytes) (args : List Bytes)
  | crowdsecZone (value : Bytes)
  | fcrdnsZone (value : Bytes)
  | redis (value : Bytes)
  | csSinkPath (value : Bytes)

inductive ShmDecl where
  | zone (d : ZoneDecl)
  | redis (name : Bytes) (size : Nat)
  | cssink (name : Bytes) (size : Nat)

def ShmDecl.name : ShmDecl → Bytes
  | .zone d => d.name
  | .redis name _ => name
  | .cssink name _ => name

/-- The array that the directive pushes onto. -/
def ShmDecl.pushes : ShmDecl → Option ZoneKind
  | .zone d => some d.kind
  | .redis _ _ => none
  | .cssink _ _ => none

def ShmDirective.decl (ngx : NgxCore) (cf : NgxConf) : ShmDirective → Except Bytes ShmDecl
  | .sentinelZone value => (ngxSentinelSetZone cf value).map .zone
  | .velocityZone value args => (ngxSentinelSetVelocityZone ngx cf value args).map .zone
  | .crowdsecZone value => (ngxSentinelSetCrowdsecZone cf value).map .zone
  | .fcrdnsZone value => (ngxSentinelSetFcrdnsZone cf value).map .zone
  | .redis value => .ok (.redis (str "sentinel_redis_push_" ++ value) (ringZoneSize cf))
  | .csSinkPath value => .ok (.cssink (str "sentinel_cs_sink_" ++ value) (ringZoneSize cf))

/-- `ngx_shared_memory_add` and the two stores after it. -/
def ngxSharedMemoryAdd (cf : NgxConf) (s : ConfState) (z : ShmZone) : Except Bytes ConfState :=
  (cf.sharedMemoryAdd s.shms z).map fun shms =>
    { s with shms := Keyed.write ShmZone.name shms z }

/-- What a declaring directive leaves behind. -/
def ConfState.declare (cf : NgxConf) (s : ConfState) (d : ShmDecl) (inPlace : Bool) :
    Except Bytes ConfState :=
  match d with
  | .zone d =>
      let r := ngxArrayPush cf s d.kind inPlace ⟨d.name, d.zone, none, none⟩
      ngxSharedMemoryAdd cf r.1 ⟨d.name, d.size, .zone r.2⟩
  | .redis name size => ngxSharedMemoryAdd cf s ⟨name, size, .redis⟩
  | .cssink name size => ngxSharedMemoryAdd cf s ⟨name, size, .cssink⟩

/-- One directive, with the pool's answer to a push. -/
def confStep (ngx : NgxCore) (cf : NgxConf) (s : ConfState) (d : ShmDirective × Bool) :
    Except Bytes ConfState := do
  let decl ← d.1.decl ngx cf
  s.declare cf decl d.2

def tarpitZoneName : Bytes := str "sentinel_tarpit_conns"

/-- `ngx_sentinel_init_tarpit_shm` -/
def ngxSentinelInitTarpitShm (cf : NgxConf) (s : ConfState) : Except Bytes ConfState :=
  ngxSharedMemoryAdd cf s ⟨tarpitZoneName, 8 * cf.pagesize, .tarpit⟩

end Directives

section Merge

/-- The fields of `ngx_sentinel_loc_conf_t` that bind a location to zones. A
pointer field is `none` while it is `NGX_CONF_UNSET_PTR`. -/
structure LocConf where
  zone : Option ZonePtr
  velZone : Option (Option ZonePtr)
  velZoneName : Bytes
  fcrdnsZone : Option (Option ZonePtr)
  fcrdnsZoneName : Bytes
  csZone : Option (Option ZonePtr)
  csFeed : Bytes
  redisHost : Bytes
  csStaleAfter : Option Int

/-- What the directives of one location level store. -/
structure LocDirectives where
  velZoneName : Bytes
  fcrdnsZoneName : Bytes
  csFeed : Bytes
  redisHost : Bytes
  csStaleAfter : Option Int

/-- `ngx_sentinel_create_loc_conf` and the directives: none of them sets a
pointer. -/
def LocDirectives.conf (l : LocDirectives) : LocConf where
  zone := none
  velZone := none
  velZoneName := l.velZoneName
  fcrdnsZone := none
  fcrdnsZoneName := l.fcrdnsZoneName
  csZone := none
  csFeed := l.csFeed
  redisHost := l.redisHost
  csStaleAfter := l.csStaleAfter

/-- The pointers a location holds. -/
def LocConf.bound (l : LocConf) : List ZonePtr :=
  l.zone.toList ++ (l.csZone.join.toList ++ (l.velZone.join.toList ++ l.fcrdnsZone.join.toList))

/-- `&elts[i]` as the array is now. -/
def ConfState.elt (s : ConfState) (kind : ZoneKind) (i : Nat) : ZonePtr :=
  ⟨kind, (s.arrays kind).block, i⟩

/-- The first element of that name. -/
def ConfState.zoneByName (s : ConfState) (kind : ZoneKind) (name : Bytes) : Option ZonePtr :=
  ((List.range (s.arrays kind).nelts).map (s.elt kind)).find? fun p => (s.mem p).name = name

/-- `zones.elts[0]`, if there is one. -/
def ConfState.firstZone (s : ConfState) (kind : ZoneKind) : Option ZonePtr :=
  if (s.arrays kind).nelts > 0 then some (s.elt kind 0) else none

/-- `ngx_conf_merge_ptr_value(conf, prev, NULL)` -/
def mergePtr (conf prev : Option (Option ZonePtr)) : Option ZonePtr :=
  (conf.or prev).join

def mergeName (conf prev : Bytes) : Bytes := if conf = [] then prev else conf

/-- A name that is set must be found, whatever pointer was inherited. -/
def resolveName (s : ConfState) (kind : ZoneKind) (what : Bytes) (name : Bytes)
    (inherited : Option ZonePtr) : Except Bytes (Option ZonePtr) :=
  if name = [] then .ok inherited
  else
    match s.zoneByName kind name with
    | some p => .ok (some p)
    | none => .error (what ++ quoted name)

/-- The pointer that `cs_zone` ends as. -/
def bindCsZone (s : ConfState) (csFeed redisHost : Bytes) (inherited : Option ZonePtr) :
    Except Bytes (Option ZonePtr) :=
  match inherited with
  | some p => .ok (some p)
  | none =>
      if csFeed = [] ∧ redisHost = [] then .ok none
      else
        match s.firstZone .csZones with
        | some p => .ok (some p)
        | none =>
            .error (str "sentinel_crowdsec_feed/sentinel_redis set but " ++
              str "no sentinel_crowdsec_zone declared")

/-- The LRU age-out of a bound crowdsec zone becomes the location's. -/
def setCsInterval (s : ConfState) (staleAfter : Int) : Option ZonePtr → ConfState
  | none => s
  | some p =>
      let d := s.mem p
      let zone : Zone := { d.zone with interval := staleAfter }
      { s with mem := Function.update s.mem p { d with zone } }

def ngxSentinelMergeLocConf (s : ConfState) (prev conf : LocConf) :
    Except Bytes (ConfState × LocConf) := do
  let fcrdnsZoneName := mergeName conf.fcrdnsZoneName prev.fcrdnsZoneName
  let fcrdnsZone ← resolveName s .fcrdnsZones (str "sentinel_fcrdns_zone: unknown zone ")
    fcrdnsZoneName (mergePtr conf.fcrdnsZone prev.fcrdnsZone)
  let velZoneName := mergeName conf.velZoneName prev.velZoneName
  let velZone ← resolveName s .velZones (str "sentinel_velocity: unknown velocity zone ")
    velZoneName (mergePtr conf.velZone prev.velZone)
  let csFeed := mergeName conf.csFeed prev.csFeed
  let redisHost := mergeName conf.redisHost prev.redisHost
  let csStaleAfter := (conf.csStaleAfter.or prev.csStaleAfter).getD 600
  if csStaleAfter < 30 ∨ csStaleAfter > 86400 then
    .error (str "sentinel_crowdsec_stale_after must be 30..86400 s")
  else
    let zone := (conf.zone.or prev.zone).or (s.firstZone .zones)
    let csZone ← bindCsZone s csFeed redisHost (mergePtr conf.csZone prev.csZone)
    return (setCsInterval s csStaleAfter csZone,
      { zone, velZone := some velZone, velZoneName, fcrdnsZone := some fcrdnsZone,
        fcrdnsZoneName, csZone := some csZone, csFeed, redisHost,
        csStaleAfter := some csStaleAfter })

/-- One call of the merge: the number of the parent among the configurations
merged before (0 is the unmerged main one), and the location's own directives. -/
def mergeStep (r : ConfState × List LocConf) (m : Nat × LocDirectives) :
    Except Bytes (ConfState × List LocConf) :=
  match r.2[m.1]? with
  | some prev => (ngxSentinelMergeLocConf r.1 prev m.2.conf).map fun r' => (r'.1, r.2 ++ [r'.2])
  | none => .error []

end Merge

section Cycle

structure Cycle where
  mem : ZonePtr → ZoneDesc
  shms : List MappedZone
  /-- The main configuration and then every merged one. -/
  locs : List LocConf
  /-- How many segments were mapped since nginx was started. -/
  mapped : Nat

structure Conf where
  directives : List (ShmDirective × Bool)
  main : LocDirectives
  locs : List (Nat × LocDirectives)

/-- `sentinel_shm_init_zone`; `present` is `shm.exists` and `room` whether the
pool serves its allocations. -/
def sentinelShmInitZoneDesc (zone : ZoneDesc) (old : Option ZoneDesc) (addr : Nat)
    (present room : Bool) : Option ZoneDesc :=
  match old with
  | some old => some { zone with sh := old.sh, shpool := old.shpool }
  | none =>
      if present then some { zone with shpool := some addr, sh := some addr }
      else if room then some { zone with shpool := some addr, sh := some addr }
      else none

/-- The loop body of `ngx_init_cycle` over the shared zones. The callbacks of the
other zones touch no descriptor. Where one of those left its own structure as the
old data of a zone, the callback would read a descriptor that is not there; such
a configuration has no cycle here. -/
def ngxInitShm (cf : NgxConf) (old : Option Cycle) (c : Cycle) (z : ShmZone) :
    Except Bytes Cycle :=
  match old.bind fun o => (cf.survivor o.shms z).map fun m => (o.mem, m) with
  | some (mem, m) =>
      match z.init, m.init with
      | .zone p, .zone q =>
          match sentinelShmInitZoneDesc (c.mem p) (some (mem q)) m.addr false false with
          | some d =>
              .ok { c with mem := Function.update c.mem p d, shms := c.shms ++ [⟨z, m.addr⟩] }
          | none => .error []
      | .zone _, _ => .error []
      | _, _ => .ok { c with shms := c.shms ++ [⟨z, m.addr⟩] }
  | none =>
      match z.init with
      | .zone p =>
          match sentinelShmInitZoneDesc (c.mem p) none c.mapped false
              (cf.slabServes z.size) with
          | some d =>
              .ok { c with
                mem := Function.update c.mem p d, shms := c.shms ++ [⟨z, c.mapped⟩]
                mapped := c.mapped + 1 }
          | none => .error []
      | _ => .ok { c with shms := c.shms ++ [⟨z, c.mapped⟩], mapped := c.mapped + 1 }

/-- The configuration as it is read: the directives, the merges, and the zone
that the postconfiguration adds. -/
def ngxConfParse (ngx : NgxCore) (cf : NgxConf) (conf : Conf) :
    Except Bytes (ConfState × List LocConf) := do
  let s ← Run.tryExec (confStep ngx cf) ngxSentinelCreateMainConf conf.directives
  let r ← Run.tryExec mergeStep (s, [conf.main.conf]) conf.locs
  let s ← ngxSentinelInitTarpitShm cf r.1
  return (s, r.2)

/-- A start (`old` is `none`) or a reload. -/
def ngxInitCycle (ngx : NgxCore) (cf : NgxConf) (old : Option Cycle) (conf : Conf) :
    Except Bytes Cycle := do
  let r ← ngxConfParse ngx cf conf
  Run.tryExec (ngxInitShm cf old)
    { mem := r.1.mem, shms := [], locs := r.2, mapped := (old.map Cycle.mapped).getD 0 }
    r.1.shms

/-- The cycle that runs after a start and some reloads; a refused configuration
leaves the one before in place. -/
def ngxReloads (ngx : NgxCore) (cf : NgxConf) (confs : List Conf) : Option Cycle :=
  Run.exec (fun old conf => (ngxInitCycle ngx cf old conf).toOption.or old) none confs

/-- The test that every store operation begins with. -/
def ZoneDesc.attached (d : ZoneDesc) : Bool := d.sh.isSome && d.shpool.isSome

end Cycle
end Sentinel
