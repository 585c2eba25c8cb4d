import Sentinel.Pow
import Sentinel.PushRing
import Sentinel.Score
import Sentinel.ShmErrrate
import Sentinel.Feed
import Sentinel.TarpitDrip

/-!
The request path of `ngx_http_sentinel_module.c`: the context that is gathered
once for a request, the preaccess handler that acts on its verdict, and the log
handler.

The three collectors that look into shared zones are here; what the others
report is taken as it comes. Left out: log lines, the Prometheus counters, and
the configuration of whoever else runs in these phases.
-/

namespace Sentinel
open Function

def ngxHttpClose : Int := 444

/-- The `ngx_int_t` behind a code. -/
def NgxRc.code : NgxRc → Int
  | .ok => 0
  | .error => -1
  | .again => -2
  | .busy => -3
  | .done => -4
  | .declined => -5
  | .httpClose => ngxHttpClose

/-- A zone pointer of a location that is not `NULL`: the segment, and the
parameters if the descriptor is attached to it. -/
structure BoundZone where
  shm : Nat
  zone : Option Zone
  deriving DecidableEq, Repr

/-- The fields of `ngx_sentinel_loc_conf_t` that the request path reads, and
`fail_open`. The two ring zones are the rings they hold. -/
structure RequestConf where
  enabled : Bool
  shadow : Bool
  failOpen : Bool
  zone : Option BoundZone
  velZone : Option BoundZone
  csZone : Option BoundZone
  threshold : Threshold
  weights : Weights
  tarpit : TarpitConf
  blockStatus : Int
  blockTtl : Int
  throttleRate : Nat
  shield : Bool
  pow : PowConf
  redisHost : Bytes
  redisTtl : Int
  redisPushZone : Option Nat
  csSinkPath : Bytes
  csSinkTtl : Int
  csSinkZone : Option Nat
  deriving DecidableEq, Repr

/-- The bounds that `ngx_sentinel_merge_loc_conf` checks. -/
structure RequestConf.Accepted (lcf : RequestConf) : Prop where
  crowdsec : 0 ≤ lcf.weights.crowdsec ∧ lcf.weights.crowdsec ≤ ngxSentinelScoreMax
  redisTtl : lcf.redisHost ≠ [] → 60 ≤ lcf.redisTtl ∧ lcf.redisTtl ≤ 86400
  csSinkTtl : lcf.csSinkPath ≠ [] → 60 ≤ lcf.csSinkTtl ∧ lcf.csSinkTtl ≤ 86400
  tarpit : lcf.tarpit.Accepted
  blockStatus : lcf.blockStatus = ngxHttpClose ∨ 400 ≤ lcf.blockStatus ∧ lcf.blockStatus ≤ 599
  blockTtl : 0 ≤ lcf.blockTtl
  pow : lcf.pow.Accepted

instance RequestConf.decidableAccepted (lcf : RequestConf) : Decidable lcf.Accepted :=
  decidable_of_iff
    ((0 ≤ lcf.weights.crowdsec ∧ lcf.weights.crowdsec ≤ ngxSentinelScoreMax) ∧
      (lcf.redisHost ≠ [] → 60 ≤ lcf.redisTtl ∧ lcf.redisTtl ≤ 86400) ∧
      (lcf.csSinkPath ≠ [] → 60 ≤ lcf.csSinkTtl ∧ lcf.csSinkTtl ≤ 86400) ∧
      lcf.tarpit.Accepted ∧
      (lcf.blockStatus = ngxHttpClose ∨ 400 ≤ lcf.blockStatus ∧ lcf.blockStatus ≤ 599) ∧
      0 ≤ lcf.blockTtl ∧ lcf.pow.Accepted)
    ⟨fun ⟨h₁, h₂, h₃, h₄, h₅, h₆, h₇⟩ => ⟨h₁, h₂, h₃, h₄, h₅, h₆, h₇⟩,
      fun ⟨h₁, h₂, h₃, h₄, h₅, h₆, h₇⟩ => ⟨h₁, h₂, h₃, h₄, h₅, h₆, h₇⟩⟩

/-- What the merge gives a location without any directive. -/
def defaultConf : RequestConf where
  enabled := false
  shadow := true
  failOpen := true
  zone := none
  velZone := none
  csZone := none
  threshold := defaultThreshold
  weights := defaultWeights
  tarpit := ⟨256, 5000, 1024, 30000, false⟩
  blockStatus := 403
  blockTtl := 0
  throttleRate := 0
  shield := false
  pow := ⟨false, [], 16, 3600⟩
  redisHost := []
  redisTtl := 3600
  redisPushZone := none
  csSinkPath := []
  csSinkTtl := 3600
  csSinkZone := none

theorem defaultConf_accepted : defaultConf.Accepted := by decide

/-- The segments of the errrate, velocity and CrowdSec zones. -/
abbrev Segments := Nat → Shctx

section Signals
variable (ngx : NgxCore)

def scannerPrefixes : List Bytes :=
  [str "/.env", str "/.git", str "/wp-login", str "/wp-admin", str "/.aws", str "/phpinfo"]

def sentinelErrrateIsScannerPath (uri : Bytes) : Bool :=
  scannerPrefixes.any fun pfx =>
    uri.length ≥ pfx.length ∧ ngxStrncasecmp uri pfx pfx.length = 0

/-- The lookup of `sentinel_errrate_signal` and `sentinel_velocity_signal`, if
one is made. -/
def zoneLookup (zone : Option BoundZone) (addrText : Bytes) (now : Nat) (shm : Segments) :
    Option (ErrrateReply × Segments) :=
  match zone with
  | none => none
  | some z =>
      if addrText.length = 0 then none
      else
        let r := sentinelShmErrrateLookup ngx z.zone (shm z.shm) (sentinelFeedDigest ngx addrText)
          now
        some (r.1, update shm z.shm r.2)

variable {ngx} in
/-- A lookup that is made is made for an address, in the segment of its zone. -/
theorem zoneLookup_eq_some {zone : Option BoundZone} {addrText : Bytes} {now : Nat}
    {shm : Segments} {l : ErrrateReply × Segments}
    (hl : zoneLookup ngx zone addrText now shm = some l) :
    ∃ z, zone = some z ∧
      let r := sentinelShmErrrateLookup ngx z.zone (shm z.shm) (sentinelFeedDigest ngx addrText) now
      l = (r.1, update shm z.shm r.2) := by
  cases zone with
  | none => contradiction
  | some z =>
      rw [zoneLookup] at hl
      by_cases haddr : addrText.length = 0
      · rw [if_pos haddr] at hl
        contradiction
      · rw [if_neg haddr] at hl
        exact ⟨z, rfl, (Option.some.inj hl).symm⟩

def sentinelErrrateSignal (lcf : RequestConf) (addrText uri : Bytes) (now : Nat)
    (inputs : Inputs) (shm : Segments) : Inputs × Segments :=
  let inputs := { inputs with
    errrateCount := 0
    errrateBlocked := false
    scannerPath := sentinelErrrateIsScannerPath uri }
  match zoneLookup ngx lcf.zone addrText now shm with
  | none => (inputs, shm)
  | some (reply, shm) =>
      if reply.rc = .error then (inputs, shm)
      else
        ({ inputs with
            errrateCount := reply.count
            errrateBlocked := decide (reply.rc = .busy) }, shm)

def sentinelVelocitySignal (lcf : RequestConf) (addrText : Bytes) (now : Nat)
    (inputs : Inputs) (shm : Segments) : Inputs × Segments :=
  let inputs := { inputs with velocityExceeded := false }
  match zoneLookup ngx lcf.velZone addrText now shm with
  | none => (inputs, shm)
  | some (reply, shm) =>
      if reply.rc = .error then (inputs, shm)
      else ({ inputs with velocityExceeded := decide (reply.rc = .busy) }, shm)

/-- The lookup of `sentinel_crowdsec_signal`, if one is made. -/
def crowdsecLookup (zone : Option BoundZone) (addrText : Bytes) (now : Nat) (shm : Segments) :
    Option (NgxRc × UInt8 × Segments) :=
  match zone with
  | none => none
  | some z =>
      if addrText.length = 0 then none
      else
        let r := sentinelShmCrowdsecLookup ngx z.zone (shm z.shm)
          (sentinelFeedDigest ngx addrText) now
        some (r.1, r.2.1, update shm z.shm r.2.2)

def sentinelCrowdsecSignal (lcf : RequestConf) (addrText : Bytes) (now : Nat)
    (inputs : Inputs) (shm : Segments) : Inputs × Segments :=
  let inputs := { inputs with crowdsecHit := false, crowdsecAction := ngxSentinelCsNone }
  match crowdsecLookup ngx lcf.csZone addrText now shm with
  | none => (inputs, shm)
  | some (rc, action, shm) =>
      if rc = .error then (inputs, shm)
      else if rc = .busy then
        ({ inputs with crowdsecHit := true, crowdsecAction := action }, shm)
      else (inputs, shm)

end Signals
section Context

/-- `ngx_sentinel_ctx_t` -/
structure SentinelCtx where
  inputs : Inputs
  score : Int
  verdict : Verdict
  throttled : Bool
  shielded : Bool
  powState : PowState
  deriving DecidableEq, Repr

/-- What the getter is called on: the location and the URI of that moment, the
time, and what the other collectors report. -/
structure Gather where
  lcf : RequestConf
  uri : Bytes
  now : Nat
  collected : Inputs

/-- The collectors in their order; the others write fields of their own. -/
def gatherInputs (ngx : NgxCore) (g : Gather) (addrText : Bytes) (shm : Segments) :
    Inputs × Segments :=
  let r := sentinelErrrateSignal ngx g.lcf addrText g.uri g.now g.collected shm
  let r := sentinelVelocitySignal ngx g.lcf addrText g.now r.1 r.2
  sentinelCrowdsecSignal ngx g.lcf addrText g.now r.1 r.2

def scoredCtx (lcf : RequestConf) (inputs : Inputs) : SentinelCtx :=
  let score := sentinelScoreCompute inputs lcf.weights
  { inputs, score, verdict := sentinelScoreToVerdict score lcf.threshold
    throttled := false, shielded := false, powState := .off }

/-- The request's slot for this module is an untyped pointer: whatever is in it
is handed on. The result is also what the slot holds afterwards. -/
def ngxSentinelGetCtx {κ : Type} (fresh : SentinelCtx → κ) (ngx : NgxCore) (g : Gather)
    (addrText : Bytes) (alloc : Bool) (slot : Option κ) (shm : Segments) :
    Option κ × Segments :=
  match slot with
  | some ctx => (some ctx, shm)
  | none =>
      if ¬ alloc then (none, shm)
      else
        let r := gatherInputs ngx g addrText shm
        (some (fresh (scoredCtx g.lcf r.1)), r.2)

end Context
section Handler

/-- What a request brings. -/
structure Request where
  addrText : Bytes
  uri : Bytes
  pow : PowRequest

/-- What the handler meets: the two clocks, the other collectors, allocations,
and the rings of the worker's own contexts. -/
structure RequestIo where
  now : Nat
  msec : Nat
  collected : Inputs
  ctxAlloc : Bool
  slab : Bool
  pow : PowIo
  tarpit : TarpitEnv
  redisPush : Option Nat
  cssink : Option Nat

/-- The shared memory that the handler works on. -/
structure Shared where
  shm : Segments
  redisPush : Nat → PushRing
  cssink : Nat → PushRing

/-- What the slot can hold: both kinds of context of this module go in there. -/
inductive SlotCtx where
  | sentinel (ctx : SentinelCtx)
  | tarpit (tctx : TarpitCtx)
  deriving DecidableEq, Repr

/-- The return code, the context that the handler has worked on, and what it
leaves behind: the slot, a rate limit, the answer of the gate, a connection that
is held. -/
structure PreaccessReply where
  rc : Int
  ctx : Option SentinelCtx
  slot : Option SlotCtx
  limitRate : Option Nat
  pow : Option PowReply
  conn : Option DripConn

/-- The handler returns and leaves nothing but its context. -/
def PreaccessReply.plain (rc : Int) (ctx : SentinelCtx) : PreaccessReply :=
  ⟨rc, some ctx, some (.sentinel ctx), none, none, none⟩

section Verdicts
variable (pow : PowCore) (lcf : RequestConf) (r : Request) (io : RequestIo) (ctx : SentinelCtx)

def preaccessChallenge : PreaccessReply :=
  let reply := sentinelPowDispatch pow lcf.pow r.pow io.now io.pow
  let ctx := { ctx with powState := reply.powState }
  let rc := if reply.rc = .done then NgxRc.done else .declined
  { PreaccessReply.plain rc.code ctx with pow := some reply }

def preaccessTarpit : PreaccessReply :=
  if lcf.throttleRate > 0 then
    { PreaccessReply.plain NgxRc.declined.code { ctx with throttled := true } with
      limitRate := some lcf.throttleRate }
  else if lcf.shield then
    PreaccessReply.plain NgxRc.declined.code { ctx with shielded := true }
  else if lcf.tarpit.tarpitMaxConns = 0 then PreaccessReply.plain ngxHttpClose ctx
  else
    let reply := sentinelTarpitStart pow.toNgxCore io.tarpit lcf.tarpit io.msec
    let rc :=
      if reply.rc = .done then NgxRc.done
      else if reply.rc = .httpClose then .httpClose
      else .declined
    match reply.conn with
    | none => PreaccessReply.plain rc.code ctx
    | some conn =>
        { PreaccessReply.plain rc.code ctx with
          slot := some (.tarpit conn.tctx)
          conn := some conn }

/-- The soft-ban of a blocked client. -/
def blockSoftban (ngx : NgxCore) (lcf : RequestConf) (addrText : Bytes) (now : Nat)
    (slab : Bool) (shm : Segments) : Segments :=
  match lcf.zone with
  | none => shm
  | some z =>
      if lcf.blockTtl > 0 ∧ addrText.length ≠ 0 then
        update shm z.shm (sentinelShmSoftbanSet ngx z.zone (shm z.shm)
          (sentinelFeedDigest ngx addrText) now lcf.blockTtl slab).2
      else shm

def preaccessBlock (s : Shared) : PreaccessReply × Shared :=
  let shm := blockSoftban pow.toNgxCore lcf r.addrText io.now io.slab s.shm
  let redisPush :=
    if lcf.redisHost.length > 0 ∧ ¬ ctx.inputs.crowdsecHit ∧ r.addrText.length ≠ 0 then
      sentinelRedisEnqueueBan io.redisPush lcf.redisPushZone s.redisPush r.addrText
        ngxSentinelCsBan (io.now + lcf.redisTtl)
    else s.redisPush
  let cssink :=
    if lcf.csSinkPath.length > 0 ∧ ¬ ctx.inputs.crowdsecHit ∧ r.addrText.length ≠ 0 then
      sentinelCssinkEnqueueBan io.cssink lcf.csSinkZone s.cssink r.addrText
        ngxSentinelCsBan (io.now + lcf.csSinkTtl)
    else s.cssink
  (PreaccessReply.plain lcf.blockStatus ctx, ⟨shm, redisPush, cssink⟩)

/-- The switch of the handler. -/
def preaccessEnforce (s : Shared) : PreaccessReply × Shared :=
  match ctx.verdict with
  | .allow => (PreaccessReply.plain NgxRc.declined.code ctx, s)
  | .challenge => (preaccessChallenge pow lcf r io ctx, s)
  | .tarpit => (preaccessTarpit pow lcf io ctx, s)
  | .block => preaccessBlock pow lcf r io ctx s

end Verdicts

def preaccessGather (lcf : RequestConf) (r : Request) (io : RequestIo) : Gather :=
  ⟨lcf, r.uri, io.now, io.collected⟩

/-- `slot` is what variables that were read earlier have left. -/
def ngxSentinelPreaccessHandler (pow : PowCore) (lcf : RequestConf) (r : Request)
    (io : RequestIo) (slot : Option SentinelCtx) (s : Shared) : PreaccessReply × Shared :=
  if ¬ lcf.enabled then
    (⟨NgxRc.declined.code, none, slot.map .sentinel, none, none, none⟩, s)
  else
    match ngxSentinelGetCtx id pow.toNgxCore (preaccessGather lcf r io) r.addrText io.ctxAlloc
        slot s.shm with
    | (none, shm) =>
        (⟨NgxRc.declined.code, none, none, none, none, none⟩, { s with shm := shm })
    | (some ctx, shm) =>
        let s := { s with shm := shm }
        if lcf.shadow then (PreaccessReply.plain NgxRc.declined.code ctx, s)
        else preaccessEnforce pow lcf r io ctx s

/-- The first variable that a request reads before preaccess runs the getter, in
the location of that moment; a getter that gets no memory leaves no trace. -/
def earlyRead (ngx : NgxCore) (early : Option Gather) (addrText : Bytes) (shm : Segments) :
    Option SentinelCtx × Segments :=
  match early with
  | none => (none, shm)
  | some g => ngxSentinelGetCtx id ngx g addrText true none shm

/-- One pass of a request through the phases up to preaccess. -/
def requestPass (pow : PowCore) (lcf : RequestConf) (r : Request) (io : RequestIo)
    (early : Option Gather) (s : Shared) : PreaccessReply × Shared :=
  let e := earlyRead pow.toNgxCore early r.addrText s.shm
  ngxSentinelPreaccessHandler pow lcf r io e.1 { s with shm := e.2 }

end Handler
section Pass
variable (pow : PowCore) {lcf : RequestConf} {r : Request} {io : RequestIo}
  {early : Option Gather} {s : Shared}

/-- The call of the getter that gathers the signals, if it gets memory. -/
def passGather (lcf : RequestConf) (r : Request) (io : RequestIo) (early : Option Gather) : Gather :=
  early.getD (preaccessGather lcf r io)

/-- The score of a pass. A lookup that fails adds nothing to it. -/
def passScore (ngx : NgxCore) (lcf : RequestConf) (r : Request) (io : RequestIo)
    (early : Option Gather) (shm : Segments) : Int :=
  let g := passGather lcf r io early
  sentinelScoreCompute (gatherInputs ngx g r.addrText shm).1 g.lcf.weights

/-- The getter has got memory, before preaccess or in it. -/
def HasCtx (io : RequestIo) (early : Option Gather) : Prop :=
  early.isSome = true ∨ io.ctxAlloc = true

instance decidableHasCtx (io : RequestIo) (early : Option Gather) : Decidable (HasCtx io early) :=
  inferInstanceAs (Decidable (_ ∨ _))

theorem not_hasCtx : ¬ HasCtx io early ↔ early = none ∧ io.ctxAlloc = false := by
  cases early <;> simp [HasCtx]

theorem requestPass_disabled (henabled : lcf.enabled = false) :
    requestPass pow lcf r io early s =
      let e := earlyRead pow.toNgxCore early r.addrText s.shm
      (⟨NgxRc.declined.code, none, e.1.map .sentinel, none, none, none⟩, { s with shm := e.2 }) := by
  simp [requestPass, ngxSentinelPreaccessHandler, henabled]

theorem requestPass_no_ctx (henabled : lcf.enabled = true) (hctx : ¬ HasCtx io early) :
    requestPass pow lcf r io early s =
      (⟨NgxRc.declined.code, none, none, none, none, none⟩, s) := by
  obtain ⟨rfl, halloc⟩ := not_hasCtx.mp hctx
  simp [requestPass, earlyRead, ngxSentinelPreaccessHandler, ngxSentinelGetCtx, henabled, halloc]

/-- A pass with a context: one gathering, and what the verdict asks for. -/
theorem requestPass_ctx (henabled : lcf.enabled = true) (hctx : HasCtx io early) :
    requestPass pow lcf r io early s =
      let g := passGather lcf r io early
      let gathered := gatherInputs pow.toNgxCore g r.addrText s.shm
      let ctx := scoredCtx g.lcf gathered.1
      if lcf.shadow then
        (PreaccessReply.plain NgxRc.declined.code ctx, { s with shm := gathered.2 })
      else preaccessEnforce pow lcf r io ctx { s with shm := gathered.2 } := by
  cases early with
  | some g =>
      simp [requestPass, earlyRead, ngxSentinelPreaccessHandler, ngxSentinelGetCtx, henabled,
        passGather]
  | none =>
      have halloc : io.ctxAlloc = true := by simpa [HasCtx] using hctx
      simp [requestPass, earlyRead, ngxSentinelPreaccessHandler, ngxSentinelGetCtx, henabled,
        halloc, passGather]

end Pass
section Log

/-- What the log handler meets. -/
structure LogIo where
  now : Nat
  errStatus : Nat
  status : Nat
  velSlab : Bool
  slab : Bool
  deriving DecidableEq, Repr

/-- `(r->err_status != 0) ? r->err_status : r->headers_out.status` -/
def LogIo.finalStatus (io : LogIo) : Nat := if io.errStatus ≠ 0 then io.errStatus else io.status

end Log
section Plain

/-- A plain request, and what it meets in a worker where all goes well. -/
def plainRequest (addrText uri : Bytes) (addr : SockAddr) : Request where
  addrText := addrText
  uri := uri
  pow := ⟨addr, none, ⟨[], [], List.forall_mem_nil _⟩, none⟩

def plainIo (now : Nat) (collected : Inputs) : RequestIo where
  now := now
  msec := 1000 * now
  collected := collected
  ctxAlloc := true
  slab := true
  pow := ⟨true, true, true, 0, false⟩
  tarpit := ⟨true, some 0, true, true, 0, 7⟩
  redisPush := some 0
  cssink := some 0

def freshShared : Shared := ⟨fun _ => sentinelShmInitZone, fun _ => pushRingInit, fun _ => pushRingInit⟩

end Plain
end Sentinel
