import Sentinel.PowGate
import Sentinel.Preaccess

/-!
One slot, two kinds of context. The getter trusts that whatever is in the
request's slot is the context that it has put there; `sentinel_tarpit_start`
stores its own context in the same slot, and nginx empties it when it redirects
the request internally. This module says when the variables of a request go on
telling what preaccess has found, and when not.

A request comes to the handler as often as nginx takes it through the phases.
Left out: `post_action`, the only way for a request that was held to come to the
phases once more.
-/

namespace Sentinel

section Variables

/-- What a get handler does with its variable. Where the slot holds the tarpit's
context, the handler takes its memory for another structure. -/
inductive VarReply where
  | error
  | notFound
  | value (data : Bytes) (noCacheable : Bool)
  | misread (tctx : TarpitCtx)
  deriving DecidableEq, Repr

/-- The get handlers differ in the text, in whether it is printed to memory of
the request's pool, and in `no_cacheable`. -/
structure VarHandler where
  text : SentinelCtx → Bytes
  pnalloc : Bool
  noCacheable : Bool

def VarHandler.ofCtx (h : VarHandler) (ctx : SentinelCtx) (pnalloc : Bool) : VarReply :=
  if h.pnalloc ∧ ¬ pnalloc then .error else .value (h.text ctx) h.noCacheable

def VarHandler.ofSlot (h : VarHandler) (slot : Option SlotCtx) (pnalloc : Bool) : VarReply :=
  match slot with
  | none => .notFound
  | some (.sentinel ctx) => h.ofCtx ctx pnalloc
  | some (.tarpit tctx) => .misread tctx

/-- A get handler: the reply, and the slot afterwards. -/
def VarHandler.get (h : VarHandler) (ngx : NgxCore) (g : Gather) (addrText : Bytes)
    (alloc pnalloc : Bool) (slot : Option SlotCtx) (shm : Segments) :
    VarReply × Option SlotCtx :=
  let r := ngxSentinelGetCtx .sentinel ngx g addrText alloc slot shm
  (h.ofSlot r.1 pnalloc, r.1)

/-- `ngx_sprintf` of a `"%i"` -/
def ngxPrintInt (n : Int) : Bytes :=
  if n < 0 then ch '-' :: ngxPrint n.natAbs else ngxPrint n.natAbs

/-- The handlers that answer with a fixed text. -/
def textVar (text : SentinelCtx → String) : VarHandler := ⟨fun ctx => str (text ctx), false, false⟩

def flagVar (flag : Inputs → Bool) : VarHandler :=
  textVar fun ctx => if flag ctx.inputs then "1" else "0"

def ngxSentinelVarScore : VarHandler := ⟨fun ctx => ngxPrintInt ctx.score, true, false⟩

def ngxSentinelVarVerdict : VarHandler :=
  textVar fun ctx =>
    match ctx.verdict with
    | .allow => "allow"
    | .challenge => "challenge"
    | .tarpit => "tarpit"
    | .block => "block"

def ngxSentinelVarJa4h : VarHandler :=
  ⟨fun ctx => ctx.inputs.ja4h.take ngxSentinelJa4hHexLen, false, false⟩

def ngxSentinelVarHeader : VarHandler := flagVar Inputs.headerAnomaly
def ngxSentinelVarHoneypot : VarHandler := flagVar Inputs.honeypot
def ngxSentinelVarVelocity : VarHandler := flagVar Inputs.velocityExceeded
def ngxSentinelVarAsn : VarHandler := flagVar Inputs.datacenterAsn
def ngxSentinelVarC2ip : VarHandler := flagVar Inputs.c2ipFlagged
def ngxSentinelVarJa3 : VarHandler := flagVar Inputs.ja3Flagged
def ngxSentinelVarJa4 : VarHandler := flagVar Inputs.ja4Flagged
def ngxSentinelVarJa4t : VarHandler := flagVar Inputs.ja4tFlagged
def ngxSentinelVarCoherence : VarHandler := flagVar Inputs.uaIncoherent

def ngxSentinelVarFcrdns : VarHandler :=
  textVar fun ctx =>
    if ctx.inputs.fcrdnsVerified then "verified"
    else if ctx.inputs.fcrdnsSpoofed then "spoofed"
    else "pending"

def ngxSentinelVarAllowlist : VarHandler := flagVar Inputs.allowlisted
def ngxSentinelVarBot : VarHandler := flagVar Inputs.botUa

/-- The three variables about what the request went through are not cacheable. -/
def ngxSentinelVarShield : VarHandler :=
  { textVar fun ctx => if ctx.shielded then "1" else "0" with noCacheable := true }

def ngxSentinelVarThrottled : VarHandler :=
  { textVar fun ctx => if ctx.throttled then "1" else "0" with noCacheable := true }

def ngxSentinelVarPow : VarHandler :=
  { textVar fun ctx =>
      match ctx.powState with
      | .verified => "verified"
      | .challenge => "challenge"
      | .off => "off" with
    noCacheable := true }

def ngxSentinelVarScanner : VarHandler := flagVar Inputs.scannerPath

def ngxSentinelVarErrrate : VarHandler :=
  ⟨fun ctx => ngxPrint ctx.inputs.errrateCount, true, false⟩

def ngxSentinelVarCrowdsec : VarHandler := flagVar Inputs.crowdsecHit

def sentinelCsActionStrings : List String := ["none", "ban", "captcha", "throttle"]

def ngxSentinelVarCrowdsecAction : VarHandler :=
  textVar fun ctx => sentinelCsActionStrings.getD ctx.inputs.crowdsecAction.toNat "none"

def ngxSentinelVars : List (String × VarHandler) :=
  [("sentinel_score", ngxSentinelVarScore),
   ("sentinel_verdict", ngxSentinelVarVerdict),
   ("sentinel_ja4h", ngxSentinelVarJa4h),
   ("sentinel_header_anomaly", ngxSentinelVarHeader),
   ("sentinel_honeypot", ngxSentinelVarHoneypot),
   ("sentinel_velocity", ngxSentinelVarVelocity),
   ("sentinel_asn", ngxSentinelVarAsn),
   ("sentinel_c2ip", ngxSentinelVarC2ip),
   ("sentinel_ja3", ngxSentinelVarJa3),
   ("sentinel_ja4", ngxSentinelVarJa4),
   ("sentinel_ja4t", ngxSentinelVarJa4t),
   ("sentinel_coherence", ngxSentinelVarCoherence),
   ("sentinel_fcrdns", ngxSentinelVarFcrdns),
   ("sentinel_allowlist", ngxSentinelVarAllowlist),
   ("sentinel_bot", ngxSentinelVarBot),
   ("sentinel_shield", ngxSentinelVarShield),
   ("sentinel_throttled", ngxSentinelVarThrottled),
   ("sentinel_pow", ngxSentinelVarPow),
   ("sentinel_scanner", ngxSentinelVarScanner),
   ("sentinel_errrate", ngxSentinelVarErrrate),
   ("sentinel_crowdsec", ngxSentinelVarCrowdsec),
   ("sentinel_crowdsec_action", ngxSentinelVarCrowdsecAction)]

end Variables
section Lifetime

/-- The tarpit finds all it needs and can send its header. -/
def TarpitHolds (env : TarpitEnv) (lcf : TarpitConf) : Prop :=
  env.mcf = true ∧ (∃ sum, env.conns = some sum ∧ sum < lcf.tarpitMaxConns) ∧
    env.ctxAlloc = true ∧ env.cleanupAlloc = true ∧ env.headerRc ≠ -1 ∧ env.headerRc ≤ 0

instance decidableTarpitHolds (env : TarpitEnv) (lcf : TarpitConf) :
    Decidable (TarpitHolds env lcf) :=
  have : Decidable (∃ sum, env.conns = some sum ∧ sum < lcf.tarpitMaxConns) :=
    decidable_of_iff (env.conns.any (· < lcf.tarpitMaxConns) = true) (by
      simp [Option.any_eq_true])
  inferInstanceAs (Decidable (_ ∧ _))

section Handler
variable (ngx : NgxCore) (lcf : RequestConf) (r : Request) (io : RequestIo)
  (slot : Option SentinelCtx) (shm : Segments)

/-- The handler has a context to work on. -/
def Finds : Prop := lcf.enabled = true ∧ (slot.isSome = true ∨ io.ctxAlloc = true)

instance decidableFinds : Decidable (Finds lcf io slot) := inferInstanceAs (Decidable (_ ∧ _))

/-- The verdict is that of the tarpit: it stands in the slot, or the score that is
gathered now lies in the tarpit's band. -/
def ForTarpit : Prop :=
  match slot with
  | some ctx => ctx.verdict = .tarpit
  | none =>
      let score := passScore ngx lcf r io none shm
      score < lcf.threshold.block ∧ lcf.threshold.tarpit ≤ score

instance decidableForTarpit : Decidable (ForTarpit ngx lcf r io slot shm) :=
  match slot with
  | some ctx => inferInstanceAs (Decidable (ctx.verdict = .tarpit))
  | none => inferInstanceAs (Decidable (_ ∧ _))

/-- The location enforces, the verdict is that of the tarpit, no other action
stands in for it, and the tarpit holds the connection. -/
def TakenOver : Prop :=
  Finds lcf io slot ∧ lcf.shadow = false ∧ ForTarpit ngx lcf r io slot shm ∧
    lcf.throttleRate = 0 ∧ lcf.shield = false ∧ TarpitHolds io.tarpit lcf.tarpit

instance decidableTakenOver : Decidable (TakenOver ngx lcf r io slot shm) :=
  inferInstanceAs (Decidable (_ ∧ _))

end Handler

/-- What happens to a request. The location, and what the zones hold, are those of
the moment. -/
inductive RequestEvent where
  | preaccess (lcf : RequestConf) (r : Request) (io : RequestIo) (s : Shared)
  /-- A variable is read. -/
  | read (var : VarHandler) (g : Gather) (addrText : Bytes) (alloc pnalloc : Bool) (shm : Segments)
  /-- nginx clears the contexts of all modules: an internal redirect (that of
  `error_page` too), a named location, a filter that finalizes the request. -/
  | clear
  /-- Something happens to the connection while it is held. -/
  | drip (e : DripEvent)

/-- How it stands with the context that preaccess is to fill in. -/
inductive Standing where
  /-- The handler has not run. -/
  | early
  /-- It has run, and has never had a context to work on. -/
  | unfound
  | found
  /-- It has had one; the tarpit has the slot now, or nginx has emptied it. -/
  | lost
  deriving DecidableEq, Repr

/-- Where a run of the handler leaves it. -/
def Standing.handled (standing : Standing) (ngx : NgxCore) (lcf : RequestConf) (r : Request)
    (io : RequestIo) (slot : Option SentinelCtx) (shm : Segments) : Standing :=
  if TakenOver ngx lcf r io slot shm then .lost
  else if Finds lcf io slot then .found
  else if standing = .early then .unfound
  else standing

/-- `ran` and `found` tell whether the handler has run, and the context that it has
worked on last. -/
structure RequestState where
  slot : Option SlotCtx
  conn : Option DripConn
  ran : Bool
  found : Option SentinelCtx
  standing : Standing

def requestStart : RequestState := ⟨none, none, false, none, .early⟩

section Step
variable (pow : PowCore)

/-- A run of the handler on what variables that were read earlier have left. -/
def preaccessStep (lcf : RequestConf) (r : Request) (io : RequestIo) (sh : Shared)
    (slot : Option SentinelCtx) (s : RequestState) : RequestState :=
  let reply := (ngxSentinelPreaccessHandler pow lcf r io slot sh).1
  { slot := reply.slot
    conn := reply.conn
    ran := true
    found := reply.ctx.or s.found
    standing := s.standing.handled pow.toNgxCore lcf r io slot sh.shm }

/-- A request that is held comes to no handler, and the held connection works on
the context in the slot. -/
def requestStep (s : RequestState) : RequestEvent → RequestState
  | .preaccess lcf r io sh =>
      match s.slot with
      | some (.tarpit _) => s
      | some (.sentinel ctx) => preaccessStep pow lcf r io sh (some ctx) s
      | none => preaccessStep pow lcf r io sh none s
  | .read var g addrText alloc pnalloc shm =>
      { s with slot := (var.get pow.toNgxCore g addrText alloc pnalloc s.slot shm).2 }
  | .clear =>
      { s with
        slot := none
        conn := none
        standing := if s.standing = .found then .lost else s.standing }
  | .drip e =>
      match s.conn with
      | none => s
      | some conn =>
          let conn := dripStep pow.toNgxCore conn e
          { s with slot := some (.tarpit conn.tctx), conn := some conn }

/-- A variable that is read once the handler has run finds in the slot the context
that the handler has filled in, and is what that context says. -/
def ReadsKept (s : RequestState) : RequestEvent → Prop
  | .read var g addrText alloc pnalloc shm =>
      s.ran = true → ∃ ctx, s.found = some ctx ∧ s.slot = some (.sentinel ctx) ∧
        (var.get pow.toNgxCore g addrText alloc pnalloc s.slot shm).1 = var.ofCtx ctx pnalloc
  | _ => True

end Step

/-- No variable is read while the handler's context is missing. -/
def ReadsInTime (s : RequestState) : RequestEvent → Prop
  | .read .. => s.standing = .early ∨ s.standing = .found
  | _ => True

instance decidableReadsInTime (s : RequestState) : ∀ e, Decidable (ReadsInTime s e)
  | .preaccess .. => isTrue trivial
  | .read .. => inferInstanceAs (Decidable (_ ∨ _))
  | .clear => isTrue trivial
  | .drip _ => isTrue trivial

end Lifetime
section Slot
variable (pow : PowCore) {lcf : RequestConf} {r : Request} {io : RequestIo}

theorem tarpitStart_conn_iff (ngx : NgxCore) (env : TarpitEnv) (lcf : TarpitConf) (msec : Nat) :
    (sentinelTarpitStart ngx env lcf msec).conn.isSome = true ↔ TarpitHolds env lcf := by
  cases hmcf : env.mcf with
  | false => simp [sentinelTarpitStart, TarpitHolds, hmcf]
  | true =>
      cases hconns : env.conns with
      | none => simp [sentinelTarpitStart, sentinelTarpitReserve, TarpitHolds, hmcf, hconns]
      | some sum =>
          by_cases hcap : sum < lcf.tarpitMaxConns
          · have hmax : lcf.tarpitMaxConns ≠ 0 := by omega
            simp only [sentinelTarpitStart, sentinelTarpitReserve, TarpitHolds, hmcf, hconns, hmax,
              if_neg (Nat.not_le.mpr hcap)]
            split_ifs <;> simp_all
          · have hreserve : sentinelTarpitReserve env lcf.tarpitMaxConns ≠ .ok := by
              simp only [sentinelTarpitReserve, hconns, if_pos (Nat.not_lt.mp hcap)]
              split <;> simp
            have hno : (sentinelTarpitStart ngx env lcf msec).conn = none := by
              simp only [sentinelTarpitStart, sentinelTarpitReserve, hmcf, hconns,
                if_pos (Nat.not_lt.mp hcap)]
              split_ifs <;> rfl
            simp [hno, TarpitHolds, hconns, hcap]

/-- The tarpit branch either leaves the context where it was or puts the
tarpit's in its place. -/
theorem preaccessTarpit_cases (lcf : RequestConf) (io : RequestIo) (ctx : SentinelCtx) :
    let reply := preaccessTarpit pow lcf io ctx
    (¬ (lcf.throttleRate = 0 ∧ lcf.shield = false ∧ TarpitHolds io.tarpit lcf.tarpit) ∧
      reply.conn = none ∧ ∃ ctx', reply.ctx = some ctx' ∧ reply.slot = some (.sentinel ctx')) ∨
    ((lcf.throttleRate = 0 ∧ lcf.shield = false ∧ TarpitHolds io.tarpit lcf.tarpit) ∧
      reply.ctx = some ctx ∧
      ∃ conn, reply.conn = some conn ∧ reply.slot = some (.tarpit conn.tctx)) := by
  intro reply
  have hholds := tarpitStart_conn_iff pow.toNgxCore io.tarpit lcf.tarpit io.msec
  by_cases hthrottle : lcf.throttleRate > 0
  · left
    simp [reply, preaccessTarpit, PreaccessReply.plain, hthrottle, Nat.ne_of_gt hthrottle]
  have hzero : lcf.throttleRate = 0 := by omega
  cases hshield : lcf.shield with
  | true =>
      left
      simp [reply, preaccessTarpit, PreaccessReply.plain, hthrottle, hshield]
  | false =>
      by_cases hmax : lcf.tarpit.tarpitMaxConns = 0
      · left
        have hno : ¬ TarpitHolds io.tarpit lcf.tarpit := by
          intro h
          obtain ⟨sum, -, hsum⟩ := h.2.1
          omega
        simp [reply, preaccessTarpit, PreaccessReply.plain, hthrottle, hshield, hmax, hno]
      · cases hconn : (sentinelTarpitStart pow.toNgxCore io.tarpit lcf.tarpit io.msec).conn with
        | none =>
            left
            rw [hconn] at hholds
            simp [reply, preaccessTarpit, PreaccessReply.plain, hzero, hshield, hmax, hconn,
              ← hholds]
        | some conn =>
            right
            rw [hconn] at hholds
            simp [reply, preaccessTarpit, PreaccessReply.plain, hzero, hshield, hmax, hconn,
              ← hholds]

/-- The ways a run of the handler ends, as far as the slot goes. -/
theorem handler_slot (lcf : RequestConf) (r : Request) (io : RequestIo)
    (slot : Option SentinelCtx) (s : Shared) :
    let reply := (ngxSentinelPreaccessHandler pow lcf r io slot s).1
    let taken := TakenOver pow.toNgxCore lcf r io slot s.shm
    (¬ Finds lcf io slot ∧ ¬ taken ∧ reply.ctx = none ∧ reply.conn = none ∧
      reply.slot = slot.map .sentinel) ∨
    (Finds lcf io slot ∧ ¬ taken ∧ reply.conn = none ∧
      ∃ ctx, reply.ctx = some ctx ∧ reply.slot = some (.sentinel ctx)) ∨
    (taken ∧ ∃ ctx conn, reply.ctx = some ctx ∧ reply.conn = some conn ∧
      reply.slot = some (.tarpit conn.tctx)) := by
  intro reply taken
  by_cases hfinds : Finds lcf io slot
  · right
    obtain ⟨henabled, hctx⟩ := hfinds
    obtain ⟨ctx, sh, hget, hverdict⟩ : ∃ ctx sh,
        ngxSentinelGetCtx id pow.toNgxCore (preaccessGather lcf r io) r.addrText io.ctxAlloc slot
          s.shm = (some ctx, sh) ∧
        (ForTarpit pow.toNgxCore lcf r io slot s.shm ↔ ctx.verdict = .tarpit) := by
      cases slot with
      | some ctx => exact ⟨ctx, s.shm, rfl, Iff.rfl⟩
      | none =>
          have halloc : io.ctxAlloc = true := by simpa using hctx
          refine ⟨_, _, by simp only [ngxSentinelGetCtx, halloc, not_true, if_false, id]; rfl, ?_⟩
          exact toVerdict_tarpit_iff.symm
    have htaken : taken ↔ lcf.shadow = false ∧ ctx.verdict = .tarpit ∧
        (lcf.throttleRate = 0 ∧ lcf.shield = false ∧ TarpitHolds io.tarpit lcf.tarpit) := by
      simp only [taken, TakenOver, Finds, henabled, hctx, true_and, hverdict]
    have hreply : reply = if lcf.shadow then PreaccessReply.plain NgxRc.declined.code ctx
        else (preaccessEnforce pow lcf r io ctx { s with shm := sh }).1 := by
      simp only [reply, ngxSentinelPreaccessHandler, henabled, not_true, if_false, hget]
      split
      · rfl
      · rfl
    rw [htaken, hreply]
    cases hshadow : lcf.shadow with
    | true =>
        left
        simp [PreaccessReply.plain, Finds, henabled, hctx]
    | false =>
        simp only [Bool.false_eq_true, if_false, preaccessEnforce]
        cases hv : ctx.verdict with
        | allow => simp [PreaccessReply.plain, Finds, henabled, hctx]
        | challenge => simp [preaccessChallenge, PreaccessReply.plain, Finds, henabled, hctx]
        | block => simp [preaccessBlock, PreaccessReply.plain, Finds, henabled, hctx]
        | tarpit =>
            cases preaccessTarpit_cases pow lcf io ctx with
            | inl hkept =>
                left
                exact ⟨⟨henabled, hctx⟩, fun h => hkept.1 h.2.2, hkept.2⟩
            | inr hheld =>
                right
                obtain ⟨hyes, hleft, conn, hconn⟩ := hheld
                exact ⟨⟨trivial, rfl, hyes⟩, ctx, conn, hleft, hconn⟩
  · left
    have hno : ¬ taken := fun h => hfinds h.1
    refine ⟨hfinds, hno, ?_⟩
    cases henabled : lcf.enabled with
    | false => simp [reply, ngxSentinelPreaccessHandler, henabled]
    | true =>
        simp only [Finds, henabled, true_and, not_or, Bool.not_eq_true,
          Option.isSome_eq_false_iff, Option.isNone_iff_eq_none] at hfinds
        obtain ⟨rfl, halloc⟩ := hfinds
        simp [reply, ngxSentinelPreaccessHandler, ngxSentinelGetCtx, henabled, halloc]

/-- What the standing says of the request. -/
def RequestState.Fits (s : RequestState) : Prop :=
  match s.standing with
  | .early => s.ran = false ∧ s.found = none ∧ s.conn = none ∧ ∀ tctx, s.slot ≠ some (.tarpit tctx)
  | .unfound =>
      s.ran = true ∧ s.found = none ∧ s.conn = none ∧ ∀ tctx, s.slot ≠ some (.tarpit tctx)
  | .found =>
      s.ran = true ∧ s.conn = none ∧ ∃ ctx, s.found = some ctx ∧ s.slot = some (.sentinel ctx)
  | .lost =>
      s.ran = true ∧ (s.conn = none ∧ s.slot = none ∨
        ∃ conn, s.conn = some conn ∧ s.slot = some (.tarpit conn.tctx))

theorem requestStart_fits : requestStart.Fits := by
  simp [RequestState.Fits, requestStart]

/-- A run of the handler that the request comes to. -/
theorem preaccessStep_fits (slot : Option SentinelCtx) {s : RequestState} (hs : s.Fits)
    (hslot : s.slot = slot.map .sentinel) (lcf : RequestConf) (r : Request) (io : RequestIo)
    (sh : Shared) : (preaccessStep pow lcf r io sh slot s).Fits := by
  have hends := handler_slot pow lcf r io slot sh
  simp only at hends
  rcases hends with ⟨hno, hfree, hctx, hconn, hkeep⟩ |
    ⟨hfinds, hfree, hconn, ctx, hctx, hfilled⟩ | ⟨htaken, ctx, conn, hctx, hconn, hheld⟩
  · have hstill : (ngxSentinelPreaccessHandler pow lcf r io slot sh).1.slot = s.slot :=
      hkeep.trans hslot.symm
    cases hstanding : s.standing with
    | early =>
        simp only [RequestState.Fits, hstanding] at hs
        simp [RequestState.Fits, preaccessStep, Standing.handled, hfree, hno, hstanding, hctx,
          hconn, hstill, hs.2.1, hs.2.2.2]
    | unfound =>
        simp only [RequestState.Fits, hstanding] at hs
        simp [RequestState.Fits, preaccessStep, Standing.handled, hfree, hno, hstanding, hctx,
          hconn, hstill, hs.2.1, hs.2.2.2]
    | found =>
        simp only [RequestState.Fits, hstanding] at hs
        simp [RequestState.Fits, preaccessStep, Standing.handled, hfree, hno, hstanding, hctx,
          hconn, hstill, hs.2.2]
    | lost =>
        simp only [RequestState.Fits, hstanding] at hs
        -- the tarpit has not got the slot, or the handler would not have been reached
        have hempty : s.slot = none := by
          obtain ⟨-, hnone | ⟨conn, -, htarpit⟩⟩ := hs
          · exact hnone.2
          · cases slot <;> simp [hslot] at htarpit
        simp [RequestState.Fits, preaccessStep, Standing.handled, hfree, hno, hstanding, hconn,
          hstill, hempty]
  · simp [RequestState.Fits, preaccessStep, Standing.handled, hfree, hfinds, hctx, hconn, hfilled]
  · simp [RequestState.Fits, preaccessStep, Standing.handled, htaken, hconn, hheld]

/-- The getter puts no context of the tarpit into the slot. -/
theorem get_slot_not_tarpit {slot : Option SlotCtx} (hslot : ∀ tctx, slot ≠ some (.tarpit tctx))
    (var : VarHandler) (ngx : NgxCore) (g : Gather) (addrText : Bytes) (alloc pnalloc : Bool)
    (shm : Segments) (tctx : TarpitCtx) :
    (var.get ngx g addrText alloc pnalloc slot shm).2 ≠ some (.tarpit tctx) := by
  cases slot with
  | some c => exact hslot tctx
  | none => cases alloc <;> simp [VarHandler.get, ngxSentinelGetCtx]

/-- A variable is read before preaccess, or where the handler has left its context. -/
theorem readStep_fits {s : RequestState} {var : VarHandler} {g : Gather} {addrText : Bytes}
    {alloc pnalloc : Bool} {shm : Segments}
    (hkept : ReadsKept pow s (.read var g addrText alloc pnalloc shm)) (hs : s.Fits) :
    (requestStep pow s (.read var g addrText alloc pnalloc shm)).Fits := by
  cases hstanding : s.standing with
  | early =>
      simp only [RequestState.Fits, hstanding] at hs
      obtain ⟨hran, hfound, hconn, hslot⟩ := hs
      simpa only [RequestState.Fits, requestStep, hstanding] using
        ⟨hran, hfound, hconn, get_slot_not_tarpit hslot var _ g addrText alloc pnalloc shm⟩
  | unfound =>
      simp only [RequestState.Fits, hstanding] at hs
      obtain ⟨ctx, hctx, -⟩ := hkept hs.1
      simp [hs.2.1] at hctx
  | found =>
      simp only [RequestState.Fits, hstanding] at hs
      obtain ⟨hran, hconn, ctx, hfound, hslot⟩ := hs
      simp [RequestState.Fits, requestStep, hstanding, hran, hconn, hfound, hslot,
        VarHandler.get, ngxSentinelGetCtx]
  | lost =>
      simp only [RequestState.Fits, hstanding] at hs
      obtain ⟨ctx, -, hslot, -⟩ := hkept hs.1
      obtain ⟨-, hnone | ⟨conn, -, htarpit⟩⟩ := hs
      · simp [hnone.2] at hslot
      · simp [htarpit] at hslot

/-- Whoever holds the slot, nothing is left in it. -/
theorem clearStep_fits {s : RequestState} (hs : s.Fits) : (requestStep pow s .clear).Fits := by
  cases hstanding : s.standing with
  | early =>
      simp only [RequestState.Fits, hstanding] at hs
      simp [RequestState.Fits, requestStep, hstanding, hs.1, hs.2.1]
  | unfound =>
      simp only [RequestState.Fits, hstanding] at hs
      simp [RequestState.Fits, requestStep, hstanding, hs.1, hs.2.1]
  | found =>
      simp only [RequestState.Fits, hstanding] at hs
      simp [RequestState.Fits, requestStep, hstanding, hs.1]
  | lost =>
      simp only [RequestState.Fits, hstanding] at hs
      simp [RequestState.Fits, requestStep, hstanding, hs.1]

/-- What a held connection goes through. -/
theorem dripEvent_fits {s : RequestState} (hs : s.Fits) (e : DripEvent) :
    (requestStep pow s (.drip e)).Fits := by
  cases hconn : s.conn with
  | none => simpa only [requestStep, hconn] using hs
  | some conn =>
      -- only a request that the tarpit has taken over has a held connection
      have hstanding : s.standing = .lost := by
        cases h : s.standing <;> simp [RequestState.Fits, h, hconn] at hs ⊢
      simp only [RequestState.Fits, hstanding] at hs
      simp [RequestState.Fits, requestStep, hconn, hstanding, hs.1]

theorem requestStep_fits {s : RequestState} {e : RequestEvent} (hkept : ReadsKept pow s e)
    (hs : s.Fits) : (requestStep pow s e).Fits := by
  cases e with
  | preaccess lcf r io sh =>
      cases hslot : s.slot with
      | none =>
          simp only [requestStep, hslot]
          exact preaccessStep_fits pow none hs hslot lcf r io sh
      | some c =>
          cases c with
          | sentinel ctx =>
              simp only [requestStep, hslot]
              exact preaccessStep_fits pow (some ctx) hs hslot lcf r io sh
          | tarpit tctx => simpa only [requestStep, hslot] using hs
  | read var g addrText alloc pnalloc shm => exact readStep_fits pow hkept hs
  | clear => exact clearStep_fits pow hs
  | drip e => exact dripEvent_fits pow hs e

/-- Where a variable that is read finds the context of preaccess. -/
theorem readsKept_iff {s : RequestState} (hs : s.Fits) (e : RequestEvent) :
    ReadsKept pow s e ↔ ReadsInTime s e := by
  cases e with
  | preaccess lcf r io sh => exact Iff.rfl
  | clear => exact Iff.rfl
  | drip e => exact Iff.rfl
  | read var g addrText alloc pnalloc shm =>
      cases hstanding : s.standing with
      | early =>
          simp only [RequestState.Fits, hstanding] at hs
          simp [ReadsKept, ReadsInTime, hstanding, hs.1]
      | unfound =>
          simp only [RequestState.Fits, hstanding] at hs
          simp [ReadsKept, ReadsInTime, hstanding, hs.1, hs.2.1]
      | found =>
          simp only [RequestState.Fits, hstanding] at hs
          obtain ⟨hran, -, ctx, hfound, hslot⟩ := hs
          simp [ReadsKept, ReadsInTime, hstanding, hran, hfound, hslot, VarHandler.get,
            ngxSentinelGetCtx, VarHandler.ofSlot]
      | lost =>
          simp only [RequestState.Fits, hstanding] at hs
          obtain ⟨hran, hnone | ⟨conn, -, htarpit⟩⟩ := hs
          · simp [ReadsKept, ReadsInTime, hstanding, hran, hnone.2]
          · simp [ReadsKept, ReadsInTime, hstanding, hran, htarpit]

/-- Every variable that a request reads after preaccess tells what preaccess has
found exactly when the handler had a context and no variable is read once the
tarpit has taken the slot over or nginx has emptied it. -/
theorem context_kept_iff (pow : PowCore) (events : List RequestEvent) :
    Run.Along (ReadsKept pow) (requestStep pow) requestStart events ↔
      Run.Along ReadsInTime (requestStep pow) requestStart events :=
  Run.along_congr (I := RequestState.Fits) (fun _ e hs => readsKept_iff pow hs e)
    (fun _ _ hkept hs => requestStep_fits pow hkept hs) requestStart_fits

/-- A block answered by an `error_page` in a location with `sentinel off`: what is
read in the log phase is computed anew. -/
example :
    let lcf : RequestConf := { defaultConf with enabled := true, shadow := false }
    let r := plainRequest (str "1.2.3.4") (str "/.env") (.inet [1, 2, 3, 4] rfl)
    let io := plainIo 100 { noInputs with headerAnomaly := true, honeypot := true }
    let page := plainRequest (str "1.2.3.4") (str "/403.html") (.inet [1, 2, 3, 4] rfl)
    let quiet := plainIo 100 noInputs
    let s := Run.exec (requestStep Ref.pow) requestStart
      [.preaccess lcf r io freshShared, .clear, .preaccess defaultConf page quiet freshShared]
    s.found.map (ngxSentinelVarVerdict.ofCtx · true) = some (.value (str "block") false) ∧
      (ngxSentinelVarVerdict.get Ref.ngx (preaccessGather defaultConf page quiet) page.addrText true
        true s.slot freshShared.shm).1 = .value (str "allow") false := by
  decide

/-- A request in the tarpit's band whose connection is held: its score is not to
be had any more, not even in the log phase after the last tick. -/
theorem tarpit_takes_the_slot :
    let lcf : RequestConf := { defaultConf with enabled := true, shadow := false }
    let r := plainRequest (str "1.2.3.4") (str "/.env") (.inet [1, 2, 3, 4] rfl)
    let io := plainIo 100 { noInputs with headerAnomaly := true }
    let g := preaccessGather lcf r io
    let held : List RequestEvent :=
      [.preaccess lcf r io freshShared, .drip (.timer 30000 ⟨false, .ok, true⟩)]
    let s := Run.exec (requestStep Ref.pow) requestStart held
    lcf.Accepted ∧
      s.found.map (ngxSentinelVarScore.ofCtx · true) = some (.value (str "75") false) ∧
      (ngxSentinelVarScore.get Ref.ngx g r.addrText true true s.slot freshShared.shm).1 =
        .misread ⟨130000, 0, 1024, 5000, [], 7, false⟩ ∧
      ¬ Run.Along (ReadsKept Ref.pow) (requestStep Ref.pow) requestStart
        (held ++ [.read ngxSentinelVarScore g r.addrText true true freshShared.shm]) := by
  intro lcf r io g held s
  refine ⟨by decide, by decide, by decide, ?_⟩
  intro h
  obtain ⟨-, hread, -⟩ := Run.along_append.mp h
  obtain ⟨ctx, -, -, hreply⟩ := hread (by decide)
  exact nomatch (show VarReply.misread _ = _ from hreply)

end Slot
end Sentinel
