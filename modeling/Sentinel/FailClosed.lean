import Sentinel.PowGate
import Sentinel.Preaccess

/-!
What becomes of a request when something that judges it fails. `sentinel_fail`
is stored and never read: a lookup error counts as a signal that is absent, and
a context or a tarpit that cannot be set up lets the request pass, whatever the
directive says.
-/

namespace Sentinel

section Failures
variable (ngx : NgxCore)

/-- A lookup of the getter returns `NGX_ERROR`; each runs on what the one before
it leaves. -/
def LookupFails (g : Gather) (addrText : Bytes) (shm : Segments) : Prop :=
  let errrate := sentinelErrrateSignal ngx g.lcf addrText g.uri g.now g.collected shm
  let velocity := sentinelVelocitySignal ngx g.lcf addrText g.now errrate.1 errrate.2
  (∃ l ∈ zoneLookup ngx g.lcf.zone addrText g.now shm, l.1.rc = .error) ∨
    (∃ l ∈ zoneLookup ngx g.lcf.velZone addrText g.now errrate.2, l.1.rc = .error) ∨
    ∃ l ∈ crowdsecLookup ngx g.lcf.csZone addrText g.now velocity.2, l.1 = .error

/-- The handler comes to `sentinel_tarpit_start`, which cannot set up the tarpit. -/
def TarpitFails (lcf : RequestConf) (io : RequestIo) (ctx : SentinelCtx) : Prop :=
  ctx.verdict = .tarpit ∧ lcf.throttleRate = 0 ∧ lcf.shield = false ∧
    lcf.tarpit.tarpitMaxConns ≠ 0 ∧
    (sentinelTarpitStart ngx io.tarpit lcf.tarpit io.msec).rc = .declined

/-- The context that a pass works on. -/
def passCtx (lcf : RequestConf) (r : Request) (io : RequestIo) (early : Option Gather)
    (shm : Segments) : SentinelCtx :=
  let g := passGather lcf r io early
  scoredCtx g.lcf (gatherInputs ngx g r.addrText shm).1

/-- Something that the pass needs fails. -/
def ComponentFails (lcf : RequestConf) (r : Request) (io : RequestIo) (early : Option Gather)
    (shm : Segments) : Prop :=
  ¬ HasCtx io early ∨
    HasCtx io early ∧ (LookupFails ngx (passGather lcf r io early) r.addrText shm ∨
      TarpitFails ngx lcf io (passCtx ngx lcf r io early shm))

end Failures
section Conditions

/-- A bound zone whose descriptor is attached to no segment. -/
def Unattached (lcf : RequestConf) : Prop :=
  ∃ z, (lcf.zone = some z ∨ lcf.velZone = some z ∨ lcf.csZone = some z) ∧ z.zone = none

/-- A tarpit that can be tried is refused at the cap or gets all it needs. -/
def TarpitReady (env : TarpitEnv) (lcf : TarpitConf) : Prop :=
  env.mcf = true ∧ ∃ sum, env.conns = some sum ∧
    (lcf.tarpitMaxConns ≤ sum ∨ env.ctxAlloc = true ∧ env.cleanupAlloc = true)

/-- The gate has to serve its page, and has memory for it. -/
def PowServes (pow : PowCore) (lcf : PowConf) (r : PowRequest) (now : Nat) (io : PowIo) : Prop :=
  lcf.powEnabled = true ∧ lcf.powSecret ≠ [] ∧ ¬ CookieOk pow lcf r now ∧
    io.pageAlloc = true ∧ ∃ challenge,
      sentinelPowChallenge pow lcf r.sockaddr now = some challenge ∧ ¬ NonceOk pow lcf r challenge

variable (pow : PowCore) (ngx : NgxCore) (lcf : RequestConf) (r : Request) (io : RequestIo)
  (early : Option Gather) (shm : Segments)

/-- No lookup meets a zone that is not attached, there is memory for the context,
and the tarpit is ready if the score asks for it. The score is that of the signals,
which `passScore` works out from the zones as they are before the pass, the
request and what the other collectors report; no result of the pass is in it. -/
def NothingFails : Prop :=
  let g := passGather lcf r io early
  let score := passScore ngx lcf r io early shm
  HasCtx io early ∧ (r.addrText ≠ [] → ¬ Unattached g.lcf) ∧
    (score < g.lcf.threshold.block → g.lcf.threshold.tarpit ≤ score → lcf.throttleRate = 0 →
      lcf.shield = false → lcf.tarpit.tarpitMaxConns ≠ 0 → TarpitReady io.tarpit lcf.tarpit)

/-- What is left of the score still leads to a block, to a tarpit that stands,
or to a page of the gate. The score is read off the zones as they are before the
pass, as in `NothingFails`; the thresholds are those of the location that it was
gathered with. -/
def StillStopped : Prop :=
  let thr := (passGather lcf r io early).lcf.threshold
  let score := passScore pow.toNgxCore lcf r io early shm
  HasCtx io early ∧
    (thr.block ≤ score ∨
      score < thr.block ∧ thr.tarpit ≤ score ∧ lcf.throttleRate = 0 ∧ lcf.shield = false ∧
        (lcf.tarpit.tarpitMaxConns = 0 ∨ TarpitReady io.tarpit lcf.tarpit) ∨
      score < thr.block ∧ score < thr.tarpit ∧ thr.challenge ≤ score ∧
        PowServes pow lcf.pow r.pow io.now io.pow)

end Conditions
section Lookups
variable (ngx : NgxCore) {zone : Option BoundZone} {addrText : Bytes} {now : Nat} {shm : Segments}

theorem errrateLookup_error_iff (zone : Option Zone) (sh : Shctx) (key : Key) (now : Int) :
    (sentinelShmErrrateLookup ngx zone sh key now).1.rc = .error ↔ zone = none := by
  cases zone with
  | none => simp [sentinelShmErrrateLookup]
  | some zone =>
      simp only [sentinelShmErrrateLookup, reduceCtorEq, iff_false]
      split
      · simp
      · rw [errrateLookupNode]
        split
        · simp
        · simp

theorem crowdsecLookup_error_iff (zone : Option Zone) (sh : Shctx) (key : Key) (now : Int) :
    (sentinelShmCrowdsecLookup ngx zone sh key now).1 = .error ↔ zone = none := by
  cases zone with
  | none => simp [sentinelShmCrowdsecLookup]
  | some zone =>
      simp only [sentinelShmCrowdsecLookup, reduceCtorEq, iff_false]
      split
      · simp
      · split
        · simp
        · simp

theorem zoneLookup_error_iff :
    (∃ l ∈ zoneLookup ngx zone addrText now shm, l.1.rc = .error) ↔
      addrText ≠ [] ∧ ∃ z, zone = some z ∧ z.zone = none := by
  cases zone with
  | none => simp [zoneLookup]
  | some z =>
      by_cases haddr : addrText = []
      · simp [zoneLookup, haddr]
      · simp [zoneLookup, haddr, errrateLookup_error_iff]

theorem crowdsecLookup_fails_iff :
    (∃ l ∈ crowdsecLookup ngx zone addrText now shm, l.1 = .error) ↔
      addrText ≠ [] ∧ ∃ z, zone = some z ∧ z.zone = none := by
  cases zone with
  | none => simp [crowdsecLookup]
  | some z =>
      by_cases haddr : addrText = []
      · simp [crowdsecLookup, haddr]
      · simp [crowdsecLookup, haddr, crowdsecLookup_error_iff]

theorem lookupFails_iff (g : Gather) (addrText : Bytes) (shm : Segments) :
    LookupFails ngx g addrText shm ↔ addrText ≠ [] ∧ Unattached g.lcf := by
  simp only [LookupFails, zoneLookup_error_iff, crowdsecLookup_fails_iff, Unattached, or_and_right,
    exists_or, and_or_left]

end Lookups
section Tarpit

theorem tarpitStart_rc (ngx : NgxCore) (env : TarpitEnv) (lcf : TarpitConf) (msec : Nat) :
    (sentinelTarpitStart ngx env lcf msec).rc = .declined ∨
      (sentinelTarpitStart ngx env lcf msec).rc = .httpClose ∨
      (sentinelTarpitStart ngx env lcf msec).rc = .done := by
  rw [sentinelTarpitStart]
  split
  · exact .inl rfl
  · split
    · exact .inr (.inl rfl)
    · exact .inl rfl
    · split_ifs <;> simp

theorem tarpitStart_declined_iff (ngx : NgxCore) (env : TarpitEnv) (lcf : TarpitConf) (msec : Nat)
    (hmax : lcf.tarpitMaxConns ≠ 0) :
    (sentinelTarpitStart ngx env lcf msec).rc = .declined ↔ ¬ TarpitReady env lcf := by
  cases hmcf : env.mcf with
  | false => simp [sentinelTarpitStart, TarpitReady, hmcf]
  | true =>
      cases hconns : env.conns with
      | none => simp [sentinelTarpitStart, sentinelTarpitReserve, TarpitReady, hmcf, hconns]
      | some sum =>
          by_cases hcap : lcf.tarpitMaxConns ≤ sum
          · simp [sentinelTarpitStart, sentinelTarpitReserve, TarpitReady, hmcf, hconns, hmax, hcap]
          · simp only [sentinelTarpitStart, sentinelTarpitReserve, TarpitReady, hmcf, hconns, hmax,
              hcap]
            split_ifs <;> simp_all

end Tarpit
section Pass
variable (pow : PowCore) {lcf : RequestConf} {r : Request} {io : RequestIo}
  {early : Option Gather} {s : Shared}

theorem powDispatch_done_iff (lcf : PowConf) (r : PowRequest) (now : Nat) (io : PowIo) :
    (sentinelPowDispatch pow lcf r now io).rc = .done ↔ PowServes pow lcf r now io := by
  by_cases hon : lcf.powEnabled = true ∧ lcf.powSecret ≠ []
  · cases hchallenge : sentinelPowChallenge pow lcf r.sockaddr now with
    | none =>
        have hgate : (sentinelPowDispatch pow lcf r now io).rc = .declined := by
          rw [sentinelPowDispatch, if_neg (by simp [hon]), hchallenge]
          split <;> rfl
        simp [hgate, PowServes, hchallenge]
    | some challenge =>
        cases halloc : io.pageAlloc with
        | true =>
            rcases dispatch_cases pow lcf r now io hon hchallenge halloc with
              ⟨hok, hrc⟩ | ⟨hcookie, hnonce, hrc, -⟩
            · have hno : ¬ (¬ CookieOk pow lcf r now ∧ ¬ NonceOk pow lcf r challenge) := by tauto
              simp only [hrc, PowServes, hchallenge, Option.some.injEq, exists_eq_left']
              tauto
            · simp [hrc, PowServes, hchallenge, halloc, hcookie, hnonce, hon]
        | false =>
            have hsend : sentinelPowSendPage lcf challenge io = (.error, none) := by
              simp [sentinelPowSendPage, halloc]
            have hgate : (sentinelPowDispatch pow lcf r now io).rc ≠ .done := by
              rw [sentinelPowDispatch, if_neg (by simp [hon])]
              simp only [hchallenge, hsend]
              split
              · simp
              · split
                · simp
                · split <;> simp
            simp [hgate, PowServes, halloc]
  · have hgate : (sentinelPowDispatch pow lcf r now io).rc = .declined := by
      rw [sentinelPowDispatch, if_pos (by simpa [or_iff_not_imp_left] using hon)]
    simp only [hgate, PowServes]
    tauto

theorem tarpit_declined_iff (ctx : SentinelCtx) :
    (preaccessTarpit pow lcf io ctx).rc = NgxRc.declined.code ↔
      ¬ (lcf.throttleRate = 0 ∧ lcf.shield = false ∧
        (lcf.tarpit.tarpitMaxConns = 0 ∨ TarpitReady io.tarpit lcf.tarpit)) := by
  by_cases hthrottle : lcf.throttleRate > 0
  · simp [preaccessTarpit, PreaccessReply.plain, hthrottle, Nat.ne_of_gt hthrottle]
  cases hshield : lcf.shield with
  | true => simp [preaccessTarpit, PreaccessReply.plain, hthrottle, hshield]
  | false =>
      have hzero : lcf.throttleRate = 0 := by omega
      by_cases hmax : lcf.tarpit.tarpitMaxConns = 0
      · simp [preaccessTarpit, PreaccessReply.plain, hshield, hmax, hzero, NgxRc.code, ngxHttpClose]
      · have hstart := tarpitStart_declined_iff pow.toNgxCore io.tarpit lcf.tarpit io.msec hmax
        have hrc : (preaccessTarpit pow lcf io ctx).rc = NgxRc.declined.code ↔
            (sentinelTarpitStart pow.toNgxCore io.tarpit lcf.tarpit io.msec).rc = .declined := by
          simp only [preaccessTarpit, hshield, hmax, if_neg hthrottle]
          rcases tarpitStart_rc pow.toNgxCore io.tarpit lcf.tarpit io.msec with hcode | hcode | hcode
          · cases (sentinelTarpitStart pow.toNgxCore io.tarpit lcf.tarpit io.msec).conn <;>
              simp [hcode, PreaccessReply.plain]
          · cases (sentinelTarpitStart pow.toNgxCore io.tarpit lcf.tarpit io.msec).conn <;>
              simp [hcode, PreaccessReply.plain, NgxRc.code, ngxHttpClose]
          · cases (sentinelTarpitStart pow.toNgxCore io.tarpit lcf.tarpit io.msec).conn <;>
              simp [hcode, PreaccessReply.plain, NgxRc.code]
        simp [hrc, hstart, hzero, hmax]

theorem enforce_declined_iff (hconf : lcf.Accepted) (ctx : SentinelCtx) :
    (preaccessEnforce pow lcf r io ctx s).1.rc = NgxRc.declined.code ↔
      ¬ (ctx.verdict = .block ∨
        ctx.verdict = .tarpit ∧ lcf.throttleRate = 0 ∧ lcf.shield = false ∧
          (lcf.tarpit.tarpitMaxConns = 0 ∨ TarpitReady io.tarpit lcf.tarpit) ∨
        ctx.verdict = .challenge ∧ PowServes pow lcf.pow r.pow io.now io.pow) := by
  cases hv : ctx.verdict with
  | allow => simp [preaccessEnforce, hv, PreaccessReply.plain]
  | challenge =>
      simp only [preaccessEnforce, hv, preaccessChallenge, PreaccessReply.plain,
        ← powDispatch_done_iff]
      split <;> simp_all [NgxRc.code]
  | tarpit => simp [preaccessEnforce, hv, tarpit_declined_iff]
  | block =>
      have hstatus := hconf.blockStatus
      have hne : lcf.blockStatus ≠ -5 := by
        rw [ngxHttpClose] at hstatus
        omega
      simp [preaccessEnforce, hv, preaccessBlock, PreaccessReply.plain, NgxRc.code, hne]

theorem tarpitFails_iff (ngx : NgxCore) (ctx : SentinelCtx) :
    TarpitFails ngx lcf io ctx ↔ ctx.verdict = .tarpit ∧ lcf.throttleRate = 0 ∧ lcf.shield = false ∧
      lcf.tarpit.tarpitMaxConns ≠ 0 ∧ ¬ TarpitReady io.tarpit lcf.tarpit := by
  rw [TarpitFails]
  refine and_congr_right fun _ => and_congr_right fun _ => and_congr_right fun _ =>
    and_congr_right fun hmax => ?_
  exact tarpitStart_declined_iff ngx io.tarpit lcf.tarpit io.msec hmax

theorem nothingFails_iff (ngx : NgxCore) (shm : Segments) :
    NothingFails ngx lcf r io early shm ↔ ¬ ComponentFails ngx lcf r io early shm := by
  have hverdict : (passCtx ngx lcf r io early shm).verdict = .tarpit ↔ _ := toVerdict_tarpit_iff
  simp only [NothingFails, ComponentFails, lookupFails_iff, tarpitFails_iff, hverdict, passScore,
    not_or, not_and, not_not, and_imp]
  refine and_congr_right fun hctx => ?_
  simp only [hctx, true_imp_iff]

theorem stopped_iff (hconf : lcf.Accepted) (henabled : lcf.enabled = true)
    (henforce : lcf.shadow = false) :
    (requestPass pow lcf r io early s).1.rc ≠ NgxRc.declined.code ↔
      StillStopped pow lcf r io early s.shm := by
  by_cases hctx : HasCtx io early
  · simp only [requestPass_ctx pow henabled hctx, henforce, Bool.false_eq_true, if_false, ne_eq,
      enforce_declined_iff pow hconf, not_not, StillStopped, hctx, true_and, scoredCtx,
      toVerdict_block_iff, toVerdict_tarpit_iff, toVerdict_challenge_iff, passScore, and_assoc]
  · simp [requestPass_no_ctx pow henabled hctx, StillStopped, hctx]

/-- In an enforcing location, whatever its `sentinel_fail` says, a failing
component stops the request exactly when nothing fails or the rest of the
signals leads to an action of its own. -/
theorem fail_closed_iff (pow : PowCore) (lcf : RequestConf) (r : Request) (io : RequestIo)
    (early : Option Gather) (s : Shared) (hconf : lcf.Accepted) (henabled : lcf.enabled = true)
    (henforce : lcf.shadow = false) :
    (ComponentFails pow.toNgxCore lcf r io early s.shm →
        (requestPass pow lcf r io early s).1.rc ≠ NgxRc.declined.code) ↔
      NothingFails pow.toNgxCore lcf r io early s.shm ∨
        StillStopped pow lcf r io early s.shm := by
  rw [imp_iff_not_or, ← nothingFails_iff, stopped_iff pow hconf henabled henforce]

/-- A lookup error, and a decoy URL that is blocked all the same. -/
theorem fail_closed_honeypot :
    let lcf : RequestConf := { defaultConf with
      enabled := true, shadow := false, failOpen := false, velZone := some ⟨0, none⟩ }
    let r := plainRequest (str "1.2.3.4") (str "/trap") (.inet [1, 2, 3, 4] rfl)
    let io := plainIo 100 { noInputs with honeypot := true }
    (ComponentFails Ref.ngx lcf r io none freshShared.shm →
        (requestPass Ref.pow lcf r io none freshShared).1.rc ≠ NgxRc.declined.code) ↔
      NothingFails Ref.ngx lcf r io none freshShared.shm ∨
        StillStopped Ref.pow lcf r io none freshShared.shm :=
  fail_closed_iff Ref.pow _ _ _ none freshShared (by decide) rfl rfl

/-- With `sentinel_fail closed`, a velocity zone that is bound and not attached,
and a request without other signals. -/
theorem fail_closed_lets_pass :
    let lcf : RequestConf := { defaultConf with
      enabled := true, shadow := false, failOpen := false, velZone := some ⟨0, none⟩ }
    let r := plainRequest (str "1.2.3.4") (str "/") (.inet [1, 2, 3, 4] rfl)
    let io := plainIo 100 noInputs
    lcf.Accepted ∧ ComponentFails Ref.ngx lcf r io none freshShared.shm ∧
      (requestPass Ref.pow lcf r io none freshShared).1.rc = NgxRc.declined.code := by
  intro lcf r io
  refine ⟨by decide, ?_, by decide⟩
  have hfails : LookupFails Ref.ngx (passGather lcf r io none) r.addrText freshShared.shm :=
    (lookupFails_iff ..).mpr ⟨by decide, ⟨0, none⟩, .inr (.inl rfl), rfl⟩
  exact .inr ⟨.inr rfl, .inl hfails⟩

end Pass
end Sentinel
