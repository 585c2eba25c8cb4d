import Sentinel.PowGate
import Sentinel.Preaccess
import Sentinel.Sources

/-!
The ban-loop guard over whole runs: requests, responses, feed loads, Redis pulls
and the drains of the rings, in any order and at any times.

Beside the zones, a run carries what the zones would be if no blocked request
that owes its verdict to an external decision had left a ban or an error in
them. A request's own score is the one that these zones and its other signals
give it, CrowdSec apart. The guard tests the request at hand alone; over a run
it holds as long as the requests that owe their verdict to others leave nothing
behind.
-/

namespace Sentinel
open Function

/-- The segments, and the loads that are under way in each. -/
structure ZoneState where
  shm : Segments
  loaders : Nat → Nat → Loader

/-- `own` is the zones without the traces of external decisions, `tainted` the
blocked requests that owe their verdict to one, `reached` the addresses of the
requests whose own score has reached the block threshold. -/
structure LoopState where
  zones : ZoneState
  redisPush : Nat → PushRing
  cssink : Nat → PushRing
  own : ZoneState
  tainted : Nat → Bool
  reached : List Bytes

/-- A request is named by a number until its log phase; after an internal
redirect it comes to preaccess again. -/
inductive LoopEvent where
  | source (shm : Nat) (z : Zone) (op : SourceOp Nat)
  | request (id : Nat) (lcf : RequestConf) (r : Request) (io : RequestIo) (early : Option Gather)
  /-- A variable is read in a request for which nothing has been gathered. -/
  | read (g : Gather) (addrText : Bytes)
  | respond (id : Nat) (lcf : RequestConf) (addrText : Bytes) (io : LogIo)
  | drainRedis (ring : Nat)
  | drainSink (ring : Nat)

section Own
variable (ngx : NgxCore) (lcf : RequestConf) (r : Request) (io : RequestIo)
  (early : Option Gather)

/-- The getter runs in this pass. -/
def Gathers : Prop := early.isSome = true ∨ lcf.enabled = true ∧ io.ctxAlloc = true

instance decidableGathers : Decidable (Gathers lcf io early) :=
  inferInstanceAs (Decidable (_ ∨ _))

def Inputs.withoutCrowdsec (inputs : Inputs) : Inputs := { inputs with crowdsecHit := false }

/-- The score of the signals that are the module's own. -/
def ownScore (own : Segments) : Int :=
  let g := passGather lcf r io early
  sentinelScoreCompute (gatherInputs ngx g r.addrText own).1.withoutCrowdsec g.lcf.weights

/-- The request reaches the block threshold on its own. -/
def Reaches (own : Segments) : Prop :=
  Gathers lcf io early ∧ (passGather lcf r io early).lcf.threshold.block ≤
    ownScore ngx lcf r io early own

instance decidableReaches (own : Segments) : Decidable (Reaches ngx lcf r io early own) :=
  inferInstanceAs (Decidable (_ ∧ _))

/-- The handler comes to its BLOCK branch. -/
def Blocks (shm : Segments) : Prop :=
  lcf.enabled = true ∧ lcf.shadow = false ∧ HasCtx io early ∧
    (passGather lcf r io early).lcf.threshold.block ≤ passScore ngx lcf r io early shm

instance decidableBlocks (shm : Segments) : Decidable (Blocks ngx lcf r io early shm) :=
  inferInstanceAs (Decidable (_ ∧ _ ∧ _ ∧ _))

end Own
section Step
variable (pow : PowCore)

def LoopState.shared (s : LoopState) : Shared := ⟨s.zones.shm, s.redisPush, s.cssink⟩

/-- Fresh zones and rings, and idle workers. -/
def loopStart : LoopState :=
  let zones : ZoneState := ⟨fun _ => sentinelShmInitZone, fun _ => sourceStart.loaders⟩
  { zones, own := zones, redisPush := fun _ => pushRingInit, cssink := fun _ => pushRingInit
    tainted := fun _ => false, reached := [] }

/-- A request that is blocked for an external decision sets no soft-ban, and a
tainted one is recorded neither in the velocity nor in the errrate zone. -/
def LeavesNoTrace (s : LoopState) : LoopEvent → Prop
  | .request _ lcf r io early =>
      Blocks pow.toNgxCore lcf r io early s.zones.shm →
        ¬ Reaches pow.toNgxCore lcf r io early s.own.shm →
        lcf.blockTtl ≤ 0 ∨ r.addrText = [] ∨ lcf.zone.bind BoundZone.zone = none
  | .respond id lcf addrText io =>
      s.tainted id = true → lcf.enabled = true →
        addrText = [] ∨ lcf.velZone.bind BoundZone.zone = none ∧
          (io.finalStatus < 400 ∨ lcf.zone.bind BoundZone.zone = none)
  | _ => True

instance decidableLeavesNoTrace (s : LoopState) :
    ∀ e, Decidable (LeavesNoTrace pow s e)
  | .request _ _ _ _ _ => inferInstanceAs (Decidable (_ → _ → _))
  | .respond _ _ _ _ => inferInstanceAs (Decidable (_ → _ → _))
  | .source _ _ _ => isTrue trivial
  | .read _ _ => isTrue trivial
  | .drainRedis _ => isTrue trivial
  | .drainSink _ => isTrue trivial

end Step
section Pass
variable (pow : PowCore) (lcf : RequestConf) (r : Request) (io : RequestIo)
  (early : Option Gather) (s : Shared)

/-- What a pass does to the shared memory. -/
theorem requestPass_shared :
    let ngx := pow.toNgxCore
    let g := passGather lcf r io early
    let gathered := gatherInputs ngx g r.addrText s.shm
    let s₁ : Shared := if Gathers lcf io early then { s with shm := gathered.2 } else s
    (requestPass pow lcf r io early s).2 =
      if Blocks ngx lcf r io early s.shm then
        (preaccessBlock pow lcf r io (scoredCtx g.lcf gathered.1) s₁).2
      else s₁ := by
  intro ngx g gathered s₁
  cases henabled : lcf.enabled with
  | false =>
      have hblocks : ¬ Blocks ngx lcf r io early s.shm := by simp [Blocks, henabled]
      rw [requestPass_disabled pow henabled, if_neg hblocks]
      cases early with
      | none => simp [s₁, Gathers, henabled, earlyRead]
      | some g => simp [s₁, Gathers, earlyRead, ngxSentinelGetCtx, gathered, g, passGather, ngx]
  | true =>
      by_cases hctx : HasCtx io early
      · have hgathers : Gathers lcf io early := by
          simpa [Gathers, HasCtx, henabled] using hctx
        have hs₁ : s₁ = { s with shm := gathered.2 } := if_pos hgathers
        have hverdict : (scoredCtx g.lcf gathered.1).verdict = .block ↔
            g.lcf.threshold.block ≤ passScore ngx lcf r io early s.shm := toVerdict_block_iff
        rw [requestPass_ctx pow henabled hctx, hs₁]
        cases hshadow : lcf.shadow with
        | true => simp [Blocks, hshadow, gathered, ngx, g]
        | false =>
            by_cases hscore : g.lcf.threshold.block ≤ passScore ngx lcf r io early s.shm
            · have hblocks : Blocks ngx lcf r io early s.shm := ⟨henabled, hshadow, hctx, hscore⟩
              rw [if_pos hblocks]
              simp only [Bool.false_eq_true, if_false, preaccessEnforce]
              rw [hverdict.mpr hscore]
            · have hblocks : ¬ Blocks ngx lcf r io early s.shm := fun h => hscore h.2.2.2
              rw [if_neg hblocks]
              simp only [Bool.false_eq_true, if_false, preaccessEnforce]
              cases hv : (scoredCtx g.lcf gathered.1).verdict with
              | block => exact absurd (hverdict.mp hv) hscore
              | allow => rfl
              | challenge => rfl
              | tarpit => rfl
      · have hgathers : ¬ Gathers lcf io early := by
          simpa [Gathers, HasCtx, henabled] using hctx
        have hblocks : ¬ Blocks ngx lcf r io early s.shm := fun h => hctx h.2.2.1
        rw [requestPass_no_ctx pow henabled hctx, if_neg hblocks]
        exact (if_neg hgathers).symm

end Pass
section Frame
variable {ngx : NgxCore} {lcf : RequestConf} {addrText ip : Bytes}

end Frame
section Guard
variable (pow : PowCore) {s : LoopState}

section Runs

/-- A location that shares its bans, with a soft-ban of `blockTtl` seconds. -/
def sharingConf (zone : Option BoundZone) (blockTtl : Int) : RequestConf :=
  { defaultConf with
    enabled := true
    shadow := false
    zone := zone
    csZone := some ⟨1, some ⟨600, 0, 0⟩⟩
    blockTtl := blockTtl
    redisHost := str "redis"
    redisPushZone := some 0
    csSinkPath := str "/decisions"
    csSinkZone := some 0 }

end Runs
end Guard
end Sentinel
