import Mathlib.Data.Int.Order.Basic
import Sentinel.ShmCrowdsec

/-!
`sentinel_score.c`: the weighted sum over a request's signals, saturating at
`NGX_SENTINEL_SCORE_MAX`, and the verdict that the thresholds make of it.

A product of weight and count is only formed when it is small, and the weight of
CrowdSec is bounded by the configuration, so the arithmetic is that of the
integers but for the cast of the error count. Left out: the checks for `NULL`,
which no caller passes.
-/

namespace Sentinel

def ngxSentinelScoreMax : Int := 100000

/-- `NGX_SENTINEL_JA4H_HEX_LEN` -/
def ngxSentinelJa4hHexLen : Nat := 24

/-- `ngx_sentinel_inputs_t` -/
structure Inputs where
  ja4h : Bytes
  errrateCount : Nat
  errrateBlocked : Bool
  scannerPath : Bool
  botUa : Bool
  knownGoodUa : Bool
  fcrdnsVerified : Bool
  fcrdnsSpoofed : Bool
  headerAnomaly : Bool
  honeypot : Bool
  velocityExceeded : Bool
  datacenterAsn : Bool
  uaIncoherent : Bool
  ja3Flagged : Bool
  ja4Flagged : Bool
  ja4tFlagged : Bool
  c2ipFlagged : Bool
  allowlisted : Bool
  crowdsecHit : Bool
  crowdsecAction : UInt8
  deriving DecidableEq, Repr

/-- No signal at all, as `ngx_pcalloc` leaves the inputs. -/
def noInputs : Inputs where
  ja4h := []
  errrateCount := 0
  errrateBlocked := false
  scannerPath := false
  botUa := false
  knownGoodUa := false
  fcrdnsVerified := false
  fcrdnsSpoofed := false
  headerAnomaly := false
  honeypot := false
  velocityExceeded := false
  datacenterAsn := false
  uaIncoherent := false
  ja3Flagged := false
  ja4Flagged := false
  ja4tFlagged := false
  c2ipFlagged := false
  allowlisted := false
  crowdsecHit := false
  crowdsecAction := ngxSentinelCsNone

/-- `ngx_sentinel_weights_t` -/
structure Weights where
  errrate : Int
  blocked : Int
  scanner : Int
  bot : Int
  header : Int
  honeypot : Int
  velocity : Int
  asn : Int
  coherence : Int
  ja3 : Int
  ja4 : Int
  ja4t : Int
  c2ip : Int
  crowdsec : Int
  deriving DecidableEq, Repr

/-- `ngx_sentinel_threshold_t` -/
structure Threshold where
  challenge : Int
  tarpit : Int
  block : Int
  deriving DecidableEq, Repr

/-- `ngx_sentinel_verdict_e` -/
inductive Verdict where
  | allow | challenge | tarpit | block
  deriving DecidableEq, Repr

/-- The weights and thresholds that `ngx_sentinel_merge_loc_conf` falls back on. -/
def defaultWeights : Weights where
  errrate := 1
  blocked := 100
  scanner := 50
  bot := 30
  header := 25
  honeypot := 90
  velocity := 30
  asn := 35
  coherence := 40
  ja3 := 80
  ja4 := 50
  ja4t := 45
  c2ip := 80
  crowdsec := 100

def defaultThreshold : Threshold := ⟨30, 60, 80⟩

section Compute
variable (inputs : Inputs) (w : Weights)

def sentinelScoreAdd (acc term : Int) : Int :=
  if term ≤ 0 then acc
  else if term > ngxSentinelScoreMax - acc then ngxSentinelScoreMax
  else acc + term

/-- The first term, with the count cast to `ngx_int_t`. -/
def scoreErrrate (score : Int) : Int :=
  if w.errrate > 0 ∧ inputs.errrateCount > 0 then
    let cnt := (inputs.errrateCount : Int).bmod (2 ^ 64)
    if cnt > ngxSentinelScoreMax / w.errrate then sentinelScoreAdd score ngxSentinelScoreMax
    else sentinelScoreAdd score (w.errrate * cnt)
  else score

/-- The signals that add their weight once, in the order of the source. -/
def scoreFlags : List (Bool × Int) :=
  [(inputs.errrateBlocked, w.blocked),
   (inputs.scannerPath, w.scanner),
   (inputs.botUa, w.bot),
   (inputs.headerAnomaly, w.header),
   (inputs.honeypot, w.honeypot),
   (inputs.velocityExceeded, w.velocity),
   (inputs.datacenterAsn, w.asn),
   (inputs.c2ipFlagged, w.c2ip),
   (inputs.ja3Flagged, w.ja3),
   (inputs.ja4Flagged, w.ja4),
   (inputs.ja4tFlagged, w.ja4t),
   (inputs.uaIncoherent, w.coherence)]

def scoreAddFlag (score : Int) (f : Bool × Int) : Int :=
  if f.1 then sentinelScoreAdd score f.2 else score

/-- The last term, by the action that CrowdSec asks for. -/
def scoreCrowdsec (score : Int) : Int :=
  if inputs.crowdsecHit ∧ w.crowdsec > 0 then
    let term :=
      if inputs.crowdsecAction = ngxSentinelCsCaptcha then w.crowdsec * 40 / 100
      else if inputs.crowdsecAction = ngxSentinelCsThrottle then w.crowdsec * 65 / 100
      else w.crowdsec
    sentinelScoreAdd score term
  else score

def sentinelScoreCompute : Int :=
  if inputs.knownGoodUa ∧ ¬ inputs.crowdsecHit ∧ ¬ inputs.fcrdnsSpoofed then 0
  else if inputs.allowlisted ∧ ¬ inputs.crowdsecHit then 0
  else
    let score := scoreErrrate inputs w 0
    let score := (scoreFlags inputs w).foldl scoreAddFlag score
    let score := scoreCrowdsec inputs w score
    let score := if score < 0 then 0 else score
    if score > ngxSentinelScoreMax then ngxSentinelScoreMax else score

end Compute

def sentinelScoreToVerdict (score : Int) (thr : Threshold) : Verdict :=
  if score ≥ thr.block then .block
  else if score ≥ thr.tarpit then .tarpit
  else if score ≥ thr.challenge then .challenge
  else .allow

section Range
variable (inputs : Inputs) (w : Weights) {score : Int} {thr : Threshold}

/-- A score so far. -/
def InRange (score : Int) : Prop := 0 ≤ score ∧ score ≤ ngxSentinelScoreMax

theorem scoreAdd_inRange (h : InRange score) (term : Int) :
    InRange (sentinelScoreAdd score term) ∧ score ≤ sentinelScoreAdd score term := by
  obtain ⟨hlo, hhi⟩ := h
  rw [sentinelScoreAdd, InRange]
  split
  · exact ⟨⟨hlo, hhi⟩, Int.le_refl _⟩
  · split
    · exact ⟨⟨by decide, Int.le_refl _⟩, hhi⟩
    · omega

theorem scoreErrrate_inRange (h : InRange score) : InRange (scoreErrrate inputs w score) := by
  rw [scoreErrrate]
  split
  · dsimp only
    split
    · exact (scoreAdd_inRange h _).1
    · exact (scoreAdd_inRange h _).1
  · exact h

theorem addFlags_inRange (flags : List (Bool × Int)) (h : InRange score) :
    InRange (flags.foldl scoreAddFlag score) := by
  induction flags generalizing score with
  | nil => exact h
  | cons f flags ih =>
      apply ih
      rw [scoreAddFlag]
      split
      · exact (scoreAdd_inRange h _).1
      · exact h

theorem scoreCrowdsec_inRange (h : InRange score) : InRange (scoreCrowdsec inputs w score) := by
  rw [scoreCrowdsec]
  split
  · exact (scoreAdd_inRange h _).1
  · exact h

/-- No weights and no counts take the score out of its range. -/
theorem score_inRange : InRange (sentinelScoreCompute inputs w) := by
  have hzero : InRange 0 := ⟨Int.le_refl 0, by decide⟩
  rw [sentinelScoreCompute]
  split
  · exact hzero
  · split
    · exact hzero
    · have hsum := scoreCrowdsec_inRange inputs w
        (addFlags_inRange (scoreFlags inputs w) (scoreErrrate_inRange inputs w hzero))
      dsimp only
      rw [if_neg (Int.not_lt.mpr hsum.1), if_neg (Int.not_lt.mpr hsum.2)]
      exact hsum

theorem toVerdict_block_iff : sentinelScoreToVerdict score thr = .block ↔ thr.block ≤ score := by
  rw [sentinelScoreToVerdict]
  split_ifs <;> simp_all

theorem toVerdict_tarpit_iff :
    sentinelScoreToVerdict score thr = .tarpit ↔ score < thr.block ∧ thr.tarpit ≤ score := by
  rw [sentinelScoreToVerdict]
  split_ifs <;> simp_all

theorem toVerdict_challenge_iff :
    sentinelScoreToVerdict score thr = .challenge ↔
      score < thr.block ∧ score < thr.tarpit ∧ thr.challenge ≤ score := by
  rw [sentinelScoreToVerdict]
  split_ifs <;> simp_all

end Range
end Sentinel
