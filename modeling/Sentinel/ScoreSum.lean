import Mathlib.Algebra.Order.Group.Int
import Mathlib.Algebra.Ring.Int.Defs
import Sentinel.Lib.Checked
import Sentinel.Lib.Saturate
import Sentinel.Score

/-!
What the score means: the sum over the active signals, cut off at
`NGX_SENTINEL_SCORE_MAX`. The saturation term by term, the division that guards
the product and the order of the terms do not show in it, and no signed
operation on the way overflows. The verdict is then monotone in the signals.
-/

namespace Sentinel

section Terms
variable (inputs : Inputs) (w : Weights)

def flagTerm (f : Bool × Int) : Int := if f.1 then f.2 else 0

/-- The weight of the errors, in unbounded integers. -/
def errrateTerm : Int := w.errrate * inputs.errrateCount

/-- The share of the CrowdSec weight that the action asks for. -/
def crowdsecTerm : Int :=
  if inputs.crowdsecHit then
    if inputs.crowdsecAction = ngxSentinelCsCaptcha then 40 * w.crowdsec / 100
    else if inputs.crowdsecAction = ngxSentinelCsThrottle then 65 * w.crowdsec / 100
    else w.crowdsec
  else 0

/-- The sum that `sentinel_score.c` announces. -/
def scoreSum : Int :=
  errrateTerm inputs w + ((scoreFlags inputs w).map flagTerm).sum + crowdsecTerm inputs w

/-- One of the two short-circuits applies. -/
def ShortCircuit (inputs : Inputs) : Prop :=
  inputs.crowdsecHit = false ∧
    (inputs.knownGoodUa = true ∧ inputs.fcrdnsSpoofed = false ∨ inputs.allowlisted = true)

instance decidableShortCircuit (inputs : Inputs) : Decidable (ShortCircuit inputs) :=
  inferInstanceAs (Decidable (_ ∧ _))

end Terms
section Checks
variable (inputs : Inputs) (w : Weights)

/-! The function once more, with every signed operation checked. -/

def checkedScoreAdd (acc term : Int) : Option Int :=
  if term ≤ 0 then some acc
  else
    (Checked.sub 64 ngxSentinelScoreMax acc).bind fun room =>
      if term > room then some ngxSentinelScoreMax else Checked.add 64 acc term

def checkedScoreErrrate (score : Int) : Option Int :=
  if w.errrate > 0 ∧ inputs.errrateCount > 0 then
    let cnt := (inputs.errrateCount : Int).bmod (2 ^ 64)
    (Checked.div 64 ngxSentinelScoreMax w.errrate).bind fun limit =>
      if cnt > limit then checkedScoreAdd score ngxSentinelScoreMax
      else (Checked.mul 64 w.errrate cnt).bind fun term => checkedScoreAdd score term
  else some score

def checkedScoreFlags : List (Bool × Int) → Int → Option Int
  | [], score => some score
  | f :: flags, score =>
      (if f.1 then checkedScoreAdd score f.2 else some score).bind fun score =>
        checkedScoreFlags flags score

def checkedScoreCrowdsec (score : Int) : Option Int :=
  if inputs.crowdsecHit ∧ w.crowdsec > 0 then
    let term :=
      if inputs.crowdsecAction = ngxSentinelCsCaptcha then
        (Checked.mul 64 w.crowdsec 40).bind fun x => Checked.div 64 x 100
      else if inputs.crowdsecAction = ngxSentinelCsThrottle then
        (Checked.mul 64 w.crowdsec 65).bind fun x => Checked.div 64 x 100
      else some w.crowdsec
    term.bind fun term => checkedScoreAdd score term
  else some score

def checkedScoreCompute : Option Int :=
  if inputs.knownGoodUa ∧ ¬ inputs.crowdsecHit ∧ ¬ inputs.fcrdnsSpoofed then some 0
  else if inputs.allowlisted ∧ ¬ inputs.crowdsecHit then some 0
  else
    (checkedScoreErrrate inputs w 0).bind fun score =>
      (checkedScoreFlags (scoreFlags inputs w) score).bind fun score =>
        (checkedScoreCrowdsec inputs w score).bind fun score =>
          let score := if score < 0 then 0 else score
          some (if score > ngxSentinelScoreMax then ngxSentinelScoreMax else score)

end Checks
section Weights

/-- What `ngx_conf_set_num_slot` and the merge leave. -/
structure Weights.Accepted (w : Weights) : Prop where
  errrate : 0 ≤ w.errrate
  blocked : 0 ≤ w.blocked
  scanner : 0 ≤ w.scanner
  bot : 0 ≤ w.bot
  header : 0 ≤ w.header
  honeypot : 0 ≤ w.honeypot
  velocity : 0 ≤ w.velocity
  asn : 0 ≤ w.asn
  coherence : 0 ≤ w.coherence
  ja3 : 0 ≤ w.ja3
  ja4 : 0 ≤ w.ja4
  ja4t : 0 ≤ w.ja4t
  c2ip : 0 ≤ w.c2ip
  crowdsec : 0 ≤ w.crowdsec
  crowdsec_le : w.crowdsec ≤ ngxSentinelScoreMax

theorem defaultWeights_accepted : defaultWeights.Accepted := by
  constructor <;> decide

/-- A count that `ngx_int_t` can hold. -/
theorem count_cast {n : Nat} (h : n ≤ ngxMaxIntT) : (n : Int).bmod (2 ^ 64) = n := by
  apply Int.bmod_eq_of_le
  · omega
  · simp only [ngxMaxIntT] at h
    omega

end Weights

section Sum
variable (inputs : Inputs) (w : Weights) {score : Int}

/-- The product that is added for the errors, if one is. -/
def errrateGain : Int :=
  if w.errrate > 0 ∧ inputs.errrateCount > 0 then
    w.errrate * (inputs.errrateCount : Int).bmod (2 ^ 64)
  else 0

/-- The terms in the order in which they are added, for any weights. -/
def scoreTerms : List Int :=
  errrateGain inputs w :: ((scoreFlags inputs w).map flagTerm ++ [crowdsecTerm inputs w])

theorem scoreAdd_eq (acc term : Int) :
    sentinelScoreAdd acc term = Saturate.add ngxSentinelScoreMax acc term := rfl

theorem add_zero_term (score : Int) : Saturate.add ngxSentinelScoreMax score 0 = score := rfl

theorem scoreErrrate_eq (h : InRange score) :
    scoreErrrate inputs w score =
      Saturate.add ngxSentinelScoreMax score (errrateGain inputs w) := by
  by_cases hpos : w.errrate > 0 ∧ inputs.errrateCount > 0
  · rw [scoreErrrate, errrateGain, if_pos hpos, if_pos hpos]
    generalize (inputs.errrateCount : Int).bmod (2 ^ 64) = cnt
    by_cases hcnt : cnt > ngxSentinelScoreMax / w.errrate
    · -- both sides are at the cap: the product is beyond it
      have hprod : ngxSentinelScoreMax < w.errrate * cnt := by
        rw [Int.mul_comm]
        exact (Int.ediv_lt_iff_lt_mul hpos.1).mp hcnt
      have hcap : (0 : Int) ≤ ngxSentinelScoreMax := by decide
      rw [if_pos hcnt, scoreAdd_eq, Saturate.add_eq_min h.2, Saturate.add_eq_min h.2,
        Saturate.gain_of_nonneg hcap, Saturate.gain_of_nonneg (hcap.trans hprod.le),
        min_eq_left (Int.le_add_of_nonneg_left h.1), min_eq_left]
      have := h.1
      omega
    · rw [if_neg hcnt, scoreAdd_eq]
  · rw [scoreErrrate, errrateGain, if_neg hpos, if_neg hpos, add_zero_term]

theorem scoreAddFlag_eq :
    scoreAddFlag = fun score f => Saturate.add ngxSentinelScoreMax score (flagTerm f) := by
  funext score f
  cases hf : f.1 with
  | false => simp [scoreAddFlag, flagTerm, hf, add_zero_term]
  | true => simp [scoreAddFlag, flagTerm, hf, scoreAdd_eq]

theorem scoreCrowdsec_eq (score : Int) :
    scoreCrowdsec inputs w score =
      Saturate.add ngxSentinelScoreMax score (crowdsecTerm inputs w) := by
  cases hhit : inputs.crowdsecHit with
  | false => simp [scoreCrowdsec, crowdsecTerm, hhit, add_zero_term]
  | true =>
      by_cases hpos : w.crowdsec > 0
      · simp [scoreCrowdsec, crowdsecTerm, hhit, hpos, scoreAdd_eq, Int.mul_comm w.crowdsec]
      · have hterm : crowdsecTerm inputs w ≤ 0 := by
          simp only [crowdsecTerm, hhit, if_true]
          split
          · omega
          · split <;> omega
        simp [scoreCrowdsec, hhit, hpos, Saturate.add, hterm]

/-- Both short-circuits passed, the score is what is left of the sum under the cap. -/
theorem compute_of_not_shortCircuit (h : ¬ ShortCircuit inputs) :
    sentinelScoreCompute inputs w =
      min ngxSentinelScoreMax (Saturate.total (scoreTerms inputs w)) := by
  have hgood : ¬ (inputs.knownGoodUa ∧ ¬ inputs.crowdsecHit ∧ ¬ inputs.fcrdnsSpoofed) := by
    intro hc
    exact h ⟨by simpa using hc.2.1, .inl ⟨hc.1, by simpa using hc.2.2⟩⟩
  have hlist : ¬ (inputs.allowlisted ∧ ¬ inputs.crowdsecHit) := by
    intro hc
    exact h ⟨by simpa using hc.2, .inr hc.1⟩
  have hzero : InRange 0 := ⟨Int.le_refl 0, by decide⟩
  have hsum := scoreCrowdsec_inRange inputs w
    (addFlags_inRange (scoreFlags inputs w) (scoreErrrate_inRange inputs w hzero))
  have hfold : scoreCrowdsec inputs w
      ((scoreFlags inputs w).foldl scoreAddFlag (scoreErrrate inputs w 0)) =
        (scoreTerms inputs w).foldl (Saturate.add ngxSentinelScoreMax) 0 := by
    rw [scoreCrowdsec_eq, scoreErrrate_eq inputs w hzero, scoreAddFlag_eq, scoreTerms,
      List.foldl_cons, List.foldl_append, List.foldl_map]
    rfl
  simp only [sentinelScoreCompute, if_neg hgood, if_neg hlist, if_neg (Int.not_lt.mpr hsum.1)]
  rw [if_neg (Int.not_lt.mpr hsum.2), hfold, Saturate.foldl_add hzero.2, Int.zero_add]

theorem compute_of_shortCircuit (h : ShortCircuit inputs) : sentinelScoreCompute inputs w = 0 := by
  obtain ⟨hhit, hwho⟩ := h
  cases hwho with
  | inl hgood => simp [sentinelScoreCompute, hhit, hgood.1, hgood.2]
  | inr hlist => simp [sentinelScoreCompute, hhit, hlist]

end Sum
section Overflow
variable (inputs : Inputs) (w : Weights) {score : Int}

theorem InRange.fits (h : InRange score) : Checked.Fits 64 score := by
  have hmax : Checked.Fits 64 ngxSentinelScoreMax := by decide
  have hzero : Checked.Fits 64 0 := by decide
  exact hzero.of_between hmax h.1 h.2

theorem checkedScoreAdd_eq (h : InRange score) (term : Int) :
    checkedScoreAdd score term = some (sentinelScoreAdd score term) := by
  have hsub : InRange (ngxSentinelScoreMax - score) := by
    have := h.1
    have := h.2
    exact ⟨by omega, by omega⟩
  have hnext := (scoreAdd_inRange h term).1
  rw [checkedScoreAdd, sentinelScoreAdd] at *
  by_cases hterm : term ≤ 0
  · rw [if_pos hterm, if_pos hterm]
  · rw [if_neg hterm, if_neg hterm, Checked.sub_eq_some hsub.fits, Option.bind_some]
    by_cases hroom : term > ngxSentinelScoreMax - score
    · rw [if_pos hroom, if_pos hroom]
    · rw [if_neg hterm, if_neg hroom] at hnext
      rw [if_neg hroom, if_neg hroom, Checked.add_eq_some hnext.fits]

theorem checkedScoreErrrate_eq (h : InRange score) (hcount : inputs.errrateCount ≤ ngxMaxIntT) :
    checkedScoreErrrate inputs w score = some (scoreErrrate inputs w score) := by
  by_cases hpos : w.errrate > 0 ∧ inputs.errrateCount > 0
  · have hlimit : InRange (ngxSentinelScoreMax / w.errrate) :=
      ⟨Int.ediv_nonneg (by decide) hpos.1.le, Int.ediv_le_self _ (by decide)⟩
    rw [checkedScoreErrrate, scoreErrrate, if_pos hpos, if_pos hpos,
      Checked.div_eq_some (by decide) hpos.1.ne' hlimit.fits, Option.bind_some]
    simp only [count_cast hcount]
    by_cases hcnt : (inputs.errrateCount : Int) > ngxSentinelScoreMax / w.errrate
    · rw [if_pos hcnt, if_pos hcnt, checkedScoreAdd_eq h]
    · -- the guard keeps the product in range
      have hprod : InRange (w.errrate * inputs.errrateCount) := by
        constructor
        · exact Int.mul_nonneg hpos.1.le (Int.natCast_nonneg _)
        · rw [Int.mul_comm]
          exact (Int.le_ediv_iff_mul_le hpos.1).mp (Int.not_lt.mp hcnt)
      rw [if_neg hcnt, if_neg hcnt, Checked.mul_eq_some hprod.fits, Option.bind_some,
        checkedScoreAdd_eq h]
  · rw [checkedScoreErrrate, scoreErrrate, if_neg hpos, if_neg hpos]

theorem checkedScoreFlags_eq (flags : List (Bool × Int)) (h : InRange score) :
    checkedScoreFlags flags score = some (flags.foldl scoreAddFlag score) := by
  induction flags generalizing score with
  | nil => rfl
  | cons f flags ih =>
      have hnext := addFlags_inRange [f] h
      simp only [List.foldl_cons, List.foldl_nil] at hnext
      rw [checkedScoreFlags, List.foldl_cons, ← ih hnext]
      cases hf : f.1 with
      | false => simp [scoreAddFlag, hf]
      | true => simp [scoreAddFlag, hf, checkedScoreAdd_eq h]

theorem checkedScoreCrowdsec_eq (h : InRange score) (hle : w.crowdsec ≤ ngxSentinelScoreMax) :
    checkedScoreCrowdsec inputs w score = some (scoreCrowdsec inputs w score) := by
  by_cases hhit : inputs.crowdsecHit ∧ w.crowdsec > 0
  · have hpos := hhit.2
    have hshare : ∀ share : Int, 0 < share → share ≤ 100 →
        ((Checked.mul 64 w.crowdsec share).bind fun x => Checked.div 64 x 100) =
          some (w.crowdsec * share / 100) := by
      intro share hlo hhi
      have hbound : w.crowdsec * share ≤ ngxSentinelScoreMax * 100 :=
        Int.mul_le_mul hle hhi hlo.le (by decide)
      have hprod : 0 ≤ w.crowdsec * share := Int.mul_nonneg hpos.le hlo.le
      have hzero : Checked.Fits 64 0 := by decide
      have hmax : Checked.Fits 64 (ngxSentinelScoreMax * 100) := by decide
      have hquot : InRange (w.crowdsec * share / 100) :=
        ⟨by omega, by simp only [ngxSentinelScoreMax] at *; omega⟩
      rw [Checked.mul_eq_some (hzero.of_between hmax hprod hbound), Option.bind_some,
        Checked.div_eq_some hprod (by decide) hquot.fits]
    rw [checkedScoreCrowdsec, scoreCrowdsec, if_pos hhit, if_pos hhit]
    dsimp only
    by_cases hcaptcha : inputs.crowdsecAction = ngxSentinelCsCaptcha
    · rw [if_pos hcaptcha, if_pos hcaptcha, hshare 40 (by decide) (by decide), Option.bind_some,
        checkedScoreAdd_eq h]
    · rw [if_neg hcaptcha, if_neg hcaptcha]
      by_cases hthrottle : inputs.crowdsecAction = ngxSentinelCsThrottle
      · rw [if_pos hthrottle, if_pos hthrottle, hshare 65 (by decide) (by decide),
          Option.bind_some, checkedScoreAdd_eq h]
      · rw [if_neg hthrottle, if_neg hthrottle, Option.bind_some, checkedScoreAdd_eq h]
  · rw [checkedScoreCrowdsec, scoreCrowdsec, if_neg hhit, if_neg hhit]

/-- No operation overflows. -/
theorem checkedScoreCompute_eq (hle : w.crowdsec ≤ ngxSentinelScoreMax)
    (hcount : inputs.errrateCount ≤ ngxMaxIntT) :
    checkedScoreCompute inputs w = some (sentinelScoreCompute inputs w) := by
  have hzero : InRange 0 := ⟨Int.le_refl 0, by decide⟩
  have herrrate := scoreErrrate_inRange inputs w hzero
  have hflags := addFlags_inRange (scoreFlags inputs w) herrrate
  rw [checkedScoreCompute, sentinelScoreCompute, checkedScoreErrrate_eq inputs w hzero hcount,
    Option.bind_some, checkedScoreFlags_eq _ herrrate, Option.bind_some,
    checkedScoreCrowdsec_eq inputs w hflags hle, Option.bind_some]
  split
  · rfl
  · split
    · rfl
    · rfl

end Overflow
section Capped
variable {inputs : Inputs} {w : Weights}

theorem errrateGain_eq (hw : w.Accepted) (hcount : inputs.errrateCount ≤ ngxMaxIntT) :
    errrateGain inputs w = errrateTerm inputs w := by
  by_cases hpos : w.errrate > 0 ∧ inputs.errrateCount > 0
  · rw [errrateGain, if_pos hpos, count_cast hcount, errrateTerm]
  · rw [errrateGain, if_neg hpos, errrateTerm]
    have herrrate := hw.errrate
    by_cases hzero : inputs.errrateCount = 0
    · simp [hzero]
    · have : w.errrate = 0 := by omega
      simp [this]

theorem flagTerm_nonneg {x : Bool} {weight : Int} (h : 0 ≤ weight) : 0 ≤ flagTerm (x, weight) := by
  cases x with
  | false => exact Int.le_refl 0
  | true => exact h

theorem crowdsecTerm_nonneg (hw : w.Accepted) : 0 ≤ crowdsecTerm inputs w := by
  have hcrowdsec := hw.crowdsec
  simp only [crowdsecTerm]
  split
  · split
    · omega
    · split <;> omega
  · exact Int.le_refl 0

theorem flagTerms_nonneg (hw : w.Accepted) : ∀ t ∈ (scoreFlags inputs w).map flagTerm, 0 ≤ t := by
  simp only [scoreFlags, List.map_cons, List.map_nil, List.forall_mem_cons]
  exact ⟨flagTerm_nonneg hw.blocked, flagTerm_nonneg hw.scanner, flagTerm_nonneg hw.bot,
    flagTerm_nonneg hw.header, flagTerm_nonneg hw.honeypot, flagTerm_nonneg hw.velocity,
    flagTerm_nonneg hw.asn, flagTerm_nonneg hw.c2ip, flagTerm_nonneg hw.ja3,
    flagTerm_nonneg hw.ja4, flagTerm_nonneg hw.ja4t, flagTerm_nonneg hw.coherence,
    List.forall_mem_nil _⟩

theorem total_eq_scoreSum (hw : w.Accepted) (hcount : inputs.errrateCount ≤ ngxMaxIntT) :
    Saturate.total (scoreTerms inputs w) = scoreSum inputs w := by
  have herrrate : 0 ≤ errrateTerm inputs w :=
    Int.mul_nonneg hw.errrate (Int.natCast_nonneg _)
  rw [scoreTerms, Saturate.total_cons, Saturate.total_append, errrateGain_eq hw hcount,
    Saturate.gain_of_nonneg herrrate, Saturate.total_of_nonneg (flagTerms_nonneg hw),
    Saturate.total_cons, Saturate.total_nil, Saturate.gain_of_nonneg (crowdsecTerm_nonneg hw),
    scoreSum]
  omega

theorem compute_eq_scoreSum (hw : w.Accepted) (hcount : inputs.errrateCount ≤ ngxMaxIntT)
    (hshort : ¬ ShortCircuit inputs) :
    sentinelScoreCompute inputs w = min ngxSentinelScoreMax (scoreSum inputs w) := by
  rw [compute_of_not_shortCircuit inputs w hshort, total_eq_scoreSum hw hcount]

/-- The score is the announced sum under the cap, and computing it overflows nowhere. -/
theorem score_is_capped_sum (inputs : Inputs) (w : Weights) (hw : w.Accepted)
    (hcount : inputs.errrateCount ≤ ngxMaxIntT) (hshort : ¬ ShortCircuit inputs) :
    sentinelScoreCompute inputs w = min ngxSentinelScoreMax (scoreSum inputs w) ∧
      checkedScoreCompute inputs w = some (min ngxSentinelScoreMax (scoreSum inputs w)) := by
  have hcompute := compute_eq_scoreSum hw hcount hshort
  refine ⟨hcompute, ?_⟩
  rw [checkedScoreCompute_eq inputs w hw.crowdsec_le hcount, hcompute]

/-- The largest weight and the largest count; and a score under the cap, with a tier. -/
theorem score_is_capped_sum_largest :
    let w : Weights := { defaultWeights with errrate := 2 ^ 63 - 1, honeypot := 2 ^ 63 - 1 }
    let inputs : Inputs := { noInputs with errrateCount := 2 ^ 63 - 1, honeypot := true }
    let captcha : Inputs := { noInputs with
      scannerPath := true, crowdsecHit := true, crowdsecAction := ngxSentinelCsCaptcha }
    checkedScoreCompute inputs w = some 100000 ∧ checkedScoreCompute captcha w = some 90 := by
  intro w inputs captcha
  have hw : w.Accepted := by
    constructor <;> decide
  exact ⟨(score_is_capped_sum inputs w hw (by decide) (by decide)).2.trans (by decide),
    (score_is_capped_sum captcha w hw (by decide) (by decide)).2.trans (by decide)⟩

end Capped
section Monotone
variable {a b : Inputs} {w : Weights}

/-- none < captcha < throttle < ban; any other action counts as a ban. -/
def crowdsecTier (inputs : Inputs) : Nat :=
  if inputs.crowdsecHit then
    if inputs.crowdsecAction = ngxSentinelCsCaptcha then 1
    else if inputs.crowdsecAction = ngxSentinelCsThrottle then 2
    else 3
  else 0

/-- The numbers of `ngx_sentinel_verdict_e`. -/
def Verdict.level : Verdict → Nat
  | .allow => 0
  | .challenge => 1
  | .tarpit => 2
  | .block => 3

/-- `b` has every bad signal that `a` has, and no excuse that `a` lacks. -/
structure Worse (a b : Inputs) : Prop where
  errrateCount : a.errrateCount ≤ b.errrateCount
  errrateBlocked : a.errrateBlocked = true → b.errrateBlocked = true
  scannerPath : a.scannerPath = true → b.scannerPath = true
  botUa : a.botUa = true → b.botUa = true
  headerAnomaly : a.headerAnomaly = true → b.headerAnomaly = true
  honeypot : a.honeypot = true → b.honeypot = true
  velocityExceeded : a.velocityExceeded = true → b.velocityExceeded = true
  datacenterAsn : a.datacenterAsn = true → b.datacenterAsn = true
  uaIncoherent : a.uaIncoherent = true → b.uaIncoherent = true
  ja3Flagged : a.ja3Flagged = true → b.ja3Flagged = true
  ja4Flagged : a.ja4Flagged = true → b.ja4Flagged = true
  ja4tFlagged : a.ja4tFlagged = true → b.ja4tFlagged = true
  c2ipFlagged : a.c2ipFlagged = true → b.c2ipFlagged = true
  crowdsec : crowdsecTier a ≤ crowdsecTier b
  knownGoodUa : b.knownGoodUa = true → a.knownGoodUa = true
  allowlisted : b.allowlisted = true → a.allowlisted = true
  fcrdnsSpoofed : a.fcrdnsSpoofed = true → b.fcrdnsSpoofed = true

/-- Who the client claims or is found to be, taken from `b`. -/
def Inputs.withIdentity (a b : Inputs) : Inputs :=
  { a with
    knownGoodUa := b.knownGoodUa
    allowlisted := b.allowlisted
    fcrdnsVerified := b.fcrdnsVerified
    fcrdnsSpoofed := b.fcrdnsSpoofed }

theorem flagTerm_mono {x y : Bool} {weight : Int} (h : x = true → y = true) (hw : 0 ≤ weight) :
    flagTerm (x, weight) ≤ flagTerm (y, weight) := by
  cases x with
  | false => exact flagTerm_nonneg hw
  | true => rw [h rfl]

theorem crowdsecTier_zero_iff : crowdsecTier a = 0 ↔ a.crowdsecHit = false := by
  cases hhit : a.crowdsecHit with
  | false => simp [crowdsecTier, hhit]
  | true =>
      simp only [crowdsecTier, hhit, if_true, Bool.true_eq_false, iff_false]
      split
      · decide
      · split <;> decide

/-- The share of the CrowdSec weight grows with the tier. -/
theorem crowdsecTerm_mono (hw : w.Accepted) (h : crowdsecTier a ≤ crowdsecTier b) :
    crowdsecTerm a w ≤ crowdsecTerm b w := by
  have hshare : ∀ inputs : Inputs, crowdsecTerm inputs w =
      if crowdsecTier inputs = 0 then 0
      else if crowdsecTier inputs = 1 then 40 * w.crowdsec / 100
      else if crowdsecTier inputs = 2 then 65 * w.crowdsec / 100
      else w.crowdsec := by
    intro inputs
    simp only [crowdsecTerm, crowdsecTier]
    split_ifs <;> simp_all
  have hcrowdsec := hw.crowdsec
  rw [hshare a, hshare b]
  split_ifs <;> omega

theorem errrateGain_mono (hw : w.Accepted) (h : a.errrateCount ≤ b.errrateCount)
    (hcount : b.errrateCount ≤ ngxMaxIntT) : errrateGain a w ≤ errrateGain b w := by
  rw [errrateGain_eq hw (h.trans hcount), errrateGain_eq hw hcount]
  exact Int.mul_le_mul_of_nonneg_left (Int.ofNat_le.mpr h) hw.errrate

theorem scoreTerms_mono (hw : w.Accepted) (h : Worse a b)
    (herrrate : errrateGain a w ≤ errrateGain b w) :
    List.Forall₂ (· ≤ ·) (scoreTerms a w) (scoreTerms b w) := by
  have hflags : List.Forall₂ (· ≤ ·) ((scoreFlags a w).map flagTerm)
      ((scoreFlags b w).map flagTerm) :=
    .cons (flagTerm_mono h.errrateBlocked hw.blocked) <|
    .cons (flagTerm_mono h.scannerPath hw.scanner) <|
    .cons (flagTerm_mono h.botUa hw.bot) <|
    .cons (flagTerm_mono h.headerAnomaly hw.header) <|
    .cons (flagTerm_mono h.honeypot hw.honeypot) <|
    .cons (flagTerm_mono h.velocityExceeded hw.velocity) <|
    .cons (flagTerm_mono h.datacenterAsn hw.asn) <|
    .cons (flagTerm_mono h.c2ipFlagged hw.c2ip) <|
    .cons (flagTerm_mono h.ja3Flagged hw.ja3) <|
    .cons (flagTerm_mono h.ja4Flagged hw.ja4) <|
    .cons (flagTerm_mono h.ja4tFlagged hw.ja4t) <|
    .cons (flagTerm_mono h.uaIncoherent hw.coherence) .nil
  exact .cons herrrate (List.rel_append hflags (.cons (crowdsecTerm_mono hw h.crowdsec) .nil))

/-- An excuse of the worse request is one of the better request, too. -/
theorem Worse.shortCircuit (h : Worse a b) (hb : ShortCircuit b) : ShortCircuit a := by
  obtain ⟨hhit, hwho⟩ := hb
  have htier : crowdsecTier a = 0 :=
    Nat.le_zero.mp (h.crowdsec.trans (crowdsecTier_zero_iff.mpr hhit).le)
  refine ⟨crowdsecTier_zero_iff.mp htier, ?_⟩
  cases hwho with
  | inl hgood =>
      refine .inl ⟨h.knownGoodUa hgood.1, ?_⟩
      cases hspoofed : a.fcrdnsSpoofed with
      | false => rfl
      | true => exact absurd (h.fcrdnsSpoofed hspoofed) (by simp [hgood.2])
  | inr hlist => exact .inr (h.allowlisted hlist)

theorem score_mono (hw : w.Accepted) (h : Worse a b)
    (herrrate : errrateGain a w ≤ errrateGain b w) :
    sentinelScoreCompute a w ≤ sentinelScoreCompute b w := by
  by_cases ha : ShortCircuit a
  · rw [compute_of_shortCircuit a w ha]
    exact (score_inRange b w).1
  · have hb : ¬ ShortCircuit b := fun hb => ha (h.shortCircuit hb)
    rw [compute_of_not_shortCircuit a w ha, compute_of_not_shortCircuit b w hb]
    exact min_le_min_left _ (Saturate.total_mono (scoreTerms_mono hw h herrrate))

/-- The thresholds need no order among themselves. -/
theorem level_mono (thr : Threshold) {s t : Int} (h : s ≤ t) :
    (sentinelScoreToVerdict s thr).level ≤ (sentinelScoreToVerdict t thr).level := by
  simp only [sentinelScoreToVerdict]
  split_ifs <;> first | decide | omega

theorem score_withIdentity (inputs : Inputs) (hhit : a.crowdsecHit = true) (w : Weights) :
    sentinelScoreCompute (a.withIdentity inputs) w = sentinelScoreCompute a w := by
  have hshort : ∀ c : Inputs, c.crowdsecHit = true → ¬ ShortCircuit c := by
    intro c hc h
    rw [h.1] at hc
    contradiction
  rw [compute_of_not_shortCircuit a w (hshort a hhit),
    compute_of_not_shortCircuit _ w (hshort (a.withIdentity inputs) hhit)]
  rfl

/-- A worse request never scores lower, and under a CrowdSec hit it does not
matter who the client is. -/
theorem verdict_monotone (w : Weights) (hw : w.Accepted) (thr : Threshold) :
    (∀ a b : Inputs, Worse a b → b.errrateCount ≤ ngxMaxIntT →
      sentinelScoreCompute a w ≤ sentinelScoreCompute b w ∧
      (sentinelScoreToVerdict (sentinelScoreCompute a w) thr).level ≤
        (sentinelScoreToVerdict (sentinelScoreCompute b w) thr).level) ∧
    ∀ a b : Inputs, a.crowdsecHit = true → b = a.withIdentity b →
      sentinelScoreCompute a w = sentinelScoreCompute b w ∧
      sentinelScoreToVerdict (sentinelScoreCompute a w) thr =
        sentinelScoreToVerdict (sentinelScoreCompute b w) thr := by
  constructor
  · intro a b h hcount
    have hscore := score_mono hw h (errrateGain_mono hw h.errrateCount hcount)
    exact ⟨hscore, level_mono thr hscore⟩
  · intro a b hhit hb
    have hscore : sentinelScoreCompute a w = sentinelScoreCompute b w := by
      rw [hb, score_withIdentity b hhit]
    exact ⟨hscore, by rw [hscore]⟩

/-- A crawler's token over a scan gives nothing once CrowdSec bans the client,
with thresholds in the wrong order. -/
theorem verdict_monotone_crawler :
    let thr : Threshold := ⟨90, 60, 30⟩
    let crawler : Inputs := { noInputs with knownGoodUa := true, scannerPath := true }
    let banned : Inputs := { crawler with
      crowdsecHit := true, crowdsecAction := ngxSentinelCsBan, allowlisted := true }
    let plain : Inputs := { banned with knownGoodUa := false, allowlisted := false }
    (sentinelScoreToVerdict (sentinelScoreCompute crawler defaultWeights) thr).level ≤
        (sentinelScoreToVerdict (sentinelScoreCompute plain defaultWeights) thr).level ∧
      sentinelScoreToVerdict (sentinelScoreCompute banned defaultWeights) thr =
        sentinelScoreToVerdict (sentinelScoreCompute plain defaultWeights) thr := by
  intro thr crawler banned plain
  have hworse : Worse crawler plain := by
    constructor <;> decide
  have h := verdict_monotone defaultWeights defaultWeights_accepted thr
  exact ⟨(h.1 crawler plain hworse (by decide)).2, (h.2 banned plain rfl rfl).2⟩

end Monotone
end Sentinel
