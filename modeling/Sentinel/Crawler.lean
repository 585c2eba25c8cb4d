import Sentinel.BanEnd
import Sentinel.BotUa
import Sentinel.Fcrdns
import Sentinel.NgxRef
import Sentinel.ScoreSum

/-!
What a crawler's name in the `User-Agent` is worth once FCrDNS has disproved it.
The getter is run twice, with the table of known-good crawlers and without it.
The score no longer honours the name, but the table of scanners has not been
looked through: the one term that the name takes away is that of the bot.
-/

namespace Sentinel
open Function

section Getter
variable (good : List Bytes) (ngx : NgxCore) (g : Gather) (lcf : FcrdnsConf) (r : AgentRequest)
  (addrText : Bytes) (sockaddr : SockAddr) (shm : Segments)

/-- The collectors of `ngx_sentinel_get_ctx` that read the `User-Agent` or a
shared zone, in their order. -/
def gatherSignals : Inputs × Segments :=
  let s := sentinelErrrateSignal ngx g.lcf addrText g.uri g.now g.collected shm
  let inputs := sentinelBotuaSignal good r s.1
  let s := sentinelVelocitySignal ngx g.lcf addrText g.now inputs s.2
  let inputs := sentinelCoherenceSignal r s.1
  let s := sentinelFcrdnsSignal ngx lcf addrText sockaddr g.now inputs s.2
  sentinelCrowdsecSignal ngx g.lcf addrText g.now s.1 s.2.1

/-- The context of a request that has come by these signals. -/
def crawlerCtx : SentinelCtx :=
  scoredCtx g.lcf (gatherSignals good ngx g lcf r addrText sockaddr shm).1

end Getter
section Overlay
variable {ngx : NgxCore} {lcf : RequestConf} {addrText uri : Bytes} {now : Nat} {shm : Segments}

/-- The fields of the three collectors that look into zones come from `own`. -/
def Inputs.overlay (own inputs : Inputs) : Inputs :=
  { inputs with
    errrateCount := own.errrateCount
    errrateBlocked := own.errrateBlocked
    scannerPath := own.scannerPath
    velocityExceeded := own.velocityExceeded
    crowdsecHit := own.crowdsecHit
    crowdsecAction := own.crowdsecAction }

theorem velocity_eq (inputs : Inputs) :
    sentinelVelocitySignal ngx lcf addrText now inputs shm =
      ({ inputs with
          velocityExceeded :=
            (sentinelVelocitySignal ngx lcf addrText now noInputs shm).1.velocityExceeded },
        (sentinelVelocitySignal ngx lcf addrText now noInputs shm).2) := by
  simp only [sentinelVelocitySignal]
  split
  · rfl
  · split <;> rfl

theorem crowdsec_eq (inputs : Inputs) :
    sentinelCrowdsecSignal ngx lcf addrText now inputs shm =
      ({ inputs with
          crowdsecHit := (sentinelCrowdsecSignal ngx lcf addrText now noInputs shm).1.crowdsecHit
          crowdsecAction :=
            (sentinelCrowdsecSignal ngx lcf addrText now noInputs shm).1.crowdsecAction },
        (sentinelCrowdsecSignal ngx lcf addrText now noInputs shm).2) := by
  simp only [sentinelCrowdsecSignal]
  split
  · rfl
  · split
    · rfl
    · split <;> rfl

theorem errrate_eq (inputs : Inputs) :
    sentinelErrrateSignal ngx lcf addrText uri now inputs shm =
      ({ inputs with
          errrateCount :=
            (sentinelErrrateSignal ngx lcf addrText uri now noInputs shm).1.errrateCount
          errrateBlocked :=
            (sentinelErrrateSignal ngx lcf addrText uri now noInputs shm).1.errrateBlocked
          scannerPath :=
            (sentinelErrrateSignal ngx lcf addrText uri now noInputs shm).1.scannerPath },
        (sentinelErrrateSignal ngx lcf addrText uri now noInputs shm).2) := by
  simp only [sentinelErrrateSignal]
  split
  · rfl
  · split <;> rfl

/-- What the other collectors report passes through the three. -/
theorem gatherInputs_overlay (g : Gather) :
    (gatherInputs ngx g addrText shm).1 =
      ((gatherInputs ngx { g with collected := noInputs } addrText shm).1).overlay g.collected := by
  simp only [gatherInputs]
  rw [errrate_eq g.collected, velocity_eq, crowdsec_eq]
  generalize sentinelErrrateSignal ngx g.lcf addrText g.uri g.now noInputs shm = e
  rw [velocity_eq e.1]
  generalize sentinelVelocitySignal ngx g.lcf addrText g.now noInputs e.2 = v
  dsimp only
  rw [crowdsec_eq { e.1 with velocityExceeded := v.1.velocityExceeded }]
  generalize sentinelCrowdsecSignal ngx g.lcf addrText g.now noInputs v.2 = c
  rfl

end Overlay
section Zones
variable {ngx : NgxCore} {key : Key} {verdict : UInt8} {now shm : Nat} {segments : Segments}

/-- A lookup of the errrate store keeps what has not run out. -/
theorem storeLookup_fresh {sh : Shctx} (zone : Zone) (wf : sh.Wf ngx)
    (h : Fresh sh key verdict now) (k : Key) :
    Fresh (storeStep ngx zone sh ⟨now, k, .lookup⟩).2 key verdict now := by
  obtain ⟨n, hn, hactive, haction⟩ := h
  obtain ⟨-, hcases⟩ := storeStep_cases zone wf ⟨now, k, .lookup⟩
  have hkept := get_expire_banned zone wf hn hactive
  cases hcases with
  | inl hrefused => exact ⟨n, by rw [hrefused.2]; exact hn, hactive, haction⟩
  | inr hleft =>
      obtain ⟨o, hleaves, hget⟩ := hleft
      by_cases hk : key = k
      · subst hk
        have hafter := hget key
        rw [if_pos rfl] at hafter
        cases hleaves with
        | absent hnone =>
            rw [hkept] at hnone
            contradiction
        | lookup m hm =>
            obtain rfl := Option.some.inj (hkept.symm.trans hm)
            refine ⟨_, hafter, ?_⟩
            simp only [errrateLookupNode, hactive, if_true]
            exact ⟨trivial, haction⟩
      · refine ⟨n, ?_, hactive, haction⟩
        rw [hget, if_neg hk, hkept]

/-- The lookup of a collector that is made on well-formed segments. -/
theorem zoneLookup_spec (shm : Nat) (key : Key) (verdict : UInt8) {zone : Option BoundZone}
    {addrText : Bytes} {l : ErrrateReply × Segments} (wf : ∀ i, (segments i).Wf ngx)
    (hl : zoneLookup ngx zone addrText now segments = some l) :
    (∀ i, (l.2 i).Wf ngx) ∧
      (Fresh (segments shm) key verdict now → Fresh (l.2 shm) key verdict now) := by
  obtain ⟨z, -, hl⟩ := zoneLookup_eq_some hl
  rw [hl]
  cases hz : z.zone with
  | none => exact ⟨fun i => by simpa [sentinelShmErrrateLookup] using wf i,
      fun h => by simpa [sentinelShmErrrateLookup] using h⟩
  | some zone =>
      have hwf := (storeStep_cases zone (wf z.shm)
        ⟨now, sentinelFeedDigest ngx addrText, .lookup⟩).1
      constructor
      · intro i
        by_cases hi : i = z.shm
        · subst hi
          simp only [update_self]
          exact hwf
        · simp only [update_of_ne hi]
          exact wf i
      · intro h
        by_cases hi : shm = z.shm
        · subst hi
          simp only [update_self]
          exact storeLookup_fresh zone (wf z.shm) h _
        · simp only [update_of_ne hi]
          exact h

theorem errrate_zones (wf : ∀ i, (segments i).Wf ngx) (lcf : RequestConf) (addrText uri : Bytes)
    (now : Nat) (inputs : Inputs) (shm : Nat) (key : Key) (verdict : UInt8) :
    let s := sentinelErrrateSignal ngx lcf addrText uri now inputs segments
    (∀ i, (s.2 i).Wf ngx) ∧
      (Fresh (segments shm) key verdict now → Fresh (s.2 shm) key verdict now) := by
  simp only [sentinelErrrateSignal]
  cases hl : zoneLookup ngx lcf.zone addrText now segments with
  | none => exact ⟨wf, id⟩
  | some l =>
      have := zoneLookup_spec shm key verdict wf hl
      dsimp only
      split
      · exact this
      · exact this

theorem velocity_zones (wf : ∀ i, (segments i).Wf ngx) (lcf : RequestConf) (addrText : Bytes)
    (now : Nat) (inputs : Inputs) (shm : Nat) (key : Key) (verdict : UInt8) :
    let s := sentinelVelocitySignal ngx lcf addrText now inputs segments
    (∀ i, (s.2 i).Wf ngx) ∧
      (Fresh (segments shm) key verdict now → Fresh (s.2 shm) key verdict now) := by
  simp only [sentinelVelocitySignal]
  cases hl : zoneLookup ngx lcf.velZone addrText now segments with
  | none => exact ⟨wf, id⟩
  | some l =>
      have := zoneLookup_spec shm key verdict wf hl
      dsimp only
      split
      · exact this
      · exact this

/-- The collector of CrowdSec reports the same on segments that have only faded. -/
theorem crowdsec_fades {lcf : RequestConf} {addrText : Bytes} {inputs : Inputs}
    {segments' : Segments} (wf : ∀ i, (segments i).Wf ngx) (wf' : ∀ i, (segments' i).Wf ngx)
    (h : ∀ i, Fades now (segments i) (segments' i)) :
    (sentinelCrowdsecSignal ngx lcf addrText now inputs segments').1 =
      (sentinelCrowdsecSignal ngx lcf addrText now inputs segments).1 := by
  simp only [sentinelCrowdsecSignal]
  cases hz : lcf.csZone with
  | none => rfl
  | some z =>
      by_cases haddr : addrText.length = 0
      · simp only [crowdsecLookup, haddr, if_true]
      · obtain ⟨hrc, haction⟩ := crowdsecLookup_fades z.zone (wf z.shm) (wf' z.shm) (h z.shm)
          (sentinelFeedDigest ngx addrText)
        simp only [crowdsecLookup, haddr, if_false, hrc]
        split
        · rfl
        · split
          next hbusy => rw [haction hbusy]
          next => rfl

end Zones
section Agent
variable {ngx : NgxCore} {lcf : FcrdnsConf} {addrText : Bytes} {sockaddr : SockAddr} {now : Nat}
  {segments : Segments}

theorem botua_eq (good : List Bytes) (r : AgentRequest) (inputs : Inputs) :
    sentinelBotuaSignal good r inputs =
      { inputs with
        botUa := (sentinelBotuaSignal good r noInputs).botUa
        knownGoodUa := (sentinelBotuaSignal good r noInputs).knownGoodUa } := by
  simp only [sentinelBotuaSignal]
  split
  · rfl
  · split
    · rfl
    · split
      · rfl
      · split <;> rfl

theorem coherence_eq (r : AgentRequest) (inputs : Inputs) :
    sentinelCoherenceSignal r inputs =
      { inputs with uaIncoherent := (sentinelCoherenceSignal r noInputs).uaIncoherent } := by
  simp only [sentinelCoherenceSignal]
  split
  · rfl
  · split
    · rfl
    · split <;> rfl

/-- A location with FCrDNS, and a client whose name the cache has disproved. -/
structure Disproved (ngx : NgxCore) (lcf : FcrdnsConf) (addrText : Bytes) (sockaddr : SockAddr)
    (now : Nat) (segments : Segments) : Prop where
  addrText : addrText ≠ []
  cached : ∃ i zone key, lcf.fcrdnsZone = some ⟨i, some zone⟩ ∧
    sentinelFcrdnsKey ngx sockaddr = some key ∧
    Fresh (segments i) key ngxSentinelFcrdnsFailed now

/-- The collector believes the cache, and leaves the segments faded. -/
theorem fcrdnsSignal_disproved (wf : ∀ i, (segments i).Wf ngx)
    (h : Disproved ngx lcf addrText sockaddr now segments) (inputs : Inputs) :
    let s := sentinelFcrdnsSignal ngx lcf addrText sockaddr now inputs segments
    s.1 = { inputs with fcrdnsVerified := false, fcrdnsSpoofed := inputs.knownGoodUa } ∧
      (∀ i, (s.2.1 i).Wf ngx) ∧ ∀ i, Fades now (segments i) (s.2.1 i) := by
  have hrefl : ∀ i, Fades now (segments i) (segments i) := fun i k => .inl rfl
  obtain ⟨i, zone, key, hzone, hkey, hfresh⟩ := h.cached
  have hlen : ¬ addrText.length = 0 := fun hzero => h.addrText (List.length_eq_zero_iff.mp hzero)
  cases hgood : inputs.knownGoodUa with
  | false =>
      simp only [sentinelFcrdnsSignal, hzone, hgood]
      exact ⟨rfl, wf, hrefl⟩
  | true =>
      have hget := fcrdnsGet_fresh zone (wf i) hfresh
      obtain ⟨hwf, -, hfades, -⟩ := crowdsecLookup_spec zone (wf i) key now
      have hne : ngxSentinelFcrdnsFailed ≠ ngxSentinelFcrdnsVerified := by decide
      simp only [sentinelFcrdnsSignal, hzone, hgood, hlen, hkey, hget, hne, not_true, if_false,
        if_true]
      refine ⟨trivial, ?_, ?_⟩
      · intro j
        by_cases hj : j = i
        · subst hj
          rw [update_self]
          exact hwf
        · rw [update_of_ne hj]
          exact wf j
      · intro j
        by_cases hj : j = i
        · subst hj
          rw [update_self]
          exact hfades
        · rw [update_of_ne hj]
          exact hrefl j

/-- What the collectors of this module make of what the others report. -/
def agentInputs (good : List Bytes) (r : AgentRequest) (collected : Inputs) : Inputs :=
  let inputs := sentinelCoherenceSignal r (sentinelBotuaSignal good r collected)
  { inputs with fcrdnsVerified := false, fcrdnsSpoofed := inputs.knownGoodUa }

/-- Under a disproved claim the getter is the one of the request path, on what
the collectors of the `User-Agent` report. -/
theorem gatherSignals_eq {g : Gather} {shm : Segments} (wf : ∀ i, (shm i).Wf ngx)
    (h : Disproved ngx lcf addrText sockaddr g.now shm) (good : List Bytes) (r : AgentRequest) :
    (gatherSignals good ngx g lcf r addrText sockaddr shm).1 =
      (gatherInputs ngx { g with collected := agentInputs good r g.collected } addrText shm).1 := by
  obtain ⟨i, zone, key, hzone, hkey, hfresh⟩ := h.cached
  obtain ⟨wf₁, hfresh₁⟩ := errrate_zones wf g.lcf addrText g.uri g.now g.collected i key
    ngxSentinelFcrdnsFailed
  simp only [gatherSignals, gatherInputs]
  rw [errrate_eq (agentInputs good r g.collected), errrate_eq g.collected] at *
  generalize sentinelErrrateSignal ngx g.lcf addrText g.uri g.now noInputs shm = e at *
  dsimp only at wf₁ hfresh₁ ⊢
  obtain ⟨wf₂, hfresh₂⟩ := velocity_zones wf₁ g.lcf addrText g.now noInputs i key
    ngxSentinelFcrdnsFailed
  rw [velocity_eq, velocity_eq { agentInputs good r g.collected with
    errrateCount := e.1.errrateCount, errrateBlocked := e.1.errrateBlocked,
    scannerPath := e.1.scannerPath }]
  generalize sentinelVelocitySignal ngx g.lcf addrText g.now noInputs e.2 = v at *
  dsimp only
  have hdisproved : Disproved ngx lcf addrText sockaddr g.now v.2 :=
    ⟨h.addrText, i, zone, key, hzone, hkey, hfresh₂ (hfresh₁ hfresh)⟩
  obtain ⟨hsignal, wf₃, hfades⟩ := fcrdnsSignal_disproved wf₂ hdisproved
    (sentinelCoherenceSignal r { sentinelBotuaSignal good r { g.collected with
      errrateCount := e.1.errrateCount, errrateBlocked := e.1.errrateBlocked,
      scannerPath := e.1.scannerPath } with velocityExceeded := v.1.velocityExceeded })
  rw [crowdsec_fades wf₂ wf₃ hfades, hsignal]
  congr 1
  rw [agentInputs, botua_eq, botua_eq good r g.collected, coherence_eq,
    coherence_eq r { g.collected with
      botUa := (sentinelBotuaSignal good r noInputs).botUa
      knownGoodUa := (sentinelBotuaSignal good r noInputs).knownGoodUa }]

end Agent
section Claim
variable {inputs : Inputs} {w : Weights} {ngx : NgxCore} {lcf : FcrdnsConf} {addrText : Bytes}
  {sockaddr : SockAddr} {g : Gather} {shm : Segments}

/-- The `User-Agent` is a crawler's. -/
def ClaimsCrawler (r : AgentRequest) : Prop :=
  ∃ ua, r.userAgent = some ua ∧ sentinelBotUaMinLen ≤ ua.length ∧ Occurs goodUaSubstrings ua

/-- It is a scanner's as well. -/
def NamesScanner (r : AgentRequest) : Prop :=
  ∃ ua, r.userAgent = some ua ∧ Occurs badUaSubstrings ua

/-- The term of the bot shows in the score of these signals. -/
def BotTermCounts (w : Weights) (inputs : Inputs) : Prop :=
  ¬ ShortCircuit inputs ∧ 0 < w.bot ∧
    Saturate.total (scoreTerms { inputs with botUa := false } w) < ngxSentinelScoreMax

theorem claimsCrawler_iff {r : AgentRequest} {ua : Bytes} (hua : r.userAgent = some ua) :
    ClaimsCrawler r ↔
      sentinelBotUaMinLen ≤ ua.length ∧ goodUaSubstrings.any (uaContains ua) = true := by
  rw [any_uaContains_iff goodUaSubstrings_texts]
  constructor
  · intro h
    obtain ⟨ua', hsome, hclaim⟩ := h
    rw [Option.some.inj (hua.symm.trans hsome)]
    exact hclaim
  · exact fun h => ⟨ua, hua, h⟩

theorem namesScanner_iff {r : AgentRequest} {ua : Bytes} (hua : r.userAgent = some ua) :
    NamesScanner r ↔ badUaSubstrings.any (uaContains ua) = true := by
  rw [any_uaContains_iff badUaSubstrings_texts]
  constructor
  · intro h
    obtain ⟨ua', hsome, hoccurs⟩ := h
    rw [Option.some.inj (hua.symm.trans hsome)]
    exact hoccurs
  · exact fun h => ⟨ua, hua, h⟩

/-- What the two runs make of the `User-Agent`. -/
theorem botua_claim (r : AgentRequest) (collected : Inputs) :
    let real := sentinelBotuaSignal goodUaSubstrings r collected
    let plain := sentinelBotuaSignal [] r collected
    plain.knownGoodUa = false ∧
      (ClaimsCrawler r ∧ (plain.botUa = true ↔ NamesScanner r) ∧
          real = { plain with botUa := false, knownGoodUa := true } ∨
        ¬ ClaimsCrawler r ∧ real = plain) := by
  intro real plain
  simp only [real, plain, sentinelBotuaSignal, List.any_nil, Bool.false_eq_true, if_false]
  cases hua : r.userAgent with
  | none =>
      refine ⟨rfl, .inr ⟨?_, rfl⟩⟩
      intro h
      obtain ⟨ua, hsome, -⟩ := h
      rw [hua] at hsome
      contradiction
  | some ua =>
      rw [claimsCrawler_iff hua, namesScanner_iff hua]
      by_cases hlen : ua.length < sentinelBotUaMinLen
      · simp only [hlen, if_true]
        exact ⟨trivial, .inr ⟨fun h => absurd h.1 (Nat.not_le.mpr hlen), trivial⟩⟩
      · simp only [hlen, if_false]
        cases hgood : goodUaSubstrings.any (uaContains ua) with
        | true =>
            -- the name ends the search, whether it is a scanner's or not
            simp only [if_true]
            refine ⟨?_, .inl ⟨⟨Nat.not_lt.mp hlen, trivial⟩, ?_, ?_⟩⟩
            · split <;> rfl
            · cases badUaSubstrings.any (uaContains ua) <;> simp
            · split <;> rfl
        | false =>
            simp only [Bool.false_eq_true, if_false, and_false, not_false_eq_true, true_and]
            refine ⟨?_, .inr trivial⟩
            split <;> rfl

theorem agentInputs_claim (r : AgentRequest) (collected : Inputs) :
    let real := agentInputs goodUaSubstrings r collected
    let plain := agentInputs [] r collected
    plain.knownGoodUa = false ∧
      (ClaimsCrawler r ∧ (plain.botUa = true ↔ NamesScanner r) ∧
          real = { plain with botUa := false, knownGoodUa := true, fcrdnsSpoofed := true } ∨
        ¬ ClaimsCrawler r ∧ real = plain) := by
  obtain ⟨hplain, hcases⟩ := botua_claim r collected
  obtain ⟨flag, hflag⟩ : ∃ flag, ∀ inputs,
      sentinelCoherenceSignal r inputs = { inputs with uaIncoherent := flag } :=
    ⟨_, coherence_eq r⟩
  simp only [agentInputs, hflag]
  refine ⟨hplain, ?_⟩
  cases hcases with
  | inl hclaim =>
      obtain ⟨hclaims, hnames, hreal⟩ := hclaim
      refine .inl ⟨hclaims, hnames, ?_⟩
      rw [hreal]
  | inr hnone =>
      refine .inr ⟨hnone.1, ?_⟩
      rw [hnone.2]

/-- The weight of the bot is one term of the sum. -/
theorem total_bot (inputs : Inputs) (w : Weights) :
    Saturate.total (scoreTerms { inputs with botUa := true } w) =
      Saturate.total (w.bot :: scoreTerms { inputs with botUa := false } w) := by
  have hskip : Saturate.gain (flagTerm (false, w.bot)) = 0 := rfl
  have hadd : flagTerm (true, w.bot) = w.bot := rfl
  have herrrate : errrateGain { inputs with botUa := true } w =
      errrateGain { inputs with botUa := false } w := rfl
  have hcrowdsec : crowdsecTerm { inputs with botUa := true } w =
      crowdsecTerm { inputs with botUa := false } w := rfl
  simp only [scoreTerms, scoreFlags, List.map_cons, List.map_nil, List.cons_append,
    Saturate.total_cons, hskip, hadd, herrrate, hcrowdsec]
  omega

/-- A disproved name takes away the term of the bot, and nothing else. -/
theorem score_claim_eq_iff (inputs : Inputs) (hgood : inputs.knownGoodUa = false) (w : Weights) :
    sentinelScoreCompute { inputs with
        botUa := false, knownGoodUa := true, fcrdnsSpoofed := true } w =
      sentinelScoreCompute inputs w ↔ ¬ (inputs.botUa = true ∧ BotTermCounts w inputs) := by
  have hshort : ShortCircuit { inputs with
      botUa := false, knownGoodUa := true, fcrdnsSpoofed := true } ↔ ShortCircuit inputs := by
    simp [ShortCircuit, hgood]
  by_cases h : ShortCircuit inputs
  · rw [compute_of_shortCircuit _ w (hshort.mpr h), compute_of_shortCircuit _ w h]
    exact ⟨fun _ hbot => hbot.2.1 h, fun _ => rfl⟩
  · rw [compute_of_not_shortCircuit _ w (fun hs => h (hshort.mp hs)),
      compute_of_not_shortCircuit _ w h]
    have hterms : scoreTerms { inputs with
        botUa := false, knownGoodUa := true, fcrdnsSpoofed := true } w =
          scoreTerms { inputs with botUa := false } w := rfl
    rw [hterms]
    cases hbot : inputs.botUa with
    | false =>
        have hsame : { inputs with botUa := false } = inputs := by rw [← hbot]
        rw [hsame]
        simp
    | true =>
        have hsame : { inputs with botUa := true } = inputs := by rw [← hbot]
        have htotal := total_bot inputs w
        rw [hsame] at htotal
        rw [htotal, eq_comm, Saturate.min_total_cons_eq_iff]
        simp only [BotTermCounts, h, not_false_eq_true, true_and]
        omega

/-- Under a disproved claim the request scores what it would score without the
table of crawlers, unless the `User-Agent` names a scanner as well and the weight
of that shows. -/
theorem disproved_claim_iff (ngx : NgxCore) (g : Gather) (lcf : FcrdnsConf) (r : AgentRequest)
    (addrText : Bytes) (sockaddr : SockAddr) (shm : Segments) (wf : ∀ i, (shm i).Wf ngx)
    (h : Disproved ngx lcf addrText sockaddr g.now shm) :
    let real := crawlerCtx goodUaSubstrings ngx g lcf r addrText sockaddr shm
    let plain := crawlerCtx [] ngx g lcf r addrText sockaddr shm
    real.score = plain.score ∧ real.verdict = plain.verdict ↔
      ¬ (ClaimsCrawler r ∧ NamesScanner r ∧ BotTermCounts g.lcf.weights plain.inputs) := by
  intro real plain
  have hverdict : real.score = plain.score → real.verdict = plain.verdict := by
    intro hscore
    simp only [real, plain, crawlerCtx, scoredCtx] at hscore ⊢
    rw [hscore]
  have hscore : real.score = plain.score ∧ real.verdict = plain.verdict ↔
      real.score = plain.score := ⟨fun heq => heq.1, fun heq => ⟨heq, hverdict heq⟩⟩
  rw [hscore]
  simp only [real, plain, crawlerCtx, scoredCtx]
  rw [gatherSignals_eq wf h, gatherSignals_eq wf h, gatherInputs_overlay,
    gatherInputs_overlay { g with collected := agentInputs [] r g.collected }]
  dsimp only
  generalize (gatherInputs ngx { g with collected := noInputs } addrText shm).1 = own
  obtain ⟨hgood, hcases⟩ := agentInputs_claim r g.collected
  generalize agentInputs goodUaSubstrings r g.collected = a at hcases
  generalize agentInputs [] r g.collected = b at hcases hgood
  cases hcases with
  | inl hclaim =>
      obtain ⟨hclaims, hnames, ha⟩ := hclaim
      have hown : own.overlay a = { own.overlay b with
          botUa := false, knownGoodUa := true, fcrdnsSpoofed := true } := by
        rw [ha]
        rfl
      have hbot : (own.overlay b).botUa = true ↔ NamesScanner r := hnames
      rw [hown, score_claim_eq_iff (own.overlay b) hgood, hbot]
      simp only [hclaims, true_and]
  | inr hnone =>
      rw [hnone.2]
      simp only [hnone.1, false_and, not_false_eq_true]

/-- The client `1.2.3.4`, whose name was disproved at 100. -/
def disprovedShm : Segments :=
  update (fun _ => sentinelShmInitZone) 3
    (sentinelShmFcrdnsSet Ref.ngx (some ⟨3600, 0, 0⟩) sentinelShmInitZone
      (sentinelFeedDigest Ref.ngx [1, 2, 3, 4]) ngxSentinelFcrdnsFailed 100 3600 true).2

def crawlerVisit : Gather :=
  ⟨{ defaultConf with enabled := true, shadow := false }, str "/", 200, noInputs⟩

def crawlerConf : FcrdnsConf := ⟨some ⟨3, some ⟨3600, 0, 0⟩⟩, 3600, []⟩

theorem disprovedShm_spec :
    (∀ i, (disprovedShm i).Wf Ref.ngx) ∧
      Disproved Ref.ngx crawlerConf (str "1.2.3.4") (.inet [1, 2, 3, 4] rfl) 200
        disprovedShm := by
  obtain ⟨hwf, hcases⟩ := fcrdnsSet_spec ⟨3600, 0, 0⟩ (@wf_init Ref.ngx)
    (sentinelFeedDigest Ref.ngx [1, 2, 3, 4]) ngxSentinelFcrdnsFailed 100 3600 true
  constructor
  · intro i
    by_cases hi : i = 3
    · subst hi
      rw [disprovedShm, update_self]
      exact hwf
    · rw [disprovedShm, update_of_ne hi]
      exact wf_init
  · cases hcases with
    | inl hrefused => exact absurd hrefused.1 (by decide)
    | inr hset =>
        obtain ⟨-, n, hn, hget⟩ := hset
        refine ⟨by decide, 3, ⟨3600, 0, 0⟩, _, rfl, rfl, n, ?_, ?_, hn.2.2.1⟩
        · rw [disprovedShm, update_self, hget, if_pos rfl]
        · rw [hn.2.1]
          decide

/-- A crawler's name over a scanner's takes the scanner's off. -/
theorem crawler_name_hides_scanner :
    let r : AgentRequest := ⟨some (str "Googlebot sqlmap"), none, none, none, 1001⟩
    let ctx := fun good => crawlerCtx good Ref.ngx crawlerVisit crawlerConf r (str "1.2.3.4")
      (.inet [1, 2, 3, 4] rfl) disprovedShm
    Disproved Ref.ngx crawlerConf (str "1.2.3.4") (.inet [1, 2, 3, 4] rfl) crawlerVisit.now
        disprovedShm ∧
      (ctx goodUaSubstrings).score = 0 ∧ (ctx goodUaSubstrings).verdict = .allow ∧
      (ctx []).score = 30 ∧ (ctx []).verdict = .challenge := by
  refine ⟨disprovedShm_spec.2, ?_⟩
  decide +kernel

/-- The name alone is worth nothing. -/
theorem disproved_claim_bare :
    let r : AgentRequest := ⟨some (str "Googlebot"), none, none, none, 1001⟩
    let ctx := fun good => crawlerCtx good Ref.ngx crawlerVisit crawlerConf r (str "1.2.3.4")
      (.inet [1, 2, 3, 4] rfl) disprovedShm
    (ctx goodUaSubstrings).score = (ctx []).score ∧
      (ctx goodUaSubstrings).verdict = (ctx []).verdict := by
  intro r ctx
  refine (disproved_claim_iff Ref.ngx crawlerVisit crawlerConf r (str "1.2.3.4")
    (.inet [1, 2, 3, 4] rfl) disprovedShm disprovedShm_spec.1 disprovedShm_spec.2).mpr ?_
  intro h
  obtain ⟨-, hnames, -⟩ := h
  obtain ⟨ua, hua, hoccurs⟩ := hnames
  obtain rfl : str "Googlebot" = ua := Option.some.inj hua
  exact absurd hoccurs (by decide +kernel)

end Claim
end Sentinel
