import Sentinel.Lib.Exposition
import Sentinel.Preaccess
import Sentinel.PowGate
import Sentinel.Tarpit

/-!
`sentinel_metrics.c`: the counters that a request bumps, and the page on which
the status handler writes them. A collector that reads the page as it reads any
other gets the numbers that were written, each under its label.

Left out: the checks for `NULL` other than of the array, which no caller passes.
-/

namespace Sentinel

/-- `ngx_sentinel_metric_e` -/
inductive NgxSentinelMetric where
  | requests
  | verdictAllow | verdictChallenge | verdictTarpit | verdictBlock
  | sigErrrate | sigBlocked | sigScanner | sigBot | sigHeader | sigHoneypot | sigVelocity
  | sigAsn | sigCoherence | sigCrowdsec | sigJa3 | sigJa4 | sigJa4t | sigC2ip
  | shadow
  deriving DecidableEq, Repr

/-- The place of a counter in the array. -/
def NgxSentinelMetric.idx (m : NgxSentinelMetric) : Nat := m.ctorIdx

/-- The number of a verdict in its enumeration. -/
def Verdict.code (v : Verdict) : Nat := v.ctorIdx

section Record
variable (inputs : Inputs)

/-- The tests of `sentinel_metrics_record` in their order. -/
def sentinelSignalTests : List (Bool × NgxSentinelMetric) :=
  [(decide (0 < inputs.errrateCount), .sigErrrate),
    (inputs.errrateBlocked, .sigBlocked),
    (inputs.scannerPath, .sigScanner),
    (inputs.botUa, .sigBot),
    (inputs.headerAnomaly, .sigHeader),
    (inputs.honeypot, .sigHoneypot),
    (inputs.velocityExceeded, .sigVelocity),
    (inputs.datacenterAsn, .sigAsn),
    (inputs.c2ipFlagged, .sigC2ip),
    (inputs.ja3Flagged, .sigJa3),
    (inputs.ja4Flagged, .sigJa4),
    (inputs.ja4tFlagged, .sigJa4t),
    (inputs.uaIncoherent, .sigCoherence),
    (inputs.crowdsecHit, .sigCrowdsec)]

/-- The counters that `sentinel_metrics_record` adds one to, in its order; none
where there is no array. -/
def sentinelMetricsRecord (present : Bool) (ctx : SentinelCtx) (shadow : Bool) : List Nat :=
  if ¬ present then []
  else
    [NgxSentinelMetric.requests.idx, NgxSentinelMetric.verdictAllow.idx + ctx.verdict.code] ++
      ((sentinelSignalTests ctx.inputs).filter Prod.fst).map (fun t => t.2.idx) ++
      if shadow ∧ (ctx.verdict = .tarpit ∨ ctx.verdict = .block) then
        [NgxSentinelMetric.shadow.idx]
      else []

end Record
section Counted

/-- Whether a request is one that a counter counts. -/
def NgxSentinelMetric.counts (m : NgxSentinelMetric) (ctx : SentinelCtx) (shadow : Bool) : Bool :=
  match m with
  | .requests => true
  | .verdictAllow => ctx.verdict = .allow
  | .verdictChallenge => ctx.verdict = .challenge
  | .verdictTarpit => ctx.verdict = .tarpit
  | .verdictBlock => ctx.verdict = .block
  | .sigErrrate => 0 < ctx.inputs.errrateCount
  | .sigBlocked => ctx.inputs.errrateBlocked
  | .sigScanner => ctx.inputs.scannerPath
  | .sigBot => ctx.inputs.botUa
  | .sigHeader => ctx.inputs.headerAnomaly
  | .sigHoneypot => ctx.inputs.honeypot
  | .sigVelocity => ctx.inputs.velocityExceeded
  | .sigAsn => ctx.inputs.datacenterAsn
  | .sigCoherence => ctx.inputs.uaIncoherent
  | .sigCrowdsec => ctx.inputs.crowdsecHit
  | .sigJa3 => ctx.inputs.ja3Flagged
  | .sigJa4 => ctx.inputs.ja4Flagged
  | .sigJa4t => ctx.inputs.ja4tFlagged
  | .sigC2ip => ctx.inputs.c2ipFlagged
  | .shadow => shadow && (ctx.verdict = .tarpit || ctx.verdict = .block)

theorem idx_injective : Function.Injective NgxSentinelMetric.idx := by
  intro a b h
  cases a <;> cases b <;> first | rfl | exact absurd h (by decide)

def verdictMetric : Verdict → NgxSentinelMetric
  | .allow => .verdictAllow
  | .challenge => .verdictChallenge
  | .tarpit => .verdictTarpit
  | .block => .verdictBlock

theorem verdictMetric_idx (v : Verdict) :
    (verdictMetric v).idx = NgxSentinelMetric.verdictAllow.idx + v.code := by
  cases v <;> rfl

/-- The counters of a record by name. -/
def recordMetrics (ctx : SentinelCtx) (shadow : Bool) : List NgxSentinelMetric :=
  .requests :: verdictMetric ctx.verdict ::
    ((sentinelSignalTests ctx.inputs).filter Prod.fst).map Prod.snd ++
    if shadow ∧ (ctx.verdict = .tarpit ∨ ctx.verdict = .block) then [.shadow] else []

theorem record_eq (ctx : SentinelCtx) (shadow : Bool) :
    sentinelMetricsRecord true ctx shadow =
      (recordMetrics ctx shadow).map NgxSentinelMetric.idx := by
  rw [sentinelMetricsRecord, recordMetrics, List.map_append, List.map_cons, List.map_cons,
    List.map_map, apply_ite (List.map _), verdictMetric_idx]
  rfl

theorem fired_mem {l : List (Bool × NgxSentinelMetric)} {m : NgxSentinelMetric} :
    m ∈ (l.filter Prod.fst).map Prod.snd ↔ (true, m) ∈ l := by
  simp

theorem recordMetrics_nodup (ctx : SentinelCtx) (shadow : Bool) :
    (recordMetrics ctx shadow).Nodup := by
  have hall : ∀ v : Verdict, (NgxSentinelMetric.requests :: verdictMetric v ::
      (sentinelSignalTests noInputs).map Prod.snd ++ [NgxSentinelMetric.shadow]).Nodup := by
    intro v
    cases v <;> decide
  refine List.Nodup.sublist ?_ (hall ctx.verdict)
  apply List.Sublist.append
  · exact .cons_cons _ (.cons_cons _ (List.filter_sublist.map _))
  · split
    · exact .refl _
    · exact List.nil_sublist _

theorem mem_recordMetrics (ctx : SentinelCtx) (shadow : Bool) (m : NgxSentinelMetric) :
    m ∈ recordMetrics ctx shadow ↔ m.counts ctx shadow = true := by
  have hmem : m ∈ recordMetrics ctx shadow ↔ m = .requests ∨ m = verdictMetric ctx.verdict ∨
      (true, m) ∈ sentinelSignalTests ctx.inputs ∨
      m = .shadow ∧ (shadow = true ∧ (ctx.verdict = .tarpit ∨ ctx.verdict = .block)) := by
    rw [recordMetrics, List.cons_append, List.cons_append, List.mem_cons, List.mem_cons,
      List.mem_append, fired_mem]
    split <;> simp [*]
  rw [hmem]
  cases hv : ctx.verdict <;> cases m <;>
    simp [sentinelSignalTests, NgxSentinelMetric.counts, verdictMetric, hv]

/-- A record adds one to the counters that count the request. -/
theorem record_count (present : Bool) (ctx : SentinelCtx) (shadow : Bool) (m : NgxSentinelMetric) :
    (sentinelMetricsRecord present ctx shadow).count m.idx =
      if present = true ∧ m.counts ctx shadow = true then 1 else 0 := by
  cases present with
  | false => simp [sentinelMetricsRecord]
  | true =>
      rw [record_eq, List.count_map_of_injective _ _ idx_injective,
        (recordMetrics_nodup ctx shadow).count]
      simp [mem_recordMetrics]

end Counted

def sentinelVerdictLabels : List String := ["allow", "challenge", "tarpit", "block"]

def sentinelSignalLabels : List (NgxSentinelMetric × String) :=
  [(.sigErrrate, "errrate"), (.sigBlocked, "blocked"), (.sigScanner, "scanner"), (.sigBot, "bot"),
    (.sigHeader, "header"), (.sigHoneypot, "honeypot"), (.sigVelocity, "velocity"),
    (.sigAsn, "asn"), (.sigCoherence, "coherence"), (.sigCrowdsec, "crowdsec"), (.sigJa3, "ja3"),
    (.sigJa4, "ja4"), (.sigJa4t, "ja4t"), (.sigC2ip, "c2ip")]

/-- `SENTINEL_STATUS_BUFSZ` -/
def sentinelStatusBufsz : Nat := 4096

/-- `ngx_slprintf` of a text into what is left of the buffer. -/
def ngxSlprintf (size : Nat) (buf text : Bytes) : Bytes := buf ++ text.take (size - buf.length)

section Page
variable (get : Nat → Nat) (active : Nat)

/-- A line `name{key="label"} value` of a family. -/
def familyLine (name key label : String) (value : Nat) : Bytes :=
  str name ++ str "\x7b" ++ str key ++ str "=\"" ++ str label ++ str "\"\x7d " ++
    ngxPrint value ++ str "\n"

/-- What the calls of `ngx_slprintf` print, where `get` is what is read of the
counters and `active` the sum of the tarpit's slots. -/
def statusPieces : List Bytes :=
  [str "# HELP sentinel_requests_total Requests evaluated by sentinel.\n" ++
      str "# TYPE sentinel_requests_total counter\n" ++
      str "sentinel_requests_total " ++ ngxPrint (get NgxSentinelMetric.requests.idx) ++ str "\n",
    str "# HELP sentinel_verdict_total Verdicts by band.\n" ++
      str "# TYPE sentinel_verdict_total counter\n"] ++
  sentinelVerdictLabels.mapIdx (fun i label =>
    familyLine "sentinel_verdict_total" "v" label
      (get (NgxSentinelMetric.verdictAllow.idx + i))) ++
  [str "# HELP sentinel_signal_total Signal hits by source.\n" ++
      str "# TYPE sentinel_signal_total counter\n"] ++
  sentinelSignalLabels.map (fun s =>
    familyLine "sentinel_signal_total" "s" s.2 (get s.1.idx)) ++
  [str "# HELP sentinel_shadow_total Would-block decisions suppressed by " ++
      str "shadow mode.\n" ++
      str "# TYPE sentinel_shadow_total counter\n" ++
      str "sentinel_shadow_total " ++ ngxPrint (get NgxSentinelMetric.shadow.idx) ++ str "\n",
    str "# HELP sentinel_tarpit_active Connections currently held in a " ++
      str "tarpit.\n" ++
      str "# TYPE sentinel_tarpit_active gauge\n" ++
      str "sentinel_tarpit_active " ++ ngxPrint active ++ str "\n"]

/-- The text from `buf` to `p`. -/
def statusText : Bytes := (statusPieces get active).foldl (ngxSlprintf sentinelStatusBufsz) []

end Page
section Handler

/-- What the handler meets: whether the method is `GET` or `HEAD`, what the calls
of nginx return, allocations. -/
structure StatusIo where
  getOrHead : Bool
  discardBody : Int
  pnalloc : Bool
  sendHeader : Int
  headerOnly : Bool
  calloc : Bool
  outputFilter : Int

/-- What the handler sets in `headers_out`. -/
structure StatusHeader where
  status : Nat
  contentLength : Nat
  contentType : Bytes
  deriving DecidableEq, Repr

/-- The return code, the header if one is set, and the body given to the output filter. -/
structure StatusReply where
  rc : Int
  header : Option StatusHeader
  body : Option Bytes
  deriving DecidableEq, Repr

/-- `NGX_HTTP_OK` -/
def ngxHttpOk : Nat := 200

/-- `NGX_HTTP_NOT_ALLOWED` -/
def ngxHttpNotAllowed : Int := 405

/-- `NGX_HTTP_INTERNAL_SERVER_ERROR` -/
def ngxHttpInternalServerError : Int := 500

/-- The returns of the handler before it looks at a counter. -/
def statusRefusal (io : StatusIo) : Option Int :=
  if ¬ io.getOrHead then some ngxHttpNotAllowed
  else if io.discardBody ≠ NgxRc.ok.code then some io.discardBody
  else if ¬ io.pnalloc then some ngxHttpInternalServerError
  else none

/-- The handler after it has written the text. -/
def statusAnswer (io : StatusIo) (text : Bytes) : StatusReply :=
  let header := some ⟨ngxHttpOk, text.length, str "text/plain; version=0.0.4"⟩
  if io.sendHeader = NgxRc.error.code ∨ io.sendHeader > NgxRc.ok.code ∨ io.headerOnly then
    ⟨io.sendHeader, header, none⟩
  else if ¬ io.calloc then ⟨ngxHttpInternalServerError, header, none⟩
  else ⟨io.outputFilter, header, some text⟩

end Handler
end Sentinel
