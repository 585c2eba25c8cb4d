import Sentinel.Metrics

/-!
The page of the status handler as lines, notes and samples: the text of the code
is these lines written out, it is never cut by the buffer, and a collector reads
every number back under its label.
-/

namespace Sentinel
open Exposition

def statusSigns : Signs UInt8 := ⟨ch '\n', ch '#', ch ' ', ch, fun c => c.toNat - 48⟩

theorem statusSigns_apart : statusSigns.Apart where
  code := digitCode
  digit := by decide
  blank := by decide
  hash := by decide

/-- The key of a sample of a family. -/
def familyKey (name key label : String) : Bytes :=
  str name ++ str "\x7b" ++ str key ++ str "=\"" ++ str label ++ str "\"\x7d"

/-- The two notes that a family starts with. -/
def familyNotes (name help kind : String) : List (Line UInt8) :=
  [.note (str (" HELP " ++ name ++ " " ++ help)), .note (str (" TYPE " ++ name ++ " " ++ kind))]

section Lines
variable (get : Nat → Nat) (active : Nat)

def statusVerdicts : List (Line UInt8) :=
  sentinelVerdictLabels.mapIdx fun i label =>
    .sample (familyKey "sentinel_verdict_total" "v" label)
      (get (NgxSentinelMetric.verdictAllow.idx + i))

def statusSignals : List (Line UInt8) :=
  sentinelSignalLabels.map fun s =>
    .sample (familyKey "sentinel_signal_total" "s" s.2) (get s.1.idx)

def statusLines : List (Line UInt8) :=
  familyNotes "sentinel_requests_total" "Requests evaluated by sentinel." "counter" ++
    [.sample (str "sentinel_requests_total") (get NgxSentinelMetric.requests.idx)] ++
    familyNotes "sentinel_verdict_total" "Verdicts by band." "counter" ++ statusVerdicts get ++
    familyNotes "sentinel_signal_total" "Signal hits by source." "counter" ++ statusSignals get ++
    familyNotes "sentinel_shadow_total" "Would-block decisions suppressed by shadow mode."
      "counter" ++
    [.sample (str "sentinel_shadow_total") (get NgxSentinelMetric.shadow.idx)] ++
    familyNotes "sentinel_tarpit_active" "Connections currently held in a tarpit." "gauge" ++
    [.sample (str "sentinel_tarpit_active") active]

end Lines
section Text
variable {get : Nat → Nat} {active : Nat}

theorem familyLine_eq (name key label : String) (value : Nat) :
    familyLine name key label value =
      (Line.sample (familyKey name key label) value).write statusSigns ++ [ch '\n'] := by
  simp [familyLine, Line.write, familyKey, str, statusSigns, ngxPrint]

theorem sampleLine_eq (name : String) (value : Nat) :
    str (name ++ " ") ++ ngxPrint value ++ str "\n" =
      write statusSigns [.sample (str name) value] := by
  simp [write, Line.write, str, statusSigns, ngxPrint]

theorem familyNotes_eq (name help kind : String) :
    str ("# HELP " ++ name ++ " " ++ help ++ "\n") ++
        str ("# TYPE " ++ name ++ " " ++ kind ++ "\n") =
      write statusSigns (familyNotes name help kind) := by
  simp [write, familyNotes, Line.write, statusSigns, str]

theorem str_append (a b : String) : str (a ++ b) = str a ++ str b := by simp [str]

theorem statusVerdicts_eq (get : Nat → Nat) :
    write statusSigns (statusVerdicts get) =
      (sentinelVerdictLabels.mapIdx fun i label =>
        familyLine "sentinel_verdict_total" "v" label
          (get (NgxSentinelMetric.verdictAllow.idx + i))).flatten := by
  simp only [statusVerdicts, List.mapIdx_eq_zipIdx_map, write_map, familyLine_eq]
  rfl

theorem statusSignals_eq (get : Nat → Nat) :
    write statusSigns (statusSignals get) =
      (sentinelSignalLabels.map fun s =>
        familyLine "sentinel_signal_total" "s" s.2 (get s.1.idx)).flatten := by
  simp only [statusSignals, write_map, familyLine_eq]
  rfl

/-- What the calls print is the lines. -/
theorem statusPieces_flatten (get : Nat → Nat) (active : Nat) :
    (statusPieces get active).flatten = write statusSigns (statusLines get active) := by
  have hrequests := familyNotes_eq "sentinel_requests_total" "Requests evaluated by sentinel."
    "counter"
  have hverdicts := familyNotes_eq "sentinel_verdict_total" "Verdicts by band." "counter"
  have hsignals := familyNotes_eq "sentinel_signal_total" "Signal hits by source." "counter"
  have hshadow := familyNotes_eq "sentinel_shadow_total"
    "Would-block decisions suppressed by shadow mode." "counter"
  have htarpit := familyNotes_eq "sentinel_tarpit_active"
    "Connections currently held in a tarpit." "gauge"
  have hbroken := str_append
    "# HELP sentinel_shadow_total Would-block decisions suppressed by " "shadow mode.\n"
  have hbroken' := str_append
    "# HELP sentinel_tarpit_active Connections currently held in a " "tarpit.\n"
  simp only [String.reduceAppend] at hrequests hverdicts hsignals hshadow htarpit hbroken hbroken'
  simp only [statusLines, write_append, ← hrequests, ← hverdicts, ← hsignals, ← hshadow, ← htarpit,
    ← sampleLine_eq, statusVerdicts_eq, statusSignals_eq, hbroken, hbroken', String.reduceAppend]
  simp only [statusPieces, List.flatten_append, List.flatten_cons, List.flatten_nil,
    List.append_nil, List.append_assoc]

theorem ngxSlprintf_foldl {size : Nat} {pieces : List Bytes} {buf : Bytes}
    (h : (buf ++ pieces.flatten).length ≤ size) :
    pieces.foldl (ngxSlprintf size) buf = buf ++ pieces.flatten := by
  induction pieces generalizing buf with
  | nil => simp
  | cons piece pieces ih =>
      have hroom : ngxSlprintf size buf piece = buf ++ piece := by
        rw [ngxSlprintf, List.take_of_length_le]
        simp only [List.flatten_cons, List.length_append] at h
        omega
      rw [List.foldl_cons, hroom, ih]
      · simp
      · simpa using h

/-- A number of 64 bits has at most 20 digits. -/
theorem ngxPrint_length_le {n : Nat} (hn : n < 2 ^ 64) : (ngxPrint n).length ≤ 20 := by
  rw [ngxPrint, Numeral.write, List.length_map, Nat.length_toDigits_le_iff (by decide) (by decide)]
  omega

theorem statusLines_bare (get : Nat → Nat) (active : Nat) :
    (statusLines get active).map Line.bare = statusLines (fun _ => 0) 0 := by
  rfl

theorem statusLines_proper (get : Nat → Nat) (active : Nat) :
    ∀ l ∈ statusLines get active, l.Proper statusSigns := by
  have hbare : ∀ l ∈ statusLines (fun _ => 0) 0, l.Proper statusSigns := by decide +kernel
  intro l hl
  apply proper_bare.mp
  apply hbare
  rw [← statusLines_bare get active]
  exact List.mem_map_of_mem hl

theorem statusLines_value (hget : ∀ i, get i < 2 ^ 64) (hactive : active < 2 ^ 64) :
    ∀ l ∈ statusLines get active, l.value < 2 ^ 64 := by
  have hzero : 0 < 2 ^ 64 := by decide
  simp [-Nat.reducePow, statusLines, familyNotes, statusVerdicts, statusSignals,
    sentinelVerdictLabels, sentinelSignalLabels, Line.value, hget, hactive, hzero]

/-- The buffer holds the whole text. -/
theorem statusText_eq (hget : ∀ i, get i < 2 ^ 64) (hactive : active < 2 ^ 64) :
    statusText get active = write statusSigns (statusLines get active) := by
  have hbare : (write statusSigns (statusLines (fun _ => 0) 0)).length +
      20 * (statusLines (fun _ => 0) 0).length ≤ sentinelStatusBufsz := by decide +kernel
  have hlength := write_length_le (S := statusSigns) fun l hl =>
    ngxPrint_length_le (statusLines_value hget hactive l hl)
  rw [← List.length_map Line.bare, statusLines_bare] at hlength
  rw [statusText, ngxSlprintf_foldl]
  · rw [List.nil_append, statusPieces_flatten]
  · rw [List.nil_append, statusPieces_flatten]
    omega

/-- The key under which a collector finds a counter. -/
def NgxSentinelMetric.label : NgxSentinelMetric → Bytes
  | .requests => str "sentinel_requests_total"
  | .verdictAllow => familyKey "sentinel_verdict_total" "v" "allow"
  | .verdictChallenge => familyKey "sentinel_verdict_total" "v" "challenge"
  | .verdictTarpit => familyKey "sentinel_verdict_total" "v" "tarpit"
  | .verdictBlock => familyKey "sentinel_verdict_total" "v" "block"
  | .sigErrrate => familyKey "sentinel_signal_total" "s" "errrate"
  | .sigBlocked => familyKey "sentinel_signal_total" "s" "blocked"
  | .sigScanner => familyKey "sentinel_signal_total" "s" "scanner"
  | .sigBot => familyKey "sentinel_signal_total" "s" "bot"
  | .sigHeader => familyKey "sentinel_signal_total" "s" "header"
  | .sigHoneypot => familyKey "sentinel_signal_total" "s" "honeypot"
  | .sigVelocity => familyKey "sentinel_signal_total" "s" "velocity"
  | .sigAsn => familyKey "sentinel_signal_total" "s" "asn"
  | .sigCoherence => familyKey "sentinel_signal_total" "s" "coherence"
  | .sigCrowdsec => familyKey "sentinel_signal_total" "s" "crowdsec"
  | .sigJa3 => familyKey "sentinel_signal_total" "s" "ja3"
  | .sigJa4 => familyKey "sentinel_signal_total" "s" "ja4"
  | .sigJa4t => familyKey "sentinel_signal_total" "s" "ja4t"
  | .sigC2ip => familyKey "sentinel_signal_total" "s" "c2ip"
  | .shadow => str "sentinel_shadow_total"

def tarpitActiveLabel : Bytes := str "sentinel_tarpit_active"

/-- The counters in the order of the page. -/
def statusMetrics : List NgxSentinelMetric :=
  .requests :: [.allow, .challenge, .tarpit, .block].map verdictMetric ++
    sentinelSignalLabels.map Prod.fst ++ [.shadow]

theorem mem_statusMetrics (m : NgxSentinelMetric) : m ∈ statusMetrics := by
  cases m <;> decide

/-- The numbers on the page. -/
def statusSamples (get : Nat → Nat) (active : Nat) : List (Bytes × Nat) :=
  statusMetrics.map (fun m => (m.label, get m.idx)) ++ [(tarpitActiveLabel, active)]

/-- A collector reads the numbers back. -/
theorem statusText_read (hget : ∀ i, get i < 2 ^ 64) (hactive : active < 2 ^ 64) :
    read statusSigns (statusText get active) = statusSamples get active := by
  rw [statusText_eq hget hactive, read_write statusSigns_apart (statusLines_proper get active)]
  rfl

theorem statusLabels_nodup :
    (statusMetrics.map NgxSentinelMetric.label ++ [tarpitActiveLabel]).Nodup := by decide +kernel

end Text
section Lookup
variable {κ β : Type*} [BEq κ] [LawfulBEq κ]

/-- What is filed under keys that are all different is found. -/
theorem lookup_of_nodup {l : List (κ × β)} (hl : (l.map Prod.fst).Nodup) {p : κ × β} (hp : p ∈ l) :
    l.lookup p.1 = some p.2 := by
  induction l with
  | nil => simp at hp
  | cons q l ih =>
      obtain ⟨hfirst, hrest⟩ := List.nodup_cons.mp hl
      cases List.mem_cons.mp hp with
      | inl heq =>
          subst heq
          exact List.lookup_cons_self
      | inr hmem =>
          have hne : ¬ p.1 = q.1 := by
            intro heq
            apply hfirst
            rw [← heq]
            exact List.mem_map_of_mem hmem
          have hbeq : (p.1 == q.1) = false := by simpa using hne
          rw [List.lookup_cons, hbeq]
          exact ih hrest hmem

end Lookup
section Samples
variable (get : Nat → Nat) (active : Nat)

theorem statusSamples_keys : ((statusSamples get active).map Prod.fst).Nodup := by
  have hkeys : (statusSamples get active).map Prod.fst =
      statusMetrics.map NgxSentinelMetric.label ++ [tarpitActiveLabel] := by
    simp [statusSamples]
  rw [hkeys]
  exact statusLabels_nodup

theorem statusSamples_metric (m : NgxSentinelMetric) :
    (statusSamples get active).lookup m.label = some (get m.idx) := by
  have hmem : (m.label, get m.idx) ∈ statusSamples get active := by
    apply List.mem_append_left
    exact List.mem_map_of_mem (f := fun m => (m.label, get m.idx)) (mem_statusMetrics m)
  exact lookup_of_nodup (statusSamples_keys get active) hmem

theorem statusSamples_active :
    (statusSamples get active).lookup tarpitActiveLabel = some active := by
  have hmem : (tarpitActiveLabel, active) ∈ statusSamples get active := by
    apply List.mem_append_right
    simp
  exact lookup_of_nodup (statusSamples_keys get active) hmem

end Samples
end Sentinel
