import Sentinel.CsSink
import Sentinel.Lib.Json

/-!
The lines of the decisions file read back as JSON. The scenario goes into its line
as it was configured, so the line of a decision reads back when the scenario has
no byte that JSON wants escaped, and when the line fits its buffer.
-/

namespace Sentinel

section Lines

/-- A byte of ASCII that JSON takes as it is. -/
def Printable (c : UInt8) : Prop := Json.Plain c ∧ c < 0x80

instance (c : UInt8) : Decidable (Printable c) := inferInstanceAs (Decidable (_ ∧ _))

/-- What an `addr_text` is made of, and more: hexadecimal digits, colons and dots
are printable. -/
def SinkAddr (ip : Bytes) : Prop :=
  0 < ip.length ∧ ip.length < ngxSockaddrStrlen ∧ ∀ c ∈ ip, Printable c

instance (ip : Bytes) : Decidable (SinkAddr ip) := inferInstanceAs (Decidable (_ ∧ _))

/-- What the file holds of the decisions `ds`. -/
def SinkCtx.share (sc : SinkCtx) (now : Int) (ds : List SinkDecision) : Bytes :=
  (sentinelCssinkRewrite { sc with set := ds } now true).file

/-- The decision `d` has one line in the file, and the line reads back. -/
def LineRoundTrips (scenario : Bytes) (sc : SinkCtx) (now : Int) (pre : List SinkDecision)
    (d : SinkDecision) (post : List SinkDecision) : Prop :=
  ∃ line : Bytes, ch '\n' ∉ line ∧
    (sentinelCssinkRewrite sc now true).file =
      sc.share now pre ++ (line ++ [ch '\n']) ++ sc.share now post ∧
    ∃ o, Json.decode line = some o ∧
      o.get? (str "value") = some (.str d.ip) ∧
      o.get? (str "duration") = some (.str (ngxPrint (d.expiry - now).toNat ++ str "s")) ∧
      o.get? (str "scenario") = some (.str scenario)

/-- The tokens of a line before its scenario. -/
def headTokens (ip : Bytes) (duration : Int) : List Json.Token :=
  [.lbrace, .str (str "value"), .colon, .str ip, .comma, .str (str "scope"), .colon,
    .str (str "Ip"), .comma, .str (str "duration"), .colon,
    .str (ngxPrint duration.toNat ++ str "s"), .comma, .str (str "scenario"), .colon]

/-- The tokens of a line after its scenario. -/
def footTokens : List Json.Token :=
  [.comma, .str (str "origin"), .colon, .str (str "sentinel"), .rbrace]

/-- A line without its end. -/
def lineBody (ip scenario : Bytes) (duration : Int) : Bytes :=
  Json.write (headTokens ip duration) ++ [Json.quote] ++ scenario ++
    Json.quote :: Json.write footTokens

theorem decisionLine_eq (ip scenario : Bytes) (duration : Int) :
    decisionLine ip scenario duration = lineBody ip scenario duration ++ [ch '\n'] := by
  have hip : str "\x7b\"value\":\"" =
      Json.write [.lbrace, .str (str "value"), .colon] ++ [Json.quote] := by decide +kernel
  have hduration : str "\",\"scope\":\"Ip\",\"duration\":\"" =
      Json.quote :: Json.write [.comma, .str (str "scope"), .colon, .str (str "Ip"), .comma,
        .str (str "duration"), .colon] ++ [Json.quote] := by decide +kernel
  have hscenario : str "s\",\"scenario\":\"" =
      str "s" ++ Json.quote :: Json.write [.comma, .str (str "scenario"), .colon] ++
        [Json.quote] := by decide +kernel
  have hfoot : str "\",\"origin\":\"sentinel\"\x7d\n" =
      Json.quote :: Json.write footTokens ++ [ch '\n'] := by decide +kernel
  rw [decisionLine, hip, hduration, hscenario, hfoot]
  simp [lineBody, headTokens, Json.write, Json.Token.text]

theorem decisionLine_length (ip scenario : Bytes) (duration : Int) :
    (decisionLine ip scenario duration).length =
      ip.length + (ngxPrint duration.toNat).length + scenario.length + 75 := by
  simp only [decisionLine, List.length_append]
  have h1 : (str "\x7b\"value\":\"").length = 10 := by decide +kernel
  have h2 : (str "\",\"scope\":\"Ip\",\"duration\":\"").length = 27 := by decide +kernel
  have h3 : (str "s\",\"scenario\":\"").length = 15 := by decide +kernel
  have h4 : (str "\",\"origin\":\"sentinel\"\x7d\n").length = 23 := by decide +kernel
  omega

end Lines

section Shares
variable {sc : SinkCtx} {now : Int}

theorem share_append (sc : SinkCtx) (now : Int) (ds es : List SinkDecision) :
    sc.share now (ds ++ es) = sc.share now ds ++ sc.share now es := by
  simp only [SinkCtx.share, sentinelCssinkRewrite, if_true, List.flatMap_append]

theorem share_singleton {d : SinkDecision} (hip : SinkAddr d.ip) (hempty : d.expiry ≠ 0)
    (hlive : now < d.expiry) :
    sc.share now [d] =
      if (decisionLine d.ip sc.scenario (d.expiry - now)).length < ngxSentinelCssinkLine then
        decisionLine d.ip sc.scenario (d.expiry - now)
      else [] := by
  obtain ⟨hpos, hmax, -⟩ := hip
  have hargs : ¬ (d.ip.length = 0 ∨ d.ip.length ≥ ngxSockaddrStrlen ∨ d.expiry - now ≤ 0) := by
    omega
  have hon : ¬ (d.expiry = 0 ∨ d.expiry ≤ now) := by omega
  simp only [SinkCtx.share, sentinelCssinkRewrite, if_true, List.flatMap_cons, List.flatMap_nil,
    List.append_nil]
  rw [if_neg hon, sentinelCssinkFormatDecision, if_neg hargs]
  simp only [ge_iff_le, ← Nat.not_lt, ite_not]

/-- The decision has one line exactly when its text is one line and fits. -/
theorem one_line_iff {pre post : List SinkDecision} {d : SinkDecision} {line : Bytes}
    (hset : sc.set = pre ++ d :: post) (hip : SinkAddr d.ip) (hempty : d.expiry ≠ 0)
    (hlive : now < d.expiry) :
    (sentinelCssinkRewrite sc now true).file =
        sc.share now pre ++ (line ++ [ch '\n']) ++ sc.share now post ↔
      (decisionLine d.ip sc.scenario (d.expiry - now)).length < ngxSentinelCssinkLine ∧
        line = lineBody d.ip sc.scenario (d.expiry - now) := by
  have hfile : (sentinelCssinkRewrite sc now true).file =
      sc.share now pre ++ sc.share now [d] ++ sc.share now post := by
    rw [← share_append, ← share_append, List.append_assoc, List.singleton_append, ← hset]
    rfl
  rw [hfile, List.append_left_inj, List.append_right_inj, share_singleton hip hempty hlive]
  split
  next hfit =>
    rw [decisionLine_eq, List.append_left_inj, eq_comm]
    exact ⟨fun h => ⟨by rwa [decisionLine_eq] at hfit, h⟩, fun h => h.2⟩
  next hlong =>
    constructor
    · intro h
      simp at h
    · intro h
      exact absurd h.1 hlong

end Shares

section Reading
variable {ip scenario : Bytes} {duration : Int}

theorem duration_printable (duration : Int) :
    ∀ c ∈ ngxPrint duration.toNat ++ str "s", Printable c := by
  intro c hc
  have hunit : ∀ c ∈ str "s", Printable c := forall_mem_of_all (by decide +kernel)
  have hdigits : ∀ d < 10, Printable (ch d.digitChar) := by decide +kernel
  cases List.mem_append.mp hc with
  | inl hc =>
      obtain ⟨d, hd, rfl⟩ := Numeral.write_digits _ c hc
      exact hdigits d hd
  | inr hc => exact hunit c hc

theorem headTokens_printable (hip : SinkAddr ip) :
    ∀ t ∈ headTokens ip duration, t.All Printable := by
  have hfixed : ∀ name ∈ [str "value", str "scope", str "Ip", str "duration", str "scenario"],
      (name.all fun c => Printable c) = true := by decide +kernel
  simp only [List.forall_mem_cons] at hfixed
  obtain ⟨hvalue, hscope, hkind, hduration, hscenario, -⟩ := hfixed
  simp only [headTokens, List.forall_mem_cons, Json.Token.All, true_and]
  exact ⟨forall_mem_of_all hvalue, hip.2.2, forall_mem_of_all hscope, forall_mem_of_all hkind,
    forall_mem_of_all hduration, duration_printable duration, forall_mem_of_all hscenario, by simp⟩

theorem footTokens_printable : ∀ t ∈ footTokens, t.All Printable := by
  have hfixed : ∀ name ∈ [str "origin", str "sentinel"],
      (name.all fun c => Printable c) = true := by decide +kernel
  simp only [List.forall_mem_cons] at hfixed
  simp only [footTokens, List.forall_mem_cons, Json.Token.All, true_and]
  exact ⟨forall_mem_of_all hfixed.1, forall_mem_of_all hfixed.2.1, by simp⟩

theorem headTokens_plain (hip : SinkAddr ip) : ∀ t ∈ headTokens ip duration, t.All Json.Plain :=
  fun t ht => (headTokens_printable hip t ht).mono fun _ h => h.1

theorem footTokens_plain : ∀ t ∈ footTokens, t.All Json.Plain :=
  fun t ht => (footTokens_printable t ht).mono fun _ h => h.1

theorem head_ascii (hip : SinkAddr ip) :
    ∀ c ∈ Json.write (headTokens ip duration) ++ [Json.quote], c < 0x80 := by
  rw [List.forall_mem_append]
  have hquote : Json.quote < 0x80 := by decide
  refine ⟨Json.write_forall (forall_mem_of_all (by decide +kernel)) fun t ht => ?_, ?_⟩
  · exact (headTokens_printable hip t ht).mono fun _ h => h.2
  · exact List.forall_mem_singleton.mpr hquote

theorem foot_ascii : ∀ c ∈ Json.quote :: Json.write footTokens, c < 0x80 := by
  rw [List.forall_mem_cons]
  refine ⟨by decide, Json.write_forall (forall_mem_of_all (by decide +kernel)) fun t ht => ?_⟩
  exact (footTokens_printable t ht).mono fun _ h => h.2

/-- How a line is read: its head, its scenario, and its foot. -/
theorem lex_line (hip : SinkAddr ip) {ts : List Json.Token}
    (h : Json.lex (lineBody ip scenario duration) = some ts) :
    ∃ s acc, Json.run ⟨headTokens ip duration, .str []⟩ scenario = some s ∧ s.mode = .str acc ∧
      ts = s.tokens ++ .str acc :: footTokens := by
  have hhead : Json.run ⟨[], .between⟩ (Json.write (headTokens ip duration) ++ [Json.quote]) =
      some ⟨headTokens ip duration, .str []⟩ := by
    rw [Json.run_append, Json.run_write (headTokens_plain hip)]
    rfl
  obtain ⟨s', hrun, hfinish⟩ := Option.bind_eq_some_iff.mp h
  rw [lineBody, Json.run_append, Json.run_append, hhead, Option.bind_some] at hrun
  obtain ⟨s, hs, hfoot⟩ := Option.bind_eq_some_iff.mp hrun
  obtain ⟨acc, hacc⟩ := Json.within_of_lex (by decide +kernel) (by decide +kernel) hfoot hfinish
  refine ⟨s, acc, hs, hacc, ?_⟩
  obtain ⟨tokens, mode⟩ := s
  obtain rfl : mode = .str acc := hacc
  rw [← List.singleton_append, Json.run_append, Json.run_close, Option.bind_some,
    Json.run_write footTokens_plain] at hfoot
  cases hfoot
  cases hfinish
  simp

/-- A line whose scenario is plain is the text of its tokens. -/
theorem lineBody_eq (ip scenario : Bytes) (duration : Int) :
    lineBody ip scenario duration =
      Json.write (headTokens ip duration ++ [.str scenario] ++ footTokens) := by
  simp [lineBody, Json.write, Json.Token.text]

theorem lineTokens_plain (hip : SinkAddr ip) (hplain : ∀ c ∈ scenario, Json.Plain c) :
    ∀ t ∈ headTokens ip duration ++ [.str scenario] ++ footTokens, t.All Json.Plain := by
  simp only [List.forall_mem_append, List.forall_mem_singleton]
  exact ⟨⟨headTokens_plain hip, hplain⟩, footTokens_plain⟩

theorem lex_plain (hip : SinkAddr ip) (hplain : ∀ c ∈ scenario, Json.Plain c) :
    Json.lex (lineBody ip scenario duration) =
      some (headTokens ip duration ++ [.str scenario] ++ footTokens) := by
  rw [Json.lex, lineBody_eq, Json.run_write (lineTokens_plain hip hplain)]
  rfl

theorem newline_not_mem (hip : SinkAddr ip) (hplain : ∀ c ∈ scenario, Json.Plain c) :
    ch '\n' ∉ lineBody ip scenario duration := by
  have hne : ∀ c, Json.Plain c → c ≠ ch '\n' := by
    intro c hc heq
    rw [heq] at hc
    exact absurd hc (by decide)
  have hall : ∀ c ∈ Json.write (headTokens ip duration ++ [.str scenario] ++ footTokens),
      c ≠ ch '\n' :=
    Json.write_forall (p := fun c => c ≠ ch '\n') (forall_mem_of_all (by decide +kernel))
      fun t ht => (lineTokens_plain hip hplain t ht).mono hne
  rw [lineBody_eq]
  exact fun hmem => hall _ hmem rfl

theorem utf8_line (hip : SinkAddr ip) :
    Json.Utf8 (lineBody ip scenario duration) ↔ Json.Utf8 scenario := by
  constructor
  · intro h
    rw [lineBody, List.append_assoc] at h
    exact (h.after (head_ascii hip)).before (by decide)
  · intro h
    exact ((Json.utf8_of_ascii (head_ascii hip)).append h).append (Json.utf8_of_ascii foot_ascii)

/-- A line whose scenario needs no escape reads back as it was written. -/
theorem decode_line (hip : SinkAddr ip) (hplain : ∀ c ∈ scenario, Json.Plain c)
    (hutf8 : Json.Utf8 scenario) :
    Json.decode (lineBody ip scenario duration) = some (.obj
      [(str "value", .str ip), (str "scope", .str (str "Ip")),
        (str "duration", .str (ngxPrint duration.toNat ++ str "s")),
        (str "scenario", .str scenario), (str "origin", .str (str "sentinel"))]) := by
  rw [Json.decode, if_pos ((utf8_line hip).mpr hutf8), lex_plain hip hplain]
  rfl

/-- A string that a line reads back as, when the scenario was not plain, is plain
or shorter than the scenario. -/
theorem short_of_lex (hip : SinkAddr ip) (hspecial : ¬ ∀ c ∈ scenario, Json.Plain c)
    {ts : List Json.Token} (h : Json.lex (lineBody ip scenario duration) = some ts) {v : Bytes}
    (hv : .str v ∈ ts) : (∀ c ∈ v, Json.Plain c) ∨ v.length < scenario.length := by
  obtain ⟨s, acc, hs, hacc, rfl⟩ := lex_line hip h
  cases Json.run_str hs with
  | inl hplain => exact absurd hplain.1 hspecial
  | inr hunder =>
      have hsize := hunder.mode
      rw [hacc] at hsize
      cases List.mem_append.mp hv with
      | inl hv => exact (hunder.tokens v hv).imp_left (headTokens_plain hip _)
      | inr hv =>
          cases hv with
          | head => exact .inr hsize
          | tail _ hv => exact .inl (footTokens_plain _ hv)

end Reading

section RoundTrip
variable {sc : SinkCtx} {now : Int} {scenario : Bytes} {d : SinkDecision}

/-- The scenario is text that JSON takes as it is. -/
def Verbatim (scenario : Bytes) : Prop := (∀ c ∈ scenario, Json.Plain c) ∧ Json.Utf8 scenario

instance (scenario : Bytes) : Decidable (Verbatim scenario) := inferInstanceAs (Decidable (_ ∧ _))

theorem cString_of_plain (h : ∀ c ∈ scenario, Json.Plain c) : cString scenario = scenario :=
  cString_self fun hzero => absurd (h 0 hzero) (by decide)

theorem cString_length_le (s : Bytes) : (cString s).length ≤ s.length :=
  (List.takeWhile_prefix _).length_le

/-- A scenario that its line reads back as is text that JSON takes as it is. -/
theorem verbatim_of_decode {ip : Bytes} (hip : SinkAddr ip) {duration : Int} {o : Json.Value}
    (h : Json.decode (lineBody ip (cString scenario) duration) = some o)
    (hget : o.get? (str "scenario") = some (.str scenario)) : Verbatim scenario := by
  obtain ⟨ts, hlex, hmem⟩ := Json.decode_mem h hget
  have hutf8 : Json.Utf8 (cString scenario) := (utf8_line hip).mp (Json.utf8_of_decode h)
  by_cases hplain : ∀ c ∈ scenario, Json.Plain c
  · rw [cString_of_plain hplain] at hutf8
    exact ⟨hplain, hutf8⟩
  · exfalso
    by_cases hprinted : ∀ c ∈ cString scenario, Json.Plain c
    · -- a NUL ended the scenario early, and no string of the line has one
      rw [lex_plain hip hprinted] at hlex
      cases hlex
      simp only [List.mem_append, List.mem_singleton, Json.Token.str.injEq] at hmem
      cases hmem with
      | inl hmem =>
          cases hmem with
          | inl hmem => exact hplain (headTokens_plain hip _ hmem)
          | inr hmem => exact hplain (hmem ▸ hprinted)
      | inr hmem => exact hplain (footTokens_plain _ hmem)
    · cases short_of_lex hip hprinted hlex hmem with
      | inl hplain' => exact hplain hplain'
      | inr hshort => exact absurd (cString_length_le scenario) (Nat.not_le.mpr hshort)

theorem line_fits_iff (ip s : Bytes) (duration : Int) :
    (decisionLine ip s duration).length < ngxSentinelCssinkLine ↔
      ip.length + (ngxPrint duration.toNat).length + s.length < 198 := by
  rw [decisionLine_length, ngxSentinelCssinkLine, ngxSockaddrStrlen]
  omega

theorem verbatim_of_round_trip {pre post : List SinkDecision}
    (hprinted : sc.scenario = cString scenario) (hset : sc.set = pre ++ d :: post)
    (hip : SinkAddr d.ip) (hempty : d.expiry ≠ 0) (hlive : now < d.expiry)
    (h : LineRoundTrips scenario sc now pre d post) :
    Verbatim scenario ∧
      d.ip.length + (ngxPrint (d.expiry - now).toNat).length + scenario.length < 198 := by
  obtain ⟨line, -, hfile, o, ho, -, -, hget⟩ := h
  rw [one_line_iff hset hip hempty hlive, hprinted] at hfile
  obtain ⟨hfit, rfl⟩ := hfile
  have hverbatim := verbatim_of_decode hip ho hget
  rw [cString_of_plain hverbatim.1] at hfit
  exact ⟨hverbatim, (line_fits_iff _ _ _).mp hfit⟩

/-- A decision has one line of its own in the file, which reads back as its
address, its duration and the scenario that was configured, exactly when JSON
takes the scenario as it is and the line fits its buffer. -/
theorem sink_line_round_trip_iff {pre post : List SinkDecision}
    (hprinted : sc.scenario = cString scenario) (hset : sc.set = pre ++ d :: post)
    (hip : SinkAddr d.ip) (hempty : d.expiry ≠ 0) (hlive : now < d.expiry) :
    LineRoundTrips scenario sc now pre d post ↔ Verbatim scenario ∧
      d.ip.length + (ngxPrint (d.expiry - now).toNat).length + scenario.length < 198 := by
  refine ⟨verbatim_of_round_trip hprinted hset hip hempty hlive, fun h => ?_⟩
  obtain ⟨hverbatim, hfit⟩ := h
  have hsc : sc.scenario = scenario := hprinted.trans (cString_of_plain hverbatim.1)
  refine ⟨lineBody d.ip scenario (d.expiry - now), newline_not_mem hip hverbatim.1, ?_, _,
    decode_line hip hverbatim.1 hverbatim.2, rfl, rfl, rfl⟩
  rw [one_line_iff hset hip hempty hlive, hsc]
  exact ⟨(line_fits_iff _ _ _).mpr hfit, rfl⟩

/-- `sentinel_cs_sink_scenario 'say "hi"'` -/
def quotedScenario : Bytes := str "say \"hi\""

/-- One decision in the array, that of a client with an hour to go. -/
def oneDecision (scenario : Bytes) : SinkCtx := ⟨[⟨str "1.2.3.4", 3700⟩], 1, scenario, []⟩

/-- The quotes of the scenario end its string, and the line is no JSON. -/
theorem quoted_scenario_lost :
    ¬ LineRoundTrips quotedScenario (oneDecision quotedScenario) 100 [] ⟨str "1.2.3.4", 3700⟩
      [] := by
  intro h
  have hverbatim := (verbatim_of_round_trip (by decide +kernel) rfl (by decide +kernel) (by decide)
    (by decide) h).1
  exact absurd hverbatim.1 (by decide +kernel)

/-- The default scenario. -/
theorem default_scenario_round_trip :
    LineRoundTrips (str "sentinel/http-abuse") (oneDecision (str "sentinel/http-abuse")) 100 []
      ⟨str "1.2.3.4", 3700⟩ [] :=
  (sink_line_round_trip_iff (by decide +kernel) rfl (by decide +kernel) (by decide)
    (by decide)).mpr ⟨⟨by decide +kernel, Json.utf8_of_ascii (by decide +kernel)⟩,
      by decide +kernel⟩

end RoundTrip
end Sentinel
