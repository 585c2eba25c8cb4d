import Sentinel.FeedReplace

/-!
One feed in two texts. A feed that is cut short is read either as nothing or as
the whole file, wherever the cut falls. A feed whose line ends become CR LF keeps
every entry and its trailer, but its first line is no longer the header.
-/

namespace Sentinel

section Truncation
variable (ngx : NgxCore)

/-- The accepted region is all that the apply pass reads. -/
theorem parse_congr {zone : Option Zone} {sh : Shctx} {data data' : Buffer}
    {defaultTtl now : Int} {slab : Nat → Bool}
    (h : feedValidate ngx data.data = feedValidate ngx data'.data) :
    sentinelFeedParse ngx zone sh data defaultTtl now slab =
      sentinelFeedParse ngx zone sh data' defaultTtl now slab := by
  cases zone with
  | none => rfl
  | some zone => rw [sentinelFeedParse, sentinelFeedParse, h]

/-- A cut that is accepted has the region of the whole file: the line its trailer
stands on is the trailer's line of the whole file, as far as the cut goes. -/
theorem validate_of_cut {whole cut : Buffer} (hcut : cut.data <+: whole.data)
    {body body' : Bytes} (hwhole : feedValidate ngx whole.data = some body)
    (hval : feedValidate ngx cut.data = some body') : body' = body := by
  obtain ⟨lines, trailer, hshape, rfl, -⟩ := (feedValidate_eq_some_iff ngx whole).mp hwhole
  obtain ⟨lines', trailer', hshape', rfl, -⟩ := (feedValidate_eq_some_iff ngx cut).mp hval
  obtain ⟨more, hmore⟩ := hcut
  obtain ⟨longer, hlonger⟩ := hshape'.append more
  rw [hmore] at hlonger
  obtain ⟨rfl, -⟩ := hlonger.unique hshape
  rfl

/-- A feed that was read before it was all written: either nothing happens, or
the table is that of the whole feed. -/
theorem feed_cut_short (zone : Option Zone) (sh : Shctx) (whole cut : Buffer)
    (defaultTtl now : Int) (slab : Nat → Bool) (hcut : cut.data <+: whole.data)
    (hok : (sentinelFeedParse ngx zone sh whole defaultTtl now slab).1.rc = .ok) :
    let r := sentinelFeedParse ngx zone sh cut defaultTtl now slab
    (r.1.rc = .declined ∧ r.2 = sh) ∨
      (r.1.rc = .ok ∧ r.2 = (sentinelFeedParse ngx zone sh whole defaultTtl now slab).2) := by
  obtain ⟨z, body, rfl, hwhole⟩ := exists_body_of_ok ngx zone sh whole defaultTtl now hok
  cases hval : feedValidate ngx cut.data with
  | none =>
      left
      simp [sentinelFeedParse, hval]
  | some body' =>
      right
      have hbody : body' = body := validate_of_cut ngx hcut hwhole hval
      have hsame : feedValidate ngx cut.data = feedValidate ngx whole.data := by
        rw [hval, hbody, hwhole]
      rw [parse_congr ngx hsame]
      exact ⟨hok, rfl⟩

/-- A feed on a table that holds a ban, cut before the last digit of its checksum
and cut before its last line end. -/
theorem banned_feed_cut_short :
    let zone : Option Zone := some ⟨60, 0, 0⟩
    let room : Nat → Bool := fun _ => true
    let held := (sentinelFeedParse Ref.ngx zone sentinelShmInitZone
      ⟨str "# sentinel-crowdsec-feed v1\n5.6.7.8 ban 100\n%%EOF 1 4a118239\n", by decide⟩
      3600 50 room).2
    let whole : Buffer :=
      ⟨str "# sentinel-crowdsec-feed v1\n1.2.3.4 ban 100\n%%EOF 1 9eb69a54\n", by decide⟩
    let early : Buffer :=
      ⟨str "# sentinel-crowdsec-feed v1\n1.2.3.4 ban 100\n%%EOF 1 9eb69a5", by decide⟩
    let late : Buffer :=
      ⟨str "# sentinel-crowdsec-feed v1\n1.2.3.4 ban 100\n%%EOF 1 9eb69a54", by decide⟩
    (held.get (sentinelFeedDigest Ref.ngx (str "5.6.7.8"))).isSome ∧
      (sentinelFeedParse Ref.ngx zone held early 3600 50 room).2 = held ∧
      (sentinelFeedParse Ref.ngx zone held late 3600 50 room).2 =
        (sentinelFeedParse Ref.ngx zone held whole 3600 50 room).2 := by
  intro zone room held whole early late
  have hok : (sentinelFeedParse Ref.ngx zone held whole 3600 50 room).1.rc = .ok := by
    decide +kernel
  have hearly : (sentinelFeedParse Ref.ngx zone held early 3600 50 room).1.rc = .declined := by
    decide +kernel
  have hlate : (sentinelFeedParse Ref.ngx zone held late 3600 50 room).1.rc = .ok := by
    decide +kernel
  refine ⟨by decide +kernel, ?_, ?_⟩
  · have hcut : early.data <+: whole.data := ⟨str "4\n", by decide +kernel⟩
    cases feed_cut_short Ref.ngx zone held whole early 3600 50 room hcut hok with
    | inl hnothing => exact hnothing.2
    | inr hloaded => exact absurd (hearly.symm.trans hloaded.1) (by decide)
  · have hcut : late.data <+: whole.data := ⟨str "\n", by decide +kernel⟩
    cases feed_cut_short Ref.ngx zone held whole late 3600 50 room hcut hok with
    | inl hnothing => exact absurd (hlate.symm.trans hnothing.1) (by decide)
    | inr hloaded => exact hloaded.2

end Truncation

section LineEnds

/-- A text with the line ends of another system. -/
def crlf (s : Bytes) : Bytes :=
  s.flatMap fun c => if c = ch '\n' then [ch '\r', ch '\n'] else [c]

/-- The same feed with CR LF line ends and a checksum of its new body; the header
line ends in `eol`. -/
structure CrlfFeed (ngx : NgxCore) (eol data data' : Bytes) : Prop where
  texts : ∃ lines cnt hex hex' rest,
    FeedShape data lines (feedMark ++ (cnt ++ ch ' ' :: hex)) ∧ ch ' ' ∉ cnt ∧
    (rest = [] ∨ rest.head? = some (ch '\n')) ∧
    data = ngxSentinelFeedHeader ++ ch '\n' ::
      (Lines.join (ch '\n') lines ++ (feedMark ++ (cnt ++ ch ' ' :: hex) ++ rest)) ∧
    data' = ngxSentinelFeedHeader ++ (eol ++
      (crlf (Lines.join (ch '\n') lines) ++
        (feedMark ++ (cnt ++ ch ' ' :: hex') ++ crlf rest))) ∧
    hex' ≠ [] ∧ hex'.all isHexDigit = true ∧
    hexValue hex' % 2 ^ 32 = (ngx.crc32Long (crlf (Lines.join (ch '\n') lines))).toNat

variable {ngx : NgxCore}

/-- The header is compared with its line end, so CR LF feeds are refused. -/
theorem crlf_feed_declined (zone : Option Zone) (sh : Shctx) (data data' : Buffer)
    (defaultTtl now : Int) (slab : Nat → Bool)
    (hok : (sentinelFeedParse ngx zone sh data defaultTtl now slab).1.rc = .ok)
    (hcrlf : CrlfFeed ngx (crlf [ch '\n']) data.data data'.data) :
    sentinelFeedParse ngx zone sh data' defaultTtl now slab = (⟨.declined, 0⟩, sh) := by
  obtain ⟨z, -, rfl, -⟩ := exists_body_of_ok ngx zone sh data defaultTtl now hok
  have hnone : feedValidate ngx data'.data = none := by
    rw [Option.eq_none_iff_forall_ne_some]
    intro body hval
    obtain ⟨lines, trailer, hshape, -⟩ := (feedValidate_eq_some_iff ngx data').mp hval
    obtain ⟨rest, hdata, -⟩ := hshape.cut
    obtain ⟨_, _, _, _, _, -, -, -, -, hdata', -⟩ := hcrlf.texts
    rw [hdata', List.append_cancel_left_eq] at hdata
    have hhead := congrArg List.head? hdata
    exact absurd hhead (by simp [crlf]; decide)
  simp [sentinelFeedParse, hnone]

theorem lf_feed_short :
    (str "# sentinel-crowdsec-feed v1\n1.2.3.4 ban 100\n%%EOF 1 9eb69a54\n").length < 2 ^ 63 := by
  decide +kernel

theorem crlf_feed_short :
    (str "# sentinel-crowdsec-feed v1\r\n1.2.3.4 ban 100\r\n%%EOF 1 110eb323\r\n").length <
      2 ^ 63 := by
  decide +kernel

/-- One decision, and its file as another system writes it. -/
theorem crlf_feed_refused :
    let zone : Option Zone := some ⟨0, 0, 0⟩
    let data : Buffer :=
      ⟨str "# sentinel-crowdsec-feed v1\n1.2.3.4 ban 100\n%%EOF 1 9eb69a54\n", lf_feed_short⟩
    let data' : Buffer :=
      ⟨str "# sentinel-crowdsec-feed v1\r\n1.2.3.4 ban 100\r\n%%EOF 1 110eb323\r\n",
        crlf_feed_short⟩
    let slab : Nat → Bool := fun _ => true
    (sentinelFeedParse Ref.ngx zone sentinelShmInitZone data 3600 50 slab).1 = ⟨.ok, 1⟩ ∧
      ch '\r' ∉ data.data ∧ CrlfFeed Ref.ngx (crlf [ch '\n']) data.data data'.data ∧
      (sentinelFeedParse Ref.ngx zone sentinelShmInitZone data' 3600 50 slab).1.rc ≠ .ok := by
  intro zone data data' slab
  refine ⟨by decide +kernel, by decide +kernel, ⟨[str "1.2.3.4 ban 100"], str "1",
    str "9eb69a54", str "110eb323", str "\n", ⟨⟨str "\n", ?_⟩, ?_, ?_, ?_, ?_⟩, ?_⟩, ?_⟩
  all_goals decide +kernel

/-- The refusal of that file. -/
theorem crlf_feed_declined_one :
    let zone : Option Zone := some ⟨0, 0, 0⟩
    let data' : Buffer :=
      ⟨str "# sentinel-crowdsec-feed v1\r\n1.2.3.4 ban 100\r\n%%EOF 1 110eb323\r\n",
        crlf_feed_short⟩
    sentinelFeedParse Ref.ngx zone sentinelShmInitZone data' 3600 50 (fun _ => true) =
      (⟨.declined, 0⟩, sentinelShmInitZone) := by
  intro zone data'
  refine crlf_feed_declined zone sentinelShmInitZone
    ⟨str "# sentinel-crowdsec-feed v1\n1.2.3.4 ban 100\n%%EOF 1 9eb69a54\n", lf_feed_short⟩
    data' 3600 50 _ (by decide +kernel) ⟨[str "1.2.3.4 ban 100"], str "1",
      str "9eb69a54", str "110eb323", str "\n", ⟨⟨str "\n", ?_⟩, ?_, ?_, ?_, ?_⟩, ?_⟩
  all_goals decide +kernel

section Line

theorem marked_cr_iff {line : Bytes} : feedMark <+: line ++ [ch '\r'] ↔ feedMark <+: line := by
  constructor
  · intro h
    rw [List.prefix_concat_iff] at h
    cases h with
    | inl heq =>
        have hlast := congrArg List.getLast? heq
        rw [List.getLast?_concat] at hlast
        exact absurd hlast (by decide)
    | inr h => exact h
  · exact fun h => h.trans (List.prefix_append _ _)

theorem stripCr_concat (line : Bytes) : feedStripCr (line ++ [ch '\r']) = line := by
  simp [feedStripCr]

variable {line : Bytes} (hcr : ch '\r' ∉ line)
include hcr

theorem stripCr_of_not_mem : feedStripCr line = line := by
  rw [feedStripCr, if_neg]
  exact fun h => hcr (List.mem_of_getLast? h)

/-- A line with a carriage return is passed over when the line without it is. -/
theorem skipped_cr_iff :
    ((line ++ [ch '\r'] = [] ∨ (line ++ [ch '\r']).head? = some (ch '#')) ∨
        feedStripCr (line ++ [ch '\r']) = []) ↔
      ((line = [] ∨ line.head? = some (ch '#')) ∨ feedStripCr line = []) := by
  rw [stripCr_of_not_mem hcr, stripCr_concat]
  cases line with
  | nil => simp
  | cons c s => simp

theorem applyScan_cr : feedApplyScan ngx (line ++ [ch '\r']) = feedApplyScan ngx line := by
  rw [feedApplyScan_eq, feedApplyScan_eq, if_congr (skipped_cr_iff hcr) rfl rfl,
    stripCr_of_not_mem hcr, stripCr_concat]

theorem countLine_cr : feedCountLine ngx (line ++ [ch '\r']) = feedCountLine ngx line := by
  rw [feedCountLine_eq, feedCountLine_eq, if_congr (skipped_cr_iff hcr) rfl rfl,
    applyScan_cr hcr]

theorem applyLine_cr (defaultTtl now : Int) :
    feedApplyLine ngx defaultTtl now (line ++ [ch '\r']) =
      feedApplyLine ngx defaultTtl now line := by
  rw [feedApplyLine, feedApplyLine, applyScan_cr hcr]

end Line

section Text

theorem crlf_append (s t : Bytes) : crlf (s ++ t) = crlf s ++ crlf t := by
  simp [crlf]

theorem crlf_of_not_mem {s : Bytes} (h : ch '\n' ∉ s) : crlf s = s := by
  induction s with
  | nil => rfl
  | cons c s ih =>
      rw [List.mem_cons, not_or] at h
      have hc : ¬ c = ch '\n' := fun he => h.1 he.symm
      rw [← List.singleton_append, crlf_append, ih h.2]
      simp [crlf, hc]

theorem crlf_newline : crlf [ch '\n'] = [ch '\r', ch '\n'] := by simp [crlf]

theorem crlf_join {lines : List Bytes} (h : ∀ l ∈ lines, ch '\n' ∉ l) :
    crlf (Lines.join (ch '\n') lines) =
      Lines.join (ch '\n') (lines.map fun l => l ++ [ch '\r']) := by
  induction lines with
  | nil => rfl
  | cons l lines ih =>
      rw [List.forall_mem_cons] at h
      rw [Lines.join_cons, ← List.singleton_append, crlf_append, crlf_append,
        crlf_of_not_mem h.1, crlf_newline, ih h.2]
      simp

end Text

section Lines
variable {lines : List Bytes} (hcr : ∀ l ∈ lines, ch '\r' ∉ l)
include hcr

theorem validCount_cr :
    validCount ngx (lines.map fun l => l ++ [ch '\r']) = validCount ngx lines := by
  rw [validCount, validCount, List.countP_map]
  refine List.countP_congr fun l hl => ?_
  simp only [Function.comp_apply, ← countLine_decision_iff, countLine_cr (hcr l hl)]

theorem malformedCount_cr :
    malformedCount ngx (lines.map fun l => l ++ [ch '\r']) = malformedCount ngx lines := by
  rw [malformedCount, malformedCount, List.countP_map]
  refine List.countP_congr fun l hl => ?_
  simp only [Function.comp_apply, ← countLine_malformed_iff, countLine_cr (hcr l hl)]

theorem applyLoop_cr (zone : Option Zone) (defaultTtl now : Int) (generation : Nat)
    (slab : Nat → Bool) (applied : Nat) (sh : Shctx) :
    feedApplyLoop ngx zone defaultTtl now generation slab
        (lines.map fun l => l ++ [ch '\r']) applied sh =
      feedApplyLoop ngx zone defaultTtl now generation slab lines applied sh := by
  induction lines generalizing applied sh with
  | nil => rfl
  | cons l lines ih =>
      rw [List.forall_mem_cons] at hcr
      rw [List.map_cons, feedApplyLoop, feedApplyLoop, applyLine_cr hcr.1]
      simp only [ih hcr.2]

end Lines

theorem FeedShape.mem_of_trailer {data trailer : Bytes} {lines : List Bytes}
    (h : FeedShape data lines trailer) {c : UInt8} (hc : c ∈ trailer) : c ∈ data := by
  obtain ⟨rest, hdata, -⟩ := h.cut
  rw [hdata]
  exact List.mem_append_right _ (List.mem_cons_of_mem _
    (List.mem_append_right _ (List.mem_append_left _ hc)))

theorem FeedShape.mem_of_line {data trailer : Bytes} {lines : List Bytes}
    (h : FeedShape data lines trailer) {l : Bytes} (hl : l ∈ lines) {c : UInt8} (hc : c ∈ l) :
    c ∈ data := by
  obtain ⟨rest, hdata, -⟩ := h.cut
  rw [hdata]
  refine List.mem_append_right _ (List.mem_cons_of_mem _ (List.mem_append_left _ ?_))
  exact List.mem_flatMap.mpr ⟨l, hl, List.mem_append_left _ hc⟩

section Accept
variable {data data' : Buffer} {lines : List Bytes} {cnt hex hex' rest : Bytes}

/-- The trailer of the new text: what follows its line end is not read. -/
theorem crlf_rest (hrest : rest = [] ∨ rest.head? = some (ch '\n')) :
    ∃ eol rest', crlf rest = eol ++ rest' ∧ (eol = [] ∨ eol = [ch '\r']) ∧
      (rest' = [] ∨ rest'.head? = some (ch '\n')) := by
  cases hrest with
  | inl h => exact ⟨[], [], by simp [h, crlf], .inl rfl, .inl rfl⟩
  | inr h =>
      obtain ⟨r, rfl⟩ := List.head?_eq_some_iff.mp h
      exact ⟨[ch '\r'], ch '\n' :: crlf r, by simp [crlf], .inr rfl, .inr rfl⟩

theorem hex_closed (hhex : hex.all isHexDigit = true) : ch '\n' ∉ hex :=
  not_mem_of_all hhex rfl

theorem stripCr_hex (pre : Bytes) (hne : hex ≠ []) (hhex : hex.all isHexDigit = true)
    {eol : Bytes} (heol : eol = [] ∨ eol = [ch '\r']) :
    feedStripCr (pre ++ hex ++ eol) = pre ++ hex := by
  cases heol with
  | inl h =>
      rw [h, List.append_nil, feedStripCr, if_neg]
      intro hlast
      rw [List.getLast?_append_of_ne_nil _ hne] at hlast
      exact not_mem_of_all hhex rfl (List.mem_of_getLast? hlast)
  | inr h => rw [h, stripCr_concat]

/-- A trailer keeps its count when its checksum is replaced. -/
theorem trailerLine_replace {count : Nat} {crc crc' : UInt32} (hcnt : ch ' ' ∉ cnt)
    (h : TrailerLine (feedMark ++ (cnt ++ ch ' ' :: hex)) count crc) (hne : hex' ≠ [])
    (hhex : hex'.all isHexDigit = true) (hcrc : hexValue hex' % 2 ^ 32 = crc'.toNat) :
    TrailerLine (feedMark ++ (cnt ++ ch ' ' :: hex')) count crc' := by
  obtain ⟨cnt₀, hex₀, hline, h1, h2, h3, -⟩ := h
  obtain ⟨rfl, -⟩ := Lines.append_inj _ hcnt (digits_no_space h2) (List.append_cancel_left hline)
  exact ⟨cnt, hex', rfl, h1, h2, h3, hne, hhex, hcrc⟩

/-- Every accepted feed has such a text, for each spelling of the new checksum. -/
theorem exists_crlfFeed (haccepted : FeedAccepted ngx data.data) (hcr : ch '\r' ∉ data.data)
    (eol : Bytes) :
    ∃ lines trailer, FeedShape data.data lines trailer ∧
      ∀ hex', hex' ≠ [] → hex'.all isHexDigit = true →
        hexValue hex' % 2 ^ 32 =
          (ngx.crc32Long (crlf (Lines.join (ch '\n') lines))).toNat →
        ∃ text, CrlfFeed ngx eol data.data text := by
  obtain ⟨lines, trailer, hshape, ⟨cnt, hex, hline, h1, h2, -⟩, -⟩ := haccepted.exists_shape
  obtain ⟨rest, hdata, hrest⟩ := hshape.cut
  have htcr : ch '\r' ∉ trailer := mt hshape.mem_of_trailer hcr
  have hcnt := digits_no_space h2
  rw [stripCr_of_not_mem htcr] at hline
  subst hline
  refine ⟨lines, _, hshape, fun hex' hne hhex hcrc => ?_⟩
  exact ⟨_, ⟨lines, cnt, hex, hex', rest, hshape, hcnt, hrest, hdata, rfl, hne, hhex, hcrc⟩⟩

theorem cr_closed {lines : List Bytes} (h : ∀ l ∈ lines, ch '\n' ∉ l) :
    ∀ l ∈ lines.map fun l => l ++ [ch '\r'], ch '\n' ∉ l := by
  intro l hmem
  obtain ⟨l, hl, rfl⟩ := List.mem_map.mp hmem
  rw [List.mem_append, not_or]
  exact ⟨h l hl, by decide⟩

/-- The other system's text has the same lines, each with a CR behind it, and so
has its trailer unless the text ends there. -/
theorem crlf_shape {text text' : Bytes} {lines : List Bytes} {cnt hex hex' rest : Bytes}
    (hshape : FeedShape text lines (feedMark ++ (cnt ++ ch ' ' :: hex)))
    (hrest : rest = [] ∨ rest.head? = some (ch '\n')) (hhex : hex'.all isHexDigit = true)
    (htext' : text' = ngxSentinelFeedHeader ++ ([ch '\n'] ++
      (crlf (Lines.join (ch '\n') lines) ++
        (feedMark ++ (cnt ++ ch ' ' :: hex') ++ crlf rest)))) :
    ∃ eol, (eol = [] ∨ eol = [ch '\r']) ∧
      FeedShape text' (lines.map fun l => l ++ [ch '\r'])
        (feedMark ++ (cnt ++ ch ' ' :: hex') ++ eol) := by
  obtain ⟨eol, rest', hcrest, heol, hrest'⟩ := crlf_rest hrest
  refine ⟨eol, heol, ⟨rest', ?_, hrest'⟩, cr_closed hshape.closed, ?_, ?_, ?_⟩
  · rw [htext', crlf_join hshape.closed, hcrest]
    simp
  · intro l hmem
    obtain ⟨l, hl, rfl⟩ := List.mem_map.mp hmem
    exact mt marked_cr_iff.mp (hshape.unmarked l hl)
  · have hold := hshape.trailer_closed
    simp only [List.mem_append, List.mem_cons, not_or] at hold ⊢
    refine ⟨⟨hold.1, hold.2.1, hold.2.2.1, hex_closed hhex⟩, ?_⟩
    cases heol with
    | inl h => simp [h]
    | inr h =>
        rw [h]
        decide
  · rw [List.append_assoc]
    exact List.prefix_append _ _

/-- With the header's line end left alone, the feed says what it said before. -/
theorem crlf_body_accepted (zone : Option Zone) (sh : Shctx) (data data' : Buffer)
    (defaultTtl now : Int) (slab : Nat → Bool)
    (hok : (sentinelFeedParse ngx zone sh data defaultTtl now slab).1.rc = .ok)
    (hcr : ch '\r' ∉ data.data) (hcrlf : CrlfFeed ngx [ch '\n'] data.data data'.data) :
    sentinelFeedParse ngx zone sh data' defaultTtl now slab =
      sentinelFeedParse ngx zone sh data defaultTtl now slab := by
  obtain ⟨z, body, rfl, hval⟩ := exists_body_of_ok ngx zone sh data defaultTtl now hok
  obtain ⟨lines, cnt, hex, hex', rest, hshape, hcnt, hrest, hdata, hdata', hne, hhex, hcrc⟩ :=
    hcrlf.texts
  obtain ⟨lines₀, trailer, hshape₀, rfl, htrailer, hfrac⟩ :=
    (feedValidate_eq_some_iff ngx data).mp hval
  obtain ⟨rfl, rfl⟩ := hshape₀.unique hshape
  have hlines : ∀ l ∈ lines₀, ch '\r' ∉ l := fun l hl => mt (hshape.mem_of_line hl) hcr
  have htcr : ch '\r' ∉ feedMark ++ (cnt ++ ch ' ' :: hex) := mt hshape.mem_of_trailer hcr
  obtain ⟨eol, heol, hshape'⟩ := crlf_shape hshape hrest hhex hdata'
  have hval' : feedValidate ngx data'.data =
      some (Lines.join (ch '\n') (lines₀.map fun l => l ++ [ch '\r'])) := by
    refine (feedValidate_eq_some_iff ngx data').mpr ⟨_, _, hshape', rfl, ?_, ?_⟩
    · have hstrip : feedStripCr (feedMark ++ (cnt ++ ch ' ' :: hex') ++ eol) =
          feedMark ++ (cnt ++ ch ' ' :: hex') := by
        simpa using stripCr_hex (feedMark ++ (cnt ++ [ch ' '])) hne hhex heol
      rw [hstrip, validCount_cr hlines, ← crlf_join hshape.closed]
      rw [stripCr_of_not_mem htcr] at htrailer
      exact trailerLine_replace hcnt htrailer hne hhex hcrc
    · rw [malformedCount_cr hlines, validCount_cr hlines]
      exact hfrac
  simp only [sentinelFeedParse, hval, hval', Lines.split_join _ (cr_closed hshape.closed),
    Lines.split_join _ hshape.closed, applyLoop_cr hlines]

end Accept
end LineEnds
end Sentinel
