import Sentinel.FeedGrammar

/-!
Which feeds are accepted: the loader's header comparison, trailer search, line
counts and checks amount to one condition on the file, and whatever fails it
leaves the table alone.
-/

namespace Sentinel

def feedMark : Bytes := str "%%EOF "

/-- A file cut at its trailer: the header line, body lines none of which starts
with the trailer's mark, and the line that does. What follows it is not read. -/
structure FeedShape (data : Bytes) (lines : List Bytes) (trailer : Bytes) : Prop where
  cut : ∃ rest, data = ngxSentinelFeedHeader ++ ch '\n' ::
      (Lines.join (ch '\n') lines ++ (trailer ++ rest)) ∧
    (rest = [] ∨ rest.head? = some (ch '\n'))
  closed : ∀ l ∈ lines, ch '\n' ∉ l
  unmarked : ∀ l ∈ lines, ¬ feedMark <+: l
  trailer_closed : ch '\n' ∉ trailer
  marked : feedMark <+: trailer

section Counts
open Classical

/-- The number of decision lines, and of lines that are neither decisions nor
skipped. -/
noncomputable def validCount (ngx : NgxCore) (lines : List Bytes) : Nat :=
  lines.countP fun l => ∃ e, DecisionLine ngx l e

noncomputable def malformedCount (ngx : NgxCore) (lines : List Bytes) : Nat :=
  lines.countP fun l => ¬ Skipped l ∧ ¬ ∃ e, DecisionLine ngx l e

end Counts

structure FeedAccepted (ngx : NgxCore) (data : Bytes) : Prop where
  exists_shape : ∃ lines trailer, FeedShape data lines trailer ∧
    TrailerLine (feedStripCr trailer) (validCount ngx lines)
      (ngx.crc32Long (Lines.join (ch '\n') lines)) ∧
    4 * malformedCount ngx lines ≤ validCount ngx lines + malformedCount ngx lines

section Locate

theorem marked_iff {line : Bytes} :
    (line.length ≥ 6 ∧ line.take 6 = str "%%EOF ") ↔ feedMark <+: line := by
  rw [List.prefix_iff_eq_take]
  constructor
  · exact fun h => h.2.symm
  · intro h
    refine ⟨?_, h.symm⟩
    have hlen := congrArg List.length h
    rw [List.length_take] at hlen
    have : feedMark.length = 6 := rfl
    omega

theorem trailerLoop_append {lines : List Bytes} (h : ∀ l ∈ lines, ¬ feedMark <+: l) (q : Nat)
    (rest : List Bytes) :
    feedTrailerLoop (lines ++ rest) q =
      feedTrailerLoop rest (q + (Lines.join (ch '\n') lines).length) := by
  induction lines generalizing q with
  | nil => rfl
  | cons l lines ih =>
      simp only [List.mem_cons, forall_eq_or_imp] at h
      rw [List.cons_append, feedTrailerLoop, if_neg (mt marked_iff.mp h.1), ih h.2]
      congr 1
      simp only [Lines.join_cons, List.length_append, List.length_cons]
      omega

theorem trailerLoop_some {lines : List Bytes} {q t : Nat} (h : feedTrailerLoop lines q = some t) :
    ∃ before line after, lines = before ++ line :: after ∧ (∀ l ∈ before, ¬ feedMark <+: l) ∧
      feedMark <+: line ∧ t = q + (Lines.join (ch '\n') before).length := by
  induction lines generalizing q with
  | nil => simp [feedTrailerLoop] at h
  | cons l lines ih =>
      rw [feedTrailerLoop] at h
      split at h
      next hm =>
        refine ⟨[], l, lines, rfl, by simp, marked_iff.mp hm, ?_⟩
        simpa using h.symm
      next hm =>
        obtain ⟨before, line, after, rfl, hb, hl, rfl⟩ := ih h
        refine ⟨l :: before, line, after, rfl, ?_, hl, ?_⟩
        · simpa using ⟨mt marked_iff.mpr hm, hb⟩
        · simp only [Lines.join_cons, List.length_append, List.length_cons]
          omega

/-- The search cuts a file exactly at its shape. -/
theorem feedLocate_eq_some_iff {data body tail : Bytes} :
    feedLocate data = some (body, tail) ↔
      ∃ lines trailer, FeedShape data lines trailer ∧ body = Lines.join (ch '\n') lines ∧
        data = ngxSentinelFeedHeader ++ ch '\n' :: (body ++ tail) ∧
        (Lines.field (ch '\n') tail).1 = trailer := by
  constructor
  · intro h
    rw [feedLocate] at h
    rcases Lines.field_cases (ch '\n') data with ⟨-, hf⟩ | ⟨hl, p, -, rfl, hf⟩
    · simp [hf] at h
    · simp only [hf] at h
      split at h
      · contradiction
      next hheader =>
        have hhl := Classical.not_not.mp hheader
        subst hhl
        split at h
        · contradiction
        next t ht =>
          obtain ⟨before, line, after, hsplit, hb, hl, rfl⟩ := trailerLoop_some ht
          obtain ⟨rest, rfl, hclosed, hline, hrest⟩ := Lines.eq_join_of_split _ hsplit
          simp only [Nat.zero_add, List.take_left, List.drop_left, Option.some.injEq,
            Prod.mk.injEq] at h
          obtain ⟨rfl, rfl⟩ := h
          exact ⟨before, line, ⟨⟨rest, rfl, hrest⟩, hclosed, hb, hline, hl⟩, rfl, rfl,
            Lines.field_record _ hline hrest⟩
  · rintro ⟨lines, trailer, ⟨⟨rest, hdata, hrest⟩, hclosed, hb, hline, hl⟩, rfl, hdata', -⟩
    have hheader : ch '\n' ∉ ngxSentinelFeedHeader := by decide
    have htail : tail = trailer ++ rest := by
      rw [hdata'] at hdata
      simpa using hdata
    have hne : trailer ≠ [] := by
      rintro rfl
      simp [feedMark, str] at hl
    subst htail
    rw [feedLocate]
    rw [hdata', Lines.field_append _ hheader]
    simp only [ne_eq, not_true_eq_false, if_false]
    rw [Lines.split_join_append _ hclosed, Lines.split_record _ hne hline hrest,
      trailerLoop_append hb, feedTrailerLoop, if_pos (marked_iff.mpr hl)]
    simp

theorem FeedShape.unique {data trailer trailer' : Bytes} {lines lines' : List Bytes}
    (h : FeedShape data lines trailer) (h' : FeedShape data lines' trailer') :
    lines = lines' ∧ trailer = trailer' := by
  obtain ⟨⟨rest, hdata, hrest⟩, hclosed, -, hline, -⟩ := id h
  obtain ⟨⟨rest', hdata', hrest'⟩, hclosed', -, hline', -⟩ := id h'
  have hloc := feedLocate_eq_some_iff.mpr ⟨lines, trailer, h, rfl, hdata,
    Lines.field_record _ hline hrest⟩
  have hloc' := feedLocate_eq_some_iff.mpr ⟨lines', trailer', h', rfl, hdata',
    Lines.field_record _ hline' hrest'⟩
  rw [hloc] at hloc'
  simp only [Option.some.injEq, Prod.mk.injEq] at hloc'
  refine ⟨?_, ?_⟩
  · rw [← Lines.split_join _ hclosed, hloc'.1, Lines.split_join _ hclosed']
  · rw [← Lines.field_record _ hline hrest, hloc'.2, Lines.field_record _ hline' hrest']

/-- More bytes behind a feed change at most its trailer. -/
theorem FeedShape.append {data trailer : Bytes} {lines : List Bytes}
    (h : FeedShape data lines trailer) (more : Bytes) :
    ∃ trailer', FeedShape (data ++ more) lines trailer' := by
  obtain ⟨rest, hdata, -⟩ := h.cut
  obtain ⟨tail, htail⟩ := h.marked
  have hmark : ch '\n' ∉ feedMark := by decide
  have hdata' : data ++ more = ngxSentinelFeedHeader ++ ch '\n' ::
      (Lines.join (ch '\n') lines ++ (trailer ++ rest ++ more)) := by
    rw [hdata]
    simp
  have hmarked : trailer ++ rest ++ more = feedMark ++ (tail ++ rest ++ more) := by
    rw [← htail]
    simp
  rcases Lines.field_cases (ch '\n') (tail ++ rest ++ more) with ⟨hno, -⟩ | ⟨l, r, hl, hr, -⟩
  · refine ⟨trailer ++ rest ++ more, ⟨[], by simp [hdata'], Or.inl rfl⟩, h.closed, h.unmarked,
      ?_, hmarked ▸ List.prefix_append _ _⟩
    rw [hmarked, List.mem_append, not_or]
    exact ⟨hmark, hno⟩
  · refine ⟨feedMark ++ l, ⟨ch '\n' :: r, ?_, Or.inr rfl⟩, h.closed, h.unmarked, ?_,
      List.prefix_append _ _⟩
    · rw [hdata', hmarked, hr]
      simp
    · rw [List.mem_append, not_or]
      exact ⟨hmark, hl⟩

end Locate
section Accept
variable (ngx : NgxCore)

theorem countLine_decision_iff (line : Bytes) :
    feedCountLine ngx line = .decision ↔ ∃ e, DecisionLine ngx line e := by
  rw [feedCountLine_eq]
  by_cases hskip : Skipped line
  · rw [if_pos (skipped_iff.mp hskip)]
    simp only [reduceCtorEq, false_iff, not_exists]
    exact fun e h => h.not_skipped hskip
  · rw [if_neg (mt skipped_iff.mpr hskip)]
    cases hscan : feedApplyScan ngx line with
    | none =>
        simp only [Option.isSome_none, Bool.false_eq_true, if_false, reduceCtorEq, false_iff]
        rintro ⟨⟨ip, action, n⟩, h⟩
        rw [feedApplyScan_eq_some_iff.mpr h] at hscan
        contradiction
    | some f =>
        simp only [Option.isSome_some, if_true, true_iff]
        exact ⟨⟨f.1, f.2.1, f.2.2⟩, feedApplyScan_eq_some_iff.mp hscan⟩

theorem countLine_skipped_iff (line : Bytes) :
    feedCountLine ngx line = .skipped ↔ Skipped line := by
  rw [feedCountLine_eq]
  by_cases hskip : Skipped line
  · rw [if_pos (skipped_iff.mp hskip)]
    simpa using hskip
  · rw [if_neg (mt skipped_iff.mpr hskip)]
    simp only [hskip, iff_false]
    split <;> simp

theorem countLine_malformed_iff (line : Bytes) :
    feedCountLine ngx line = .malformed ↔ ¬ Skipped line ∧ ¬ ∃ e, DecisionLine ngx line e := by
  rw [← countLine_decision_iff, ← countLine_skipped_iff ngx]
  cases feedCountLine ngx line <;> simp

theorem feedCountLoop_eq (lines : List Bytes) (count malformed : Nat) :
    feedCountLoop ngx lines count malformed =
      (count + validCount ngx lines, malformed + malformedCount ngx lines) := by
  simp only [validCount, malformedCount, ← countLine_malformed_iff]
  simp only [← countLine_decision_iff]
  induction lines generalizing count malformed with
  | nil => simp [feedCountLoop]
  | cons l lines ih =>
      rw [feedCountLoop, List.countP_cons, List.countP_cons]
      cases hl : feedCountLine ngx l <;>
        simp only [ih, decide_true, decide_false, if_true, if_false, Bool.false_eq_true,
          reduceCtorEq, Nat.add_zero] <;> congr 1 <;> omega

theorem validCount_le (lines : List Bytes) :
    validCount ngx lines ≤ (Lines.join (ch '\n') lines).length := by
  refine List.countP_le_length.trans ?_
  induction lines with
  | nil => simp
  | cons l lines ih =>
      simp only [Lines.join_cons, List.length_append, List.length_cons]
      omega

/-- Validation accepts exactly the feeds of the grammar, and hands on the body. -/
theorem feedValidate_eq_some_iff (data : Buffer) {body : Bytes} :
    feedValidate ngx data.data = some body ↔
      ∃ lines trailer, FeedShape data.data lines trailer ∧ body = Lines.join (ch '\n') lines ∧
        TrailerLine (feedStripCr trailer) (validCount ngx lines) (ngx.crc32Long body) ∧
        4 * malformedCount ngx lines ≤ validCount ngx lines + malformedCount ngx lines := by
  rw [feedValidate]
  by_cases hnil : data.data = []
  · rw [if_pos hnil]
    simp only [reduceCtorEq, false_iff]
    rintro ⟨lines, trailer, ⟨⟨rest, hdata, -⟩, -⟩, -⟩
    rw [hnil] at hdata
    exact absurd hdata (by simp)
  rw [if_neg hnil]
  cases hloc : feedLocate data.data with
  | none =>
      simp only [reduceCtorEq, false_iff]
      rintro ⟨lines, trailer, hshape, -⟩
      obtain ⟨⟨rest, hdata, hrest⟩, -, -, hline, -⟩ := id hshape
      rw [feedLocate_eq_some_iff.mpr ⟨lines, trailer, hshape, rfl, hdata,
        Lines.field_record _ hline hrest⟩] at hloc
      contradiction
  | some p =>
      obtain ⟨body', tail⟩ := p
      obtain ⟨lines, trailer, hshape, rfl, hdata, htrailer⟩ := feedLocate_eq_some_iff.mp hloc
      have hcount : validCount ngx lines ≤ ngxMaxIntT := by
        have hlen := congrArg List.length hdata
        simp only [List.length_append, List.length_cons] at hlen
        have := validCount_le ngx lines
        have := data.len_lt
        rw [ngxMaxIntT]
        omega
      simp only [Lines.split_join _ hshape.closed, feedCountLoop_eq, Nat.zero_add, htrailer]
      have huniq : ∀ P : List Bytes → Bytes → Prop,
          (∃ lines' trailer', FeedShape data.data lines' trailer' ∧ P lines' trailer') ↔
            P lines trailer := by
        intro P
        constructor
        · rintro ⟨lines', trailer', hshape', hP⟩
          obtain ⟨rfl, rfl⟩ := hshape.unique hshape'
          exact hP
        · exact fun hP => ⟨lines, trailer, hshape, hP⟩
      rw [huniq fun lines trailer => body = Lines.join (ch '\n') lines ∧
        TrailerLine (feedStripCr trailer) (validCount ngx lines) (ngx.crc32Long body) ∧
        4 * malformedCount ngx lines ≤ validCount ngx lines + malformedCount ngx lines]
      have htrail := checkTrailer_ok_iff ngx (feedStripCr trailer)
        (ngx.crc32Long (Lines.join (ch '\n') lines)) hcount
      rw [ngxSentinelFeedMalformedDenom]
      by_cases hok : TrailerLine (feedStripCr trailer) (validCount ngx lines)
          (ngx.crc32Long (Lines.join (ch '\n') lines))
      · rw [if_neg (by simpa using htrail.mpr hok)]
        by_cases hfrac : malformedCount ngx lines > 0 ∧
            malformedCount ngx lines * 4 > validCount ngx lines + malformedCount ngx lines
        · rw [if_pos hfrac]
          simp only [reduceCtorEq, false_iff]
          omega
        · rw [if_neg hfrac, Option.some.injEq]
          constructor
          · rintro rfl
            exact ⟨rfl, hok, by omega⟩
          · exact fun h => h.1.symm
      · rw [if_pos (mt htrail.mp hok)]
        simp only [reduceCtorEq, false_iff]
        rintro ⟨rfl, h, -⟩
        exact hok h

theorem feedAccepted_iff {data : Buffer} :
    FeedAccepted ngx data.data ↔ (feedValidate ngx data.data).isSome := by
  rw [Option.isSome_iff_exists]
  constructor
  · rintro ⟨lines, trailer, hshape, h⟩
    exact ⟨_, (feedValidate_eq_some_iff ngx data).mpr ⟨lines, trailer, hshape, rfl, h⟩⟩
  · rintro ⟨body, h⟩
    obtain ⟨lines, trailer, hshape, rfl, h⟩ := (feedValidate_eq_some_iff ngx data).mp h
    exact ⟨lines, trailer, hshape, h⟩

/-- A load either takes a well-formed feed, or changes nothing. -/
theorem feed_parse_accepts (zone : Option Zone) (sh : Shctx) (data : Buffer)
    (defaultTtl now : Int) (slab : Nat → Bool) :
    let r := sentinelFeedParse ngx zone sh data defaultTtl now slab
    (r.1.rc ≠ .ok → r.2 = sh) ∧
      (r.1.rc = .ok ↔ zone.isSome ∧ FeedAccepted ngx data.data) := by
  rw [feedAccepted_iff]
  cases zone with
  | none => simp [sentinelFeedParse]
  | some zone =>
      rw [sentinelFeedParse]
      cases feedValidate ngx data.data <;> simp

end Accept
end Sentinel
