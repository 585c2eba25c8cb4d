import Mathlib.Algebra.GroupWithZero.Nat
import Sentinel.Ja4h
import Sentinel.NgxRef

/-!
What the fingerprint knows of the order of the headers. The names are sorted
without regard to case, so two requests whose names are kept alike have one
fingerprint; but only the first 64 names are kept, in the order they came in.
-/

namespace Sentinel

section Compare
variable {a b : Bytes}

/-- A name as the canonical string has it. -/
def lower (name : Bytes) : Bytes := name.map ngxTolower

theorem tolower_tolower (c : UInt8) : ngxTolower (ngxTolower c) = ngxTolower c :=
  forall_byte (p := fun c => ngxTolower (ngxTolower c) = ngxTolower c) (by decide +kernel) c

theorem tolower_ne_zero {c : UInt8} (h : c ≠ 0) : ngxTolower c ≠ 0 :=
  forall_byte (p := fun c => c ≠ 0 → ngxTolower c ≠ 0) (by decide +kernel) c h

theorem lower_lower (name : Bytes) : lower (lower name) = lower name := by
  rw [lower, lower, List.map_map]
  exact List.map_congr_left fun c _ => tolower_tolower c

theorem lower_length (name : Bytes) : (lower name).length = name.length := List.length_map ..

theorem strncasecmp_lower (a b : Bytes) (n : Nat) :
    ngxStrncasecmp (lower a) b n = ngxStrncasecmp a b n := by
  induction a generalizing b n with
  | nil => rfl
  | cons c a ih =>
      cases b with
      | nil => simp [lower, ngxStrncasecmp]
      | cons d b =>
          cases n with
          | zero => simp [lower, ngxStrncasecmp]
          | succ n =>
              have hrest := ih b n
              rw [lower] at hrest
              simp only [lower, List.map_cons, ngxStrncasecmp, tolower_tolower, hrest]

theorem compare_toNat (c d : UInt8) : compare ((c.toNat : Int) - d.toNat) 0 = compare c d := by
  cases h : compare c d with
  | lt =>
      have hlt : c < d := Std.compare_eq_lt.mp h
      have hnat : c.toNat < d.toNat := hlt
      rw [Int.compare_eq_lt]
      omega
  | eq =>
      rw [Std.LawfulEqCmp.eq_of_compare h, Int.sub_self]
      rfl
  | gt =>
      have hgt : d < c := Std.compare_eq_gt.mp h
      have hnat : d.toNat < c.toNat := hgt
      rw [Int.compare_eq_gt]
      omega

theorem compare_sub (m n : Int) : compare (m - n) 0 = compare m n := by
  cases h : compare m n with
  | lt =>
      rw [Int.compare_eq_lt] at h ⊢
      omega
  | eq =>
      rw [Int.compare_eq_eq] at h ⊢
      omega
  | gt =>
      rw [Int.compare_eq_gt] at h ⊢
      omega

/-- Two names are compared byte by byte and, when one is the start of the other,
by their lengths. -/
theorem strncasecmp_compare (ha : 0 ∉ a) (b : Bytes) :
    compare (lower a) (lower b) =
      (compare (ngxStrncasecmp a b (min a.length b.length)) 0).then
        (compare (a.length : Int) b.length) := by
  induction a generalizing b with
  | nil =>
      cases b with
      | nil => rfl
      | cons d b =>
          have hlen : compare (0 : Int) ((d :: b).length : Int) = .lt := by
            rw [Int.compare_eq_lt, List.length_cons]
            omega
          simpa [lower, ngxStrncasecmp] using hlen.symm
  | cons c a ih =>
      cases b with
      | nil =>
          have hlen : compare ((c :: a).length : Int) 0 = .gt := by
            rw [Int.compare_eq_gt, List.length_cons]
            omega
          simpa [lower, ngxStrncasecmp] using hlen.symm
      | cons d b =>
          rw [List.mem_cons, not_or] at ha
          have hc := tolower_ne_zero (Ne.symm ha.1)
          have hlen : compare ((c :: a).length : Int) (d :: b).length =
              compare (a.length : Int) b.length := by
            simp [compare, compareOfLessAndEq]
          have hmin : min (c :: a).length (d :: b).length = min a.length b.length + 1 :=
            Nat.succ_min_succ _ _
          have hrest := ih ha.2 b
          rw [lower, lower] at hrest
          rw [hlen, hmin, ngxStrncasecmp, lower, lower, List.map_cons, List.map_cons,
            List.compare_cons_cons, hrest]
          by_cases hcd : ngxTolower c = ngxTolower d
          · simp [hcd, hcd ▸ hc]
          · simp only [if_neg hcd, compare_toNat]
            cases h : compare (ngxTolower c) (ngxTolower d) with
            | lt | gt => rfl
            | eq => exact absurd (Std.LawfulEqCmp.eq_of_compare h) hcd

theorem toInt_of_lt {n : Nat} (h : n < 2 ^ 31) : toInt n = (n : Int) := by
  apply Int.bmod_eq_of_le
  · omega
  · omega

theorem strcmp_compare (ha : 0 ∉ a) (hla : a.length < 2 ^ 31) (hlb : b.length < 2 ^ 31) :
    compare (ja4hStrcmp a b) 0 = compare (lower a) (lower b) := by
  have hmin : (if a.length < b.length then a.length else b.length) = min a.length b.length := by
    split
    · omega
    · omega
  rw [strncasecmp_compare ha b, ja4hStrcmp, hmin, toInt_of_lt hla, toInt_of_lt hlb]
  by_cases hrc : ngxStrncasecmp a b (min a.length b.length) = 0
  · simp only [hrc, ne_eq, not_true_eq_false, if_false, compare_sub]
    rfl
  · simp only [ne_eq, hrc, not_false_eq_true, if_true]
    cases h : compare (ngxStrncasecmp a b (min a.length b.length)) 0 with
    | lt | gt => rfl
    | eq => exact absurd (Int.compare_eq_eq.mp h) hrc

/-- Names that can be compared are sorted alike, whatever order they came in. -/
theorem sort_lower_eq (ngx : Ja4hCore) {names names' : List Bytes}
    (hnul : ∀ name ∈ names, 0 ∉ name) (hnul' : ∀ name ∈ names', 0 ∉ name)
    (hlen : ∀ name ∈ names, name.length < 2 ^ 31) (hlen' : ∀ name ∈ names', name.length < 2 ^ 31)
    (hperm : (names.map lower).Perm (names'.map lower)) :
    (ngx.qsort ja4hStrcmp names).map lower = (ngx.qsort ja4hStrcmp names').map lower := by
  have hbykey : ∀ {l : List Bytes}, (∀ name ∈ l, 0 ∉ name) → (∀ name ∈ l, name.length < 2 ^ 31) →
      KeySort.ByKey ja4hStrcmp lower l := fun hnul hlen a ha b hb =>
    strcmp_compare (hnul a ha) (hlen a ha) (hlen b hb)
  have hsorted : ∀ {l : List Bytes}, KeySort.ByKey ja4hStrcmp lower l →
      KeySort.ByKey ja4hStrcmp lower (ngx.qsort ja4hStrcmp l) ∧
        (ngx.qsort ja4hStrcmp l).Pairwise fun a b => ja4hStrcmp a b ≤ 0 := by
    intro l hl
    refine ⟨fun a ha b hb => ?_, ngx.qsort_sorted _ l hl.orders⟩
    have hmem := fun x => (ngx.qsort_perm ja4hStrcmp l).mem_iff (a := x)
    exact hl a ((hmem a).mp ha) b ((hmem b).mp hb)
  obtain ⟨hkey, hpair⟩ := hsorted (hbykey hnul hlen)
  obtain ⟨hkey', hpair'⟩ := hsorted (hbykey hnul' hlen')
  refine KeySort.sorted_keys_eq hkey hkey' hpair hpair' ?_
  exact (((ngx.qsort_perm _ names).map lower).trans hperm).trans
    ((ngx.qsort_perm _ names').map lower).symm

end Compare

section Walk
variable {l l' : List HeaderLine}

/-- A header without the case of its name, or what its hash is but for being 0. -/
def HeaderLine.folded (hdr : HeaderLine) : HeaderLine := ⟨min hdr.hash 1, lower hdr.key⟩

theorem headerIs_folded (hdr : HeaderLine) (name : Bytes) :
    headerIs hdr.folded name = headerIs hdr name := by
  simp only [headerIs, HeaderLine.folded, lower_length, strncasecmp_lower]

theorem headerSkip_lower (name : Bytes) : ja4hHeaderSkip (lower name) = ja4hHeaderSkip name := by
  simp only [ja4hHeaderSkip, lower_length, strncasecmp_lower]

theorem hash_folded (hdr : HeaderLine) : hdr.folded.hash = 0 ↔ hdr.hash = 0 := by
  change min hdr.hash 1 = 0 ↔ hdr.hash = 0
  omega

/-- The header has its name collected, as long as there is room. -/
def HeaderLine.named (hdr : HeaderLine) : Bool := hdr.hash ≠ 0 ∧ ¬ ja4hHeaderSkip hdr.key

def HeaderLine.cookie (hdr : HeaderLine) : Bool := hdr.hash ≠ 0 ∧ headerIs hdr (str "Cookie")

def HeaderLine.referer (hdr : HeaderLine) : Bool :=
  hdr.hash ≠ 0 ∧ ¬ headerIs hdr (str "Cookie") ∧ headerIs hdr (str "Referer")

/-- The names that are collected, in the order they came in. -/
def namesOf (l : List HeaderLine) : List Bytes := (l.filter HeaderLine.named).map HeaderLine.key

theorem ja4hHeader_eq (s : Ja4hHeaders) (hdr : HeaderLine) :
    ja4hHeader s hdr = ⟨s.hasCookie || hdr.cookie, s.hasReferer || hdr.referer,
      s.names ++ (namesOf [hdr]).take (ngxSentinelJa4hMaxHdrs - s.names.length)⟩ := by
  obtain ⟨hasCookie, hasReferer, names⟩ := s
  rw [ja4hHeader]
  by_cases hhash : hdr.hash = 0
  · simp [hhash, HeaderLine.cookie, HeaderLine.referer, HeaderLine.named, namesOf]
  · have hnames : namesOf [hdr] = if ja4hHeaderSkip hdr.key = true then [] else [hdr.key] := by
      cases hskip : ja4hHeaderSkip hdr.key with
      | true | false => simp [namesOf, HeaderLine.named, hhash, hskip]
    have hflags : (if headerIs hdr (str "Cookie") = true then
          (⟨true, hasReferer, names⟩ : Ja4hHeaders)
        else if headerIs hdr (str "Referer") = true then ⟨hasCookie, true, names⟩
        else ⟨hasCookie, hasReferer, names⟩) =
        ⟨hasCookie || hdr.cookie, hasReferer || hdr.referer, names⟩ := by
      simp only [HeaderLine.cookie, HeaderLine.referer]
      cases headerIs hdr (str "Cookie") with
      | true => simp [hhash]
      | false =>
          cases headerIs hdr (str "Referer") with
          | true | false => simp [hhash]
    rw [if_neg hhash]
    dsimp only
    rw [hflags, hnames]
    cases ja4hHeaderSkip hdr.key with
    | true => simp
    | false =>
        by_cases hroom : names.length < ngxSentinelJa4hMaxHdrs
        · have htake : [hdr.key].take (ngxSentinelJa4hMaxHdrs - names.length) = [hdr.key] :=
            List.take_of_length_le (Nat.sub_pos_of_lt hroom)
          simp [hroom, htake]
        · simp [hroom, Nat.sub_eq_zero_of_le (Nat.not_lt.mp hroom)]

theorem walk_eq (s : Ja4hHeaders) (l : List HeaderLine)
    (hs : s.names.length ≤ ngxSentinelJa4hMaxHdrs) :
    l.foldl ja4hHeader s = ⟨s.hasCookie || l.any HeaderLine.cookie,
      s.hasReferer || l.any HeaderLine.referer,
      s.names ++ (namesOf l).take (ngxSentinelJa4hMaxHdrs - s.names.length)⟩ := by
  induction l generalizing s with
  | nil => simp [namesOf]
  | cons hdr l ih =>
      have hcons : namesOf (hdr :: l) = namesOf [hdr] ++ namesOf l := by
        simp only [namesOf, ← List.map_append, ← List.filter_append, List.singleton_append]
      have hroom : s.names.length + min (ngxSentinelJa4hMaxHdrs - s.names.length)
          (namesOf [hdr]).length ≤ ngxSentinelJa4hMaxHdrs := by
        omega
      rw [List.foldl_cons, ja4hHeader_eq, ih _ (by simpa using hroom), hcons, List.take_append]
      simp only [List.any_cons, Bool.or_assoc, List.append_assoc, List.length_append,
        List.length_take]
      rw [← Nat.sub_sub]
      congr 4
      omega

/-- The names of a request that are collected. -/
def Ja4hRequest.collected (r : Ja4hRequest) : List Bytes := namesOf r.headers.flatten

/-- Those that there is room for, in lower case. -/
def Ja4hRequest.kept (r : Ja4hRequest) : List Bytes :=
  (r.collected.take ngxSentinelJa4hMaxHdrs).map lower

theorem ja4hWalk_eq (r : Ja4hRequest) :
    ja4hWalk r = ⟨r.headers.flatten.any HeaderLine.cookie, r.headers.flatten.any HeaderLine.referer,
      r.collected.take ngxSentinelJa4hMaxHdrs⟩ := by
  rw [ja4hWalk, ← List.foldl_flatten, walk_eq _ _ (Nat.zero_le _)]
  simp [Ja4hRequest.collected]

/-- The same request but for the order of its headers and the case of their names. -/
structure SameHeaders (r s : Ja4hRequest) : Prop where
  method : r.method = s.method
  httpVersion : r.httpVersion = s.httpVersion
  acceptLanguage : r.acceptLanguage = s.acceptLanguage
  headers : (r.headers.flatten.map HeaderLine.folded).Perm (s.headers.flatten.map HeaderLine.folded)

theorem any_perm {p : HeaderLine → Bool} (hp : ∀ hdr, p hdr.folded = p hdr)
    (h : (l.map HeaderLine.folded).Perm (l'.map HeaderLine.folded)) : l.any p = l'.any p := by
  have hfold : ∀ m : List HeaderLine, m.any p = (m.map HeaderLine.folded).any p := by
    intro m
    rw [List.any_map]
    exact List.any_congr rfl fun hdr => (hp hdr).symm
  rw [hfold l, hfold l']
  exact h.any_eq

theorem namesOf_perm (h : (l.map HeaderLine.folded).Perm (l'.map HeaderLine.folded)) :
    ((namesOf l).map lower).Perm ((namesOf l').map lower) := by
  have hnamed : HeaderLine.named ∘ HeaderLine.folded = HeaderLine.named := by
    funext hdr
    simp only [Function.comp, HeaderLine.named, ne_eq, hash_folded]
    rw [HeaderLine.folded, headerSkip_lower]
  have hfold : ∀ m : List HeaderLine,
      (namesOf m).map lower = namesOf (m.map HeaderLine.folded) := by
    intro m
    rw [namesOf, namesOf, List.filter_map, hnamed, List.map_map, List.map_map]
    rfl
  rw [hfold, hfold]
  exact (h.filter _).map _

end Walk

section Canon

/-- A text that the buffer has room for. -/
def fits (s : Bytes) : Option Bytes := if s.length < ngxSentinelJa4hCanlen - 1 then some s else none

/-- Bytes that nothing guards, when a guarded text follows them. -/
theorem fits_puts (cs s p : Bytes) :
    (fits p).bind (fun p => canappend s (p ++ cs)) = fits (p ++ cs ++ s) := by
  simp only [fits, List.length_append]
  split
  · rw [Option.bind_some, canappend]
    simp only [List.length_append, ge_iff_le, ← Nat.not_lt, ite_not]
  · rw [Option.bind_none, if_neg (by omega)]

theorem fits_append (s p : Bytes) : (fits p).bind (canappend s) = fits (p ++ s) := by
  simpa using fits_puts [] s p

/-- A text that is only there under a condition. -/
theorem fits_ite (c : Prop) [Decidable c] (s p : Bytes) :
    (fits p).bind (fun p => if c then canappend s p else some p) =
      fits (p ++ if c then s else []) := by
  split
  · exact fits_append s p
  · rw [List.append_nil]
    exact Option.bind_fun_some _

/-- The names with the commas between them; `i` are done. -/
def ja4hText : (names : List Bytes) → (i : Nat) → Bytes
  | [], _ => []
  | name :: names, i => (if i > 0 then str "," else []) ++ (lower name ++ ja4hText names (i + 1))

theorem fits_names (names : List Bytes) (i : Nat) (p : Bytes) :
    (fits p).bind (ja4hNames names i) = fits (p ++ ja4hText names i) := by
  induction names generalizing i p with
  | nil =>
      rw [ja4hText, List.append_nil]
      exact Option.bind_fun_some _
  | cons name names ih =>
      rw [ja4hText, ← List.append_assoc, ← List.append_assoc, ← ih, ← fits_append, ← fits_ite,
        Option.bind_assoc, Option.bind_assoc]
      congr 1
      funext p
      rw [ja4hNames]
      split
      · rfl
      · rfl

/-- The canonical string of what was collected. -/
def canonText (r : Ja4hRequest) (h : Ja4hHeaders) : Bytes :=
  r.method.text ++ str "|" ++ ja4hVersion r.httpVersion ++ str "|" ++
    [ja4hDigit (if h.hasCookie then 1 else 0), ja4hDigit (if h.hasReferer then 1 else 0)] ++
    str "|" ++ [ja4hDigit (min h.names.length 99 / 10), ja4hDigit (min h.names.length 99 % 10)] ++
    str "|" ++ ja4hText h.names 0 ++ str "|" ++ ja4hLang r.acceptLanguage

theorem canon_eq (r : Ja4hRequest) (h : Ja4hHeaders) : ja4hCanon r h = fits (canonText r h) := by
  have hlang : ja4hLang r.acceptLanguage =
      if (ja4hLang r.acceptLanguage).length > 0 then ja4hLang r.acceptLanguage else [] := by
    cases ja4hLang r.acceptLanguage with
    | nil | cons _ _ => rfl
  have hcnt : (if h.names.length > 99 then 99 else h.names.length) = min h.names.length 99 := by
    split
    · omega
    · omega
  have hputs : ∀ c d p, canput d (canput c p) = p ++ [c, d] := fun c d p => by
    rw [canput, canput, List.append_assoc, List.singleton_append]
  have hstart : canappend r.method.text [] = fits r.method.text := fits_append _ []
  rw [canonText, hlang, ← fits_ite, ← fits_append, ← fits_names, ← fits_puts, ← fits_puts]
  rw [← fits_append, ← fits_append, ← fits_append]
  simp only [Option.bind_assoc, ja4hCanon, hcnt, hputs, hstart]
  rfl

theorem ja4hText_lower (names : List Bytes) (i : Nat) :
    ja4hText (names.map lower) i = ja4hText names i := by
  induction names generalizing i with
  | nil => rfl
  | cons name names ih => rw [List.map_cons, ja4hText, ja4hText, lower_lower, ih]

/-- How long the names and the commas between them are. -/
def textLength (names : List Bytes) : Nat := (names.map List.length).sum + (names.length - 1)

theorem ja4hText_length (names : List Bytes) : (ja4hText names 0).length = textLength names := by
  have hrest : ∀ (names : List Bytes) (i : Nat), 0 < i →
      (ja4hText names i).length = (names.map List.length).sum + names.length := by
    intro names
    induction names with
    | nil => exact fun _ _ => rfl
    | cons name names ih =>
        intro i hi
        rw [ja4hText, if_pos hi, List.length_append, List.length_append, lower_length,
          ih (i + 1) (Nat.succ_pos i), List.map_cons, List.sum_cons, List.length_cons]
        have hcomma : (str ",").length = 1 := by decide
        omega
  cases names with
  | nil => rfl
  | cons name names =>
      rw [ja4hText, if_neg (Nat.lt_irrefl 0), List.nil_append, List.length_append, lower_length,
        hrest names 1 Nat.one_pos, textLength, List.map_cons, List.sum_cons, List.length_cons]
      omega

theorem canonText_length (r : Ja4hRequest) (h : Ja4hHeaders) :
    (canonText r h).length = 13 + textLength h.names + (ja4hLang r.acceptLanguage).length := by
  have hmethod : r.method.text.length = 2 := by
    cases r.method with
    | _ => decide
  have hversion : (ja4hVersion r.httpVersion).length = 2 := by
    rw [ja4hVersion]
    split
    · decide
    split
    · decide
    · decide
  have hbar : (str "|").length = 1 := by decide
  simp only [canonText, List.length_append, List.length_cons, List.length_nil, ja4hText_length]
  omega

end Canon

section Invariance
variable {r s : Ja4hRequest}

/-- What is kept does not fit the buffer. -/
def Ja4hRequest.TooLong (r : Ja4hRequest) : Prop :=
  ngxSentinelJa4hCanlen - 1 ≤ 13 + textLength r.kept + (ja4hLang r.acceptLanguage).length

/-- No name of a header has a NUL, which nginx does not let in. -/
def Ja4hRequest.NulFree (r : Ja4hRequest) : Prop := ∀ hdr ∈ r.headers.flatten, 0 ∉ hdr.key

instance (r : Ja4hRequest) : Decidable r.NulFree := inferInstanceAs (Decidable (∀ _ ∈ _, _))

theorem textLength_perm {names names' : List Bytes}
    (h : (names.map lower).Perm (names'.map lower)) : textLength names = textLength names' := by
  have hlower : ∀ l : List Bytes, l.map List.length = (l.map lower).map List.length := by
    intro l
    rw [List.map_map]
    exact List.map_congr_left fun name _ => (lower_length name).symm
  have hlen : names.length = names'.length := by simpa using h.length_eq
  rw [textLength, textLength, hlower names, hlower names', (h.map List.length).sum_nat, hlen]

/-- A list of one name or none is sorted as it is. -/
theorem ja4hSort_eq (ngx : Ja4hCore) (h : Ja4hHeaders) :
    ja4hSort ngx h = { h with names := ngx.qsort ja4hStrcmp h.names } := by
  rw [ja4hSort]
  split
  · rfl
  next hlen =>
    have hperm := ngx.qsort_perm ja4hStrcmp h.names
    obtain ⟨hasCookie, hasReferer, names⟩ := h
    cases names with
    | nil => rw [List.perm_nil.mp hperm]
    | cons name names =>
        cases names with
        | nil => rw [List.perm_singleton.mp hperm]
        | cons _ _ => simp at hlen

/-- Whatever the order, the names that are sorted are those that are kept. -/
theorem sorted_perm (ngx : Ja4hCore) (r : Ja4hRequest) :
    ((ngx.qsort ja4hStrcmp (ja4hWalk r).names).map lower).Perm r.kept := by
  rw [ja4hWalk_eq]
  exact (ngx.qsort_perm _ _).map lower

theorem kept_lower (r : Ja4hRequest) : r.kept.map lower = r.kept := by
  rw [Ja4hRequest.kept, List.map_map]
  exact List.map_congr_left fun name _ => lower_lower name

theorem compute_of_tooLong (ngx : Ja4hCore) (h : r.TooLong) :
    sentinelJa4hCompute ngx r = List.replicate ngxSentinelJa4hHexLen (ch '0') := by
  have hlength : textLength (ngx.qsort ja4hStrcmp (ja4hWalk r).names) = textLength r.kept :=
    textLength_perm (by rw [kept_lower]; exact sorted_perm ngx r)
  have hlen : ¬ (canonText r (ja4hSort ngx (ja4hWalk r))).length < ngxSentinelJa4hCanlen - 1 := by
    rw [canonText_length, ja4hSort_eq, hlength]
    exact Nat.not_lt.mpr h
  rw [sentinelJa4hCompute, canon_eq, fits, if_neg hlen]

theorem le_textLength {names : List Bytes} {name : Bytes} (h : name ∈ names) :
    name.length ≤ textLength names := by
  obtain ⟨pre, post, rfl⟩ := List.append_of_mem h
  simp only [textLength, List.map_append, List.map_cons, List.sum_append, List.sum_cons]
  omega

theorem canonText_eq (ngx : Ja4hCore) (h : SameHeaders r s) (hr : r.NulFree) (hs : s.NulFree)
    (hkept : r.kept.Perm s.kept) (hshort : ∀ name ∈ r.kept, name.length < 2 ^ 31) :
    canonText r (ja4hSort ngx (ja4hWalk r)) = canonText s (ja4hSort ngx (ja4hWalk s)) := by
  have hnul : ∀ {r : Ja4hRequest}, r.NulFree →
      ∀ name ∈ r.collected.take ngxSentinelJa4hMaxHdrs, 0 ∉ name := by
    intro r hr name hname
    obtain ⟨hdr, hhdr, rfl⟩ := List.mem_map.mp (List.mem_of_mem_take hname)
    exact hr hdr (List.mem_of_mem_filter hhdr)
  have hlen : ∀ {r : Ja4hRequest}, (∀ name ∈ r.kept, name.length < 2 ^ 31) →
      ∀ name ∈ r.collected.take ngxSentinelJa4hMaxHdrs, name.length < 2 ^ 31 := by
    intro r hshort name hname
    rw [← lower_length]
    exact hshort _ (List.mem_map_of_mem hname)
  have hshort' : ∀ name ∈ s.kept, name.length < 2 ^ 31 := fun name hname =>
    hshort name (hkept.mem_iff.mpr hname)
  have hcount : (r.collected.take ngxSentinelJa4hMaxHdrs).length =
      (s.collected.take ngxSentinelJa4hMaxHdrs).length := by
    simpa [Ja4hRequest.kept] using hkept.length_eq
  have hsorted := sort_lower_eq ngx (hnul hr) (hnul hs) (hlen hshort) (hlen hshort') hkept
  have hcookie : ∀ hdr : HeaderLine, hdr.folded.cookie = hdr.cookie := by
    intro hdr
    simp only [HeaderLine.cookie, ne_eq, hash_folded, headerIs_folded]
  have hreferer : ∀ hdr : HeaderLine, hdr.folded.referer = hdr.referer := by
    intro hdr
    simp only [HeaderLine.referer, ne_eq, hash_folded, headerIs_folded]
  rw [ja4hSort_eq, ja4hSort_eq, ja4hWalk_eq, ja4hWalk_eq]
  simp only [canonText]
  rw [h.method, h.httpVersion, h.acceptLanguage, any_perm hcookie h.headers,
    any_perm hreferer h.headers, ← ja4hText_lower, hsorted, ja4hText_lower,
    (ngx.qsort_perm _ _).length_eq, (ngx.qsort_perm _ _).length_eq, hcount]

theorem compute_of_kept (ngx : Ja4hCore) (h : SameHeaders r s) (hr : r.NulFree) (hs : s.NulFree)
    (hkept : r.kept.Perm s.kept) : sentinelJa4hCompute ngx r = sentinelJa4hCompute ngx s := by
  by_cases hshort : ∀ name ∈ r.kept, name.length < 2 ^ 31
  · rw [sentinelJa4hCompute, sentinelJa4hCompute, canon_eq, canon_eq,
      canonText_eq ngx h hr hs hkept hshort]
  · -- a name that long fills the buffer of either request
    have hlong : ∀ {r : Ja4hRequest}, (∃ name ∈ r.kept, 2 ^ 31 ≤ name.length) → r.TooLong := by
      intro r hname
      obtain ⟨name, hmem, hlen⟩ := hname
      have hle := le_textLength hmem
      rw [Ja4hRequest.TooLong, ngxSentinelJa4hCanlen]
      omega
    simp only [not_forall, Nat.not_lt, exists_prop] at hshort
    obtain ⟨name, hmem, hlen⟩ := hshort
    rw [compute_of_tooLong ngx (hlong ⟨name, hmem, hlen⟩),
      compute_of_tooLong ngx (hlong ⟨name, hkept.mem_iff.mp hmem, hlen⟩)]

theorem kept_of_collected (h : SameHeaders r s)
    (hlen : r.collected.length ≤ ngxSentinelJa4hMaxHdrs) : r.kept.Perm s.kept := by
  have hperm : (r.collected.map lower).Perm (s.collected.map lower) := namesOf_perm h.headers
  have hlen' : s.collected.length ≤ ngxSentinelJa4hMaxHdrs := by
    have heq : r.collected.length = s.collected.length := by simpa using hperm.length_eq
    omega
  rwa [Ja4hRequest.kept, Ja4hRequest.kept, List.take_of_length_le hlen,
    List.take_of_length_le hlen']

/-- Two requests that differ in the order of their headers and in the case of the
names have one fingerprint, when no more than 64 names are collected, and also
when those that there is room for are the same or do not fit the buffer. -/
theorem ja4h_invariant (ngx : Ja4hCore) (h : SameHeaders r s) (hr : r.NulFree) (hs : s.NulFree)
    (hkept : r.collected.length ≤ ngxSentinelJa4hMaxHdrs ∨ r.kept.Perm s.kept ∨
      (r.TooLong ∧ s.TooLong)) :
    sentinelJa4hCompute ngx r = sentinelJa4hCompute ngx s := by
  obtain hfew | hsame | hlong := hkept
  · exact compute_of_kept ngx h hr hs (kept_of_collected h hfew)
  · exact compute_of_kept ngx h hr hs hsame
  · rw [compute_of_tooLong ngx hlong.1, compute_of_tooLong ngx hlong.2]

end Invariance

namespace Ref

def ja4h : Ja4hCore where
  toNgxCore := ngx
  qsort := KeySort.sort
  qsort_perm := KeySort.sort_perm
  qsort_sorted := fun _ _ => KeySort.sort_sorted

end Ref

section Crowded

/-- A `GET` of HTTP/1.1 with the headers of these names. -/
def getWith (names : List String) : Ja4hRequest :=
  ⟨.get, 1001, [names.map fun name => ⟨1, str name⟩], none⟩

/-- 64 headers of one name, and one of another behind them. -/
def lastOdd : Ja4hRequest := getWith (List.replicate 64 "a" ++ ["b"])

/-- The same headers with the odd one at the head. -/
def firstOdd : Ja4hRequest := getWith ("b" :: List.replicate 64 "a")

/-- The 65th name is dropped, and which one that is depends on the order. -/
theorem crowded_order_shows :
    SameHeaders lastOdd firstOdd ∧ lastOdd.NulFree ∧ firstOdd.NulFree ∧
      sentinelJa4hCompute Ref.ja4h lastOdd ≠ sentinelJa4hCompute Ref.ja4h firstOdd := by
  refine ⟨⟨rfl, rfl, rfl, by decide +kernel⟩, by decide +kernel, by decide +kernel,
    by decide +kernel⟩

/-- Two headers in either order, and in either case. -/
theorem reordered_headers_agree :
    sentinelJa4hCompute Ref.ja4h (getWith ["Host", "Accept"]) =
      sentinelJa4hCompute Ref.ja4h (getWith ["accept", "host"]) :=
  ja4h_invariant Ref.ja4h ⟨rfl, rfl, rfl, by decide +kernel⟩ (by decide +kernel)
    (by decide +kernel) (.inl (by decide +kernel))

end Crowded

end Sentinel
