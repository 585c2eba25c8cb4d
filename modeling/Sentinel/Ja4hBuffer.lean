import Sentinel.Ja4hOrder
import Sentinel.Lib.Memory

/-!
The fingerprint in the memory that it is built in: the array of the names and the
buffer of the canonical string, both of fixed size and found as they are on the
stack. Pointers are offsets, and what is behind them is never read before it is
written. The run follows the functions on lists and so stays inside both.
-/

namespace Sentinel

section Types

inductive Ja4hLabel where
  | overflow
  deriving DecidableEq, Repr

abbrev Ja4hRun := Except (Memory.Stop Ja4hLabel)

/-- The two arrays of the stack frame. -/
structure Ja4hFrame where
  hdrNames : Vector Bytes ngxSentinelJa4hMaxHdrs
  canon : Vector UInt8 ngxSentinelJa4hCanlen

/-- What the walk over the headers leaves. -/
structure Ja4hCollected where
  hasCookie : Bool
  hasReferer : Bool
  nhdr : Nat
  hdrNames : Vector Bytes ngxSentinelJa4hMaxHdrs

/-- The buffer and `p`. -/
structure CanonBuf where
  canon : Vector UInt8 ngxSentinelJa4hCanlen
  p : Nat

end Types
section Run

def ja4hHeaderMem (c : Ja4hCollected) (hdr : HeaderLine) : Ja4hRun Ja4hCollected :=
  if hdr.hash = 0 then .ok c
  else
    let c :=
      if headerIs hdr (str "Cookie") then { c with hasCookie := true }
      else if headerIs hdr (str "Referer") then { c with hasReferer := true }
      else c
    if ja4hHeaderSkip hdr.key then .ok c
    else if c.nhdr < ngxSentinelJa4hMaxHdrs then do
      let hdrNames ← Memory.store c.hdrNames c.nhdr hdr.key
      .ok { c with hdrNames, nhdr := c.nhdr + 1 }
    else .ok c

def ja4hWalkMem (r : Ja4hRequest) (frame : Ja4hFrame) : Ja4hRun Ja4hCollected :=
  r.headers.foldlM (fun c part => part.foldlM ja4hHeaderMem c) ⟨false, false, 0, frame.hdrNames⟩

/-- `ngx_qsort` takes the first `nhdr` names and puts them back. -/
def ja4hSortMem (ngx : Ja4hCore) (c : Ja4hCollected) : Ja4hRun Ja4hCollected :=
  if c.nhdr > 1 then do
    let names ← Memory.first c.hdrNames c.nhdr
    let hdrNames ← Memory.copy (ngx.qsort ja4hStrcmp names) c.hdrNames 0
    .ok { c with hdrNames }
  else .ok c

/-- `CANAPPEND_STR` -/
def CanonBuf.append (s : Bytes) (b : CanonBuf) : Ja4hRun CanonBuf :=
  if b.p + s.length ≥ ngxSentinelJa4hCanlen - 1 then .error (.jump .overflow)
  else do
    let canon ← Memory.copy s b.canon b.p
    .ok ⟨canon, b.p + s.length⟩

/-- `*p++ = c` -/
def CanonBuf.put (c : UInt8) (b : CanonBuf) : Ja4hRun CanonBuf := do
  let canon ← Memory.store b.canon b.p c
  .ok ⟨canon, b.p + 1⟩

/-- The loop that copies a name. -/
def CanonBuf.putLower : Bytes → CanonBuf → Ja4hRun CanonBuf
  | [], b => .ok b
  | c :: data, b => do
      let b ← b.put (ngxTolower c)
      b.putLower data

/-- `CANAPPEND_STR` under a condition of its own -/
def CanonBuf.appendIf (cond : Prop) [Decidable cond] (s : Bytes) (b : CanonBuf) :
    Ja4hRun CanonBuf :=
  if cond then b.append s else .ok b

/-- A name: guarded once, then copied byte by byte. -/
def CanonBuf.appendLower (data : Bytes) (b : CanonBuf) : Ja4hRun CanonBuf :=
  if b.p + data.length ≥ ngxSentinelJa4hCanlen - 1 then .error (.jump .overflow)
  else b.putLower data

/-- The loop over the names, of which `left` are left and `i` are done. -/
def ja4hNamesMem (hdrNames : Vector Bytes ngxSentinelJa4hMaxHdrs) :
    (left i : Nat) → CanonBuf → Ja4hRun CanonBuf
  | 0, _, b => .ok b
  | left + 1, i, b => do
      let b ← b.appendIf (i > 0) (str ",")
      let name ← Memory.load hdrNames i
      let b ← b.appendLower name
      ja4hNamesMem hdrNames left (i + 1) b

def ja4hCanonMem (r : Ja4hRequest) (c : Ja4hCollected)
    (canon : Vector UInt8 ngxSentinelJa4hCanlen) : Ja4hRun CanonBuf := do
  let b : CanonBuf := ⟨canon, 0⟩
  let b ← b.append r.method.text
  let b ← b.append (str "|")
  let b ← b.append (ja4hVersion r.httpVersion)
  let b ← b.append (str "|")
  let b ← b.put (ja4hDigit (if c.hasCookie then 1 else 0))
  let b ← b.put (ja4hDigit (if c.hasReferer then 1 else 0))
  let b ← b.append (str "|")
  let cnt := if c.nhdr > 99 then 99 else c.nhdr
  let b ← b.put (ja4hDigit (cnt / 10))
  let b ← b.put (ja4hDigit (cnt % 10))
  let b ← b.append (str "|")
  let b ← ja4hNamesMem c.hdrNames c.nhdr 0 b
  let b ← b.append (str "|")
  let lang := ja4hLang r.acceptLanguage
  let b ← b.appendIf (lang.length > 0) lang
  let canon ← Memory.store b.canon b.p 0
  .ok ⟨canon, b.p⟩

variable (ngx : Ja4hCore)

/-- All of it up to the hash. -/
def ja4hBuildMem (r : Ja4hRequest) (frame : Ja4hFrame) : Ja4hRun CanonBuf := do
  let c ← ja4hWalkMem r frame
  let c ← ja4hSortMem ngx c
  ja4hCanonMem r c frame.canon

/-- Digits, written from the start of `out`, and the NUL behind them. -/
def ja4hOutMem (digits : Bytes) (out : Vector UInt8 (ngxSentinelJa4hHexLen + 1)) :
    Ja4hRun (Vector UInt8 (ngxSentinelJa4hHexLen + 1)) := do
  let out ← Memory.copy digits out 0
  Memory.store out ngxSentinelJa4hHexLen 0

def sentinelJa4hComputeMem (r : Ja4hRequest) (frame : Ja4hFrame)
    (out : Vector UInt8 (ngxSentinelJa4hHexLen + 1)) :
    Ja4hRun (Vector UInt8 (ngxSentinelJa4hHexLen + 1)) := do
  let out ← ja4hOutMem (List.replicate ngxSentinelJa4hHexLen (ch '0')) out
  match ja4hBuildMem ngx r frame with
  | .error (.jump .overflow) => .ok out
  | .error (.fault i) => .error (.fault i)
  | .ok b =>
      let canon ← Memory.first b.canon b.p
      ja4hOutMem (ja4hHex (ngx.sha256 canon)) out

end Run
section Canon
open Memory
variable {b : CanonBuf} {p : Bytes}

/-- The buffer starts with a text, and `p` is behind it. -/
structure CanonBuf.Holds (b : CanonBuf) (p : Bytes) : Prop where
  cursor : b.p = p.length
  text : p <+: b.canon.toList

/-- What the walk left stands for the flags and names that it collects. -/
structure Ja4hCollected.Holds (c : Ja4hCollected) (h : Ja4hHeaders) : Prop where
  cookie : c.hasCookie = h.hasCookie
  referer : c.hasReferer = h.hasReferer
  count : c.nhdr = h.names.length
  names : h.names <+: c.hdrNames.toList

/-- What the guard has let through leaves two bytes of the buffer. -/
theorem canappend_length {s q : Bytes} (h : canappend s p = some q) :
    q.length < ngxSentinelJa4hCanlen - 1 := by
  rw [canappend] at h
  split at h
  next => contradiction
  next hroom =>
    obtain rfl := Option.some.inj h
    rw [List.length_append]
    omega

theorem append_follows (h : b.Holds p) (s : Bytes) :
    Follows CanonBuf.Holds (b.append s) (canappend s p) := by
  rw [CanonBuf.append, canappend, h.cursor]
  split
  next => exact .jump Ja4hLabel.overflow
  next hroom =>
    obtain ⟨canon, hcopy, hcanon⟩ := copy_next (ε := Ja4hLabel) s h.text (by omega)
    rw [hcopy]
    exact .result ⟨(List.length_append ..).symm, hcanon⟩

theorem put_ok (h : b.Holds p) (hroom : p.length < ngxSentinelJa4hCanlen) (c : UInt8) :
    ∃ b', b.put c = .ok b' ∧ b'.Holds (canput c p) := by
  obtain ⟨canon, hstore, hcanon⟩ := store_next (ε := Ja4hLabel) h.text hroom c
  refine ⟨⟨canon, b.p + 1⟩, ?_, ?_, hcanon⟩
  · rw [CanonBuf.put, h.cursor, hstore]
    rfl
  · rw [canput, List.length_append, List.length_singleton, h.cursor]

theorem putLower_ok (data : Bytes) : ∀ {b : CanonBuf} {p : Bytes}, b.Holds p →
    p.length + data.length ≤ ngxSentinelJa4hCanlen →
    ∃ b', b.putLower data = .ok b' ∧ b'.Holds (p ++ lower data) := by
  induction data with
  | nil =>
      intro b p h _
      exact ⟨b, rfl, by simpa [lower] using h⟩
  | cons c data ih =>
      intro b p h hroom
      rw [List.length_cons] at hroom
      obtain ⟨b', hput, h'⟩ := put_ok h (by omega) (ngxTolower c)
      have hroom' : (canput (ngxTolower c) p).length + data.length ≤ ngxSentinelJa4hCanlen := by
        rw [canput, List.length_append, List.length_singleton]
        omega
      obtain ⟨b'', hrest, h''⟩ := ih h' hroom'
      refine ⟨b'', ?_, ?_⟩
      · rw [CanonBuf.putLower, hput]
        exact hrest
      · simpa [canput, lower] using h''

theorem appendIf_follows (h : b.Holds p) (cond : Prop) [Decidable cond] (s : Bytes) :
    Follows CanonBuf.Holds (b.appendIf cond s) (if cond then canappend s p else some p) := by
  rw [CanonBuf.appendIf]
  split
  next => exact append_follows h s
  next => exact .result h

/-- A guard and a loop do for a name what `CANAPPEND_STR` does for its lowercase form. -/
theorem appendLower_follows (h : b.Holds p) (name : Bytes) :
    Follows CanonBuf.Holds (b.appendLower name) (canappend (lower name) p) := by
  rw [CanonBuf.appendLower, canappend, lower_length, h.cursor]
  split
  next => exact .jump Ja4hLabel.overflow
  next hroom =>
    obtain ⟨b', hput, h'⟩ := putLower_ok name h (by omega)
    rw [hput]
    exact .result h'

theorem ja4hNames_cons (name : Bytes) (names : List Bytes) (i : Nat) (p : Bytes) :
    ja4hNames (name :: names) i p =
      ((if i > 0 then canappend (str ",") p else some p) >>= fun p =>
        canappend (lower name) p >>= ja4hNames names (i + 1)) := by
  rw [ja4hNames]
  by_cases hi : i > 0
  · simp only [hi, if_true]
    rfl
  · simp only [hi, if_false]
    rfl

/-- The loop reads the names that are there and no others. -/
theorem names_follow {hdrNames : Vector Bytes ngxSentinelJa4hMaxHdrs} {names : List Bytes}
    (hnames : names <+: hdrNames.toList) (left : Nat) :
    ∀ {i : Nat} {b : CanonBuf} {p : Bytes}, i + left = names.length → b.Holds p →
      Follows CanonBuf.Holds (ja4hNamesMem hdrNames left i b) (ja4hNames (names.drop i) i p) := by
  induction left with
  | zero =>
      intro i b p hleft h
      rw [List.drop_eq_nil_of_le (by omega)]
      exact .result h
  | succ left ih =>
      intro i b p hleft h
      have hi : i < names.length := by omega
      rw [List.drop_eq_getElem_cons hi, ja4hNamesMem, ja4hNames_cons]
      refine (appendIf_follows h _ _).bind fun b p _ h => ?_
      rw [load_of_start hnames hi]
      refine (appendLower_follows h names[i]).bind fun b p _ h => ?_
      exact ih (by omega) h

/-- The NUL goes right behind the text, which is all that is read of the buffer. -/
theorem nul_ok (h : b.Holds p) (hroom : p.length < ngxSentinelJa4hCanlen) :
    ∃ b', (do
        let canon ← store b.canon b.p 0
        Except.ok ⟨canon, b.p⟩ : Ja4hRun CanonBuf) = .ok b' ∧ b'.Holds p := by
  obtain ⟨canon, hstore, hcanon⟩ := store_next (ε := Ja4hLabel) h.text hroom 0
  refine ⟨⟨canon, b.p⟩, ?_, h.cursor, (List.prefix_append p [0]).trans hcanon⟩
  rw [h.cursor, hstore]
  rfl

/-- The four bytes that nothing guards, and the NUL, come after a guard that has left
them room. -/
theorem canon_follows {c : Ja4hCollected} {h : Ja4hHeaders} (hc : c.Holds h) (r : Ja4hRequest)
    (canon : Vector UInt8 ngxSentinelJa4hCanlen) :
    Follows CanonBuf.Holds (ja4hCanonMem r c canon) (ja4hCanon r h) := by
  have hstart : CanonBuf.Holds ⟨canon, 0⟩ [] := ⟨rfl, List.nil_prefix⟩
  rw [ja4hCanonMem, ja4hCanon, hc.cookie, hc.referer, hc.count]
  refine (append_follows hstart r.method.text).bind fun b p _ h1 => ?_
  refine (append_follows h1 (str "|")).bind fun b p _ h2 => ?_
  refine (append_follows h2 (ja4hVersion r.httpVersion)).bind fun b p _ h3 => ?_
  refine (append_follows h3 (str "|")).bind fun b p hp h4 => ?_
  have hp := canappend_length hp
  refine Follows.ok_bind (put_ok h4 (by omega) _) fun b h5 => ?_
  refine Follows.ok_bind (put_ok h5 (by simp [canput]; omega) _) fun b h6 => ?_
  refine (append_follows h6 (str "|")).bind fun b p hp h7 => ?_
  have hp := canappend_length hp
  refine Follows.ok_bind (put_ok h7 (by omega) _) fun b h8 => ?_
  refine Follows.ok_bind (put_ok h8 (by simp [canput]; omega) _) fun b h9 => ?_
  refine (append_follows h9 (str "|")).bind fun b p _ h10 => ?_
  refine (names_follow hc.names h.names.length (by omega) h10).bind fun b p _ h11 => ?_
  refine (append_follows h11 (str "|")).bind fun b p hp h12 => ?_
  have hp := canappend_length hp
  refine (appendIf_follows h12 _ _).bind_ok fun b q hq h13 => ?_
  refine nul_ok h13 ?_
  split at hq
  next =>
    have hq := canappend_length hq
    omega
  next =>
    obtain rfl := Option.some.inj hq
    omega

end Canon
section Collect
open Memory
variable {c : Ja4hCollected} {h : Ja4hHeaders}

/-- A name that is kept goes to the place `nhdr`, which the test has found inside. -/
theorem collect_ok (hc : c.Holds h) (hdr : HeaderLine) :
    ∃ c', (if ja4hHeaderSkip hdr.key then .ok c
        else if c.nhdr < ngxSentinelJa4hMaxHdrs then do
          let hdrNames ← store c.hdrNames c.nhdr hdr.key
          .ok { c with hdrNames, nhdr := c.nhdr + 1 }
        else .ok c : Ja4hRun Ja4hCollected) = .ok c' ∧
      c'.Holds (if ja4hHeaderSkip hdr.key then h
        else if h.names.length < ngxSentinelJa4hMaxHdrs then
          { h with names := h.names ++ [hdr.key] }
        else h) := by
  rw [hc.count]
  split
  next => exact ⟨c, rfl, hc⟩
  next =>
    split
    next hroom =>
      obtain ⟨hdrNames, hstore, hnames⟩ := store_next (ε := Ja4hLabel) hc.names hroom hdr.key
      refine ⟨⟨c.hasCookie, c.hasReferer, h.names.length + 1, hdrNames⟩, ?_, hc.cookie,
        hc.referer, ?_, hnames⟩
      · rw [hstore]
        rfl
      · simp
    next => exact ⟨c, rfl, hc⟩

theorem header_ok (hc : c.Holds h) (hdr : HeaderLine) :
    ∃ c', ja4hHeaderMem c hdr = .ok c' ∧ c'.Holds (ja4hHeader h hdr) := by
  rw [ja4hHeaderMem, ja4hHeader]
  by_cases hhash : hdr.hash = 0
  · rw [if_pos hhash, if_pos hhash]
    exact ⟨c, rfl, hc⟩
  · rw [if_neg hhash, if_neg hhash]
    have hflags : Ja4hCollected.Holds
        (if headerIs hdr (str "Cookie") then { c with hasCookie := true }
          else if headerIs hdr (str "Referer") then { c with hasReferer := true } else c)
        (if headerIs hdr (str "Cookie") then { h with hasCookie := true }
          else if headerIs hdr (str "Referer") then { h with hasReferer := true } else h) := by
      split
      next => exact ⟨rfl, hc.referer, hc.count, hc.names⟩
      next =>
        split
        next => exact ⟨hc.cookie, rfl, hc.count, hc.names⟩
        next => exact hc
    exact collect_ok hflags hdr

theorem walk_ok (r : Ja4hRequest) (frame : Ja4hFrame) :
    ∃ c, ja4hWalkMem r frame = .ok c ∧ c.Holds (ja4hWalk r) := by
  have hstart : Ja4hCollected.Holds ⟨false, false, 0, frame.hdrNames⟩ ⟨false, false, []⟩ :=
    ⟨rfl, rfl, rfl, List.nil_prefix⟩
  have hpart : ∀ (c : Ja4hCollected) (h : Ja4hHeaders) (part : List HeaderLine), c.Holds h →
      ∃ c', part.foldlM ja4hHeaderMem c = .ok c' ∧ c'.Holds (part.foldl ja4hHeader h) := by
    intro c h part hc
    exact foldlM_ok (R := Ja4hCollected.Holds) (g := ja4hHeader)
      (fun _ _ hdr hc => header_ok hc hdr) part hc
  exact foldlM_ok (R := Ja4hCollected.Holds) hpart r.headers hstart

theorem sort_ok (ngx : Ja4hCore) (hc : c.Holds h) :
    ∃ c', ja4hSortMem ngx c = .ok c' ∧ c'.Holds (ja4hSort ngx h) := by
  rw [ja4hSortMem, ja4hSort, hc.count]
  split
  next =>
    have hlen := (ngx.qsort_perm ja4hStrcmp h.names).length_eq
    obtain ⟨hdrNames, hcopy, hsorted⟩ := copy_start (ε := Ja4hLabel) c.hdrNames
      (hlen.trans_le (length_le hc.names))
    refine ⟨⟨c.hasCookie, c.hasReferer, h.names.length, hdrNames⟩, ?_, hc.cookie, hc.referer,
      hlen.symm, hsorted⟩
    rw [first_of_start hc.names]
    change (copy _ c.hdrNames 0 >>= fun hdrNames => _) = _
    rw [hcopy]
    rfl
  next => exact ⟨c, rfl, hc⟩

/-- The run up to the hash follows the functions on lists. -/
theorem build_follows (ngx : Ja4hCore) (r : Ja4hRequest) (frame : Ja4hFrame) :
    Follows CanonBuf.Holds (ja4hBuildMem ngx r frame)
      (ja4hCanon r (ja4hSort ngx (ja4hWalk r))) :=
  Follows.ok_bind (walk_ok r frame) fun _ hc =>
    Follows.ok_bind (sort_ok ngx hc) fun _ hc => canon_follows hc r frame.canon

end Collect
section Compute
open Memory
variable (ngx : Ja4hCore)

theorem ja4hHex_length (canon : Bytes) :
    (ja4hHex (ngx.sha256 canon)).length = ngxSentinelJa4hHexLen := by
  simp [ja4hHex, List.length_flatMap, ngxSentinelJa4hBinLen, ngxSentinelJa4hHexLen,
    ngx.sha256_length]

theorem out_ok {digits : Bytes} (hdigits : digits.length = ngxSentinelJa4hHexLen)
    (out : Vector UInt8 (ngxSentinelJa4hHexLen + 1)) :
    ∃ out', ja4hOutMem digits out = .ok out' ∧ out'.toList = digits ++ [0] := by
  obtain ⟨out', hcopy, hout⟩ := copy_start (ε := Ja4hLabel) out (Nat.le_succ_of_le hdigits.le)
  obtain ⟨out'', hstore, hout'⟩ := store_next (ε := Ja4hLabel) hout (by omega) 0
  refine ⟨out'', ?_, ?_⟩
  · rw [hdigits] at hstore
    rw [ja4hOutMem, hcopy]
    exact hstore
  · refine (hout'.eq_of_length ?_).symm
    simp [hdigits]

theorem zeros_ok (out : Vector UInt8 (ngxSentinelJa4hHexLen + 1)) :
    ∃ out', ja4hOutMem (List.replicate ngxSentinelJa4hHexLen (ch '0')) out = .ok out' ∧
      out'.toList = List.replicate ngxSentinelJa4hHexLen (ch '0') ++ [0] :=
  out_ok List.length_replicate out

/-- An overflow leaves the zeros that were there first. -/
theorem computeMem_overflow {r : Ja4hRequest} {frame : Ja4hFrame}
    (h : ja4hBuildMem ngx r frame = .error (.jump .overflow))
    (out : Vector UInt8 (ngxSentinelJa4hHexLen + 1)) :
    ∃ out', sentinelJa4hComputeMem ngx r frame out = .ok out' ∧
      out'.toList = List.replicate ngxSentinelJa4hHexLen (ch '0') ++ [0] := by
  obtain ⟨out', hzeros, hout⟩ := zeros_ok out
  refine ⟨out', ?_, hout⟩
  rw [sentinelJa4hComputeMem, hzeros, h]
  rfl

/-- The function in memory writes what the one on lists yields. -/
theorem computeMem_eq (r : Ja4hRequest) (frame : Ja4hFrame)
    (out : Vector UInt8 (ngxSentinelJa4hHexLen + 1)) :
    ∃ out', sentinelJa4hComputeMem ngx r frame out = .ok out' ∧
      out'.toList = sentinelJa4hCompute ngx r ++ [0] := by
  have hbuild := build_follows ngx r frame
  rw [sentinelJa4hCompute]
  generalize hrun : ja4hBuildMem ngx r frame = run at hbuild
  generalize ja4hCanon r (ja4hSort ngx (ja4hWalk r)) = text at hbuild ⊢
  cases hbuild with
  | jump label =>
      cases label
      exact computeMem_overflow ngx hrun out
  | @result b canon hb =>
      obtain ⟨zeroed, hzeros, -⟩ := zeros_ok out
      obtain ⟨out', hdigits, hout⟩ := out_ok (ja4hHex_length ngx canon) zeroed
      refine ⟨out', ?_, hout⟩
      have hfirst : first b.canon b.p = Except.ok (ε := Stop Ja4hLabel) canon := by
        rw [hb.cursor]
        exact first_of_start hb.text
      rw [sentinelJa4hComputeMem, hzeros, hrun]
      change (first b.canon b.p >>= _) = _
      rw [hfirst]
      exact hdigits

/-- No access is outside of the buffer, of the array of names or of `out`, and an
overflow leaves all zeros. -/
theorem computeMem_inside (r : Ja4hRequest) (frame : Ja4hFrame)
    (out : Vector UInt8 (ngxSentinelJa4hHexLen + 1)) :
    (∀ i, ja4hBuildMem ngx r frame ≠ .error (.fault i)) ∧
      (∀ i, sentinelJa4hComputeMem ngx r frame out ≠ .error (.fault i)) ∧
      (ja4hBuildMem ngx r frame = .error (.jump .overflow) →
        ∃ out', sentinelJa4hComputeMem ngx r frame out = .ok out' ∧
          out'.toList = List.replicate ngxSentinelJa4hHexLen (ch '0') ++ [0]) := by
  refine ⟨(build_follows ngx r frame).no_fault, ?_, fun h => computeMem_overflow ngx h out⟩
  intro i hfault
  obtain ⟨out', hok, -⟩ := computeMem_eq ngx r frame out
  rw [hok] at hfault
  contradiction

end Compute

end Sentinel
