import Sentinel.Lib.KeySort
import Sentinel.Pow
import Sentinel.Score

/-!
The JA4H fingerprint of `sentinel_ja4h.c`: the walk over the request's headers,
the sort of their names, and the canonical string, which is built in a buffer of
fixed size and given up when it does not fit.

Left out: the log lines.
-/

namespace Sentinel

section Types

def ngxSentinelJa4hBinLen : Nat := 12

def ngxSentinelJa4hCanlen : Nat := 4096

def ngxSentinelJa4hMaxHdrs : Nat := 64

/-- What the fingerprint reads of an `ngx_table_elt_t`; a header that was taken
out of the list has a hash of 0. -/
structure HeaderLine where
  hash : Nat
  key : Bytes
  deriving DecidableEq, Repr

/-- The methods that have an abbreviation of their own. -/
inductive Ja4hMethod where
  | get | post | put | delete | head | options | patch | other
  deriving DecidableEq, Repr

/-- What the fingerprint reads of a request; `headers` has the parts of the list. -/
structure Ja4hRequest where
  method : Ja4hMethod
  httpVersion : Nat
  headers : List (List HeaderLine)
  acceptLanguage : Option Bytes
  deriving DecidableEq, Repr

structure Ja4hCore extends NgxCore where
  /-- `ngx_qsort`, which is `qsort`: it only moves what it sorts. -/
  qsort : (Bytes → Bytes → Int) → List Bytes → List Bytes
  qsort_perm : ∀ cmp l, (qsort cmp l).Perm l
  qsort_sorted : ∀ cmp l, KeySort.Orders cmp l → (qsort cmp l).Pairwise fun a b => cmp a b ≤ 0

end Types

section Names

def ja4hSkipNames : List Bytes := [str "cookie", str "referer"]

def ja4hHeaderSkip (name : Bytes) : Bool :=
  ja4hSkipNames.any fun s => name.length = s.length ∧ ngxStrncasecmp name s s.length = 0

/-- `(int)` of a length -/
def toInt (n : Nat) : Int := (n : Int).bmod (2 ^ 32)

def ja4hStrcmp (a b : Bytes) : Int :=
  let minLen := if a.length < b.length then a.length else b.length
  let rc := ngxStrncasecmp a b minLen
  if rc ≠ 0 then rc else toInt a.length - toInt b.length

end Names

section Walk

/-- The flags and the names that the walk collects. -/
structure Ja4hHeaders where
  hasCookie : Bool
  hasReferer : Bool
  names : List Bytes
  deriving DecidableEq, Repr

def headerIs (hdr : HeaderLine) (name : Bytes) : Bool :=
  hdr.key.length = name.length ∧ ngxStrncasecmp hdr.key name name.length = 0

/-- One pass of the loop over a part. -/
def ja4hHeader (s : Ja4hHeaders) (hdr : HeaderLine) : Ja4hHeaders :=
  if hdr.hash = 0 then s
  else
    let s :=
      if headerIs hdr (str "Cookie") then { s with hasCookie := true }
      else if headerIs hdr (str "Referer") then { s with hasReferer := true }
      else s
    if ja4hHeaderSkip hdr.key then s
    else if s.names.length < ngxSentinelJa4hMaxHdrs then { s with names := s.names ++ [hdr.key] }
    else s

def ja4hWalk (r : Ja4hRequest) : Ja4hHeaders :=
  r.headers.foldl (fun s part => part.foldl ja4hHeader s) ⟨false, false, []⟩

end Walk

section Canon

def Ja4hMethod.text : Ja4hMethod → Bytes
  | .get => str "ge"
  | .post => str "po"
  | .put => str "pu"
  | .delete => str "de"
  | .head => str "he"
  | .options => str "op"
  | .patch => str "pa"
  | .other => str "xx"

def ja4hVersion (httpVersion : Nat) : Bytes :=
  if httpVersion ≥ 2000 then str "20" else if httpVersion ≥ 1001 then str "11" else str "10"

/-- The first tag of `Accept-Language`, of at most 32 bytes. -/
def ja4hLang (acceptLanguage : Option Bytes) : Bytes :=
  match acceptLanguage with
  | none => []
  | some v => (v.takeWhile fun c => c ≠ ch ',' ∧ c ≠ ch ';' ∧ c ≠ ch ' ').take 32

/-- `CANAPPEND_STR`, which is the jump to `overflow` when `s` does not fit behind `p`. -/
def canappend (s p : Bytes) : Option Bytes :=
  if p.length + s.length ≥ ngxSentinelJa4hCanlen - 1 then none else some (p ++ s)

/-- `*p++ = c`, which nothing guards. -/
def canput (c : UInt8) (p : Bytes) : Bytes := p ++ [c]

/-- The loop over the sorted names; `i` counts those that are done. -/
def ja4hNames : (names : List Bytes) → (i : Nat) → (p : Bytes) → Option Bytes
  | [], _, p => some p
  | name :: names, i, p => do
      let p ← if i > 0 then canappend (str ",") p else some p
      let p ← canappend (name.map ngxTolower) p
      ja4hNames names (i + 1) p

def ja4hDigit (n : Nat) : UInt8 := UInt8.ofNat (48 + n)

/-- The canonical string of what the walk collected, with its names sorted. -/
def ja4hCanon (r : Ja4hRequest) (h : Ja4hHeaders) : Option Bytes := do
  let p ← canappend r.method.text []
  let p ← canappend (str "|") p
  let p ← canappend (ja4hVersion r.httpVersion) p
  let p ← canappend (str "|") p
  let p := canput (ja4hDigit (if h.hasCookie then 1 else 0)) p
  let p := canput (ja4hDigit (if h.hasReferer then 1 else 0)) p
  let p ← canappend (str "|") p
  let cnt := if h.names.length > 99 then 99 else h.names.length
  let p := canput (ja4hDigit (cnt / 10)) p
  let p := canput (ja4hDigit (cnt % 10)) p
  let p ← canappend (str "|") p
  let p ← ja4hNames h.names 0 p
  let p ← canappend (str "|") p
  let lang := ja4hLang r.acceptLanguage
  if lang.length > 0 then canappend lang p else some p

variable (ngx : Ja4hCore)

def ja4hSort (h : Ja4hHeaders) : Ja4hHeaders :=
  if h.names.length > 1 then { h with names := ngx.qsort ja4hStrcmp h.names } else h

def ja4hHexDigits : Bytes := str "0123456789abcdef"

def ja4hHex (digest : Bytes) : Bytes :=
  (digest.take ngxSentinelJa4hBinLen).flatMap fun (b : UInt8) =>
    [ja4hHexDigits.getD ((b >>> 4) &&& 0xf).toNat 0, ja4hHexDigits.getD (b &&& 0xf).toNat 0]

/-- The digits that are written out; the NUL behind them is left out. -/
def sentinelJa4hCompute (r : Ja4hRequest) : Bytes :=
  match ja4hCanon r (ja4hSort ngx (ja4hWalk r)) with
  | none => List.replicate ngxSentinelJa4hHexLen (ch '0')
  | some canon => ja4hHex (ngx.sha256 canon)

end Canon

end Sentinel
