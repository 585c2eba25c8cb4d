import Sentinel.Lib.Lines
import Sentinel.ShmCrowdsec

/-!
The decision-feed loader of `sentinel_feed.c`: validation of a feed file, then
the apply pass over its lines and the sweep. The two passes scan a line with
code of their own in the source and with definitions of their own here. A walk
`while (p < end && *p != c)` is `Lines.field`, and the loop that cuts a region
at its newlines is `Lines.split`.

Left out: the log texts, except the number of entries of the last line.
-/

namespace Sentinel

def ngxSentinelFeedHeader : Bytes := str "# sentinel-crowdsec-feed v1"

/-- `NGX_SENTINEL_FEED_APPLY_BATCH` and `NGX_SENTINEL_FEED_MALFORMED_DENOM` -/
def ngxSentinelFeedApplyBatch : Nat := 256
def ngxSentinelFeedMalformedDenom : Nat := 4

/-- A buffer in memory; no object is larger than `PTRDIFF_MAX`, so no count of
its lines reaches the end of `ngx_int_t`. -/
structure Buffer where
  data : Bytes
  len_lt : data.length < 2 ^ 63

def sentinelFeedDigest (ngx : NgxCore) (text : Bytes) : Key where
  data := ngx.sha256 text
  len_le := by
    rw [ngx.sha256_length]
    decide

def sentinelFeedAction (p : Bytes) : UInt8 :=
  if p = str "ban" then ngxSentinelCsBan
  else if p = str "captcha" then ngxSentinelCsCaptcha
  else if p = str "throttle" then ngxSentinelCsThrottle
  else ngxSentinelCsNone

/-- The canonical text, of length 0 when the token is no bare host address. -/
def sentinelFeedCanonIp (ngx : NgxCore) (p : Bytes) : Bytes :=
  if p.length = 0 ∨ p.length ≥ 64 then []
  else if ch '/' ∈ p then []
  else
    match ngx.inetAddr p with
    | some v4 => ngx.inetNtop v4
    | none =>
        match ngx.inet6Addr p with
        | some v6 => ngx.inet6Ntop v6
        | none => []

section Trailer

/-- The value of a hexadecimal digit of either case. -/
def feedNibble (c : UInt8) : Option UInt32 :=
  if ch '0' ≤ c ∧ c ≤ ch '9' then some (c.toUInt32 - 48)
  else if ch 'a' ≤ c ∧ c ≤ ch 'f' then some (c.toUInt32 - 97 + 10)
  else if ch 'A' ≤ c ∧ c ≤ ch 'F' then some (c.toUInt32 - 65 + 10)
  else none

def feedCrcLoop (fileCrc : UInt32) : Bytes → Option UInt32
  | [] => some fileCrc
  | c :: s =>
      match feedNibble c with
      | none => none
      | some d => feedCrcLoop ((fileCrc <<< 4) ||| d) s

def sentinelFeedCheckTrailer (ngx : NgxCore) (trailer : Bytes) (count : Nat) (crc : UInt32) :
    NgxRc :=
  if trailer.length < 9 then .declined
  else if trailer.take 6 ≠ str "%%EOF " then .declined
  else
    match Lines.field (ch ' ') (trailer.drop 6) with
    | (_, []) => .declined
    | ([], _) => .declined
    | (cnt, _ :: hex) =>
        match ngx.atoi cnt with
        | none => .declined
        | some n =>
            if n ≠ count then .declined
            else if hex = [] then .declined
            else
              match feedCrcLoop 0 hex with
              | none => .declined
              | some fileCrc => if fileCrc = crc then .ok else .declined

end Trailer

/-- Drop a trailing carriage return. -/
def feedStripCr (line : Bytes) : Bytes :=
  if line.getLast? = some (ch '\r') then line.dropLast else line

section Validation

inductive FeedLine where
  | skipped | malformed | decision
  deriving DecidableEq, Repr

/-- One round of the validation pass. -/
def feedCountLine (ngx : NgxCore) (line : Bytes) : FeedLine :=
  if line = [] ∨ line.head? = some (ch '#') then .skipped
  else
    let line := feedStripCr line
    if line = [] then .skipped
    else
      match Lines.field (ch ' ') line with
      | (_, []) => .malformed
      | (f1, _ :: s) =>
          match Lines.field (ch ' ') s with
          | (_, []) => .malformed
          | (f2, _ :: f3) =>
              if f3 = [] then .malformed
              else if (sentinelFeedCanonIp ngx f1).length = 0 then .malformed
              else if sentinelFeedAction f2 = ngxSentinelCsNone then .malformed
              else
                match ngx.atoi f3 with
                | none => .malformed
                | some _ => .decision

def feedCountLoop (ngx : NgxCore) : List Bytes → (count malformed : Nat) → Nat × Nat
  | [], count, malformed => (count, malformed)
  | line :: lines, count, malformed =>
      match feedCountLine ngx line with
      | .skipped => feedCountLoop ngx lines count malformed
      | .malformed => feedCountLoop ngx lines count (malformed + 1)
      | .decision => feedCountLoop ngx lines (count + 1) malformed

/-- The search for the trailer: the offset of the first line that starts with
its mark. -/
def feedTrailerLoop : List Bytes → (q : Nat) → Option Nat
  | [], _ => none
  | line :: lines, q =>
      if line.length ≥ 6 ∧ line.take 6 = str "%%EOF " then some q
      else feedTrailerLoop lines (q + line.length + 1)

/-- The region that the two passes scan, and what starts at the trailer. -/
def feedLocate (data : Bytes) : Option (Bytes × Bytes) :=
  match Lines.field (ch '\n') data with
  | (hl, nl) =>
      if hl ≠ ngxSentinelFeedHeader then none
      else
        match nl with
        | [] => none
        | _ :: p =>
            match feedTrailerLoop (Lines.split (ch '\n') p) 0 with
            | none => none
            | some trailer => some (p.take trailer, p.drop trailer)

/-- `sentinel_feed_parse` up to its first store to shared memory: the accepted
decision-line region, or `none` for `NGX_DECLINED`. -/
def feedValidate (ngx : NgxCore) (data : Bytes) : Option Bytes :=
  if data = [] then none
  else
    match feedLocate data with
    | none => none
    | some (body, trailer) =>
        let (count, malformed) := feedCountLoop ngx (Lines.split (ch '\n') body) 0 0
        let tline := feedStripCr (Lines.field (ch '\n') trailer).1
        if sentinelFeedCheckTrailer ngx tline count (ngx.crc32Long body) ≠ .ok then none
        else if malformed > 0 ∧ malformed * ngxSentinelFeedMalformedDenom > count + malformed then
          none
        else some body

end Validation

section Apply

/-- What one upsert of the apply pass writes. -/
structure Decision where
  key : Key
  expiry : Int
  action : UInt8
  deriving DecidableEq

/-- The scan of the apply pass: canonical address, action and number. -/
def feedApplyScan (ngx : NgxCore) (line : Bytes) : Option (Bytes × UInt8 × Nat) :=
  if line = [] ∨ line.head? = some (ch '#') then none
  else
    let line := feedStripCr line
    if line = [] then none
    else
      match Lines.field (ch ' ') line with
      | (_, []) => none
      | (f1, _ :: s) =>
          match Lines.field (ch ' ') s with
          | (_, []) => none
          | (f2, _ :: f3) =>
              if f3 = [] then none
              else
                let canon := sentinelFeedCanonIp ngx f1
                if canon.length = 0 then none
                else
                  let act := sentinelFeedAction f2
                  if act = ngxSentinelCsNone then none
                  else
                    match ngx.atoi f3 with
                    | none => none
                    | some expiry => some (canon, act, expiry)

/-- One line of the apply pass; a decision that has run out is passed over. -/
def feedApplyLine (ngx : NgxCore) (defaultTtl now : Int) (line : Bytes) : Option Decision :=
  match feedApplyScan ngx line with
  | none => none
  | some (canon, act, expiry) =>
      let exp := if expiry = 0 then now + defaultTtl else (expiry : Int)
      if exp ≤ now then none else some ⟨sentinelFeedDigest ngx canon, exp, act⟩

def feedUpsert (ngx : NgxCore) (zone : Option Zone) (now : Int) (generation : Nat)
    (sh : Shctx) (d : Decision) (slab : Bool) : NgxRc × Shctx :=
  sentinelShmCrowdsecUpsert ngx zone sh d.key d.expiry d.action generation now false slab

/-- The insert loop; `slab i` is whether an allocation would succeed after `i`
upserts. -/
def feedApplyLoop (ngx : NgxCore) (zone : Option Zone) (defaultTtl now : Int)
    (generation : Nat) (slab : Nat → Bool) :
    List Bytes → (applied : Nat) → Shctx → Nat × Shctx
  | [], applied, sh => (applied, sh)
  | line :: lines, applied, sh =>
      match feedApplyLine ngx defaultTtl now line with
      | none => feedApplyLoop ngx zone defaultTtl now generation slab lines applied sh
      | some d =>
          let r := feedUpsert ngx zone now generation sh d (slab applied)
          if r.1 ≠ .ok then (applied, r.2)
          else feedApplyLoop ngx zone defaultTtl now generation slab lines (applied + 1) r.2

/-- The sweep loop. It ends when a call has deleted nothing; each other call
shortens the queue, so `fuel` beyond its length is never used up. -/
def feedSweepLoop (ngx : NgxCore) (zone : Option Zone) (generation : Nat) :
    (fuel : Nat) → Shctx → Shctx
  | 0, sh => sh
  | fuel + 1, sh =>
      let r := sentinelShmCrowdsecSweep ngx zone sh generation ngxSentinelFeedApplyBatch
      if r.1 = 0 then r.2 else feedSweepLoop ngx zone generation fuel r.2

end Apply

/-- The return code, and the number of entries that the load logs. -/
structure FeedReply where
  rc : NgxRc
  entries : Nat
  deriving DecidableEq, Repr

def sentinelFeedParse (ngx : NgxCore) (zone : Option Zone) (sh : Shctx) (data : Buffer)
    (defaultTtl now : Int) (slab : Nat → Bool) : FeedReply × Shctx :=
  match zone with
  | none => (⟨.error, 0⟩, sh)
  | some zone =>
      match feedValidate ngx data.data with
      | none => (⟨.declined, 0⟩, sh)
      | some body =>
          let sh := { sh with csGeneration := sh.csGeneration + 1 }
          let generation := sh.csGeneration
          let (applied, sh) := feedApplyLoop ngx (some zone) defaultTtl now generation slab
            (Lines.split (ch '\n') body) 0 sh
          (⟨.ok, applied⟩, feedSweepLoop ngx (some zone) generation (sh.queue.length + 1) sh)

end Sentinel
