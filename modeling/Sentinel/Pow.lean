import Sentinel.Lib.Lines
import Sentinel.Lib.Numeral
import Sentinel.Ngx

/-!
`sentinel_pow.c`: the proof-of-work gate. It keeps no state: a challenge and a
cookie are both MACs under the location's secret, and a reply depends on the
request and the time alone.

Times are not negative, so a `time_t` prints as its digits. Left out: the fixed
text of the page around the challenge.
-/

namespace Sentinel

/-- The gate also takes these from OpenSSL and nginx. -/
structure PowCore extends NgxCore where
  /-- `HMAC` with `EVP_sha256`; `none` when it fails. -/
  hmac : (key data : Bytes) → Option Bytes
  hmac_length : ∀ key data mac, hmac key data = some mac → mac.length = 32
  /-- `ngx_atotm`: a non-empty run of decimal digits within range, else `NGX_ERROR`. -/
  atotm : Bytes → Option Nat
  atotm_eq_some : ∀ s n, atotm s = some n ↔
    s ≠ [] ∧ s.all isDigit = true ∧ decimal s = n ∧ n ≤ ngxMaxIntT

/-- `ngx_sprintf` of `%ui`, and of `%T` for a time. -/
def ngxPrint (n : Nat) : Bytes := Numeral.write ch n

def ngxSentinelPowCookie : Bytes := str "__sentinel_pow"

def ngxSentinelPowHeader : Bytes := str "X-Sentinel-Pow"

def ngxSentinelPowHexlen : Nat := 64

def ngxSentinelPowNonceMax : Nat := 64

/-- The client's `sockaddr`, or its text where it is of no internet family. -/
inductive SockAddr where
  | inet (addr : Bytes) (h : addr.length = 4)
  | inet6 (addr : Bytes) (h : addr.length = 16)
  | other (addrText : Bytes)
  deriving DecidableEq, Repr

/-- The bytes that stand for the client. -/
def SockAddr.identity : SockAddr → Bytes
  | .inet addr _ => addr
  | .inet6 addr _ => addr
  | .other addrText => addrText

/-- The PoW directives of a location. -/
structure PowConf where
  powEnabled : Bool
  powSecret : Bytes
  powDifficulty : Int
  powTtl : Int
  deriving DecidableEq, Repr

/-- The bounds that `ngx_sentinel_merge_loc_conf` checks. -/
def PowConf.Accepted (lcf : PowConf) : Prop :=
  (1 ≤ lcf.powDifficulty ∧ lcf.powDifficulty ≤ 32) ∧ 1 ≤ lcf.powTtl

instance PowConf.decidableAccepted (lcf : PowConf) : Decidable lcf.Accepted :=
  inferInstanceAs (Decidable (_ ∧ _))

/-- `lcf->pow_ttl > 0 ? lcf->pow_ttl : 1` -/
def PowConf.ttl (lcf : PowConf) : Nat := if lcf.powTtl > 0 then lcf.powTtl.toNat else 1

structure TableElt where
  key : Bytes
  value : Bytes
  deriving DecidableEq, Repr

/-- An `ngx_list_t` of headers. A further part is made when its first element is
pushed, so none of them is empty. -/
structure HeaderList where
  part : List TableElt
  next : List (List TableElt)
  next_ne : ∀ p ∈ next, p ≠ []

/-- What the gate reads of a request; the cookie and the argument are what
`ngx_http_parse_cookie_lines` and `ngx_http_arg` find. -/
structure PowRequest where
  sockaddr : SockAddr
  cookie : Option Bytes
  headers : HeaderList
  arg : Option Bytes

/-- What the gate meets: a place in the header list, memory, and the results of
sending the page. -/
structure PowIo where
  listPush : Bool
  headerAlloc : Bool
  pageAlloc : Bool
  headerRc : Int
  headerOnly : Bool
  deriving DecidableEq, Repr

def powHex : Bytes := str "0123456789abcdef"

def sentinelPowHex (src : Bytes) : Bytes :=
  src.flatMap fun (b : UInt8) => [powHex.getD (b >>> 4).toNat 0, powHex.getD (b &&& 0x0f).toNat 0]

section Macs
variable (pow : PowCore) (lcf : PowConf)

/-- The client's bytes with a number behind them. -/
def powMessage (addr : SockAddr) (n : Nat) : Bytes := addr.identity ++ ngxPrint n

/-- The common end of the two MACs. -/
def powMac (addr : SockAddr) (n : Nat) : Option Bytes :=
  let iplen := addr.identity.length
  if iplen = 0 ∨ iplen > 16 then none
  else (pow.hmac lcf.powSecret (powMessage addr n)).map sentinelPowHex

def powBucket (now : Nat) : Nat := now / lcf.ttl

def sentinelPowChallenge (addr : SockAddr) (now : Nat) : Option Bytes :=
  powMac pow lcf addr (powBucket lcf now)

def sentinelPowCookieMac (addr : SockAddr) (expiry : Nat) : Option Bytes :=
  powMac pow lcf addr expiry

end Macs

section Difficulty

/-- The inner loop; a byte other than 0 ends it within eight rounds. -/
def powBitLoop : (fuel : Nat) → (b : UInt8) → (bits : Int) → Int
  | 0, _, bits => bits
  | fuel + 1, b, bits =>
      if b &&& 0x80 = 0 then powBitLoop fuel (b <<< 1) (bits + 1) else bits

def powZeroLoop : (digest : Bytes) → (bits : Int) → Int
  | [], bits => bits
  | b :: digest, bits =>
      if b = 0 then powZeroLoop digest (bits + 8) else powBitLoop 8 b bits

def sentinelPowMeetsDifficulty (digest : Bytes) (difficulty : Int) : Bool :=
  powZeroLoop digest 0 ≥ difficulty

end Difficulty

def sentinelPowCheckCookie (pow : PowCore) (lcf : PowConf) (r : PowRequest) (now : Nat) : NgxRc :=
  match r.cookie with
  | none => .declined
  | some val =>
      if val.length = 0 then .declined
      else if val.length ≤ ngxSentinelPowHexlen + 1 then .error
      else
        match Lines.field (ch '.') val with
        | (_, []) => .error
        | (line, _ :: mac) =>
            if mac.length ≠ ngxSentinelPowHexlen then .error
            else
              match pow.atotm line with
              | none => .error
              | some expiry =>
                  if expiry ≤ now then .error
                  else
                    match sentinelPowCookieMac pow lcf r.sockaddr expiry with
                    | none => .error
                    | some want => if pow.memn2cmp mac want ≠ 0 then .error else .ok

section Nonce

def ngxTolower (c : UInt8) : UInt8 :=
  if ch 'A' ≤ c ∧ c ≤ ch 'Z' then c ||| 0x20 else c

/-- `ngx_strncasecmp` on two texts of at least `n` bytes. -/
def ngxStrncasecmp : (s1 s2 : Bytes) → (n : Nat) → Int
  | c1 :: s1, c2 :: s2, n + 1 =>
      let c1 := ngxTolower c1
      let c2 := ngxTolower c2
      if c1 = c2 then if c1 ≠ 0 then ngxStrncasecmp s1 s2 n else 0
      else c1.toNat - c2.toNat
  | _, _, _ => 0

def isPowHeader (h : TableElt) : Bool :=
  h.key.length = ngxSentinelPowHeader.length ∧
    ngxStrncasecmp h.key ngxSentinelPowHeader ngxSentinelPowHeader.length = 0

/-- The walk over the parts of the list. -/
def powHeaderLoop : (part : List TableElt) → (next : List (List TableElt)) → Option TableElt
  | part, [] => part.find? isPowHeader
  | part, p :: next =>
      match part.find? isPowHeader with
      | some h => some h
      | none => powHeaderLoop p next

def sentinelPowGetNonce (r : PowRequest) : Option Bytes :=
  match powHeaderLoop r.headers.part r.headers.next with
  | some h =>
      if h.value.length > 0 ∧ h.value.length ≤ ngxSentinelPowNonceMax then some h.value else none
  | none =>
      match r.arg with
      | none => none
      | some nonce =>
          if nonce.length > 0 ∧ nonce.length ≤ ngxSentinelPowNonceMax then some nonce else none

end Nonce

/-- A cookie that is set: the two parts of its value, and its `Max-Age`. -/
structure PowCookie where
  expiry : Nat
  mac : Bytes
  maxAge : Nat
  deriving DecidableEq, Repr

def PowCookie.value (c : PowCookie) : Bytes := ngxPrint c.expiry ++ ch '.' :: c.mac

/-- The text of the `Set-Cookie` header. -/
def PowCookie.header (c : PowCookie) : Bytes :=
  ngxSentinelPowCookie ++ str "=" ++ c.value ++ str "; Path=/; Max-Age=" ++
    ngxPrint c.maxAge ++ str "; HttpOnly"

/-- The cookie that goes on the response. -/
def sentinelPowSetCookie (pow : PowCore) (lcf : PowConf) (r : PowRequest) (now : Nat)
    (io : PowIo) : Option PowCookie :=
  let expiry := now + lcf.ttl
  match sentinelPowCookieMac pow lcf r.sockaddr expiry with
  | none => none
  | some machex =>
      if ¬ io.listPush then none
      else if ¬ io.headerAlloc then none
      else some ⟨expiry, machex, lcf.ttl⟩

/-- A challenge page, and whether its body goes out with the header. -/
structure PowPage where
  challenge : Bytes
  powDifficulty : Int
  body : Bool
  deriving DecidableEq, Repr

def sentinelPowSendPage (lcf : PowConf) (challenge : Bytes) (io : PowIo) :
    NgxRc × Option PowPage :=
  if ¬ io.pageAlloc then (.error, none)
  else if io.headerRc = -1 ∨ io.headerRc > 0 ∨ io.headerOnly then
    (.done, some ⟨challenge, lcf.powDifficulty, false⟩)
  else (.done, some ⟨challenge, lcf.powDifficulty, true⟩)

inductive PowState where
  | off | verified | challenge
  deriving DecidableEq, Repr

structure PowReply where
  rc : NgxRc
  powState : PowState
  setCookie : Option PowCookie
  page : Option PowPage
  deriving DecidableEq, Repr

def sentinelPowDispatch (pow : PowCore) (lcf : PowConf) (r : PowRequest) (now : Nat)
    (io : PowIo) : PowReply :=
  if ¬ lcf.powEnabled ∨ lcf.powSecret.length = 0 then ⟨.declined, .off, none, none⟩
  else if sentinelPowCheckCookie pow lcf r now = .ok then ⟨.declined, .verified, none, none⟩
  else
    match sentinelPowChallenge pow lcf r.sockaddr now with
    | none => ⟨.declined, .off, none, none⟩
    | some challenge =>
        let served :=
          let (rc, page) := sentinelPowSendPage lcf challenge io
          ⟨rc, .challenge, none, page⟩
        match sentinelPowGetNonce r with
        | none => served
        | some nonce =>
            let digest := pow.sha256 (challenge ++ nonce)
            if sentinelPowMeetsDifficulty digest lcf.powDifficulty then
              ⟨.declined, .verified, sentinelPowSetCookie pow lcf r now io, none⟩
            else served

end Sentinel
