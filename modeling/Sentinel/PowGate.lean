import Sentinel.NgxRef
import Sentinel.Pow

/-!
Which requests the gate lets pass: those with a cookie that names this client
and a time to come, and those with a nonce that solves the current challenge.
Every other request gets the page.
-/

namespace Sentinel

/-- The cookie is the decimal text of a `time_t` to come, a dot, and the MAC of
the client and this time. -/
def CookieOk (pow : PowCore) (lcf : PowConf) (r : PowRequest) (now : Nat) : Prop :=
  ∃ digits mac expiry, r.cookie = some (digits ++ ch '.' :: mac) ∧
    mac.length = ngxSentinelPowHexlen ∧ digits ≠ [] ∧ digits.all isDigit = true ∧
    decimal digits = expiry ∧ expiry ≤ ngxMaxIntT ∧ now < expiry ∧
    sentinelPowCookieMac pow lcf r.sockaddr expiry = some mac

/-- The submitted nonce: the first header of its name if there is one, else the
query argument. -/
def PowRequest.nonce (r : PowRequest) : Option Bytes :=
  match (r.headers.part ++ r.headers.next.flatten).find? isPowHeader with
  | some h => some h.value
  | none => r.arg

/-- The bits of a byte, the highest first. -/
def byteBits (b : UInt8) : List Bool := (List.range 8).map fun i => b.toNat.testBit (7 - i)

def leadingZeroBits (digest : Bytes) : Nat :=
  ((digest.flatMap byteBits).takeWhile not).length

def NonceOk (pow : PowCore) (lcf : PowConf) (r : PowRequest) (challenge : Bytes) : Prop :=
  ∃ nonce, r.nonce = some nonce ∧ 1 ≤ nonce.length ∧ nonce.length ≤ ngxSentinelPowNonceMax ∧
    lcf.powDifficulty ≤ leadingZeroBits (pow.sha256 (challenge ++ nonce))

section Numerals
variable (pow : PowCore)

theorem digitCode : Numeral.Code ch (fun c => c.toNat - 48) where
  dec_enc := by decide

theorem isDigit_iff {c : UInt8} : isDigit c = true ↔ ∃ d < 10, c = ch d.digitChar := by
  constructor
  · intro h
    simp only [isDigit, Bool.and_eq_true, decide_eq_true_eq] at h
    have hlo : 48 ≤ c.toNat := h.1
    have hhi : c.toNat ≤ 57 := h.2
    refine ⟨c.toNat - 48, by omega, ?_⟩
    rw [ch, Nat.toNat_digitChar_of_lt_ten (by omega), Nat.add_sub_cancel' hlo]
    exact (UInt8.ofNat_toNat).symm
  · rintro ⟨d, hd, rfl⟩
    have hdigit : ∀ d < 10, isDigit (ch d.digitChar) = true := by decide
    exact hdigit d hd

theorem allDigits_iff {s : Bytes} : s.all isDigit = true ↔ Numeral.Digits ch s := by
  simp only [List.all_eq_true, Numeral.Digits, isDigit_iff]

theorem decimal_print (n : Nat) : decimal (ngxPrint n) = n := Numeral.read_write digitCode n

theorem dot_not_digit {s : Bytes} (h : s.all isDigit = true) : ch '.' ∉ s :=
  not_mem_of_all h rfl

end Numerals

section Bits

theorem bitLoop_add (fuel : Nat) (b : UInt8) (bits : Int) :
    powBitLoop fuel b bits = bits + powBitLoop fuel b 0 := by
  induction fuel generalizing b bits with
  | zero => simp [powBitLoop]
  | succ fuel ih =>
      simp only [powBitLoop]
      split
      · rw [ih _ (bits + 1), ih _ (0 + 1)]
        omega
      · simp

theorem bitLoop_byte (b : UInt8) (h : b ≠ 0) :
    powBitLoop 8 b 0 = ((byteBits b).takeWhile not).length ∧
      (byteBits b).any id = true := by
  revert b
  refine forall_byte ?_
  decide +kernel

theorem zeroLoop_eq (digest : Bytes) (bits : Int) :
    powZeroLoop digest bits = bits + leadingZeroBits digest := by
  induction digest generalizing bits with
  | nil => simp [powZeroLoop, leadingZeroBits]
  | cons b digest ih =>
      rw [powZeroLoop, leadingZeroBits, List.flatMap_cons]
      by_cases hb : b = 0
      · have hzero : ∀ bit ∈ byteBits 0, not bit = true := by decide
        rw [if_pos hb, ih, hb, List.takeWhile_append_of_pos hzero, List.length_append,
          show (byteBits 0).length = 8 by decide, leadingZeroBits]
        omega
      · obtain ⟨hloop, hany⟩ := bitLoop_byte b hb
        rw [if_neg hb, bitLoop_add, hloop, List.takeWhile_append]
        split
        next hfull =>
          -- a byte other than 0 has a bit that ends the run
          exfalso
          obtain ⟨bit, hmem, hbit⟩ := List.any_eq_true.mp hany
          have hnone := List.takeWhile_eq_self_iff.mp
            ((List.takeWhile_prefix _).eq_of_length hfull) bit hmem
          simp [show bit = true from hbit] at hnone
        · rfl

theorem meetsDifficulty_iff (digest : Bytes) (difficulty : Int) :
    sentinelPowMeetsDifficulty digest difficulty = true ↔ difficulty ≤ leadingZeroBits digest := by
  simp [sentinelPowMeetsDifficulty, zeroLoop_eq]

end Bits

section Nonce

theorem headerLoop_eq (part : List TableElt) (next : List (List TableElt)) :
    powHeaderLoop part next = (part ++ next.flatten).find? isPowHeader := by
  induction next generalizing part with
  | nil => simp [powHeaderLoop]
  | cons p next ih =>
      simp only [powHeaderLoop, ih, List.flatten_cons, List.find?_append]
      cases part.find? isPowHeader with
      | none => rfl
      | some h => rfl

theorem getNonce_iff {r : PowRequest} {nonce : Bytes} :
    sentinelPowGetNonce r = some nonce ↔
      r.nonce = some nonce ∧ 1 ≤ nonce.length ∧ nonce.length ≤ ngxSentinelPowNonceMax := by
  have hbound : ∀ s : Bytes, (if s.length > 0 ∧ s.length ≤ ngxSentinelPowNonceMax then some s
      else none) = some nonce ↔
        some s = some nonce ∧ 1 ≤ nonce.length ∧ nonce.length ≤ ngxSentinelPowNonceMax := by
    intro s
    simp only [Option.ite_none_right_eq_some, Option.some.injEq]
    constructor
    · rintro ⟨h, rfl⟩
      exact ⟨rfl, h⟩
    · rintro ⟨rfl, h⟩
      exact ⟨h, rfl⟩
  rw [sentinelPowGetNonce, headerLoop_eq, PowRequest.nonce]
  cases (r.headers.part ++ r.headers.next.flatten).find? isPowHeader with
  | some h => exact hbound h.value
  | none =>
      cases r.arg with
      | none => simp
      | some s => exact hbound s

end Nonce

section Gate
variable (pow : PowCore) (lcf : PowConf) (r : PowRequest) (now : Nat)

theorem hex_length (s : Bytes) : (sentinelPowHex s).length = 2 * s.length := by
  simp [sentinelPowHex, List.length_flatMap, Nat.mul_comm]

theorem powMac_length {addr : SockAddr} {n : Nat} {mac : Bytes}
    (h : powMac pow lcf addr n = some mac) : mac.length = ngxSentinelPowHexlen := by
  simp only [powMac] at h
  split at h
  · contradiction
  · obtain ⟨raw, hraw, rfl⟩ := Option.map_eq_some_iff.mp h
    rw [hex_length, pow.hmac_length _ _ _ hraw]
    rfl

theorem checkCookie_ok_iff :
    sentinelPowCheckCookie pow lcf r now = .ok ↔ CookieOk pow lcf r now := by
  rw [sentinelPowCheckCookie]
  cases hcookie : r.cookie with
  | none => simp [CookieOk, hcookie]
  | some val =>
      simp only
      constructor
      · intro h
        split at h
        · contradiction
        split at h
        · contradiction
        rcases Lines.field_cases (ch '.') val with ⟨-, hf⟩ | ⟨digits, mac, -, rfl, hf⟩
        · simp [hf] at h
        · simp only [hf] at h
          split at h
          · contradiction
          next hlen =>
            split at h
            · contradiction
            next expiry htm =>
              split at h
              · contradiction
              next hnow =>
                split at h
                · contradiction
                next want hmac =>
                  split at h
                  · contradiction
                  next heq =>
                    obtain ⟨hne, hdigits, hdecimal, hmax⟩ := (pow.atotm_eq_some _ _).mp htm
                    have hwant : mac = want :=
                      Std.LawfulEqCmp.eq_of_compare ((memn2cmp_eq_iff _ _ _).mp (not_not.mp heq))
                    exact ⟨digits, mac, expiry, hcookie, not_not.mp hlen, hne, hdigits, hdecimal,
                      hmax, not_le.mp hnow, hwant ▸ hmac⟩
      · rintro ⟨digits, mac, expiry, hval, hlen, hne, hdigits, hdecimal, hmax, hnow, hmac⟩
        obtain rfl := Option.some.inj (hcookie.symm.trans hval)
        have hpos := List.length_pos_iff.mpr hne
        have htm : pow.atotm digits = some expiry :=
          (pow.atotm_eq_some _ _).mpr ⟨hne, hdigits, hdecimal, hmax⟩
        rw [if_neg (by simp), if_neg (by simp [hlen]; omega),
          Lines.field_append _ (dot_not_digit hdigits)]
        simp [hlen, htm, hmac, Nat.not_le.mpr hnow, memn2cmp_eq_iff]

/-- A cookie that is set is accepted until it runs out. -/
theorem setCookie_accepted {pow lcf} {lcf' : PowConf} {r r' : PowRequest} {t : Nat} {io : PowIo}
    {c : PowCookie} (hset : sentinelPowSetCookie pow lcf r t io = some c)
    (hmax : t + lcf.ttl ≤ ngxMaxIntT) (hsecret : lcf'.powSecret = lcf.powSecret)
    (hclient : r'.sockaddr = r.sockaddr) (hcookie : r'.cookie = some c.value) (now : Nat) :
    sentinelPowCheckCookie pow lcf' r' now = .ok ↔ now < t + lcf.ttl := by
  obtain ⟨hmac, hexpiry⟩ : sentinelPowCookieMac pow lcf r.sockaddr (t + lcf.ttl) = some c.mac ∧
      c.expiry = t + lcf.ttl := by
    simp only [sentinelPowSetCookie] at hset
    split at hset
    · contradiction
    next mac hmac =>
      split_ifs at hset
      obtain rfl := Option.some.inj hset
      exact ⟨hmac, rfl⟩
  have hdigits : (ngxPrint c.expiry).all isDigit = true :=
    allDigits_iff.mpr (Numeral.write_digits _)
  rw [checkCookie_ok_iff]
  constructor
  · rintro ⟨digits, mac, expiry, hval, -, -, hdig, rfl, -, hnow, -⟩
    have hcut := hcookie.symm.trans hval
    rw [Option.some.injEq, PowCookie.value] at hcut
    obtain ⟨rfl, -⟩ := Lines.append_inj _ (dot_not_digit hdigits) (dot_not_digit hdig) hcut
    rwa [decimal_print, hexpiry] at hnow
  · intro hnow
    refine ⟨ngxPrint c.expiry, c.mac, t + lcf.ttl, hcookie, powMac_length _ _ hmac,
      Numeral.write_ne_nil _, hdigits, by rw [decimal_print, hexpiry], hmax, hnow, ?_⟩
    rw [hclient, ← hmac]
    simp only [sentinelPowCookieMac, powMac, hsecret]

theorem nonceOk_iff {challenge : Bytes} :
    NonceOk pow lcf r challenge ↔ ∃ nonce, sentinelPowGetNonce r = some nonce ∧
      sentinelPowMeetsDifficulty (pow.sha256 (challenge ++ nonce)) lcf.powDifficulty = true := by
  simp only [NonceOk, getNonce_iff, meetsDifficulty_iff, and_assoc]

/-- The ways through the gate when it has a challenge and memory for the page. -/
theorem dispatch_cases (io : PowIo) {challenge : Bytes}
    (hon : lcf.powEnabled = true ∧ lcf.powSecret ≠ [])
    (hchallenge : sentinelPowChallenge pow lcf r.sockaddr now = some challenge)
    (halloc : io.pageAlloc = true) :
    ((CookieOk pow lcf r now ∨ NonceOk pow lcf r challenge) ∧
      (sentinelPowDispatch pow lcf r now io).rc = .declined) ∨
    (¬ CookieOk pow lcf r now ∧ ¬ NonceOk pow lcf r challenge ∧
      (sentinelPowDispatch pow lcf r now io).rc = .done ∧
      ∃ page, (sentinelPowDispatch pow lcf r now io).page = some page ∧
        page.challenge = challenge ∧ page.powDifficulty = lcf.powDifficulty) := by
  have hpage : ∃ page, sentinelPowSendPage lcf challenge io = (.done, some page) ∧
      page.challenge = challenge ∧ page.powDifficulty = lcf.powDifficulty := by
    rw [sentinelPowSendPage, if_neg (by simp [halloc])]
    split
    · exact ⟨_, rfl, rfl, rfl⟩
    · exact ⟨_, rfl, rfl, rfl⟩
  obtain ⟨page, hsend, hpage⟩ := hpage
  rw [sentinelPowDispatch, if_neg (by simp [hon])]
  by_cases hcookie : CookieOk pow lcf r now
  · rw [if_pos ((checkCookie_ok_iff ..).mpr hcookie)]
    exact Or.inl ⟨Or.inl hcookie, rfl⟩
  · rw [if_neg (mt (checkCookie_ok_iff ..).mp hcookie)]
    simp only [hchallenge, hsend]
    cases hnonce : sentinelPowGetNonce r with
    | none =>
        have hno : ¬ NonceOk pow lcf r challenge := by
          rw [nonceOk_iff, hnonce]
          simp
        exact Or.inr ⟨hcookie, hno, rfl, page, rfl, hpage⟩
    | some nonce =>
        by_cases hmeets : sentinelPowMeetsDifficulty (pow.sha256 (challenge ++ nonce))
            lcf.powDifficulty = true
        · simp only [hmeets, if_true]
          exact Or.inl ⟨Or.inr ((nonceOk_iff ..).mpr ⟨nonce, hnonce, hmeets⟩), trivial⟩
        · have hno : ¬ NonceOk pow lcf r challenge := by
            rw [nonceOk_iff, hnonce]
            simpa using hmeets
          simp only [hmeets]
          exact Or.inr ⟨hcookie, hno, rfl, page, rfl, hpage⟩

theorem exists_challenge (hclient : ∀ addrText, r.sockaddr ≠ .other addrText)
    (hhmac : ∀ data, (pow.hmac lcf.powSecret data).isSome) :
    ∃ challenge, sentinelPowChallenge pow lcf r.sockaddr now = some challenge := by
  have hlen : 0 < r.sockaddr.identity.length ∧ r.sockaddr.identity.length ≤ 16 := by
    cases haddr : r.sockaddr with
    | inet addr h => simp [SockAddr.identity, h]
    | inet6 addr h => simp [SockAddr.identity, h]
    | other addrText => exact absurd haddr (hclient addrText)
  obtain ⟨raw, hraw⟩ := Option.isSome_iff_exists.mp
    (hhmac (powMessage r.sockaddr (powBucket lcf now)))
  refine ⟨sentinelPowHex raw, ?_⟩
  simp only [sentinelPowChallenge, powMac, hraw]
  rw [if_neg (by omega), Option.map_some]

/-- The gate's decision, and what follows from it for cookies. -/
theorem pow_gate (io : PowIo) (henabled : lcf.powEnabled = true) (hsecret : lcf.powSecret ≠ [])
    (hclient : ∀ addrText, r.sockaddr ≠ .other addrText)
    (hhmac : ∀ data, (pow.hmac lcf.powSecret data).isSome) (halloc : io.pageAlloc = true) :
    let reply := sentinelPowDispatch pow lcf r now io
    ∃ challenge, sentinelPowChallenge pow lcf r.sockaddr now = some challenge ∧
      (reply.rc = .declined ↔ CookieOk pow lcf r now ∨ NonceOk pow lcf r challenge) ∧
      (reply.rc ≠ .declined → reply.rc = .done ∧ ∃ page, reply.page = some page ∧
        page.challenge = challenge ∧ page.powDifficulty = lcf.powDifficulty) ∧
      (¬ CookieOk pow lcf r now →
        reply = sentinelPowDispatch pow lcf { r with cookie := none } now io) ∧
      ∀ t io' c, sentinelPowSetCookie pow lcf r t io' = some c → t + lcf.ttl ≤ ngxMaxIntT →
        ∀ lcf' r' now', lcf'.powSecret = lcf.powSecret → r'.sockaddr = r.sockaddr →
          r'.cookie = some c.value →
          (sentinelPowCheckCookie pow lcf' r' now' = .ok ↔ now' < t + lcf.ttl) := by
  obtain ⟨challenge, hchallenge⟩ := exists_challenge pow lcf r now hclient hhmac
  have hcases := dispatch_cases pow lcf r now io ⟨henabled, hsecret⟩ hchallenge halloc
  intro reply
  refine ⟨challenge, hchallenge, ?_, ?_, ?_, ?_⟩
  · rcases hcases with ⟨hok, hrc⟩ | ⟨hcookie, hnonce, hrc, -⟩
    · simp [reply, hrc, hok]
    · simp [reply, hrc, hcookie, hnonce]
  · intro hrc
    rcases hcases with ⟨-, hdeclined⟩ | ⟨-, -, hdone, hpage⟩
    · exact absurd hdeclined hrc
    · exact ⟨hdone, hpage⟩
  · intro hcookie
    have hnone : sentinelPowCheckCookie pow lcf { r with cookie := none } now ≠ .ok := by
      simp [sentinelPowCheckCookie]
    simp only [reply]
    rw [sentinelPowDispatch, sentinelPowDispatch, if_neg (mt (checkCookie_ok_iff ..).mp hcookie),
      if_neg hnone]
    rfl
  · intro t io' c hset hmax lcf' r' now' hsame hclient' hcookie
    exact setCookie_accepted hset hmax hsame hclient' hcookie now'

end Gate

namespace Ref

/-- HMAC-SHA256 -/
def hmac (key data : Bytes) : Bytes :=
  let key := if key.length > 64 then sha256 key else key
  let key := key ++ List.replicate (64 - key.length) 0
  sha256 (key.map (fun b => b ^^^ 0x5c) ++ sha256 (key.map (fun b => b ^^^ 0x36) ++ data))

def pow : PowCore where
  toNgxCore := ngx
  hmac := fun key data => some (hmac key data)
  hmac_length := by
    rintro key data mac ⟨⟩
    exact ngx.sha256_length _
  atotm := atoi
  atotm_eq_some := ngx.atoi_eq_some

end Ref

/-- A forged cookie, and a nonce in a header of the second part of the list. -/
theorem pow_gate_forged_cookie :
    let lcf : PowConf := ⟨true, str "key", 16, 3600⟩
    let r : PowRequest :=
      { sockaddr := .inet [192, 0, 2, 7] rfl
        cookie := some (str "9999999999.x")
        headers := ⟨[⟨str "Host", str "a"⟩], [[⟨str "x-sentinel-pow", str "77"⟩]], by simp⟩
        arg := some (str "5") }
    let reply := sentinelPowDispatch Ref.pow lcf r 1700000000 ⟨true, true, true, 0, false⟩
    ∃ challenge, sentinelPowChallenge Ref.pow lcf r.sockaddr 1700000000 = some challenge ∧
      (reply.rc = .declined ↔
        CookieOk Ref.pow lcf r 1700000000 ∨ NonceOk Ref.pow lcf r challenge) := by
  intro lcf r reply
  obtain ⟨challenge, hchallenge, hrc, -⟩ := pow_gate Ref.pow lcf r 1700000000
    ⟨true, true, true, 0, false⟩ rfl (by decide) (by simp [r]) (fun _ => rfl) rfl
  exact ⟨challenge, hchallenge, hrc⟩

end Sentinel
