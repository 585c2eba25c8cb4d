import Mathlib.Data.Set.Insert
import Sentinel.PowGate

/-!
Who can have a cookie that the gate accepts. A challenge and a cookie are MACs
under one key, over the client's bytes and a number behind them, and nothing
tells the two uses or the two address families apart. A client that learns MACs
only from what the module sends out can forge a cookie for an IPv4 address
exactly when another client has an IPv6 address that starts with its bytes and
goes on in digits.
-/

namespace Sentinel

/-- A request that came to the gate of a location. -/
structure PowVisit where
  lcf : PowConf
  now : Nat
  r : PowRequest
  io : PowIo

section Visit
variable (pow : PowCore)

def PowVisit.reply (v : PowVisit) : PowReply := sentinelPowDispatch pow v.lcf v.r v.now v.io

/-- The cookie has this text and this MAC. -/
def PowVisit.Submits (v : PowVisit) (digits mac : Bytes) : Prop :=
  ch '.' ∉ digits ∧ v.r.cookie = some (digits ++ ch '.' :: mac)

/-- The reply shows this MAC: on a page, or in a cookie that is set. -/
def PowVisit.Shows (v : PowVisit) (mac : Bytes) : Prop :=
  (∃ page, (v.reply pow).page = some page ∧ page.body = true ∧ page.challenge = mac) ∨
    ∃ c, (v.reply pow).setCookie = some c ∧ c.mac = mac

/-- The reply shows the MAC of this message, or the cookie is compared with it. -/
def PowVisit.Handles (v : PowVisit) (m : Bytes) : Prop :=
  ((∃ page, (v.reply pow).page = some page) ∧
      m = powMessage v.r.sockaddr (powBucket v.lcf v.now)) ∨
    (∃ c, (v.reply pow).setCookie = some c ∧ m = powMessage v.r.sockaddr c.expiry) ∨
    ∃ digits mac expiry, v.Submits digits mac ∧ pow.atotm digits = some expiry ∧
      m = powMessage v.r.sockaddr expiry

/-- A run under one secret: time does not go back, no two of the messages have
the same MAC, and a client submits a MAC only after it has been shown. -/
structure PowRun (secret : Bytes) (clients : Set SockAddr) (visits : List PowVisit) : Prop where
  oneSecret : ∀ v ∈ visits, v.lcf.powSecret = secret
  ofClients : ∀ v ∈ visits, v.r.sockaddr ∈ clients
  ordered : visits.Pairwise fun v w => v.now ≤ w.now
  injective : ∀ v ∈ visits, ∀ w ∈ visits, ∀ m m', v.Handles pow m → w.Handles pow m' →
    pow.hmac secret m = pow.hmac secret m' → m = m'
  learned : ∀ before v after, visits = before ++ v :: after → ∀ digits mac, v.Submits digits mac →
    ∀ m raw, pow.hmac secret m = some raw → mac = sentinelPowHex raw → ∃ w ∈ before, w.Shows pow mac

/-- Every accepted cookie has been set before, for its client and its expiry. -/
def Unforged (visits : List PowVisit) : Prop :=
  ∀ before v after, visits = before ++ v :: after →
    ∀ digits mac expiry, v.Submits digits mac → pow.atotm digits = some expiry →
      sentinelPowCheckCookie pow v.lcf v.r v.now = .ok →
      ∃ w ∈ before, ∃ c, (w.reply pow).setCookie = some c ∧ w.r.sockaddr = v.r.sockaddr ∧
        c.expiry = expiry ∧ c.mac = mac

end Visit

/-- Digits that can stand in front of a number. -/
def LeadingDigits (s : Bytes) : Prop :=
  s.all isDigit = true ∧ s.head? ≠ some (ch '0')

/-- One of the addresses is another one with twelve digits behind it. -/
def Clash (clients : Set SockAddr) : Prop :=
  ∃ a4 h4 a6 h6 digits, SockAddr.inet a4 h4 ∈ clients ∧ SockAddr.inet6 a6 h6 ∈ clients ∧
    a6 = a4 ++ digits ∧ LeadingDigits digits

section Messages
variable {clients : Set SockAddr}

theorem hexByte_injective {b b' : UInt8}
    (hhi : powHex.getD (b >>> 4).toNat 0 = powHex.getD (b' >>> 4).toNat 0)
    (hlo : powHex.getD (b &&& 0x0f).toNat 0 = powHex.getD (b' &&& 0x0f).toNat 0) : b = b' := by
  have hall : ∀ i : Fin 256,
      powHex.findIdx (· = powHex.getD (UInt8.ofNat i >>> 4).toNat 0) * 16 +
        powHex.findIdx (· = powHex.getD (UInt8.ofNat i &&& 0x0f).toNat 0) = i := by
    decide +kernel
  have hb := hall ⟨b.toNat, b.toNat_lt⟩
  have hb' := hall ⟨b'.toNat, b'.toNat_lt⟩
  simp only [UInt8.ofNat_toNat] at hb hb'
  rw [hhi, hlo, hb'] at hb
  exact (UInt8.toNat_inj.mp hb).symm

theorem hex_injective {s t : Bytes} (h : sentinelPowHex s = sentinelPowHex t) : s = t := by
  induction s generalizing t with
  | nil =>
      cases t with
      | nil => rfl
      | cons b t => simp [sentinelPowHex] at h
  | cons b s ih =>
      cases t with
      | nil => simp [sentinelPowHex] at h
      | cons b' t =>
          simp only [sentinelPowHex, List.flatMap_cons, List.cons_append, List.nil_append,
            List.cons.injEq] at h
          obtain ⟨hhi, hlo, hrest⟩ := h
          rw [hexByte_injective hhi hlo, ih hrest]

theorem leadingDigits_of_print {digits : Bytes} {n e : Nat} (hne : digits ≠ [])
    (h : ngxPrint n = digits ++ ngxPrint e) : LeadingDigits digits := by
  have hcanon := Numeral.write_canonical digitCode n
  rw [show Numeral.write ch n = digits ++ ngxPrint e from h] at hcanon
  obtain ⟨hdigits, hhead⟩ := hcanon.split hne (Numeral.write_ne_nil e)
  exact ⟨allDigits_iff.mpr hdigits, hhead⟩

/-- Leading digits and a number are themselves the text of a number. -/
theorem print_decimal {digits : Bytes} (hdigits : LeadingDigits digits) (hne : digits ≠ [])
    (n : Nat) : ngxPrint (decimal (digits ++ ngxPrint n)) = digits ++ ngxPrint n :=
  Numeral.write_read digitCode ((allDigits_iff.mp hdigits.1).canonical_append hne hdigits.2
    (Numeral.write_digits n))

/-- Without a clash a message has one reading. -/
theorem powMessage_injective (hclash : ¬ Clash clients) {a b : SockAddr} {n e : Nat}
    (ha : a ∈ clients) (hb : b ∈ clients) (hinet : ∀ c ∈ clients, ∀ t, c ≠ .other t)
    (h : powMessage a n = powMessage b e) : a = b ∧ n = e := by
  have hsame : ∀ {s t : Bytes}, s.length = t.length → s ++ ngxPrint n = t ++ ngxPrint e →
      s = t ∧ n = e := by
    intro s t hlen hst
    obtain ⟨hs, hprint⟩ := List.append_inj hst hlen
    exact ⟨hs, Numeral.write_injective digitCode hprint⟩
  have hcut : ∀ {s t : Bytes} {m k : Nat}, s.length = 4 → t.length = 16 →
      s ++ ngxPrint m = t ++ ngxPrint k →
      ∃ digits, t = s ++ digits ∧ LeadingDigits digits := by
    intro s t m k hs ht hst
    obtain ⟨digits, rfl, hrest⟩ | ⟨digits, rfl, hrest⟩ := List.append_eq_append_iff.mp hst
    · have hne : digits ≠ [] := by
        rintro rfl
        simp [hs] at ht
      exact ⟨digits, rfl, leadingDigits_of_print hne hrest⟩
    · rw [List.length_append] at hs
      omega
  cases a with
  | other t => exact absurd rfl (hinet _ ha t)
  | inet a4 h4 =>
      cases b with
      | other t => exact absurd rfl (hinet _ hb t)
      | inet b4 hb4 =>
          obtain ⟨rfl, rfl⟩ := hsame (h4.trans hb4.symm) h
          exact ⟨rfl, rfl⟩
      | inet6 b6 hb6 =>
          obtain ⟨digits, hb6', hdigits⟩ := hcut h4 hb6 h
          exact absurd ⟨a4, h4, b6, hb6, digits, ha, hb, hb6', hdigits⟩ hclash
  | inet6 a6 h6 =>
      cases b with
      | other t => exact absurd rfl (hinet _ hb t)
      | inet b4 hb4 =>
          obtain ⟨digits, ha6', hdigits⟩ := hcut hb4 h6 h.symm
          exact absurd ⟨b4, hb4, a6, h6, digits, hb, ha, ha6', hdigits⟩ hclash
      | inet6 b6 hb6 =>
          obtain ⟨rfl, rfl⟩ := hsame (h6.trans hb6.symm) h
          exact ⟨rfl, rfl⟩

end Messages

section Runs
variable {pow : PowCore} {secret : Bytes} {clients : Set SockAddr} {visits : List PowVisit}

theorem powMac_some {lcf : PowConf} {addr : SockAddr} {n : Nat} {mac : Bytes}
    (h : powMac pow lcf addr n = some mac) :
    ∃ raw, pow.hmac lcf.powSecret (powMessage addr n) = some raw ∧ mac = sentinelPowHex raw := by
  simp only [powMac, Option.ite_none_left_eq_some, Option.map_eq_some_iff] at h
  obtain ⟨-, raw, hraw, rfl⟩ := h
  exact ⟨raw, hraw, rfl⟩

/-- What a reply shows is what the module computed. -/
theorem reply_spec (pow : PowCore) (v : PowVisit) :
    (∀ page, (v.reply pow).page = some page →
      sentinelPowChallenge pow v.lcf v.r.sockaddr v.now = some page.challenge) ∧
    ∀ c, (v.reply pow).setCookie = some c →
      sentinelPowCookieMac pow v.lcf v.r.sockaddr c.expiry = some c.mac := by
  have hsend : ∀ challenge page, (sentinelPowSendPage v.lcf challenge v.io).2 = some page →
      page.challenge = challenge := by
    intro challenge page hpage
    rw [sentinelPowSendPage] at hpage
    split_ifs at hpage
    · obtain rfl := Option.some.inj hpage
      rfl
    · obtain rfl := Option.some.inj hpage
      rfl
  simp only [PowVisit.reply, sentinelPowDispatch]
  split
  · simp
  split
  · simp
  split
  · simp
  next challenge hchallenge =>
    have hserved : ∀ page, (sentinelPowSendPage v.lcf challenge v.io).2 = some page →
        sentinelPowChallenge pow v.lcf v.r.sockaddr v.now = some page.challenge :=
      fun page hpage => by rw [hchallenge, hsend _ _ hpage]
    split
    · exact ⟨hserved, by simp⟩
    · split
      · refine ⟨by simp, fun c hc => ?_⟩
        simp only [sentinelPowSetCookie] at hc
        split at hc
        · contradiction
        next machex hmac =>
          split_ifs at hc
          obtain rfl := Option.some.inj hc
          exact hmac
      · exact ⟨hserved, by simp⟩

/-- A MAC that the module has shown belongs to a message that it has handled. -/
theorem shows_spec {v : PowVisit} {mac : Bytes} (h : v.Shows pow mac) :
    (∃ raw, pow.hmac v.lcf.powSecret (powMessage v.r.sockaddr (powBucket v.lcf v.now)) = some raw ∧
      mac = sentinelPowHex raw ∧
      v.Handles pow (powMessage v.r.sockaddr (powBucket v.lcf v.now))) ∨
    ∃ c raw, (v.reply pow).setCookie = some c ∧ c.mac = mac ∧
      pow.hmac v.lcf.powSecret (powMessage v.r.sockaddr c.expiry) = some raw ∧
      mac = sentinelPowHex raw ∧ v.Handles pow (powMessage v.r.sockaddr c.expiry) := by
  obtain ⟨hpages, hcookies⟩ := reply_spec pow v
  rcases h with ⟨page, hpage, -, rfl⟩ | ⟨c, hc, rfl⟩
  · obtain ⟨raw, hraw, hmac⟩ := powMac_some (hpages page hpage)
    exact Or.inl ⟨raw, hraw, hmac, Or.inl ⟨⟨page, hpage⟩, rfl⟩⟩
  · obtain ⟨raw, hraw, hmac⟩ := powMac_some (hcookies c hc)
    exact Or.inr ⟨c, raw, hc, rfl, hraw, hmac, Or.inr (Or.inl ⟨c, hc, rfl⟩)⟩

/-- What an accepted cookie says. -/
theorem accepted_spec {v : PowVisit} {digits mac : Bytes} {expiry : Nat}
    (hsub : v.Submits digits mac) (htm : pow.atotm digits = some expiry)
    (hok : sentinelPowCheckCookie pow v.lcf v.r v.now = .ok) :
    v.now < expiry ∧ sentinelPowCookieMac pow v.lcf v.r.sockaddr expiry = some mac := by
  obtain ⟨digits', mac', expiry', hcookie, -, hne, hdig, hdecimal, hmax, hnow, hmac⟩ :=
    (checkCookie_ok_iff ..).mp hok
  have hcut := hsub.2.symm.trans hcookie
  obtain ⟨rfl, rfl⟩ := Lines.append_inj _ hsub.1 (dot_not_digit hdig) (Option.some.inj hcut)
  have htm' := (pow.atotm_eq_some _ _).mpr ⟨hne, hdig, hdecimal, hmax⟩
  obtain rfl := Option.some.inj (htm.symm.trans htm')
  exact ⟨hnow, hmac⟩

theorem unforged_of_no_clash (hinet : ∀ c ∈ clients, ∀ t, c ≠ .other t)
    (hclash : ¬ Clash clients) (hrun : PowRun pow secret clients visits) :
    Unforged pow visits := by
  intro before v after hsplit digits mac expiry hsub htm hok
  obtain ⟨hnow, hcheck⟩ := accepted_spec hsub htm hok
  obtain ⟨raw, hraw, hmac⟩ := powMac_some hcheck
  have hv : v ∈ visits := by simp [hsplit]
  have hhandled : v.Handles pow (powMessage v.r.sockaddr expiry) :=
    Or.inr (Or.inr ⟨digits, mac, expiry, hsub, htm, rfl⟩)
  rw [hrun.oneSecret v hv] at hraw
  obtain ⟨w, hwb, hshows⟩ := hrun.learned before v after hsplit digits mac hsub _ raw hraw hmac
  have hw : w ∈ visits := by simp [hsplit, hwb]
  have hle : w.now ≤ v.now := by
    have hord := hrun.ordered
    rw [hsplit, List.pairwise_append] at hord
    exact hord.2.2 w hwb v List.mem_cons_self
  -- the message whose MAC was shown is the one that the cookie is compared with
  have hsame : ∀ n raw', pow.hmac w.lcf.powSecret (powMessage w.r.sockaddr n) = some raw' →
      mac = sentinelPowHex raw' → w.Handles pow (powMessage w.r.sockaddr n) →
      w.r.sockaddr = v.r.sockaddr ∧ n = expiry := by
    intro n raw' hraw' hmac' hw'
    rw [hrun.oneSecret w hw] at hraw'
    have heq : raw' = raw := hex_injective (hmac'.symm.trans hmac)
    have hm := hrun.injective w hw v hv _ _ hw' hhandled (by rw [hraw', hraw, heq])
    exact powMessage_injective hclash (hrun.ofClients w hw) (hrun.ofClients v hv) hinet hm
  rcases shows_spec hshows with ⟨raw', hraw', hmac', hw'⟩ | ⟨c, raw', hc, hcmac, hraw', hmac', hw'⟩
  · obtain ⟨-, hbucket⟩ := hsame _ raw' hraw' hmac' hw'
    have hdiv : powBucket w.lcf w.now ≤ w.now := Nat.div_le_self _ _
    omega
  · obtain ⟨haddr, hexpiry⟩ := hsame _ raw' hraw' hmac' hw'
    exact ⟨w, hwb, c, hc, haddr, hexpiry, hcmac⟩

/-- The cookie that the challenge of an IPv6 client makes for an IPv4 client. -/
def forgedCookie (digits : Bytes) (bucket : Nat) (challenge : Bytes) : Bytes :=
  digits ++ ngxPrint bucket ++ ch '.' :: challenge

/-- An IPv6 client is shown a challenge, and an IPv4 client submits it. -/
def forgingRun (lcf : PowConf) (now : Nat) (a4 a6 : SockAddr) (digits challenge : Bytes) :
    List PowVisit :=
  let io : PowIo := ⟨true, true, true, 0, false⟩
  [⟨lcf, now, ⟨a6, none, ⟨[], [], by simp⟩, none⟩, io⟩,
    ⟨lcf, now, ⟨a4, some (forgedCookie digits (powBucket lcf now) challenge),
      ⟨[], [], by simp⟩, none⟩, io⟩]

/-- The two visits of such a run. -/
def shownVisit (lcf : PowConf) (now : Nat) (a6 : SockAddr) : PowVisit :=
  ⟨lcf, now, ⟨a6, none, ⟨[], [], by simp⟩, none⟩, ⟨true, true, true, 0, false⟩⟩

def forgedVisit (lcf : PowConf) (now : Nat) (a4 : SockAddr) (digits challenge : Bytes) :
    PowVisit :=
  ⟨lcf, now, ⟨a4, some (forgedCookie digits (powBucket lcf now) challenge),
    ⟨[], [], by simp⟩, none⟩, ⟨true, true, true, 0, false⟩⟩

/-- The challenge of `a6` is the MAC of a cookie for `a4`. -/
structure Forges (pow : PowCore) (lcf : PowConf) (now expiry : Nat) (a4 a6 : SockAddr)
    (digits challenge : Bytes) : Prop where
  gate : lcf.powEnabled = true ∧ lcf.powSecret ≠ []
  shown : sentinelPowChallenge pow lcf a6 now = some challenge
  compared : sentinelPowCookieMac pow lcf a4 expiry = some challenge
  message : powMessage a4 expiry = powMessage a6 (powBucket lcf now)
  allDigits : (digits ++ ngxPrint (powBucket lcf now)).all isDigit = true
  text : digits ++ ngxPrint (powBucket lcf now) ≠ []
  decimal : decimal (digits ++ ngxPrint (powBucket lcf now)) = expiry
  max : expiry ≤ ngxMaxIntT
  later : now < expiry

section Forging
variable {lcf : PowConf} {now expiry : Nat} {a4 a6 : SockAddr} {digits challenge : Bytes}

theorem Forges.atotm (h : Forges pow lcf now expiry a4 a6 digits challenge) :
    pow.atotm (digits ++ ngxPrint (powBucket lcf now)) = some expiry :=
  (pow.atotm_eq_some _ _).mpr ⟨h.text, h.allDigits, h.decimal, h.max⟩

theorem Forges.submits (h : Forges pow lcf now expiry a4 a6 digits challenge) :
    (forgedVisit lcf now a4 digits challenge).Submits (digits ++ ngxPrint (powBucket lcf now))
      challenge :=
  ⟨dot_not_digit h.allDigits, rfl⟩

theorem Forges.submits_eq (h : Forges pow lcf now expiry a4 a6 digits challenge)
    {text mac : Bytes} (hsub : (forgedVisit lcf now a4 digits challenge).Submits text mac) :
    text = digits ++ ngxPrint (powBucket lcf now) ∧ mac = challenge := by
  have hcookie := Option.some.inj (hsub.2.symm.trans h.submits.2)
  obtain ⟨rfl, rfl⟩ := Lines.append_inj _ hsub.1 h.submits.1 hcookie
  exact ⟨rfl, rfl⟩

theorem Forges.accepted (h : Forges pow lcf now expiry a4 a6 digits challenge) :
    sentinelPowCheckCookie pow lcf (forgedVisit lcf now a4 digits challenge).r now = .ok :=
  (checkCookie_ok_iff ..).mpr ⟨_, challenge, expiry, rfl, powMac_length _ _ h.shown, h.text,
    h.allDigits, h.decimal, h.max, h.later, h.compared⟩

theorem Forges.reply_shown (h : Forges pow lcf now expiry a4 a6 digits challenge) :
    (shownVisit lcf now a6).reply pow =
      ⟨.done, .challenge, none, some ⟨challenge, lcf.powDifficulty, true⟩⟩ := by
  simp [shownVisit, PowVisit.reply, sentinelPowDispatch, h.gate, h.shown, sentinelPowCheckCookie,
    sentinelPowGetNonce, powHeaderLoop, sentinelPowSendPage]

theorem Forges.shows (h : Forges pow lcf now expiry a4 a6 digits challenge) :
    (shownVisit lcf now a6).Shows pow challenge := by
  refine Or.inl ⟨⟨challenge, lcf.powDifficulty, true⟩, ?_, rfl, rfl⟩
  rw [h.reply_shown]

theorem Forges.reply_forged (h : Forges pow lcf now expiry a4 a6 digits challenge) :
    (forgedVisit lcf now a4 digits challenge).reply pow = ⟨.declined, .verified, none, none⟩ := by
  have hcookie := h.accepted
  simp only [forgedVisit] at hcookie
  simp [forgedVisit, PowVisit.reply, sentinelPowDispatch, h.gate, hcookie]

/-- One message only is handled in the whole run. -/
theorem Forges.handles (h : Forges pow lcf now expiry a4 a6 digits challenge) {v : PowVisit}
    (hv : v ∈ [shownVisit lcf now a6, forgedVisit lcf now a4 digits challenge]) {m : Bytes}
    (hm : v.Handles pow m) : m = powMessage a6 (powBucket lcf now) := by
  cases List.mem_cons.mp hv with
  | inl heq =>
      obtain rfl := heq
      rcases hm with ⟨-, rfl⟩ | ⟨c, hc, -⟩ | ⟨text, mac, e, htext, -⟩
      · rfl
      · rw [h.reply_shown] at hc
        contradiction
      · exact absurd htext.2 (by simp [shownVisit])
  | inr hv =>
      obtain rfl := List.mem_singleton.mp hv
      rcases hm with ⟨⟨page, hpage⟩, -⟩ | ⟨c, hc, -⟩ | ⟨text, mac, e, htext, he, rfl⟩
      · rw [h.reply_forged] at hpage
        contradiction
      · rw [h.reply_forged] at hc
        contradiction
      · obtain ⟨rfl, rfl⟩ := h.submits_eq htext
        obtain rfl := Option.some.inj (he.symm.trans h.atotm)
        exact h.message

/-- Such a run keeps to the rules. -/
theorem Forges.powRun (h : Forges pow lcf now expiry a4 a6 digits challenge)
    (hclients : a4 ∈ clients ∧ a6 ∈ clients) :
    PowRun pow lcf.powSecret clients (forgingRun lcf now a4 a6 digits challenge) := by
  refine ⟨by simp [forgingRun], by simp [forgingRun, hclients], by simp [forgingRun], ?_, ?_⟩
  · intro v hv w hw m m' hm hm' _
    rw [h.handles hv hm, h.handles hw hm']
  · intro before v after hsplit text mac htext m raw _ _
    rcases before with _ | ⟨w, before⟩
    · obtain ⟨rfl, -⟩ := List.cons.inj hsplit
      exact absurd htext.2 (by simp)
    · obtain ⟨rfl, hrest⟩ := List.cons.inj hsplit
      rcases before with _ | ⟨u, before⟩
      · obtain ⟨rfl, -⟩ := List.cons.inj hrest
        obtain ⟨-, rfl⟩ := h.submits_eq htext
        exact ⟨shownVisit lcf now a6, List.mem_singleton_self _, h.shows⟩
      · simp at hrest

/-- Its second cookie was never set. -/
theorem Forges.forged (h : Forges pow lcf now expiry a4 a6 digits challenge) :
    ¬ Unforged pow (forgingRun lcf now a4 a6 digits challenge) := by
  intro hunforged
  obtain ⟨w, hw, c, hc, -⟩ := hunforged [shownVisit lcf now a6] _ [] rfl _ _ _ h.submits h.atotm
    h.accepted
  rw [List.mem_singleton.mp hw, h.reply_shown] at hc
  contradiction

end Forging

/-- An IPv6 address that goes on in digits behind an IPv4 address forges. -/
theorem exists_forges (pow : PowCore) (lcf : PowConf) (now expiry : Nat) (a4 a6 digits : Bytes)
    (h4 : a4.length = 4) (h6 : a6.length = 16) (hon : lcf.powEnabled = true)
    (hsecret : lcf.powSecret ≠ []) (hhmac : ∀ data, (pow.hmac lcf.powSecret data).isSome)
    (ha6 : a6 = a4 ++ digits) (hdigits : LeadingDigits digits)
    (hexpiry : decimal (digits ++ ngxPrint (powBucket lcf now)) = expiry)
    (hmax : expiry ≤ ngxMaxIntT) (hnow : now < expiry) :
    ∃ challenge, Forges pow lcf now expiry (.inet a4 h4) (.inet6 a6 h6) digits challenge := by
  obtain ⟨challenge, hchallenge⟩ :=
    exists_challenge pow lcf (shownVisit lcf now (.inet6 a6 h6)).r now (by simp [shownVisit]) hhmac
  have hall : (digits ++ ngxPrint (powBucket lcf now)).all isDigit = true := by
    rw [List.all_append, hdigits.1, Bool.true_and]
    exact allDigits_iff.mpr (Numeral.write_digits _)
  have hne : digits ≠ [] := by
    rintro rfl
    simp [ha6, h4] at h6
  have hmessage : powMessage (.inet a4 h4) expiry =
      powMessage (.inet6 a6 h6) (powBucket lcf now) := by
    have hprint : ngxPrint expiry = digits ++ ngxPrint (powBucket lcf now) := by
      rw [← hexpiry]
      exact print_decimal hdigits hne _
    simp [powMessage, SockAddr.identity, ha6, hprint]
  have hcompared : sentinelPowCookieMac pow lcf (.inet a4 h4) expiry = some challenge := by
    rw [sentinelPowCookieMac, ← hchallenge, sentinelPowChallenge]
    simp only [powMac, shownVisit, hmessage]
    simp [SockAddr.identity, h4, h6]
  exact ⟨challenge, ⟨hon, hsecret⟩, hchallenge, hcompared, hmessage, hall, by simp [hne], hexpiry,
    hmax, hnow⟩

/-- Cookies cannot be forged among these clients exactly when none of their
addresses is another one with digits behind it. -/
theorem pow_unforgeable_iff (pow : PowCore) (secret : Bytes) (clients : Set SockAddr)
    (hsecret : secret ≠ []) (hhmac : ∀ data, (pow.hmac secret data).isSome)
    (hinet : ∀ c ∈ clients, ∀ t, c ≠ .other t) :
    (∀ visits, PowRun pow secret clients visits → Unforged pow visits) ↔ ¬ Clash clients := by
  constructor
  · rintro h ⟨a4, h4, a6, h6, digits, hin4, hin6, ha6, hdigits⟩
    -- the first second of the epoch, with a bucket of its own
    let lcf : PowConf := ⟨true, secret, 16, 1⟩
    have hbucket : powBucket lcf 0 = 0 := by simp [powBucket]
    have hlen : digits.length = 12 := by
      rw [ha6, List.length_append, h4] at h6
      omega
    have hne : digits ≠ [] := List.ne_nil_of_length_pos (by omega)
    have hmax : decimal (digits ++ ngxPrint (powBucket lcf 0)) ≤ ngxMaxIntT := by
      have hall : (digits ++ ngxPrint (powBucket lcf 0)).all isDigit = true := by
        have hbucket : (ngxPrint (powBucket lcf 0)).all isDigit = true :=
          allDigits_iff.mpr (Numeral.write_digits _)
        rw [List.all_append, hdigits.1, hbucket, Bool.and_self]
      have hlt := Numeral.read_lt digitCode (allDigits_iff.mp hall)
      rw [hbucket, List.length_append, hlen, show (ngxPrint 0).length = 1 by decide] at hlt
      rw [hbucket]
      exact Nat.le_trans (Nat.le_of_lt hlt) (by decide)
    have hpos : 0 < decimal (digits ++ ngxPrint (powBucket lcf 0)) := by
      by_contra hzero
      have hprint := print_decimal hdigits hne (powBucket lcf 0)
      rw [show decimal _ = 0 by omega, hbucket] at hprint
      have := congrArg List.length hprint
      simp [hlen] at this
    obtain ⟨challenge, hforges⟩ := exists_forges pow lcf 0 _ a4 a6 digits h4 h6 rfl hsecret hhmac ha6
      hdigits rfl hmax hpos
    exact hforges.forged (h _ (hforges.powRun ⟨hin4, hin6⟩))
  · exact fun hclash visits hrun => unforged_of_no_clash hinet hclash hrun

/-- Two clients of one family. -/
theorem pow_unforgeable_inet :
    let clients : Set SockAddr := {.inet [192, 0, 2, 7] rfl, .inet [192, 0, 2, 8] rfl}
    (∀ visits, PowRun Ref.pow (str "key") clients visits → Unforged Ref.pow visits) ↔
      ¬ Clash clients :=
  pow_unforgeable_iff Ref.pow (str "key") _ (by decide) (fun _ => rfl) (by simp)

/-- The challenge of 2001:db8:3131:3131:3131:3131:3131:3131 is a cookie for
32.1.13.184. -/
theorem challenge_is_a_cookie :
    let lcf : PowConf := ⟨true, str "key", 16, 3600⟩
    let a4 : SockAddr := .inet [32, 1, 13, 184] rfl
    let a6 : SockAddr := .inet6 ([32, 1, 13, 184] ++ List.replicate 12 49) rfl
    lcf.Accepted ∧ ∃ visits, PowRun Ref.pow (str "key") {a4, a6} visits ∧
      (∀ v ∈ visits, v.now = 1700000000) ∧ ¬ Unforged Ref.pow visits := by
  intro lcf a4 a6
  obtain ⟨challenge, hforges⟩ := exists_forges Ref.pow lcf 1700000000 _ [32, 1, 13, 184] _
    (List.replicate 12 49) rfl rfl rfl (by decide) (fun _ => rfl) rfl ⟨by decide, by decide⟩ rfl
    (by decide) (by decide)
  have hclients : a4 ∈ ({a4, a6} : Set SockAddr) ∧ a6 ∈ ({a4, a6} : Set SockAddr) :=
    ⟨Or.inl rfl, Or.inr rfl⟩
  exact ⟨by decide, _, hforges.powRun hclients, by simp [forgingRun], hforges.forged⟩

end Runs
end Sentinel
