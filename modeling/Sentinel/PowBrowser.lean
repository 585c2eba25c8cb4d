import Sentinel.Lib.Lease
import Sentinel.PowText

/-!
The gate and a browser together. The browser asks, runs the script of the page it
gets, comes back with the nonce, and keeps the cookie for as long as it may. While
it comes back in time, every visit ends behind the gate, and between two puzzles
there is always the lifetime of a cookie.
-/

namespace Sentinel

/-- The value of the cookie, and when it has to go. -/
abbrev CookieJar := Option (Bytes × Nat)

/-- A visit: when the browser asks, when it comes back with the nonce if it has to,
and what the gate meets at the two times. -/
structure BrowserVisit where
  come : Nat
  back : Nat
  io : PowIo
  ioBack : PowIo

/-- Whether the browser got a puzzle, and whether it was let through. -/
structure VisitEnd where
  puzzle : Bool
  passed : Bool
  deriving DecidableEq, Repr

/-- The cookie that the browser sends. -/
def CookieJar.send (jar : CookieJar) (now : Nat) : Option Bytes :=
  match jar with
  | none => none
  | some (value, gone) => if now < gone then some value else none

/-- The jar after an answer. -/
def CookieJar.keep (jar : CookieJar) (now : Nat) (reply : PowReply) : CookieJar :=
  match reply.setCookie with
  | none => jar
  | some c =>
      match setCookieRead c.header with
      | none => jar
      | some (_, value, maxAge) => some (value, now + maxAge)

section Browser
variable (pow : PowCore) (lcf : PowConf) (fuel : Nat) (client : SockAddr) (headers : HeaderList)

def visitRequest (jar : CookieJar) (now : Nat) (arg : Option Bytes) : PowRequest :=
  ⟨client, jar.send now, headers, arg⟩

/-- What the script of a page finds. -/
def runPage (page : PowPage) : Option Nat :=
  if ¬ page.body then none
  else
    match pageRead page.text with
    | none => none
    | some (c, d) => pageSearch pow c d fuel 0

def browserVisit (jar : CookieJar) (v : BrowserVisit) : VisitEnd × CookieJar :=
  let r := visitRequest client headers jar v.come none
  let reply := sentinelPowDispatch pow lcf r v.come v.io
  match reply.page with
  | none => (⟨false, reply.rc = .declined⟩, jar.keep v.come reply)
  | some page =>
      match runPage pow fuel page with
      | none => (⟨true, false⟩, jar)
      | some n =>
          let r := visitRequest client headers jar v.back (some (ngxPrint n))
          let reply := sentinelPowDispatch pow lcf r v.back v.ioBack
          (⟨true, reply.rc = .declined⟩, jar.keep v.back reply)

end Browser
section Gate
variable {pow : PowCore} {lcf : PowConf} {fuel : Nat} {client : SockAddr} {headers : HeaderList}

/-- What is in the jar was set by the gate, for this client. -/
def JarHolds (pow : PowCore) (lcf : PowConf) (client : SockAddr) (jar : CookieJar) : Prop :=
  ∀ value gone, jar = some (value, gone) → ∃ r t io c, r.sockaddr = client ∧
    sentinelPowSetCookie pow lcf r t io = some c ∧ t + lcf.ttl ≤ ngxMaxIntT ∧
      value = c.value ∧ gone = t + lcf.ttl

/-- The gate works: it is on, can compute its MACs, and can send. -/
structure GateWorks (pow : PowCore) (lcf : PowConf) : Prop where
  accepted : lcf.Accepted
  enabled : lcf.powEnabled = true
  secret : lcf.powSecret ≠ []
  hmac : ∀ data, (pow.hmac lcf.powSecret data).isSome

/-- Nothing is wrong with sending. -/
def PowIo.Sends (io : PowIo) : Prop :=
  io.listPush = true ∧ io.headerAlloc = true ∧ io.pageAlloc = true ∧ io.headerRc = 0 ∧
    io.headerOnly = false

theorem visitRequest_cookie {jar : CookieJar} (hjar : JarHolds pow lcf client jar) {now gone : Nat}
    {value : Bytes} (hin : jar = some (value, gone)) (hnow : now < gone) (arg : Option Bytes) :
    sentinelPowCheckCookie pow lcf (visitRequest client headers jar now arg) now = .ok := by
  obtain ⟨r, t, io, c, hclient, hset, hmax, rfl, rfl⟩ := hjar value gone hin
  refine (setCookie_accepted hset hmax rfl ?_ ?_ now).mpr hnow
  · exact hclient.symm
  · simp only [visitRequest, CookieJar.send, hin, if_pos hnow]

/-- The reply to a request with a cookie that is in time. -/
theorem dispatch_verified (hgate : GateWorks pow lcf) {r : PowRequest} {now : Nat} {io : PowIo}
    (hcookie : sentinelPowCheckCookie pow lcf r now = .ok) :
    sentinelPowDispatch pow lcf r now io = ⟨.declined, .verified, none, none⟩ := by
  have hon : ¬ (¬ lcf.powEnabled = true ∨ lcf.powSecret.length = 0) := by
    simp [hgate.enabled, hgate.secret]
  rw [sentinelPowDispatch, if_neg hon, if_pos hcookie]

theorem checkCookie_none {r : PowRequest} {now : Nat} (h : r.cookie = none) :
    sentinelPowCheckCookie pow lcf r now ≠ .ok := by
  rw [sentinelPowCheckCookie, h]
  simp

/-- The reply to a request without a cookie and without a nonce. -/
theorem dispatch_page (hgate : GateWorks pow lcf) {r : PowRequest} {now : Nat} {io : PowIo}
    {challenge : Bytes} (hio : io.Sends) (hcookie : r.cookie = none)
    (hnonce : sentinelPowGetNonce r = none)
    (hchallenge : sentinelPowChallenge pow lcf r.sockaddr now = some challenge) :
    sentinelPowDispatch pow lcf r now io =
      ⟨.done, .challenge, none, some ⟨challenge, lcf.powDifficulty, true⟩⟩ := by
  have hon : ¬ (¬ lcf.powEnabled = true ∨ lcf.powSecret.length = 0) := by
    simp [hgate.enabled, hgate.secret]
  obtain ⟨-, -, hpage, hheader, honly⟩ := hio
  rw [sentinelPowDispatch, if_neg hon, if_neg (checkCookie_none hcookie)]
  simp [hchallenge, hnonce, sentinelPowSendPage, hpage, hheader, honly]

/-- The reply to a request without a cookie, and with a nonce that solves the challenge. -/
theorem dispatch_solved (hgate : GateWorks pow lcf) {r : PowRequest} {now : Nat} {io : PowIo}
    {challenge nonce : Bytes} (hcookie : r.cookie = none)
    (hnonce : sentinelPowGetNonce r = some nonce)
    (hchallenge : sentinelPowChallenge pow lcf r.sockaddr now = some challenge)
    (hmeets : sentinelPowMeetsDifficulty (pow.sha256 (challenge ++ nonce))
      lcf.powDifficulty = true) :
    sentinelPowDispatch pow lcf r now io =
      ⟨.declined, .verified, sentinelPowSetCookie pow lcf r now io, none⟩ := by
  have hon : ¬ (¬ lcf.powEnabled = true ∨ lcf.powSecret.length = 0) := by
    simp [hgate.enabled, hgate.secret]
  rw [sentinelPowDispatch, if_neg hon, if_neg (checkCookie_none hcookie)]
  simp [hchallenge, hnonce, hmeets]

theorem exists_powMac (hgate : GateWorks pow lcf) {addr : SockAddr}
    (hclient : ∀ addrText, addr ≠ .other addrText) (n : Nat) :
    ∃ raw, powMac pow lcf addr n = some (sentinelPowHex raw) := by
  have hlen : 0 < addr.identity.length ∧ addr.identity.length ≤ 16 := by
    cases addr with
    | inet addr h => simp [SockAddr.identity, h]
    | inet6 addr h => simp [SockAddr.identity, h]
    | other addrText => exact absurd rfl (hclient addrText)
  obtain ⟨raw, hraw⟩ := Option.isSome_iff_exists.mp (hgate.hmac (powMessage addr n))
  refine ⟨raw, ?_⟩
  simp only [powMac, hraw]
  rw [if_neg (by omega), Option.map_some]

theorem setCookie_sends (hgate : GateWorks pow lcf) (r : PowRequest) (now : Nat) {io : PowIo}
    (hio : io.Sends) (hclient : ∀ addrText, r.sockaddr ≠ .other addrText) :
    ∃ c, sentinelPowSetCookie pow lcf r now io = some c ∧ c.maxAge = lcf.ttl ∧
      ∀ b ∈ c.mac, b ∈ powHex := by
  obtain ⟨raw, hraw⟩ := exists_powMac hgate hclient (now + lcf.ttl)
  obtain ⟨hpush, halloc, -, -, -⟩ := hio
  refine ⟨⟨now + lcf.ttl, sentinelPowHex raw, lcf.ttl⟩, ?_, rfl, fun b hb => hex_mem hb⟩
  simp [sentinelPowSetCookie, sentinelPowCookieMac, hraw, hpush, halloc]

end Gate
section Visits
variable {pow : PowCore} {lcf : PowConf} {fuel : Nat} {client : SockAddr} {headers : HeaderList}

/-- When the cookie in the jar has to go; at once if there is none. -/
def CookieJar.gone (jar : CookieJar) : Nat :=
  match jar with
  | none => 0
  | some (_, gone) => gone

/-- The browser comes back in the lifetime of its challenge, nothing is wrong with
sending, and the script finds a nonce. -/
structure BrowserVisit.InTime (pow : PowCore) (lcf : PowConf) (fuel : Nat) (client : SockAddr)
    (v : BrowserVisit) : Prop where
  order : v.come ≤ v.back
  bucket : powBucket lcf v.back = powBucket lcf v.come
  max : v.back + lcf.ttl ≤ ngxMaxIntT
  sends : v.io.Sends ∧ v.ioBack.Sends
  solves : ∀ challenge, sentinelPowChallenge pow lcf client v.come = some challenge →
    (pageSearch pow challenge lcf.powDifficulty fuel 0).isSome

theorem send_eq_none {jar : CookieJar} {now : Nat} (h : jar.gone ≤ now) : jar.send now = none := by
  cases hjar : jar with
  | none => rfl
  | some p =>
      rw [hjar] at h
      exact if_neg (Nat.not_lt.mpr h)

theorem exists_of_lt_gone {jar : CookieJar} {now : Nat} (h : now < jar.gone) :
    ∃ value, jar = some (value, jar.gone) := by
  cases hjar : jar with
  | none =>
      rw [hjar] at h
      exact absurd h (Nat.not_lt_zero now)
  | some p => exact ⟨p.1, rfl⟩

theorem nonce_visit (hheaders : (headers.part ++ headers.next.flatten).find? isPowHeader = none)
    (jar : CookieJar) (now : Nat) (arg : Option Bytes) :
    (visitRequest client headers jar now arg).nonce = arg := by
  simp only [PowRequest.nonce, visitRequest, hheaders]

/-- A visit while the cookie lasts. -/
theorem visit_cookie (hgate : GateWorks pow lcf) {jar : CookieJar}
    (hjar : JarHolds pow lcf client jar) {v : BrowserVisit} (hv : v.come < jar.gone) :
    browserVisit pow lcf fuel client headers jar v = (⟨false, true⟩, jar) := by
  obtain ⟨value, hin⟩ := exists_of_lt_gone hv
  have hcookie : sentinelPowCheckCookie pow lcf (visitRequest client headers jar v.come none)
      v.come = .ok := visitRequest_cookie hjar hin hv none
  simp only [browserVisit, dispatch_verified hgate hcookie]
  simp [CookieJar.keep]

/-- A visit without a cookie: a puzzle, and a new cookie. -/
theorem visit_puzzle (hgate : GateWorks pow lcf)
    (hclient : ∀ addrText, client ≠ .other addrText)
    (hheaders : (headers.part ++ headers.next.flatten).find? isPowHeader = none)
    {jar : CookieJar} {v : BrowserVisit} (hv : v.InTime pow lcf fuel client)
    (hgone : jar.gone ≤ v.come) :
    ∃ jar', browserVisit pow lcf fuel client headers jar v = (⟨true, true⟩, jar') ∧
      JarHolds pow lcf client jar' ∧ jar'.gone = v.back + lcf.ttl := by
  obtain ⟨raw, hcome⟩ : ∃ raw, sentinelPowChallenge pow lcf client v.come =
      some (sentinelPowHex raw) := exists_powMac hgate hclient (powBucket lcf v.come)
  have hback : sentinelPowChallenge pow lcf client v.back = some (sentinelPowHex raw) := by
    rw [sentinelPowChallenge, hv.bucket]
    exact hcome
  -- the page of the first answer, and what its script finds
  have hfirst : sentinelPowDispatch pow lcf (visitRequest client headers jar v.come none) v.come
      v.io = ⟨.done, .challenge, none, some ⟨sentinelPowHex raw, lcf.powDifficulty, true⟩⟩ := by
    refine dispatch_page hgate hv.sends.1 (send_eq_none hgone) ?_ hcome
    cases hnonce : sentinelPowGetNonce (visitRequest client headers jar v.come none) with
    | none => rfl
    | some nonce =>
        have harg := (getNonce_iff.mp hnonce).1
        rw [nonce_visit hheaders] at harg
        contradiction
  obtain ⟨n, hn⟩ := Option.isSome_iff_exists.mp (hv.solves _ hcome)
  have hscript : runPage pow fuel ⟨sentinelPowHex raw, lcf.powDifficulty, true⟩ = some n := by
    have hquote : ch '\x27' ∉ sentinelPowHex raw := by
      intro hmem
      exact absurd (hex_mem hmem) (by decide)
    have hnat : lcf.powDifficulty = lcf.powDifficulty.toNat := by
      have hlo := hgate.accepted.1.1
      omega
    rw [runPage, if_neg (by simp), pageRead_text hquote hnat]
    exact hn
  -- the second answer takes the nonce and sets the cookie
  obtain ⟨hle, hmeets⟩ := pageSearch_some (Nat.zero_le _) hn
  obtain ⟨c, hset, hage, hmac⟩ := setCookie_sends hgate
    (visitRequest client headers jar v.back (some (ngxPrint n))) v.back hv.sends.2 hclient
  have hnonce : sentinelPowGetNonce (visitRequest client headers jar v.back (some (ngxPrint n))) =
      some (ngxPrint n) :=
    getNonce_iff.mpr ⟨nonce_visit hheaders jar v.back _, print_length hle⟩
  have hlate : jar.send v.back = none := send_eq_none (Nat.le_trans hgone hv.order)
  refine ⟨some (c.value, v.back + lcf.ttl), ?_, ?_, rfl⟩
  · simp only [browserVisit, hfirst, hscript,
      dispatch_solved hgate hlate hnonce hback hmeets, hset, CookieJar.keep,
      setCookieRead_header hmac, hage, decide_true]
  · intro value gone hin
    obtain ⟨rfl, rfl⟩ := Prod.mk.inj (Option.some.inj hin)
    exact ⟨_, v.back, v.ioBack, c, rfl, hset, hv.max, rfl, rfl⟩

/-- The visits that renew a lease of this length. -/
def renewals (ttl : Nat) (visits : List BrowserVisit) : List Bool :=
  Run.outputs (Lease.step BrowserVisit.come BrowserVisit.back ttl) 0 visits

/-- Towards the client the gate is a lease. -/
theorem browser_is_lease (hgate : GateWorks pow lcf)
    (hclient : ∀ addrText, client ≠ .other addrText)
    (hheaders : (headers.part ++ headers.next.flatten).find? isPowHeader = none)
    {visits : List BrowserVisit} (hvisits : ∀ v ∈ visits, v.InTime pow lcf fuel client) :
    Run.outputs (browserVisit pow lcf fuel client headers) none visits =
      (renewals lcf.ttl visits).map (⟨·, true⟩) := by
  apply Run.outputs_eq_map_of_sim (P := BrowserVisit.InTime pow lcf fuel client)
    (R := fun jar gone => JarHolds pow lcf client jar ∧ jar.gone = gone) _ _ _ hvisits
  · intro jar gone v hv hR
    obtain ⟨hjar, rfl⟩ := hR
    rw [Lease.step]
    split
    next hin =>
      rw [visit_cookie hgate hjar hin]
      exact ⟨rfl, hjar, rfl⟩
    next hout =>
      obtain ⟨jar', hvisit, hjar', hgone⟩ :=
        visit_puzzle hgate hclient hheaders hv (Nat.not_lt.mp hout)
      rw [hvisit]
      exact ⟨rfl, hjar', hgone⟩
  · refine ⟨?_, rfl⟩
    intro value gone hin
    contradiction

/-- A browser that comes back in time is let through at every visit. It gets a puzzle
exactly when the cookie of every earlier one has run out, so in any span of time
there are no more puzzles than cookies fit into it, and one. -/
theorem pow_browser (hgate : GateWorks pow lcf)
    (hclient : ∀ addrText, client ≠ .other addrText)
    (hheaders : (headers.part ++ headers.next.flatten).find? isPowHeader = none)
    {visits : List BrowserVisit} (hvisits : ∀ v ∈ visits, v.InTime pow lcf fuel client) :
    let ends := Run.outputs (browserVisit pow lcf fuel client headers) none visits
    (∀ before v e after, visits.zip ends = before ++ (v, e) :: after → e.passed = true ∧
      (e.puzzle = true ↔ ∀ p ∈ before, p.2.puzzle = true → p.1.back + lcf.ttl ≤ v.come)) ∧
    ∀ lo hi, (∀ v ∈ visits, lo ≤ v.come ∧ v.back ≤ hi) →
      ends.countP VisitEnd.puzzle * lcf.ttl ≤ hi - lo + lcf.ttl := by
  intro ends
  have hends : ends = (renewals lcf.ttl visits).map (⟨·, true⟩) :=
    browser_is_lease hgate hclient hheaders hvisits
  have horder : ∀ v ∈ visits, v.come ≤ v.back := fun v hv => (hvisits v hv).order
  constructor
  · intro before v e after hsplit
    rw [hends, List.zip_map_right] at hsplit
    obtain ⟨before', rest, hzip, rfl, hrest⟩ := List.map_eq_append_iff.mp hsplit
    obtain ⟨p, after', rfl, hp, -⟩ := List.map_eq_cons_iff.mp hrest
    obtain ⟨rfl, rfl⟩ := Prod.mk.inj hp
    refine ⟨rfl, ?_⟩
    have hrenews := Lease.outputs_renews horder Lease.endsAt_nil hzip
    rw [List.forall_mem_map]
    exact hrenews
  · intro lo hi hspan
    have hcount := Lease.count_mul_le lcf.ttl
      (fun v hv => ⟨(hspan v hv).1, horder v hv, (hspan v hv).2⟩) 0
    have hsame : ends.countP VisitEnd.puzzle = (renewals lcf.ttl visits).count true := by
      rw [hends, List.countP_map, List.count_eq_countP]
      apply List.countP_congr
      intro renewed _
      simp
    rw [hsame, renewals]
    cases hcount with
    | inl hzero =>
        rw [hzero]
        omega
    | inr hsum => omega

section Morning

def morningConf : PowConf := ⟨true, str "key", 1, 3600⟩

theorem morningAddr_length : ([192, 0, 2, 7] : Bytes).length = 4 := rfl

def morningClient : SockAddr := .inet [192, 0, 2, 7] morningAddr_length

theorem morningParts_ne : ∀ p ∈ ([] : List (List TableElt)), p ≠ [] := List.forall_mem_nil _

def morningHeaders : HeaderList := ⟨[⟨str "Host", str "a"⟩], [], morningParts_ne⟩

/-- A visit, one on its cookie, and one when the cookie has run out. -/
def morningVisits : List BrowserVisit :=
  let io : PowIo := ⟨true, true, true, 0, false⟩
  [⟨1700000000, 1700000001, io, io⟩, ⟨1700000300, 1700000300, io, io⟩,
    ⟨1700003700, 1700003702, io, io⟩]

/-- Three visits, with a puzzle at the first and at the last. -/
theorem pow_browser_morning :
    let ends := Run.outputs (browserVisit Ref.pow morningConf 8 morningClient morningHeaders) none
      morningVisits
    (∀ before v e after, morningVisits.zip ends = before ++ (v, e) :: after → e.passed = true ∧
      (e.puzzle = true ↔ ∀ p ∈ before, p.2.puzzle = true →
        p.1.back + morningConf.ttl ≤ v.come)) ∧
    ends.countP VisitEnd.puzzle * morningConf.ttl ≤
      1700003702 - 1700000000 + morningConf.ttl := by
  have hsolves : ∀ v ∈ morningVisits,
      (sentinelPowChallenge Ref.pow morningConf morningClient v.come).all
        (fun challenge => (pageSearch Ref.pow challenge 1 8 0).isSome) = true := by
    decide +kernel
  have htimes : ∀ v ∈ morningVisits, v.come ≤ v.back ∧
      powBucket morningConf v.back = powBucket morningConf v.come ∧
      v.back + morningConf.ttl ≤ ngxMaxIntT ∧ v.io = ⟨true, true, true, 0, false⟩ ∧
      v.ioBack = ⟨true, true, true, 0, false⟩ := by
    decide
  have hvisits : ∀ v ∈ morningVisits, v.InTime Ref.pow morningConf 8 morningClient := by
    intro v hv
    obtain ⟨horder, hbucket, hmax, hio, hioBack⟩ := htimes v hv
    refine ⟨horder, hbucket, hmax, ?_, ?_⟩
    · rw [hio, hioBack]
      exact ⟨⟨rfl, rfl, rfl, rfl, rfl⟩, rfl, rfl, rfl, rfl, rfl⟩
    · intro challenge hchallenge
      have hall := hsolves v hv
      rw [hchallenge] at hall
      exact hall
  have hgate : GateWorks Ref.pow morningConf := ⟨by decide, rfl, by decide, fun _ => rfl⟩
  have hheaders : (morningHeaders.part ++ morningHeaders.next.flatten).find? isPowHeader = none :=
    by decide
  obtain ⟨hends, hcount⟩ := pow_browser hgate (fun _ => by simp [morningClient]) hheaders hvisits
  exact ⟨hends, hcount 1700000000 1700003702 (by decide)⟩

end Morning
end Visits
end Sentinel
