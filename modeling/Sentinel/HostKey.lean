import Sentinel.Feed
import Sentinel.NgxRef
import Sentinel.PowForge

/-!
The key that the feed loader derives from a token and the one that a request
derives from its peer. Both hash a text: the loader parses the token and prints
what it has parsed, the request has nginx's print of the socket address. An IPv4
host that comes in over an IPv6 socket has an IPv6 address, and is printed as one.
-/

namespace Sentinel

section Hosts

/-- The number that four bytes in network order are. -/
def bigEndian (addr : Bytes) : UInt32 :=
  UInt32.ofNat (addr.foldl (fun v c => v * 256 + c.toNat) 0)

def mappedPrefix : Bytes := List.replicate 10 0 ++ [0xFF, 0xFF]

inductive Host where
  | v4 (addr : UInt32)
  | v6 (addr : Bytes)
  deriving DecidableEq, Repr

/-- The host of an IPv6 address; that of an IPv4-mapped one is an IPv4 host. -/
def host6 (addr : Bytes) : Host :=
  if addr.take 12 = mappedPrefix then .v4 (bigEndian (addr.drop 12)) else .v6 addr

def SockAddr.host : SockAddr → Option Host
  | .inet addr _ => some (.v4 (bigEndian addr))
  | .inet6 addr _ => some (host6 addr)
  | .other _ => none

/-- The host that a token of the feed names, as nginx parses it. -/
def tokenHost (ngx : NgxCore) (token : Bytes) : Option Host :=
  match ngx.inetAddr token with
  | some v4 => some (.v4 v4)
  | none => (ngx.inet6Addr token).map host6

/-- `ngx_sock_ntop` without the port -/
def ngxSockNtop (ngx : NgxCore) : SockAddr → Bytes
  | .inet addr _ => ngx.inetNtop (bigEndian addr)
  | .inet6 addr _ => ngx.inet6Ntop addr
  | .other addrText => addrText

/-- The key under which the loader puts a token's decision. -/
def loaderKey (ngx : NgxCore) (token : Bytes) : Key :=
  sentinelFeedDigest ngx (sentinelFeedCanonIp ngx token)

/-- The key that a request of the peer is looked up with. -/
def requestKey (ngx : NgxCore) (peer : SockAddr) : Key :=
  sentinelFeedDigest ngx (ngxSockNtop ngx peer)

def SameHost (ngx : NgxCore) (token : Bytes) (peer : SockAddr) : Prop :=
  ∃ host, tokenHost ngx token = some host ∧ peer.host = some host

/-- One of the two is an IPv4 address, and the other is the IPv6 address that it
is mapped to. -/
def Crossed (ngx : NgxCore) (token : Bytes) (peer : SockAddr) : Prop :=
  match ngx.inetAddr token, peer with
  | some v4, .inet6 addr _ => host6 addr = .v4 v4
  | none, .inet addr _ => (ngx.inet6Addr token).map host6 = some (.v4 (bigEndian addr))
  | _, _ => False

/-- Which texts nginx prints addresses as. -/
structure PrintsAddrs (ngx : NgxCore) : Prop where
  inetNtop_inj : ∀ a b, ngx.inetNtop a = ngx.inetNtop b → a = b
  inetNtop_chars : ∀ a, ∀ c ∈ ngx.inetNtop a, isDigit c = true ∨ c = ch '.'
  inet6Addr_length : ∀ s a, ngx.inet6Addr s = some a → a.length = 16
  inet6Ntop_inj : ∀ a b, a.length = 16 → b.length = 16 → ngx.inet6Ntop a = ngx.inet6Ntop b → a = b
  inet6Ntop_colon : ∀ a, a.length = 16 → ch ':' ∈ ngx.inet6Ntop a
  inet6Ntop_chars : ∀ a, a.length = 16 → ∀ c ∈ ngx.inet6Ntop a,
    isDigit c = true ∨ (ch 'a' ≤ c ∧ c ≤ ch 'f') ∨ c = ch ':' ∨ c = ch '.'

/-- A peer that is no internet host is printed as a Unix socket. -/
def PeerText (peer : SockAddr) : Prop :=
  match peer with
  | .other addrText => str "unix:" <+: addrText
  | _ => True

end Hosts
section Injective

theorem bigEndian_inj {a b : Bytes} (ha : a.length = 4) (hb : b.length = 4)
    (h : bigEndian a = bigEndian b) : a = b := by
  match a, b, ha, hb with
  | [a₀, a₁, a₂, a₃], [b₀, b₁, b₂, b₃], _, _ =>
      have hnat := congrArg UInt32.toNat h
      simp only [bigEndian, List.foldl_cons, List.foldl_nil, UInt32.toNat_ofNat'] at hnat
      have := a₀.toNat_lt
      have := a₁.toNat_lt
      have := a₂.toNat_lt
      have := a₃.toNat_lt
      have := b₀.toNat_lt
      have := b₁.toNat_lt
      have := b₂.toNat_lt
      have := b₃.toNat_lt
      simp only [List.cons.injEq, ← UInt8.toNat_inj, and_true]
      omega

theorem host6_inj {a b : Bytes} (ha : a.length = 16) (hb : b.length = 16) :
    host6 a = host6 b ↔ a = b := by
  constructor
  · intro h
    rw [host6, host6] at h
    split at h
    next hmapped =>
      split at h
      next hmapped' =>
        have hrest := bigEndian_inj (by simp [ha]) (by simp [hb]) (Host.v4.inj h)
        rw [← List.take_append_drop 12 a, ← List.take_append_drop 12 b, hmapped, hmapped', hrest]
      next => contradiction
    next =>
      split at h
      next => contradiction
      next => exact Host.v6.inj h
  · exact congrArg host6

end Injective
section Keys
variable {ngx : NgxCore} {token : Bytes} {peer : SockAddr}

/-- An accepted token has an address of one of the families, whose text is hashed. -/
inductive Accepted (ngx : NgxCore) (token : Bytes) : Prop
  | v4 (addr : UInt32) : ngx.inetAddr token = some addr →
      sentinelFeedCanonIp ngx token = ngx.inetNtop addr → Accepted ngx token
  | v6 (addr : Bytes) : ngx.inetAddr token = none → ngx.inet6Addr token = some addr →
      sentinelFeedCanonIp ngx token = ngx.inet6Ntop addr → Accepted ngx token

theorem accepted_of_canon (h : sentinelFeedCanonIp ngx token ≠ []) : Accepted ngx token := by
  have hcanon : sentinelFeedCanonIp ngx token =
      (ngx.inetAddr token).elim ((ngx.inet6Addr token).elim [] ngx.inet6Ntop) ngx.inetNtop := by
    rw [sentinelFeedCanonIp] at h ⊢
    split
    next hlen => exact absurd (if_pos hlen) h
    next hlen =>
      rw [if_neg hlen] at h
      split
      next hcidr => exact absurd (if_pos hcidr) h
      next =>
        cases ngx.inetAddr token with
        | some v4 => rfl
        | none =>
            cases ngx.inet6Addr token with
            | some v6 | none => rfl
  cases hv4 : ngx.inetAddr token with
  | some addr =>
      rw [hv4] at hcanon
      exact .v4 addr hv4 hcanon
  | none =>
      rw [hv4] at hcanon
      cases hv6 : ngx.inet6Addr token with
      | some addr =>
          rw [hv6] at hcanon
          exact .v6 addr hv4 hv6 hcanon
      | none =>
          rw [hv6] at hcanon
          exact absurd hcanon h

/-- The texts of the two families differ in the colon, and neither is that of a
Unix socket. -/
theorem ntop_ne_ntop6 (h : PrintsAddrs ngx) (a : UInt32) {b : Bytes} (hb : b.length = 16) :
    ngx.inetNtop a ≠ ngx.inet6Ntop b := by
  intro heq
  have hcolon := h.inet6Ntop_colon b hb
  rw [← heq] at hcolon
  exact absurd (h.inetNtop_chars a _ hcolon) (by decide)

theorem ntop_ne_unix (h : PrintsAddrs ngx) (a : UInt32) {text : Bytes}
    (htext : str "unix:" <+: text) : ngx.inetNtop a ≠ text := by
  intro heq
  have hmem : ch 'u' ∈ ngx.inetNtop a := heq ▸ htext.subset (by decide)
  exact absurd (h.inetNtop_chars a _ hmem) (by decide)

theorem ntop6_ne_unix (h : PrintsAddrs ngx) {a : Bytes} (ha : a.length = 16) {text : Bytes}
    (htext : str "unix:" <+: text) : ngx.inet6Ntop a ≠ text := by
  intro heq
  have hmem : ch 'u' ∈ ngx.inet6Ntop a := heq ▸ htext.subset (by decide)
  exact absurd (h.inet6Ntop_chars a ha _ hmem) (by decide)

theorem keys_eq_iff
    (hsha : ngx.sha256 (sentinelFeedCanonIp ngx token) = ngx.sha256 (ngxSockNtop ngx peer) →
      sentinelFeedCanonIp ngx token = ngxSockNtop ngx peer) :
    loaderKey ngx token = requestKey ngx peer ↔
      sentinelFeedCanonIp ngx token = ngxSockNtop ngx peer := by
  constructor
  · intro h
    exact hsha (congrArg Key.data h)
  · intro h
    rw [loaderKey, requestKey, h]

end Keys
section Reference

/-- IPv6 addresses with all their digits, as nginx prints those that have no
zeros to leave out. -/
def wideNtop6 : Bytes → Bytes
  | a :: b :: c :: s => sentinelPowHex [a, b] ++ ch ':' :: wideNtop6 (c :: s)
  | s => sentinelPowHex s

theorem mem_powHex {s : Bytes} {c : UInt8} (h : c ∈ sentinelPowHex s) :
    isDigit c = true ∨ (ch 'a' ≤ c ∧ c ≤ ch 'f') := by
  have hdigits : ∀ i < 256, (sentinelPowHex [UInt8.ofNat i]).all fun c =>
      isDigit c = true ∨ (ch 'a' ≤ c ∧ c ≤ ch 'f') := by
    decide +kernel
  obtain ⟨b, -, hb⟩ := List.mem_flatMap.mp h
  have hbyte := hdigits b.toNat b.toNat_lt
  rw [UInt8.ofNat_toNat] at hbyte
  exact forall_mem_of_all hbyte c (List.mem_flatMap.mpr ⟨b, List.mem_singleton_self b, hb⟩)

theorem mem_wideNtop6 (s : Bytes) :
    ∀ c ∈ wideNtop6 s, (isDigit c = true ∨ (ch 'a' ≤ c ∧ c ≤ ch 'f')) ∨ c = ch ':' := by
  induction s using wideNtop6.induct with
  | case1 a b c s ih =>
      intro x hx
      rw [wideNtop6] at hx
      cases List.mem_append.mp hx with
      | inl hhex => exact .inl (mem_powHex hhex)
      | inr hrest =>
          cases List.mem_cons.mp hrest with
          | inl hcolon => exact .inr hcolon
          | inr hlater => exact ih x hlater
  | case2 s hs =>
      intro x hx
      rw [wideNtop6.eq_2 s hs] at hx
      exact .inl (mem_powHex hx)

/-- The digits without the colons. -/
theorem filter_wideNtop6 (s : Bytes) :
    (wideNtop6 s).filter (fun c => c ≠ ch ':') = sentinelPowHex s := by
  have hhex : ∀ s : Bytes, (sentinelPowHex s).filter (fun c => c ≠ ch ':') = sentinelPowHex s := by
    intro s
    rw [List.filter_eq_self]
    intro c hc
    rw [decide_eq_true_iff]
    intro hcolon
    rw [hcolon] at hc
    exact absurd (mem_powHex hc) (by decide)
  induction s using wideNtop6.induct with
  | case1 a b c s ih =>
      rw [wideNtop6, List.filter_append, List.filter_cons_of_neg (by decide), hhex, ih]
      rfl
  | case2 s hs => rw [wideNtop6.eq_2 s hs, hhex]

theorem inetNtop_inj {a b : UInt32} (h : Ref.inetNtop a = Ref.inetNtop b) : a = b := by
  have hdot : ∀ n, ch '.' ∉ Ref.decimalText n := by
    intro n
    exact dot_not_digit (allDigits_iff.mpr (Numeral.write_digits n))
  have hnumber : ∀ {m n}, Ref.decimalText m = Ref.decimalText n → m = n :=
    fun heq => Numeral.write_injective digitCode heq
  simp only [Ref.inetNtop, List.append_assoc, List.cons_append] at h
  obtain ⟨h₁, h⟩ := Lines.append_inj _ (hdot _) (hdot _) h
  obtain ⟨h₂, h⟩ := Lines.append_inj _ (hdot _) (hdot _) h
  obtain ⟨h₃, h⟩ := Lines.append_inj _ (hdot _) (hdot _) h
  have h₁ := hnumber h₁
  have h₂ := hnumber h₂
  have h₃ := hnumber h₃
  have h₄ := hnumber h
  rw [← UInt32.toNat_inj]
  omega

theorem inetNtop_chars (a : UInt32) : ∀ c ∈ Ref.inetNtop a, isDigit c = true ∨ c = ch '.' := by
  have hdigits : ∀ n, ∀ c ∈ Ref.decimalText n, isDigit c = true :=
    fun n => List.all_eq_true.mp (allDigits_iff.mpr (Numeral.write_digits n))
  intro c hc
  simp only [Ref.inetNtop, List.mem_append, List.mem_cons] at hc
  grind

/-- A core that knows one spelling of an IPv6 address. -/
def wideNgx (token addr : Bytes) : NgxCore :=
  { Ref.ngx with
    inet6Addr := fun s => if s = token then some addr else none
    inet6Ntop := fun a => if a = [] then [ch ':'] else wideNtop6 a
    inet6Ntop_ne_nil := by
      intro a
      split
      · simp
      next hne =>
        intro hnil
        have hhex := filter_wideNtop6 a
        rw [hnil] at hhex
        cases a with
        | nil => exact hne rfl
        | cons b a => simp [sentinelPowHex] at hhex }

theorem wideNgx_prints (token : Bytes) {addr : Bytes} (haddr : addr.length = 16) :
    PrintsAddrs (wideNgx token addr) := by
  have hwide : ∀ a : Bytes, a.length = 16 → (wideNgx token addr).inet6Ntop a = wideNtop6 a := by
    intro a ha
    refine if_neg fun hnil => ?_
    rw [hnil] at ha
    contradiction
  refine ⟨fun a b => inetNtop_inj, inetNtop_chars, ?_, ?_, ?_, ?_⟩
  · intro s a hs
    simp only [wideNgx, Option.ite_none_right_eq_some, Option.some.injEq] at hs
    exact hs.2 ▸ haddr
  · intro a b ha hb heq
    rw [hwide a ha, hwide b hb] at heq
    apply hex_injective
    rw [← filter_wideNtop6 a, heq, filter_wideNtop6 b]
  · intro a ha
    rw [hwide a ha]
    match a, ha with
    | a₀ :: a₁ :: a₂ :: a, _ =>
        rw [wideNtop6]
        exact List.mem_append_right _ List.mem_cons_self
  · intro a ha c hc
    rw [hwide a ha] at hc
    cases mem_wideNtop6 a c hc with
    | inl hhex => exact hhex.imp_right .inl
    | inr hcolon => exact .inr (.inr (.inl hcolon))

end Reference
section Agree
variable {ngx : NgxCore} {token : Bytes} {peer : SockAddr}

theorem agree_v4 (h : PrintsAddrs ngx) (hpeer : PeerText peer) {addr : UInt32}
    (haddr : ngx.inetAddr token = some addr) :
    ((ngx.inetNtop addr = ngxSockNtop ngx peer) ↔ SameHost ngx token peer) ↔
      ¬ Crossed ngx token peer := by
  have hhost : tokenHost ngx token = some (.v4 addr) := by
    rw [tokenHost, haddr]
  cases peer with
  | inet b hb =>
      -- both IPv4
      have hsame : SameHost ngx token (.inet b hb) ↔ addr = bigEndian b := by
        simp [SameHost, hhost, SockAddr.host, eq_comm]
      have hcrossed : ¬ Crossed ngx token (.inet b hb) := by
        simp [Crossed, haddr]
      have htext : ngx.inetNtop addr = ngxSockNtop ngx (.inet b hb) ↔ addr = bigEndian b :=
        ⟨h.inetNtop_inj addr (bigEndian b), congrArg ngx.inetNtop⟩
      rw [htext, hsame]
      exact iff_of_true Iff.rfl hcrossed
  | inet6 b hb =>
      have hsame : SameHost ngx token (.inet6 b hb) ↔ Crossed ngx token (.inet6 b hb) := by
        simp [SameHost, Crossed, haddr, hhost, SockAddr.host]
      have htext : ngx.inetNtop addr ≠ ngxSockNtop ngx (.inet6 b hb) := ntop_ne_ntop6 h addr hb
      rw [hsame]
      exact ⟨fun hiff hcrossed => htext (hiff.mpr hcrossed),
        fun hnot => iff_of_false htext hnot⟩
  | other text =>
      have hsame : ¬ SameHost ngx token (.other text) := by
        simp [SameHost, SockAddr.host]
      have hcrossed : ¬ Crossed ngx token (.other text) := by
        simp [Crossed, haddr]
      exact iff_of_true (iff_of_false (ntop_ne_unix h addr hpeer) hsame) hcrossed

theorem agree_v6 (h : PrintsAddrs ngx) (hpeer : PeerText peer) {addr : Bytes}
    (hnone : ngx.inetAddr token = none) (haddr : ngx.inet6Addr token = some addr) :
    ((ngx.inet6Ntop addr = ngxSockNtop ngx peer) ↔ SameHost ngx token peer) ↔
      ¬ Crossed ngx token peer := by
  have hlen := h.inet6Addr_length token addr haddr
  have hhost : tokenHost ngx token = some (host6 addr) := by
    rw [tokenHost, hnone, haddr]
    rfl
  cases peer with
  | inet b hb =>
      have hsame : SameHost ngx token (.inet b hb) ↔ Crossed ngx token (.inet b hb) := by
        simp [SameHost, Crossed, hnone, haddr, hhost, SockAddr.host, eq_comm]
      have htext : ngx.inet6Ntop addr ≠ ngxSockNtop ngx (.inet b hb) :=
        (ntop_ne_ntop6 h (bigEndian b) hlen).symm
      rw [hsame]
      exact ⟨fun hiff hcrossed => htext (hiff.mpr hcrossed),
        fun hnot => iff_of_false htext hnot⟩
  | inet6 b hb =>
      -- both IPv6
      have hsame : SameHost ngx token (.inet6 b hb) ↔ addr = b := by
        simp [SameHost, hhost, SockAddr.host, eq_comm, host6_inj hlen hb]
      have hcrossed : ¬ Crossed ngx token (.inet6 b hb) := by
        simp [Crossed, hnone]
      have htext : ngx.inet6Ntop addr = ngxSockNtop ngx (.inet6 b hb) ↔ addr = b :=
        ⟨h.inet6Ntop_inj addr b hlen hb, congrArg ngx.inet6Ntop⟩
      rw [htext, hsame]
      exact iff_of_true Iff.rfl hcrossed
  | other text =>
      have hsame : ¬ SameHost ngx token (.other text) := by
        simp [SameHost, SockAddr.host]
      have hcrossed : ¬ Crossed ngx token (.other text) := by
        simp [Crossed, hnone]
      exact iff_of_true (iff_of_false (ntop6_ne_unix h hlen hpeer) hsame) hcrossed

/-- The loader and the request agree on a host exactly when they do not have it
in the two families. -/
theorem keys_agree_iff (h : PrintsAddrs ngx) (haccepted : sentinelFeedCanonIp ngx token ≠ [])
    (hpeer : PeerText peer)
    (hsha : ngx.sha256 (sentinelFeedCanonIp ngx token) = ngx.sha256 (ngxSockNtop ngx peer) →
      sentinelFeedCanonIp ngx token = ngxSockNtop ngx peer) :
    ((loaderKey ngx token = requestKey ngx peer) ↔ SameHost ngx token peer) ↔
      ¬ Crossed ngx token peer := by
  rw [keys_eq_iff hsha]
  cases accepted_of_canon haccepted with
  | v4 addr haddr hcanon =>
      rw [hcanon]
      exact agree_v4 h hpeer haddr
  | v6 addr hnone haddr hcanon =>
      rw [hcanon]
      exact agree_v6 h hpeer hnone haddr

/-- A host and a spelling of it with capital letters. -/
theorem keys_agree_capitals :
    let token := str "2001:1DB8:1234:5678:9ABC:DEF0:1111:2222"
    let addr : Bytes := [0x20, 0x01, 0x1d, 0xb8, 0x12, 0x34, 0x56, 0x78, 0x9a, 0xbc, 0xde, 0xf0,
      0x11, 0x11, 0x22, 0x22]
    (loaderKey (wideNgx token addr) token = requestKey (wideNgx token addr) (.inet6 addr rfl) ↔
        SameHost (wideNgx token addr) token (.inet6 addr rfl)) ↔
      ¬ Crossed (wideNgx token addr) token (.inet6 addr rfl) :=
  keys_agree_iff (wideNgx_prints _ rfl) (by decide) trivial (fun _ => by decide)

/-- A ban of 1.2.3.4 does not find the client that comes in as ::ffff:1.2.3.4. -/
theorem mapped_client_unbanned :
    let ngx : NgxCore := { Ref.ngx with
      inet6Ntop := fun _ => str "::ffff:1.2.3.4"
      inet6Ntop_ne_nil := fun _ => by decide }
    let peer : SockAddr := .inet6 (mappedPrefix ++ [1, 2, 3, 4]) rfl
    SameHost ngx (str "1.2.3.4") peer ∧ loaderKey ngx (str "1.2.3.4") ≠ requestKey ngx peer := by
  refine ⟨⟨.v4 0x01020304, by decide, by decide⟩, ?_⟩
  decide +kernel

end Agree
end Sentinel
