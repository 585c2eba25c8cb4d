import Mathlib.Data.List.Infix
import Sentinel.Score

/-!
The two collectors that read the `User-Agent`: the token tables of
`sentinel_botua.c` and the browser shape of `sentinel_coherence.c`. Both look for
substrings with the same case-sensitive search.

Left out: the checks for `NULL` requests and the log lines.
-/

namespace Sentinel

section Search

/-- `ngx_strncmp` on two texts of at least `n` bytes. -/
def ngxStrncmp : (s1 s2 : Bytes) → (n : Nat) → Int
  | c1 :: s1, c2 :: s2, n + 1 =>
      if c1 = c2 then if c1 ≠ 0 then ngxStrncmp s1 s2 n else 0
      else c1.toNat - c2.toNat
  | _, _, _ => 0

/-- The loop of the search, at the bytes that are left of `ua`. -/
def uaContainsLoop (sub : Bytes) : (ua : Bytes) → Bool
  | [] => false
  | c :: ua =>
      if sub.length > (c :: ua).length then false
      else if sub.head? = some c ∧ ngxStrncmp (c :: ua) sub sub.length = 0 then true
      else uaContainsLoop sub ua

/-- `ua_contains` and `coh_ua_contains` -/
def uaContains (ua sub : Bytes) : Bool :=
  if sub.length = 0 ∨ sub.length > ua.length then false else uaContainsLoop sub ua

end Search
section Tables

def goodUaSubstrings : List Bytes :=
  [str "Googlebot", str "Googlebot-Image", str "Googlebot-News", str "Googlebot-Video",
   str "Bingbot", str "Slurp", str "DuckDuckBot", str "Baiduspider", str "YandexBot",
   str "facebot", str "ia_archiver", str "UptimeRobot", str "Pingdom"]

def badUaSubstrings : List Bytes :=
  [str "sqlmap", str "nikto", str "nmap", str "masscan", str "ZGrab", str "zgrab",
   str "Nuclei", str "nuclei", str "python-requests", str "Go-http-client/1.1", str "curl/7",
   str "libwww-perl", str "WPScan", str "wpscan", str "Acunetix", str "acunetix",
   str "Metasploit", str "metasploit", str "Burp", str "dirbuster", str "DirBuster",
   str "gobuster", str "ffuf", str "feroxbuster", str "WordPress/"]

def browserUaSubstrings : List Bytes :=
  [str "Chrome/", str "Firefox/", str "Safari/", str "Edg/", str "Gecko/"]

def sentinelBotUaMinLen : Nat := 5

end Tables
section Signals

/-- What the two collectors read of a request. -/
structure AgentRequest where
  userAgent : Option Bytes
  accept : Option Bytes
  acceptLanguage : Option Bytes
  acceptEncoding : Option Bytes
  httpVersion : Nat
  deriving DecidableEq, Repr

def ngxHttpVersion11 : Nat := 1001

/-- `good` is the table of known-good crawlers, which the source looks through
before the other one. -/
def sentinelBotuaSignal (good : List Bytes) (r : AgentRequest) (inputs : Inputs) : Inputs :=
  let inputs := { inputs with botUa := false, knownGoodUa := false }
  match r.userAgent with
  | none => { inputs with botUa := true }
  | some ua =>
      if ua.length < sentinelBotUaMinLen then { inputs with botUa := true }
      else if good.any (uaContains ua) then { inputs with knownGoodUa := true }
      else if badUaSubstrings.any (uaContains ua) then { inputs with botUa := true }
      else inputs

def cohAcceptsGzip (r : AgentRequest) : Bool :=
  match r.acceptEncoding with
  | none => false
  | some ae =>
      if ae.length = 0 then false
      else uaContains ae (str "gzip") || uaContains ae (str "br")

/-- A header that is there and not empty. -/
def hasValue (value : Option Bytes) : Bool := value.any fun v => v.length > 0

def sentinelCoherenceSignal (r : AgentRequest) (inputs : Inputs) : Inputs :=
  let inputs := { inputs with uaIncoherent := false }
  match r.userAgent with
  | none => inputs
  | some ua =>
      if ¬ browserUaSubstrings.any (uaContains ua) then inputs
      else if ¬ hasValue r.accept ∨ ¬ hasValue r.acceptLanguage ∨ ¬ cohAcceptsGzip r ∨
          ¬ r.httpVersion ≥ ngxHttpVersion11 then
        { inputs with uaIncoherent := true }
      else inputs

end Signals
section Contains
variable {ua sub : Bytes}

/-- On a text without NUL the comparison is that of a prefix. -/
theorem ngxStrncmp_eq_zero_iff (hsub : 0 ∉ sub) (hlen : sub.length ≤ ua.length) :
    ngxStrncmp ua sub sub.length = 0 ↔ sub <+: ua := by
  induction sub generalizing ua with
  | nil => simp [ngxStrncmp]
  | cons c sub ih =>
      cases ua with
      | nil => simp at hlen
      | cons d ua =>
          have hrest := ih (fun hmem => hsub (List.mem_cons_of_mem c hmem))
            (Nat.le_of_succ_le_succ hlen)
          have hc : c ≠ 0 := fun hzero => hsub (hzero ▸ List.mem_cons_self)
          by_cases hcd : d = c
          · subst hcd
            simp [ngxStrncmp, hc, hrest, List.cons_prefix_cons]
          · have hne : ((d.toNat : Int) - c.toNat) ≠ 0 := by
              intro hzero
              apply hcd
              apply UInt8.toNat_inj.mp
              omega
            have hcd' : ¬ c = d := fun h => hcd h.symm
            simp [ngxStrncmp, hcd, hne, List.cons_prefix_cons, hcd']

theorem uaContainsLoop_iff (hsub : 0 ∉ sub) (hne : sub ≠ []) :
    uaContainsLoop sub ua = true ↔ sub <:+: ua := by
  induction ua with
  | nil => simp [uaContainsLoop, hne]
  | cons c ua ih =>
      rw [uaContainsLoop, List.infix_cons_iff]
      by_cases hlen : sub.length > (c :: ua).length
      · have hpre : ¬ sub <+: c :: ua := fun h => absurd h.length_le (Nat.not_le.mpr hlen)
        have hinf : ¬ sub <:+: ua := by
          intro h
          have := h.length_le
          simp only [List.length_cons] at hlen
          omega
        rw [if_pos hlen]
        simp [hpre, hinf]
      · have hcmp := ngxStrncmp_eq_zero_iff hsub (Nat.not_lt.mp hlen)
        rw [if_neg hlen]
        by_cases hpre : sub <+: c :: ua
        · have hhead : sub.head? = some c := by
            cases sub with
            | nil => exact absurd rfl hne
            | cons d sub =>
                rw [(List.cons_prefix_cons.mp hpre).1]
                rfl
          rw [if_pos ⟨hhead, hcmp.mpr hpre⟩]
          simp [hpre]
        · rw [if_neg fun h => hpre (hcmp.mp h.2)]
          simp [hpre, ih]

/-- The search finds what is there. -/
theorem uaContains_iff (hsub : 0 ∉ sub) (hne : sub ≠ []) :
    uaContains ua sub = true ↔ sub <:+: ua := by
  rw [uaContains]
  by_cases hlen : sub.length > ua.length
  · have hinf : ¬ sub <:+: ua := fun h => absurd h.length_le (Nat.not_le.mpr hlen)
    simp [hlen, hinf]
  · have hzero : ¬ sub.length = 0 := fun h => hne (List.length_eq_zero_iff.mp h)
    rw [if_neg (by simp only [hzero, hlen, or_self, not_false_eq_true])]
    exact uaContainsLoop_iff hsub hne

/-- One of the tokens occurs in `ua`. -/
def Occurs (table : List Bytes) (ua : Bytes) : Prop := ∃ sub ∈ table, sub <:+: ua

instance decidableOccurs (table : List Bytes) (ua : Bytes) : Decidable (Occurs table ua) :=
  inferInstanceAs (Decidable (∃ _ ∈ _, _))

theorem any_uaContains_iff {table : List Bytes} (htable : ∀ sub ∈ table, 0 ∉ sub ∧ sub ≠ []) :
    table.any (uaContains ua) = true ↔ Occurs table ua := by
  rw [List.any_eq_true]
  constructor
  · intro h
    obtain ⟨sub, hmem, hfound⟩ := h
    obtain ⟨hsub, hne⟩ := htable sub hmem
    exact ⟨sub, hmem, (uaContains_iff hsub hne).mp hfound⟩
  · intro h
    obtain ⟨sub, hmem, hinfix⟩ := h
    obtain ⟨hsub, hne⟩ := htable sub hmem
    exact ⟨sub, hmem, (uaContains_iff hsub hne).mpr hinfix⟩

theorem goodUaSubstrings_texts : ∀ sub ∈ goodUaSubstrings, 0 ∉ sub ∧ sub ≠ [] := by decide

theorem badUaSubstrings_texts : ∀ sub ∈ badUaSubstrings, 0 ∉ sub ∧ sub ≠ [] := by decide

end Contains
end Sentinel
