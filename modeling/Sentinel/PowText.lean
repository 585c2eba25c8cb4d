import Sentinel.Context
import Sentinel.PowPage

/-!
What the gate sends out, as text: the page with its script, and the header of the
cookie. A browser that runs the script and keeps the cookie gets from the texts
exactly what the gate put into them.
-/

namespace Sentinel

/-- The bytes of a string literal of the source. -/
def utf8 (s : String) : Bytes := s.toList.flatMap String.utf8EncodeChar

section Page

/-- The head of the page up to the literal of the challenge. -/
def powTmplOpening : Bytes :=
  utf8 "<!doctype html><html><head><meta charset=utf-8>" ++
  utf8 "<title>Verifying your browser</title>" ++
  utf8 "<meta name=robots content=noindex></head>" ++
  utf8 "<body><h1>Checking your browser&hellip;</h1>" ++
  utf8 "<p>One moment — solving a small " ++ utf8 "computational puzzle.</p>" ++
  utf8 "<noscript>JavaScript is required " ++ utf8 "to continue.</noscript>" ++
  utf8 "<script>" ++
  utf8 "(function()\x7b" ++
  utf8 "var c="

def powTmplHead : Bytes := powTmplOpening ++ utf8 "'"

def powTmplMid1 : Bytes := utf8 "',d="

/-- `NGX_SENTINEL_POW_ARG` -/
def ngxSentinelPowArg : String := "__sentinel_pow"

def powTmplMid2 : Bytes :=
  utf8 ";" ++
  utf8 "async function sha(s)\x7bvar b=new TextEncoder().encode(s);" ++
  utf8 "var h=await crypto.subtle.digest('SHA-256',b);" ++
  utf8 "return new Uint8Array(h);\x7d" ++
  utf8 "function lz(a)\x7bvar n=0;for(var i=0;i<a.length;i++)\x7b" ++
  utf8 "var v=a[i];if(v===0)\x7bn+=8;continue;\x7d" ++
  utf8 "while((v&128)===0)\x7bn++;v=(v<<1)&255;\x7dbreak;\x7dreturn n;\x7d" ++
  utf8 "(async function()\x7bvar n=0;" ++
  utf8 "for(;;)\x7bvar h=await sha(c+n);if(lz(h)>=d)break;n++;\x7d" ++
  utf8 "var u=new URL(location.href);" ++
  utf8 "u.searchParams.set('" ++ utf8 ngxSentinelPowArg ++ utf8 "',n);" ++
  utf8 "location.replace(u.toString());\x7d)();" ++
  utf8 "\x7d)();" ++
  utf8 "</script></body></html>"

/-- The text that `sentinel_pow_send_page` writes. -/
def PowPage.text (page : PowPage) : Bytes :=
  powTmplHead ++ page.challenge ++ powTmplMid1 ++ ngxPrintInt page.powDifficulty ++ powTmplMid2

/-- `NGX_INT_T_LEN`, without the `NUL` -/
def ngxIntTLen : Nat := 20

/-- The size of the buffer that the text is written into. -/
def powPageLen : Nat :=
  powTmplHead.length + ngxSentinelPowHexlen + powTmplMid1.length + ngxIntTLen + powTmplMid2.length

/-- The values of `c` and `d` when the browser has run the first statement of the
script: the first literal of the page, and the number behind it. -/
def pageRead (text : Bytes) : Option (Bytes × Int) :=
  let f := Lines.field (ch '\x27') (Lines.field (ch '\x27') text).2.tail
  if (str "',d=").isPrefixOf f.2 then
    some (f.1, decimal (Lines.field (ch ';') (f.2.drop 4)).1)
  else none

end Page
section Cookie

/-- What a browser keeps of a `Set-Cookie` header: name, value and `Max-Age`. -/
def setCookieRead (header : Bytes) : Option (Bytes × Bytes × Nat) :=
  match Lines.split (ch ';') header with
  | [] => none
  | pair :: attributes =>
      let f := Lines.field (ch '=') pair
      match attributes.find? fun a => (str " Max-Age=").isPrefixOf a with
      | none => none
      | some a => some (f.1, f.2.tail, decimal (a.drop 9))

end Cookie
section Reading

theorem hex_mem {s : Bytes} {b : UInt8} (h : b ∈ sentinelPowHex s) : b ∈ powHex := by
  obtain ⟨raw, -, hraw⟩ := List.mem_flatMap.mp h
  have hall : ∀ raw : UInt8, powHex.getD (raw >>> 4).toNat 0 ∈ powHex ∧
      powHex.getD (raw &&& 0x0f).toNat 0 ∈ powHex := by
    refine forall_byte ?_
    decide +kernel
  cases List.mem_cons.mp hraw with
  | inl heq => exact heq ▸ (hall raw).1
  | inr hlast => exact List.mem_singleton.mp hlast ▸ (hall raw).2

theorem semicolon_not_mem_print (n : Nat) : ch ';' ∉ ngxPrint n :=
  not_mem_of_all (allDigits_iff.mpr (Numeral.write_digits n)) rfl

theorem printInt_natCast (n : Nat) : ngxPrintInt n = ngxPrint n := by
  rw [ngxPrintInt, if_neg (by omega), Int.natAbs_natCast]

/-- There is no other literal in front of the challenge. -/
theorem quote_not_mem_opening : ch '\x27' ∉ powTmplOpening := by
  have h₁ : ch '\x27' ∉ utf8 "<!doctype html><html><head><meta charset=utf-8>" := by decide +kernel
  have h₂ : ch '\x27' ∉ utf8 "<title>Verifying your browser</title>" := by decide +kernel
  have h₃ : ch '\x27' ∉ utf8 "<meta name=robots content=noindex></head>" := by decide +kernel
  have h₄ : ch '\x27' ∉ utf8 "<body><h1>Checking your browser&hellip;</h1>" := by decide +kernel
  have h₅ : ch '\x27' ∉ utf8 "<p>One moment — solving a small " := by decide +kernel
  have h₆ : ch '\x27' ∉ utf8 "computational puzzle.</p>" := by decide +kernel
  have h₇ : ch '\x27' ∉ utf8 "<noscript>JavaScript is required " := by decide +kernel
  have h₈ : ch '\x27' ∉ utf8 "to continue.</noscript>" := by decide +kernel
  have h₉ : ch '\x27' ∉ utf8 "<script>" ++ utf8 "(function()\x7b" ++ utf8 "var c=" := by
    decide +kernel
  simp only [List.mem_append, not_or] at h₉
  simp only [powTmplOpening, List.mem_append, not_or]
  exact ⟨⟨⟨⟨⟨⟨⟨⟨⟨⟨h₁, h₂⟩, h₃⟩, h₄⟩, h₅⟩, h₆⟩, h₇⟩, h₈⟩, h₉.1.1⟩, h₉.1.2⟩, h₉.2⟩

/-- The page gives its challenge and its difficulty to whoever runs it. -/
theorem pageRead_text {page : PowPage} {d : Nat} (hchallenge : ch '\x27' ∉ page.challenge)
    (hd : page.powDifficulty = d) :
    pageRead page.text = some (page.challenge, page.powDifficulty) := by
  obtain ⟨tail, htail⟩ : ∃ tail, powTmplMid2 = ch ';' :: tail := by
    have hfirst : utf8 ";" = [ch ';'] := by decide +kernel
    simp only [powTmplMid2, hfirst, List.append_assoc, List.cons_append]
    exact ⟨_, rfl⟩
  have hquote : utf8 "'" = [ch '\x27'] := by decide +kernel
  have hmid : powTmplMid1 = ch '\x27' :: str ",d=" := by decide +kernel
  have hmark : str "',d=" = ch '\x27' :: str ",d=" := by decide +kernel
  have htext : page.text = powTmplOpening ++ ch '\x27' :: (page.challenge ++ ch '\x27' ::
      (str ",d=" ++ (ngxPrint d ++ ch ';' :: tail))) := by
    rw [PowPage.text, hd, printInt_natCast, hmid, htail, powTmplHead, hquote]
    simp only [List.append_assoc, List.cons_append, List.nil_append]
  have hdrop : (ch '\x27' :: (str ",d=" ++ (ngxPrint d ++ ch ';' :: tail))).drop 4 =
      ngxPrint d ++ ch ';' :: tail := by
    rw [← List.cons_append, ← hmark]
    exact List.drop_left' (by decide)
  rw [htext, pageRead, Lines.field_append _ quote_not_mem_opening]
  simp only [List.tail_cons, Lines.field_append _ hchallenge, hdrop,
    Lines.field_append _ (semicolon_not_mem_print d), decimal_print, hd]
  rw [if_pos]
  rw [hmark, List.isPrefixOf_iff_prefix, ← List.cons_append]
  exact List.prefix_append _ _

/-- Stated for any parts, as the lengths of the real ones would be computed. -/
theorem length_parts_le {a c m n b : Bytes} {k l : Nat} (hc : c.length = k) (hn : n.length ≤ l) :
    (a ++ c ++ m ++ n ++ b).length ≤ a.length + k + m.length + l + b.length := by
  simp only [List.length_append]
  omega

theorem powPage_length_le {page : PowPage} {d : Nat}
    (hchallenge : page.challenge.length = ngxSentinelPowHexlen) (hd : page.powDifficulty = d)
    (hd' : d ≤ ngxMaxIntT) : page.text.length ≤ powPageLen := by
  have hdigits : (ngxPrint d).length ≤ ngxIntTLen := by
    have hmax : ngxMaxIntT < 10 ^ ngxIntTLen := by decide
    rw [ngxPrint, Numeral.write, List.length_map,
      Nat.length_toDigits_le_iff (by decide) (by decide)]
    omega
  rw [PowPage.text, hd, printInt_natCast, powPageLen]
  exact length_parts_le hchallenge hdigits

theorem sendPage_page {lcf : PowConf} {challenge : Bytes} {io : PowIo} {page : PowPage}
    (h : (sentinelPowSendPage lcf challenge io).2 = some page) :
    page.challenge = challenge ∧ page.powDifficulty = lcf.powDifficulty := by
  rw [sentinelPowSendPage] at h
  split_ifs at h
  · obtain rfl := Option.some.inj h
    exact ⟨rfl, rfl⟩
  · obtain rfl := Option.some.inj h
    exact ⟨rfl, rfl⟩

/-- Every page that goes out fits the buffer it is written into. -/
theorem dispatch_page_fits {pow : PowCore} {lcf : PowConf} (hlcf : lcf.Accepted) {r : PowRequest}
    {now : Nat} {io : PowIo} {page : PowPage}
    (h : (sentinelPowDispatch pow lcf r now io).page = some page) :
    page.text.length ≤ powPageLen := by
  obtain ⟨challenge, hchallenge, hsend⟩ : ∃ challenge,
      sentinelPowChallenge pow lcf r.sockaddr now = some challenge ∧
      (sentinelPowSendPage lcf challenge io).2 = some page := by
    rw [sentinelPowDispatch] at h
    split at h
    · contradiction
    split at h
    · contradiction
    split at h
    · contradiction
    next challenge hchallenge =>
      refine ⟨challenge, hchallenge, ?_⟩
      dsimp only at h
      split at h
      · exact h
      · split at h
        · contradiction
        · exact h
  obtain ⟨hsame, hdifficulty⟩ := sendPage_page hsend
  obtain ⟨⟨hlo, hhi⟩, -⟩ := hlcf
  have hlen : page.challenge.length = ngxSentinelPowHexlen := by
    rw [hsame]
    exact powMac_length pow lcf hchallenge
  have hmax : lcf.powDifficulty.toNat ≤ ngxMaxIntT := by
    have hlarge : 32 ≤ ngxMaxIntT := by decide
    omega
  exact powPage_length_le hlen (by omega) hmax

/-- The value of a cookie is a word of digits, a dot and hex digits. -/
theorem cookie_value_mem {c : PowCookie} (hmac : ∀ b ∈ c.mac, b ∈ powHex) {b : UInt8}
    (hb : isDigit b = false) (hdot : b ≠ ch '.') (hhex : b ∉ powHex) : b ∉ c.value := by
  have hdigits : (ngxPrint c.expiry).all isDigit = true :=
    allDigits_iff.mpr (Numeral.write_digits _)
  intro hmem
  cases List.mem_append.mp hmem with
  | inl hdigit => exact not_mem_of_all hdigits hb hdigit
  | inr hrest =>
      cases List.mem_cons.mp hrest with
      | inl heq => exact hdot heq
      | inr hin => exact hhex (hmac b hin)

/-- A browser keeps the value of the cookie, for the time that the header names. -/
theorem setCookieRead_header {c : PowCookie} (hmac : ∀ b ∈ c.mac, b ∈ powHex) :
    setCookieRead c.header = some (ngxSentinelPowCookie, c.value, c.maxAge) := by
  have hsemicolon : ch ';' ∉ c.value := cookie_value_mem hmac (by decide) (by decide) (by decide)
  have hpair : ch ';' ∉ ngxSentinelPowCookie ++ ch '=' :: c.value := by
    intro hmem
    cases List.mem_append.mp hmem with
    | inl hname => exact absurd hname (by decide)
    | inr hrest =>
        cases List.mem_cons.mp hrest with
        | inl heq => exact absurd heq (by decide)
        | inr hvalue => exact hsemicolon hvalue
  have hage : ch ';' ∉ str " Max-Age=" ++ ngxPrint c.maxAge := by
    intro hmem
    cases List.mem_append.mp hmem with
    | inl hname => exact absurd hname (by decide)
    | inr hdigits => exact semicolon_not_mem_print _ hdigits
  have hheader : c.header = (ngxSentinelPowCookie ++ ch '=' :: c.value) ++ ch ';' ::
      (str " Path=/" ++ ch ';' :: ((str " Max-Age=" ++ ngxPrint c.maxAge) ++ ch ';' ::
        str " HttpOnly")) := by
    have hmiddle : str "; Path=/; Max-Age=" = ch ';' :: (str " Path=/" ++ ch ';' ::
        str " Max-Age=") := by decide
    have hlast : str "; HttpOnly" = ch ';' :: str " HttpOnly" := by decide
    have hequal : str "=" = [ch '='] := by decide
    simp only [PowCookie.header, hmiddle, hlast, hequal, List.append_assoc, List.cons_append,
      List.nil_append]
  have hpath : (str " Max-Age=").isPrefixOf (str " Path=/") = false := by decide
  have hfound : (str " Max-Age=").isPrefixOf (str " Max-Age=" ++ ngxPrint c.maxAge) = true := by
    rw [List.isPrefixOf_iff_prefix]
    exact List.prefix_append _ _
  have hdrop : (str " Max-Age=" ++ ngxPrint c.maxAge).drop 9 = ngxPrint c.maxAge :=
    List.drop_left' (by decide)
  rw [hheader, setCookieRead, Lines.split_append _ hpair, Lines.split_append _ (by decide),
    Lines.split_append _ hage]
  simp only [List.find?_cons, hpath, hfound, hdrop, decimal_print,
    Lines.field_append (ch '=') (show ch '=' ∉ ngxSentinelPowCookie by decide), List.tail_cons]

end Reading
end Sentinel
