import Mathlib.Data.List.Induction

/-!
A decoder of JSON texts. A step function reads the bytes one at a time and ends
the tokens, and a parser with a bound on its depth reads the tokens. A string
token is never longer than the bytes it was written as, and as long only when no
byte of it is special.
-/

namespace Json

section Tokens

inductive Token where
  | lbrace | rbrace | lbrack | rbrack | colon | comma
  | lit (s : List UInt8)
  | str (s : List UInt8)
  deriving DecidableEq, Repr

/-- Where the lexer stands, with what it has of the token it is in; `high` is the
first half of a surrogate pair. -/
inductive Mode where
  | between
  | lit (acc : List UInt8)
  | str (acc : List UInt8)
  | esc (acc : List UInt8)
  | hex (acc : List UInt8) (high : Option Nat) (digits : List Nat)
  | low (acc : List UInt8) (high : Nat)
  | lowEsc (acc : List UInt8) (high : Nat)
  deriving DecidableEq, Repr

structure Lexer where
  tokens : List Token
  mode : Mode
  deriving DecidableEq, Repr

def quote : UInt8 := 0x22

def backslash : UInt8 := 0x5c

def white (c : UInt8) : Bool := c = 0x20 ∨ c = 0x09 ∨ c = 0x0a ∨ c = 0x0d

def punct (c : UInt8) : Option Token :=
  if c = 0x7b then some .lbrace
  else if c = 0x7d then some .rbrace
  else if c = 0x5b then some .lbrack
  else if c = 0x5d then some .rbrack
  else if c = 0x3a then some .colon
  else if c = 0x2c then some .comma
  else none

/-- The byte that an escape of two bytes stands for. -/
def escape (c : UInt8) : Option UInt8 :=
  if c = quote ∨ c = backslash ∨ c = 0x2f then some c
  else if c = 0x62 then some 0x08
  else if c = 0x66 then some 0x0c
  else if c = 0x6e then some 0x0a
  else if c = 0x72 then some 0x0d
  else if c = 0x74 then some 0x09
  else none

def hexDigit (c : UInt8) : Option Nat :=
  if 0x30 ≤ c ∧ c ≤ 0x39 then some (c.toNat - 0x30)
  else if 0x41 ≤ c ∧ c ≤ 0x46 then some (c.toNat - 0x41 + 10)
  else if 0x61 ≤ c ∧ c ≤ 0x66 then some (c.toNat - 0x61 + 10)
  else none

def utf8 (codePoint : Nat) : List UInt8 := String.utf8EncodeChar (Char.ofNat codePoint)

/-- The mode after four hexadecimal digits. -/
def codeUnit (acc : List UInt8) (n : Nat) : (high : Option Nat) → Option Mode
  | none =>
      if 0xd800 ≤ n ∧ n < 0xdc00 then some (.low acc n)
      else if 0xdc00 ≤ n ∧ n < 0xe000 then none
      else some (.str (acc ++ utf8 n))
  | some high =>
      if 0xdc00 ≤ n ∧ n < 0xe000 then
        some (.str (acc ++ utf8 (0x10000 + (high - 0xd800) * 0x400 + (n - 0xdc00))))
      else none

/-- A byte outside strings and literals. -/
def outside (tokens : List Token) (c : UInt8) : Lexer :=
  if white c then ⟨tokens, .between⟩
  else if c = quote then ⟨tokens, .str []⟩
  else
    match punct c with
    | some t => ⟨tokens ++ [t], .between⟩
    | none => ⟨tokens, .lit [c]⟩

def step (s : Lexer) (c : UInt8) : Option Lexer :=
  match s.mode with
  | .between => some (outside s.tokens c)
  | .lit acc =>
      if white c ∨ c = quote ∨ punct c ≠ none then some (outside (s.tokens ++ [.lit acc]) c)
      else some ⟨s.tokens, .lit (acc ++ [c])⟩
  | .str acc =>
      if c = quote then some ⟨s.tokens ++ [.str acc], .between⟩
      else if c = backslash then some ⟨s.tokens, .esc acc⟩
      else if c < 0x20 then none
      else some ⟨s.tokens, .str (acc ++ [c])⟩
  | .esc acc =>
      if c = 0x75 then some ⟨s.tokens, .hex acc none []⟩
      else (escape c).map fun b => ⟨s.tokens, .str (acc ++ [b])⟩
  | .hex acc high digits =>
      (hexDigit c).bind fun d =>
        if digits.length + 1 < 4 then some ⟨s.tokens, .hex acc high (digits ++ [d])⟩
        else (codeUnit acc ((digits ++ [d]).foldl (fun n d => 16 * n + d) 0) high).map fun m =>
          ⟨s.tokens, m⟩
  | .low acc high => if c = backslash then some ⟨s.tokens, .lowEsc acc high⟩ else none
  | .lowEsc acc high => if c = 0x75 then some ⟨s.tokens, .hex acc (some high) []⟩ else none

def run (s : Lexer) (cs : List UInt8) : Option Lexer := cs.foldlM step s

def finish (s : Lexer) : Option (List Token) :=
  match s.mode with
  | .between => some s.tokens
  | .lit acc => some (s.tokens ++ [.lit acc])
  | _ => none

def lex (cs : List UInt8) : Option (List Token) := (run ⟨[], .between⟩ cs).bind finish

end Tokens

section Values

def digit (c : UInt8) : Bool := 0x30 ≤ c ∧ c ≤ 0x39

/-- What may follow the digits before and after the point. -/
def isExponent : List UInt8 → Bool
  | [] => true
  | e :: s =>
      let digits := if s.head? = some 0x2b ∨ s.head? = some 0x2d then s.tail else s
      (e = 0x65 ∨ e = 0x45) ∧ digits ≠ [] ∧ digits.all digit

def isFraction : List UInt8 → Bool
  | 0x2e :: d :: s => digit d && isExponent (s.dropWhile digit)
  | s => isExponent s

def isNumber (s : List UInt8) : Bool :=
  match if s.head? = some 0x2d then s.tail else s with
  | [] => false
  | d :: s => if d = 0x30 then isFraction s else digit d && isFraction (s.dropWhile digit)

def isLiteral (s : List UInt8) : Bool :=
  s = [0x74, 0x72, 0x75, 0x65] ∨ s = [0x66, 0x61, 0x6c, 0x73, 0x65] ∨
    s = [0x6e, 0x75, 0x6c, 0x6c] ∨ isNumber s

inductive Value where
  | lit (s : List UInt8)
  | str (s : List UInt8)
  | arr (vs : List Value)
  | obj (ms : List (List UInt8 × Value))

mutual

def value : (fuel : Nat) → List Token → Option (Value × List Token)
  | _ + 1, .str s :: ts => some (.str s, ts)
  | _ + 1, .lit s :: ts => if isLiteral s then some (.lit s, ts) else none
  | _ + 1, .lbrack :: .rbrack :: ts => some (.arr [], ts)
  | fuel + 1, .lbrack :: ts => elements fuel [] ts
  | _ + 1, .lbrace :: .rbrace :: ts => some (.obj [], ts)
  | fuel + 1, .lbrace :: ts => members fuel [] ts
  | _, _ => none

def elements : (fuel : Nat) → (vs : List Value) → List Token → Option (Value × List Token)
  | 0, _, _ => none
  | fuel + 1, vs, ts =>
      match value fuel ts with
      | some (v, .comma :: ts) => elements fuel (vs ++ [v]) ts
      | some (v, .rbrack :: ts) => some (.arr (vs ++ [v]), ts)
      | _ => none

def members : (fuel : Nat) → (ms : List (List UInt8 × Value)) → List Token →
    Option (Value × List Token)
  | fuel + 1, ms, .str k :: .colon :: ts =>
      match value fuel ts with
      | some (v, .comma :: ts) => members fuel (ms ++ [(k, v)]) ts
      | some (v, .rbrace :: ts) => some (.obj (ms ++ [(k, v)]), ts)
      | _ => none
  | _, _, _ => none

end

/-- The text is UTF-8. -/
def Utf8 (cs : List UInt8) : Prop := cs.toByteArray.IsValidUTF8

instance (cs : List UInt8) : Decidable (Utf8 cs) :=
  inferInstanceAs (Decidable cs.toByteArray.IsValidUTF8)

/-- A token deeper needs a token more, so their number is depth enough. -/
def decode (cs : List UInt8) : Option Value :=
  if Utf8 cs then
    (lex cs).bind fun ts =>
      match value ts.length ts with
      | some (v, []) => some v
      | _ => none
  else none

/-- A member of an object; the last one of its name counts. -/
def Value.get? (key : List UInt8) : Value → Option Value
  | .obj ms => (ms.reverse.find? fun m => m.1 = key).map Prod.snd
  | _ => none

end Values

section Strings
variable {old ts : List Token} {s s' : Lexer} {n : Nat}

/-- A byte that stands for itself within a string. -/
def Plain (c : UInt8) : Prop := 0x20 ≤ c ∧ c ≠ quote ∧ c ≠ backslash

instance (c : UInt8) : Decidable (Plain c) :=
  inferInstanceAs (Decidable (_ ∧ _))

theorem run_cons (s : Lexer) (c : UInt8) (cs : List UInt8) :
    run s (c :: cs) = (step s c).bind fun t => run t cs := rfl

theorem run_append (s : Lexer) (as bs : List UInt8) :
    run s (as ++ bs) = (run s as).bind fun t => run t bs :=
  List.foldlM_append

theorem step_plain (ts : List Token) (acc : List UInt8) {c : UInt8} (h : Plain c) :
    step ⟨ts, .str acc⟩ c = some ⟨ts, .str (acc ++ [c])⟩ := by
  obtain ⟨hlow, hquote, hback⟩ := h
  simp only [step, if_neg hquote, if_neg hback, if_neg (UInt8.not_lt.mpr hlow)]

theorem run_plain (ts : List Token) (acc : List UInt8) {cs : List UInt8}
    (h : ∀ c ∈ cs, Plain c) : run ⟨ts, .str acc⟩ cs = some ⟨ts, .str (acc ++ cs)⟩ := by
  induction cs generalizing acc with
  | nil => simp [run]
  | cons c cs ih =>
      rw [List.forall_mem_cons] at h
      rw [← List.singleton_append, run_append, run, List.foldlM_cons, step_plain ts acc h.1]
      simpa using ih (acc ++ [c]) h.2

/-- A token as it is written. -/
def Token.text : Token → List UInt8
  | .lbrace => [0x7b]
  | .rbrace => [0x7d]
  | .lbrack => [0x5b]
  | .rbrack => [0x5d]
  | .colon => [0x3a]
  | .comma => [0x2c]
  | .lit s => s
  | .str s => quote :: (s ++ [quote])

def write (ts : List Token) : List UInt8 := ts.flatMap Token.text

/-- The token is no literal, and its string is made of bytes that `p` holds of. -/
def Token.All (p : UInt8 → Prop) : Token → Prop
  | .lit _ => False
  | .str s => ∀ c ∈ s, p c
  | _ => True

theorem Token.All.mono {p q : UInt8 → Prop} (hpq : ∀ c, p c → q c) {t : Token} (h : t.All p) :
    t.All q := by
  cases t with
  | lit s => exact h
  | str s => exact fun c hc => hpq c (h c hc)
  | lbrace | rbrace | lbrack | rbrack | colon | comma => trivial

/-- What is written around the strings. -/
def marks : List UInt8 := [quote, 0x7b, 0x7d, 0x5b, 0x5d, 0x3a, 0x2c]

theorem write_forall {p : UInt8 → Prop} (hmarks : ∀ c ∈ marks, p c) {ts : List Token}
    (h : ∀ t ∈ ts, t.All p) : ∀ c ∈ write ts, p c := by
  simp only [marks, List.forall_mem_cons] at hmarks
  obtain ⟨hquote, hlbrace, hrbrace, hlbrack, hrbrack, hcolon, hcomma, -⟩ := hmarks
  intro c hc
  obtain ⟨t, ht, hc⟩ := List.mem_flatMap.mp hc
  have hall := h t ht
  cases t with
  | lit s => exact hall.elim
  | str s =>
      simp only [Token.text, List.mem_cons, List.mem_append, List.not_mem_nil, or_false] at hc
      cases hc with
      | inl hopen => exact hopen ▸ hquote
      | inr hc =>
          cases hc with
          | inl hc => exact hall c hc
          | inr hclose => exact hclose ▸ hquote
  | lbrace => exact List.mem_singleton.mp hc ▸ hlbrace
  | rbrace => exact List.mem_singleton.mp hc ▸ hrbrace
  | lbrack => exact List.mem_singleton.mp hc ▸ hlbrack
  | rbrack => exact List.mem_singleton.mp hc ▸ hrbrack
  | colon => exact List.mem_singleton.mp hc ▸ hcolon
  | comma => exact List.mem_singleton.mp hc ▸ hcomma

theorem run_close (ts : List Token) (acc : List UInt8) :
    run ⟨ts, .str acc⟩ [quote] = some ⟨ts ++ [.str acc], .between⟩ := rfl

theorem run_text {t : Token} (h : t.All Plain) (ts : List Token) :
    run ⟨ts, .between⟩ t.text = some ⟨ts ++ [t], .between⟩ := by
  cases t with
  | lit s => exact h.elim
  | str s =>
      have hopen : run ⟨ts, .between⟩ [quote] = some ⟨ts, .str []⟩ := rfl
      rw [Token.text, ← List.singleton_append, run_append, hopen, Option.bind_some, run_append,
        run_plain ts [] h, Option.bind_some, List.nil_append, run_close]
  | lbrace | rbrace | lbrack | rbrack | colon | comma => rfl

theorem run_write {new : List Token} (h : ∀ t ∈ new, t.All Plain) (ts : List Token) :
    run ⟨ts, .between⟩ (write new) = some ⟨ts ++ new, .between⟩ := by
  induction new generalizing ts with
  | nil => simp [write, run]
  | cons t new ih =>
      rw [List.forall_mem_cons] at h
      rw [write, List.flatMap_cons, run_append, run_text h.1, Option.bind_some]
      exact (ih h.2 (ts ++ [t])).trans (by rw [List.append_assoc, List.singleton_append])

/-- Whether a mode without an escape is within a string. -/
def Mode.within : Mode → Option Bool
  | .between | .lit _ => some false
  | .str _ => some true
  | _ => none

theorem outside_within (ts : List Token) (c : UInt8) :
    (outside ts c).mode.within = some (decide (c = quote)) := by
  rw [outside]
  split
  next hwhite =>
    have hquote : c ≠ quote := fun h => by
      subst h
      contradiction
    rw [Mode.within, decide_eq_false hquote]
  split
  next hquote => rw [Mode.within, decide_eq_true hquote]
  next hquote =>
    rw [decide_eq_false hquote]
    split
    · rfl
    · rfl

/-- Where nothing is escaped, every quote opens or closes a string. -/
theorem step_within {c : UInt8} {b : Bool} (hs : s.mode.within = some b) (hc : c ≠ backslash)
    (h : step s c = some s') : s'.mode.within = some (b ^^ decide (c = quote)) := by
  obtain ⟨ts, mode⟩ := s
  cases mode with
  | between =>
      cases hs
      cases h
      rw [outside_within, Bool.false_xor]
  | lit acc =>
      cases hs
      simp only [step] at h
      split at h
      · cases h
        rw [outside_within, Bool.false_xor]
      next hlit =>
        cases h
        rw [not_or, not_or] at hlit
        rw [Mode.within, decide_eq_false hlit.2.1]
        rfl
  | str acc =>
      cases hs
      simp only [step, if_neg hc] at h
      split at h
      next hquote =>
        cases h
        rw [Mode.within, decide_eq_true hquote]
        rfl
      next hquote =>
        split at h
        · cases h
        · cases h
          rw [Mode.within, decide_eq_false hquote]
          rfl
  | esc _ | hex _ _ _ | low _ _ | lowEsc _ _ => contradiction

theorem run_within {cs : List UInt8} {b : Bool} (hs : s.mode.within = some b)
    (hcs : backslash ∉ cs) (h : run s cs = some s') :
    s'.mode.within = some (b ^^ decide (cs.count quote % 2 = 1)) := by
  induction cs generalizing s b with
  | nil =>
      cases h
      simpa using hs
  | cons c cs ih =>
      rw [run_cons] at h
      obtain ⟨s₁, hstep, hrun⟩ := Option.bind_eq_some_iff.mp h
      rw [List.mem_cons, not_or] at hcs
      rw [ih (step_within hs (Ne.symm hcs.1) hstep) hcs.2 hrun, List.count_cons, Bool.xor_assoc]
      congr 2
      by_cases hc : c = quote
      · rw [hc, Bool.eq_iff_iff]
        simp
        omega
      · simp [hc]

/-- A text that ends in an odd number of quotes, the first one at its head, was
within a string before them. -/
theorem within_of_lex {cs : List UInt8} {ts : List Token} (hcs : backslash ∉ cs)
    (heven : cs.count quote % 2 = 0) (h : run s (quote :: cs) = some s')
    (hfinish : finish s' = some ts) : ∃ acc, s.mode = .str acc := by
  have hout : s'.mode.within ≠ some true := by
    intro hin
    cases hm : s'.mode with
    | str acc => simp [finish, hm] at hfinish
    | between | lit _ | esc _ | hex _ _ _ | low _ _ | lowEsc _ _ => simp [Mode.within, hm] at hin
  have hquote : backslash ∉ quote :: cs := by
    rw [List.mem_cons, not_or]
    exact ⟨by decide, hcs⟩
  have hodd : (quote :: cs).count quote % 2 = 1 := by
    rw [List.count_cons_self]
    omega
  obtain ⟨old, mode⟩ := s
  cases mode with
  | between =>
      have hrun := run_within (s := ⟨old, .between⟩) rfl hquote h
      rw [decide_eq_true hodd] at hrun
      exact absurd hrun hout
  | lit acc =>
      have hrun := run_within (s := ⟨old, .lit acc⟩) rfl hquote h
      rw [decide_eq_true hodd] at hrun
      exact absurd hrun hout
  | str acc => exact ⟨acc, rfl⟩
  | esc acc =>
      rw [run_cons] at h
      obtain ⟨s₁, hstep, hrun⟩ := Option.bind_eq_some_iff.mp h
      cases hstep
      have hrun := run_within rfl hcs hrun
      rw [heven] at hrun
      exact absurd hrun hout
  | hex acc high digits => cases h
  | low acc high => cases h
  | lowEsc acc high => cases h

/-- How much the lexer has of a string, with the digits of an escape. -/
def Mode.size : Mode → Nat
  | .between | .lit _ => 0
  | .str acc | .esc acc | .low acc _ | .lowEsc acc _ => acc.length
  | .hex acc _ digits => acc.length + digits.length

/-- Every string that is not among the old ones has less than `n` bytes. -/
structure Lexer.Under (old : List Token) (n : Nat) (s : Lexer) : Prop where
  tokens : ∀ v, .str v ∈ s.tokens → .str v ∈ old ∨ v.length < n
  mode : s.mode.size < n

theorem utf8_length (codePoint : Nat) : (utf8 codePoint).length ≤ 4 := by
  rw [utf8, String.length_utf8EncodeChar]
  exact Char.utf8Size_le_four _

theorem codeUnit_size {acc : List UInt8} {k : Nat} {high : Option Nat} {m : Mode}
    (h : codeUnit acc k high = some m) : m.size ≤ acc.length + 4 := by
  have hlen : ∀ p, (acc ++ utf8 p).length ≤ acc.length + 4 := by
    intro p
    rw [List.length_append]
    exact Nat.add_le_add_left (utf8_length p) _
  cases high with
  | none =>
      rw [codeUnit] at h
      split at h
      · cases h
        exact Nat.le_add_right _ _
      split at h
      · cases h
      · cases h
        exact hlen _
  | some high =>
      rw [codeUnit] at h
      split at h
      · cases h
        exact hlen _
      · cases h

/-- A token that is no string, and those before it. -/
theorem Lexer.Under.push (h : ∀ v, .str v ∈ ts → .str v ∈ old ∨ v.length < n) {t : Token}
    (ht : ∀ v, t ≠ .str v) : ∀ v, .str v ∈ ts ++ [t] → .str v ∈ old ∨ v.length < n := by
  intro v hv
  cases List.mem_append.mp hv with
  | inl hold => exact h v hold
  | inr hnew => exact absurd (List.mem_singleton.mp hnew).symm (ht v)

theorem outside_under (h : ∀ v, .str v ∈ ts → .str v ∈ old ∨ v.length < n) (hn : 0 < n)
    (c : UInt8) : (outside ts c).Under old n := by
  rw [outside]
  split
  · exact ⟨h, hn⟩
  split
  · exact ⟨h, hn⟩
  split
  next t ht =>
    refine ⟨Lexer.Under.push h fun v hv => ?_, hn⟩
    subst hv
    simp only [punct] at ht
    grind
  next => exact ⟨h, hn⟩

/-- One byte makes what is held of a string at most one byte longer. -/
theorem step_under {c : UInt8} (hs : s.Under old n) (h : step s c = some s') :
    s'.Under old (n + 1) := by
  obtain ⟨tokens, mode⟩ := s
  have hold : ∀ v, .str v ∈ tokens → .str v ∈ old ∨ v.length < n + 1 := fun v hv =>
    (hs.tokens v hv).imp_right Nat.lt_succ_of_lt
  have hmode : mode.size < n := hs.mode
  cases mode with
  | between =>
      cases h
      exact outside_under hold n.succ_pos c
  | lit acc =>
      simp only [step] at h
      split at h
      · cases h
        refine outside_under (Lexer.Under.push hold fun v hv => ?_) n.succ_pos c
        contradiction
      · cases h
        exact ⟨hold, n.succ_pos⟩
  | str acc =>
      simp only [step] at h
      split at h
      · cases h
        refine ⟨fun v hv => ?_, n.succ_pos⟩
        cases List.mem_append.mp hv with
        | inl hv => exact hold v hv
        | inr hv =>
            cases List.mem_singleton.mp hv
            exact .inr (Nat.lt_succ_of_lt hmode)
      split at h
      · cases h
        exact ⟨hold, Nat.lt_succ_of_lt hmode⟩
      split at h
      · cases h
      · cases h
        refine ⟨hold, ?_⟩
        rw [Mode.size, List.length_append]
        exact Nat.succ_lt_succ hmode
  | esc acc =>
      simp only [step] at h
      split at h
      · cases h
        exact ⟨hold, Nat.lt_succ_of_lt hmode⟩
      · obtain ⟨b, -, rfl⟩ := Option.map_eq_some_iff.mp h
        refine ⟨hold, ?_⟩
        rw [Mode.size, List.length_append]
        exact Nat.succ_lt_succ hmode
  | hex acc high digits =>
      rw [Mode.size] at hmode
      obtain ⟨d, -, h⟩ := Option.bind_eq_some_iff.mp h
      split at h
      · cases h
        refine ⟨hold, ?_⟩
        rw [Mode.size, List.length_append, List.length_singleton]
        omega
      · obtain ⟨m, hm, rfl⟩ := Option.map_eq_some_iff.mp h
        have hsize := codeUnit_size hm
        refine ⟨hold, ?_⟩
        change m.size < n + 1
        omega
  | low acc high =>
      simp only [step] at h
      split at h
      · cases h
        exact ⟨hold, Nat.lt_succ_of_lt hmode⟩
      · cases h
  | lowEsc acc high =>
      simp only [step] at h
      split at h
      · cases h
        exact ⟨hold, Nat.lt_succ_of_lt hmode⟩
      · cases h

/-- Within a string the lexer has the bytes themselves, or less than them. -/
theorem run_str {cs : List UInt8} (h : run ⟨ts, .str []⟩ cs = some s) :
    ((∀ c ∈ cs, Plain c) ∧ s = ⟨ts, .str cs⟩) ∨ s.Under ts cs.length := by
  induction cs using List.reverseRecOn generalizing s with
  | nil =>
      cases h
      exact .inl ⟨by simp, rfl⟩
  | append_singleton cs c ih =>
      rw [run_append] at h
      obtain ⟨s', hs', hc⟩ := Option.bind_eq_some_iff.mp h
      obtain ⟨s'', hstep, hc⟩ := Option.bind_eq_some_iff.mp hc
      cases hc
      rw [List.length_append, List.length_singleton]
      cases ih hs' with
      | inr hunder => exact .inr (step_under hunder hstep)
      | inl hplain =>
          obtain ⟨hplain, rfl⟩ := hplain
          by_cases hbyte : Plain c
          · rw [step_plain ts cs hbyte] at hstep
            cases hstep
            refine .inl ⟨fun b hb => ?_, rfl⟩
            cases List.mem_append.mp hb with
            | inl hb => exact hplain b hb
            | inr hb => exact List.mem_singleton.mp hb ▸ hbyte
          · refine .inr ?_
            simp only [step] at hstep
            split at hstep
            · cases hstep
              refine ⟨fun v hv => ?_, Nat.succ_pos _⟩
              cases List.mem_append.mp hv with
              | inl hv => exact .inl hv
              | inr hv =>
                  cases List.mem_singleton.mp hv
                  exact .inr (Nat.lt_succ_self _)
            next hquote =>
              split at hstep
              · cases hstep
                exact ⟨fun v hv => .inl hv, Nat.lt_succ_self _⟩
              next hback =>
                split at hstep
                · cases hstep
                next hlow => exact absurd ⟨UInt8.not_lt.mp hlow, hquote, hback⟩ hbyte

end Strings

section Values
variable {ts : List Token} {cs : List UInt8}

/-- A string, or a string among the members. -/
def Value.Mentions (s : List UInt8) : Value → Prop
  | .str s' => s' = s
  | .obj ms => ∃ k, (k, .str s) ∈ ms
  | .lit _ | .arr _ => False

/-- What is read with that much fuel, and what is left over, comes from the tokens. -/
structure FromTokens (fuel : Nat) : Prop where
  ofValue : ∀ (ts : List Token) (v : Value) (rest : List Token), value fuel ts = some (v, rest) →
    rest ⊆ ts ∧ ∀ s, v.Mentions s → .str s ∈ ts
  ofElements : ∀ (vs : List Value) (ts : List Token) (v : Value) (rest : List Token),
    elements fuel vs ts = some (v, rest) → rest ⊆ ts ∧ ∀ s, ¬ v.Mentions s
  ofMembers : ∀ (ms : List (List UInt8 × Value)) (ts : List Token) (v : Value) (rest : List Token),
    members fuel ms ts = some (v, rest) →
      rest ⊆ ts ∧ ∀ s, v.Mentions s → Value.Mentions s (.obj ms) ∨ .str s ∈ ts

variable {fuel : Nat} {v : Value} {rest : List Token}

theorem value_from (ih : FromTokens fuel) (h : value (fuel + 1) ts = some (v, rest)) :
    rest ⊆ ts ∧ ∀ s, v.Mentions s → .str s ∈ ts := by
  rw [value.eq_def] at h
  split at h
  next fuel' s ts =>
    cases h
    exact ⟨List.subset_cons_self _ _, fun s hs => by cases hs; exact List.mem_cons_self⟩
  next fuel' s ts =>
    split at h
    · cases h
      exact ⟨List.subset_cons_self _ _, fun s hs => hs.elim⟩
    · cases h
  next fuel' ts =>
    cases h
    exact ⟨fun t ht => .tail _ (.tail _ ht), fun s hs => hs.elim⟩
  next fuel' ts _ hfuel =>
    cases hfuel
    obtain ⟨hrest, hmentions⟩ := ih.ofElements _ _ _ _ h
    exact ⟨fun t ht => .tail _ (hrest ht), fun s hs => absurd hs (hmentions s)⟩
  next fuel' ts =>
    cases h
    exact ⟨fun t ht => .tail _ (.tail _ ht), fun s hs => by simp [Value.Mentions] at hs⟩
  next fuel' ts _ hfuel =>
    cases hfuel
    obtain ⟨hrest, hmentions⟩ := ih.ofMembers _ _ _ _ h
    refine ⟨fun t ht => .tail _ (hrest ht), fun s hs => ?_⟩
    cases hmentions s hs with
    | inl hnone => simp [Value.Mentions] at hnone
    | inr hts => exact .tail _ hts
  next => cases h

theorem elements_from (ih : FromTokens fuel) {vs : List Value}
    (h : elements (fuel + 1) vs ts = some (v, rest)) : rest ⊆ ts ∧ ∀ s, ¬ v.Mentions s := by
  rw [elements] at h
  split at h
  next v' ts' hv =>
    obtain ⟨hsub, -⟩ := ih.ofValue ts _ _ hv
    obtain ⟨hrest, hmentions⟩ := ih.ofElements _ _ _ _ h
    exact ⟨fun t ht => hsub (.tail _ (hrest ht)), hmentions⟩
  next v' ts' hv =>
    cases h
    obtain ⟨hsub, -⟩ := ih.ofValue ts _ _ hv
    exact ⟨fun t ht => hsub (.tail _ ht), fun s => id⟩
  next => cases h

theorem members_from (ih : FromTokens fuel) {ms : List (List UInt8 × Value)}
    (h : members (fuel + 1) ms ts = some (v, rest)) :
    rest ⊆ ts ∧ ∀ s, v.Mentions s → Value.Mentions s (.obj ms) ∨ .str s ∈ ts := by
  rw [members.eq_def] at h
  split at h
  next ms _ _ _ fuel' k ts hfuel =>
    cases hfuel
    -- the member that is read joins those before it
    have hjoin : ∀ {v' : Value} {t : Token} {ts' : List Token},
        value fuel ts = some (v', t :: ts') → ∀ s, Value.Mentions s (.obj (ms ++ [(k, v')])) →
          Value.Mentions s (.obj ms) ∨ .str s ∈ ts := by
      intro v' t ts' hv s hs
      obtain ⟨k', hk⟩ := hs
      cases List.mem_append.mp hk with
      | inl hold => exact .inl ⟨k', hold⟩
      | inr hnew =>
          cases List.mem_singleton.mp hnew
          exact .inr ((ih.ofValue ts _ _ hv).2 s rfl)
    split at h
    next v' ts' hv =>
      obtain ⟨hrest, hmentions⟩ := ih.ofMembers _ _ _ _ h
      have hsub := (ih.ofValue ts _ _ hv).1
      refine ⟨fun t ht => .tail _ (.tail _ (hsub (.tail _ (hrest ht)))), fun s hs => ?_⟩
      cases hmentions s hs with
      | inl hms => exact (hjoin hv s hms).imp_right fun hts => .tail _ (.tail _ hts)
      | inr hts => exact .inr (.tail _ (.tail _ (hsub (.tail _ hts))))
    next v' ts' hv =>
      cases h
      have hsub := (ih.ofValue ts _ _ hv).1
      refine ⟨fun t ht => .tail _ (.tail _ (hsub (.tail _ ht))), fun s hs => ?_⟩
      exact (hjoin hv s hs).imp_right fun hts => .tail _ (.tail _ hts)
    next => cases h
  next => cases h

theorem fromTokens (fuel : Nat) : FromTokens fuel := by
  induction fuel with
  | zero =>
      refine ⟨fun ts v rest h => ?_, fun vs ts v rest h => ?_, fun ms ts v rest h => ?_⟩
      · simp [value] at h
      · simp [elements] at h
      · simp [members] at h
  | succ fuel ih =>
      refine ⟨fun ts v rest h => ?_, fun vs ts v rest h => ?_, fun ms ts v rest h => ?_⟩
      · exact value_from ih h
      · exact elements_from ih h
      · exact members_from ih h

theorem utf8_of_decode {v : Value} (h : decode cs = some v) : Utf8 cs := by
  rw [decode] at h
  split at h
  next hutf8 => exact hutf8
  next => cases h

/-- A member that is a string is a token of the text. -/
theorem decode_mem {v : Value} {key s : List UInt8} (h : decode cs = some v)
    (hget : v.get? key = some (.str s)) : ∃ ts, lex cs = some ts ∧ .str s ∈ ts := by
  rw [decode] at h
  split at h
  next =>
    obtain ⟨ts, hlex, h⟩ := Option.bind_eq_some_iff.mp h
    split at h
    next v' hv =>
      cases h
      refine ⟨ts, hlex, ((fromTokens ts.length).ofValue ts v [] hv).2 s ?_⟩
      cases v with
      | obj ms =>
          obtain ⟨m, hm, hms⟩ := Option.map_eq_some_iff.mp hget
          have hmem := List.mem_reverse.mp (List.mem_of_find?_eq_some hm)
          exact ⟨m.1, hms ▸ hmem⟩
      | lit _ | str _ | arr _ => contradiction
    next => cases h
  next => cases h

end Values

section Utf8
variable {cs ds : List UInt8} {c : UInt8}

theorem Utf8.append (hcs : Utf8 cs) (hds : Utf8 ds) : Utf8 (cs ++ ds) := by
  rw [Utf8, List.toByteArray_append]
  exact ByteArray.IsValidUTF8.append hcs hds

/-- A byte of ASCII is a character. -/
theorem encode_ascii (h : c < 0x80) : [Char.ofUInt8 c].utf8Encode = [c].toByteArray := by
  have hval : (Char.ofUInt8 c).val.toNat = c.toNat := rfl
  have hle : c.toNat ≤ 0x7f := Nat.le_of_lt_succ h
  rw [List.utf8Encode_singleton, String.utf8EncodeChar, hval]
  simp only [if_pos hle, UInt8.ofNat_toNat]

theorem utf8_of_ascii (h : ∀ c ∈ cs, c < 0x80) : Utf8 cs := by
  induction cs with
  | nil => exact ByteArray.isValidUTF8_empty
  | cons c cs ih =>
      rw [List.forall_mem_cons] at h
      have hc : Utf8 [c] := by
        rw [Utf8, ← encode_ascii h.1]
        exact ByteArray.isValidUTF8_utf8Encode
      exact hc.append (ih h.2)

/-- What follows ASCII is judged by itself. -/
theorem Utf8.after (h : ∀ c ∈ cs, c < 0x80) (hds : Utf8 (cs ++ ds)) : Utf8 ds := by
  induction cs with
  | nil => exact hds
  | cons c cs ih =>
      rw [List.forall_mem_cons] at h
      apply ih h.2
      rw [Utf8, List.cons_append, ← List.singleton_append, List.toByteArray_append,
        ← encode_ascii h.1] at hds
      exact ByteArray.isValidUTF8_utf8Encode_singleton_append_iff.mp hds

/-- What stands before a byte of ASCII is judged by itself. -/
theorem Utf8.before (h : c < 0x80) (hds : Utf8 (cs ++ c :: ds)) : Utf8 cs := by
  let s : String := ⟨(cs ++ c :: ds).toByteArray, hds⟩
  have hfirst : c.IsUTF8FirstByte := by
    have hc : [c].toByteArray.IsValidUTF8 := encode_ascii h ▸ ByteArray.isValidUTF8_utf8Encode
    exact hc.isUTF8FirstByte_getElem_zero (by simp)
  have hvalid : (⟨cs.length⟩ : String.Pos.Raw).IsValid s := by
    rw [String.Pos.Raw.isValid_iff_isUTF8FirstByte]
    refine .inr ⟨by simp [s, String.Pos.Raw.lt_iff], ?_⟩
    simp only [s, String.getUTF8Byte, List.getElem_toByteArray, List.getElem_append_right,
      Nat.le_refl, Nat.sub_self, List.getElem_cons_zero]
    exact hfirst
  have hextract : ((cs ++ c :: ds).toByteArray.extract 0 cs.length).IsValidUTF8 :=
    (String.Pos.Raw.isValid_iff_isValidUTF8_extract_zero.mp hvalid).2
  rw [List.toByteArray_append, ByteArray.extract_append_eq_left List.size_toByteArray.symm]
    at hextract
  exact hextract

end Utf8

end Json
