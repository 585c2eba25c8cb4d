import Sentinel.Feed

/-!
The grammar of a decision line and of the trailer, said once without a scan,
and that the two line scanners of the loader and the trailer check read it
exactly. The address syntax itself belongs to nginx and stays a parameter.
-/

namespace Sentinel

/-- Lines that say nothing: blank ones and comments. -/
def Skipped (line : Bytes) : Prop :=
  line = [] ∨ line = [ch '\r'] ∨ line.head? = some (ch '#')

/-- The token of an exact host, with its canonical text. -/
def HostIp (ngx : NgxCore) (tok ip : Bytes) : Prop :=
  0 < tok.length ∧ tok.length < 64 ∧ ch '/' ∉ tok ∧
    ((∃ v4, ngx.inetAddr tok = some v4 ∧ ip = ngx.inetNtop v4) ∨
      ngx.inetAddr tok = none ∧ ∃ v6, ngx.inet6Addr tok = some v6 ∧ ip = ngx.inet6Ntop v6)

def ActionName (name : Bytes) (action : UInt8) : Prop :=
  name = str "ban" ∧ action = ngxSentinelCsBan ∨
    name = str "captcha" ∧ action = ngxSentinelCsCaptcha ∨
    name = str "throttle" ∧ action = ngxSentinelCsThrottle

/-- A decimal number that `ngx_int_t` can hold. -/
def Number (digits : Bytes) (n : Nat) : Prop :=
  digits ≠ [] ∧ digits.all isDigit = true ∧ decimal digits = n ∧ n ≤ ngxMaxIntT

/-- What a decision line says. -/
structure FeedEntry where
  ip : Bytes
  action : UInt8
  number : Nat

/-- `<ip> SP <action> SP <number>`, where one carriage return may end the line. -/
structure DecisionLine (ngx : NgxCore) (line : Bytes) (e : FeedEntry) : Prop where
  not_skipped : ¬ Skipped line
  fields : ∃ tok name digits,
    feedStripCr line = tok ++ ch ' ' :: (name ++ ch ' ' :: digits) ∧
    ch ' ' ∉ tok ∧ ch ' ' ∉ name ∧
    HostIp ngx tok e.ip ∧ ActionName name e.action ∧ Number digits e.number

section Fields
variable {ngx : NgxCore}

theorem canonIp_iff {tok ip : Bytes} :
    sentinelFeedCanonIp ngx tok = ip ∧ ¬ ip.length = 0 ↔ HostIp ngx tok ip := by
  rw [sentinelFeedCanonIp, HostIp]
  split
  next h =>
    constructor
    · rintro ⟨rfl, hne⟩
      exact absurd rfl hne
    · rintro ⟨h1, h2, -⟩
      omega
  next h =>
    split
    next hs =>
      constructor
      · rintro ⟨rfl, hne⟩
        exact absurd rfl hne
      · rintro ⟨-, -, hns, -⟩
        exact absurd hs hns
    next hs =>
      have hlen : 0 < tok.length ∧ tok.length < 64 := by omega
      cases h4 : ngx.inetAddr tok with
      | some v4 =>
          have hne : ¬ (ngx.inetNtop v4).length = 0 := by
            simpa using ngx.inetNtop_ne_nil v4
          simp only [hlen, hs, not_false_eq_true, Option.some.injEq, exists_eq_left',
            reduceCtorEq, false_and, or_false, true_and]
          constructor
          · exact fun h => h.1.symm
          · rintro rfl
            exact ⟨rfl, hne⟩
      | none =>
          cases h6 : ngx.inet6Addr tok with
          | some v6 =>
              have hne : ¬ (ngx.inet6Ntop v6).length = 0 := by
                simpa using ngx.inet6Ntop_ne_nil v6
              simp only [hlen, hs, not_false_eq_true, Option.some.injEq, exists_eq_left',
                reduceCtorEq, false_and, exists_false, false_or, true_and]
              constructor
              · exact fun h => h.1.symm
              · rintro rfl
                exact ⟨rfl, hne⟩
          | none =>
              simp only [reduceCtorEq, false_and, exists_false, or_self, and_false, iff_false]
              rintro ⟨rfl, hne⟩
              exact hne rfl

theorem action_iff {name : Bytes} {action : UInt8} :
    sentinelFeedAction name = action ∧ ¬ action = ngxSentinelCsNone ↔
      ActionName name action := by
  rw [sentinelFeedAction, ActionName]
  have h12 : ¬ str "ban" = str "captcha" := by decide
  have h13 : ¬ str "ban" = str "throttle" := by decide
  have h23 : ¬ str "captcha" = str "throttle" := by decide
  have h1 : ¬ ngxSentinelCsBan = ngxSentinelCsNone := by decide
  have h2 : ¬ ngxSentinelCsCaptcha = ngxSentinelCsNone := by decide
  have h3 : ¬ ngxSentinelCsThrottle = ngxSentinelCsNone := by decide
  split
  next h => subst h; simp [h12, h13]; grind
  next h =>
    split
    next h' => subst h'; simp [h23, h]; grind
    next h' =>
      split
      next h'' => subst h''; simp [h, h']; grind
      next h'' => simp [h, h', h'']; grind

theorem skipped_iff {line : Bytes} :
    Skipped line ↔ (line = [] ∨ line.head? = some (ch '#')) ∨ feedStripCr line = [] := by
  rw [Skipped]
  have hne : ¬ ch '\r' = ch '#' := by decide
  cases line with
  | nil => simp
  | cons c s =>
      cases s with
      | nil => by_cases hc : c = ch '\r' <;> simp [hc, feedStripCr]
      | cons d s =>
          have hcons : feedStripCr (c :: d :: s) ≠ [] := by
            rw [feedStripCr]
            split <;> simp
          simp [hcons]

/-- The three fields of a line are its own: no other cut has two fields without
a space in front. -/
theorem decisionLine_iff {line tok name digits : Bytes} {e : FeedEntry}
    (hskip : ¬ Skipped line)
    (hline : feedStripCr line = tok ++ ch ' ' :: (name ++ ch ' ' :: digits))
    (htok : ch ' ' ∉ tok) (hname : ch ' ' ∉ name) :
    DecisionLine ngx line e ↔
      HostIp ngx tok e.ip ∧ ActionName name e.action ∧ Number digits e.number := by
  constructor
  · rintro ⟨-, tok', name', digits', hline', htok', hname', h⟩
    rw [hline] at hline'
    obtain ⟨rfl, hrest⟩ := Lines.append_inj _ htok htok' hline'
    obtain ⟨rfl, rfl⟩ := Lines.append_inj _ hname hname' hrest
    exact h
  · exact fun h => ⟨hskip, tok, name, digits, hline, htok, hname, h⟩

/-- The two walks to the next space, as both scanners make them. -/
def cutFields (line : Bytes) : Option (Bytes × Bytes × Bytes) :=
  match Lines.field (ch ' ') line with
  | (_, []) => none
  | (f1, _ :: s) =>
      match Lines.field (ch ' ') s with
      | (_, []) => none
      | (f2, _ :: f3) => some (f1, f2, f3)

theorem cutFields_eq_some_iff {line tok name digits : Bytes} :
    cutFields line = some (tok, name, digits) ↔
      line = tok ++ ch ' ' :: (name ++ ch ' ' :: digits) ∧ ch ' ' ∉ tok ∧ ch ' ' ∉ name := by
  constructor
  · intro h
    rcases Lines.field_cases (ch ' ') line with ⟨-, hf⟩ | ⟨a, s, ha, rfl, hf⟩
    · simp [cutFields, hf] at h
    · rcases Lines.field_cases (ch ' ') s with ⟨-, hs⟩ | ⟨b, c, hb, rfl, hs⟩
      · simp [cutFields, hf, hs] at h
      · simp only [cutFields, hf, hs, Option.some.injEq, Prod.mk.injEq] at h
        obtain ⟨rfl, rfl, rfl⟩ := h
        exact ⟨rfl, ha, hb⟩
  · rintro ⟨rfl, ha, hb⟩
    simp [cutFields, Lines.field_append _ ha, Lines.field_append _ hb]

theorem feedApplyScan_eq (line : Bytes) :
    feedApplyScan ngx line =
      if (line = [] ∨ line.head? = some (ch '#')) ∨ feedStripCr line = [] then none
      else (cutFields (feedStripCr line)).bind fun f =>
        if f.2.2 = [] ∨ (sentinelFeedCanonIp ngx f.1).length = 0 ∨
            sentinelFeedAction f.2.1 = ngxSentinelCsNone then none
        else (ngx.atoi f.2.2).map fun n =>
          (sentinelFeedCanonIp ngx f.1, sentinelFeedAction f.2.1, n) := by
  rw [feedApplyScan, cutFields]
  grind

/-- The validation pass reads a line the way the apply pass does. -/
theorem feedCountLine_eq (line : Bytes) :
    feedCountLine ngx line =
      if (line = [] ∨ line.head? = some (ch '#')) ∨ feedStripCr line = [] then .skipped
      else if (feedApplyScan ngx line).isSome then .decision else .malformed := by
  rw [feedCountLine, feedApplyScan]
  by_cases hblank : line = [] ∨ line.head? = some (ch '#')
  · simp [hblank]
  by_cases hcr : feedStripCr line = []
  · simp [hcr]
  simp only [hblank, hcr, or_self, if_false]
  obtain ⟨p, hp⟩ : ∃ p, Lines.field (ch ' ') (feedStripCr line) = p := ⟨_, rfl⟩
  simp only [hp]
  rcases p with ⟨f1, _ | ⟨c, s⟩⟩
  · simp
  obtain ⟨p, hp⟩ : ∃ p, Lines.field (ch ' ') s = p := ⟨_, rfl⟩
  simp only [hp]
  rcases p with ⟨f2, _ | ⟨c', f3⟩⟩
  · simp
  by_cases hrest : f3 = []
  · simp [hrest]
  by_cases hip : sentinelFeedCanonIp ngx f1 = []
  · simp [hip]
  by_cases hact : sentinelFeedAction f2 = ngxSentinelCsNone
  · simp [hact]
  cases hnum : ngx.atoi f3 <;> simp [hrest, hip, hact, hnum]

theorem number_iff (ngx : NgxCore) {digits : Bytes} {n : Nat} :
    ngx.atoi digits = some n ↔ Number digits n :=
  ngx.atoi_eq_some digits n

theorem feedApplyScan_eq_some_iff {line ip : Bytes} {action : UInt8} {n : Nat} :
    feedApplyScan ngx line = some (ip, action, n) ↔ DecisionLine ngx line ⟨ip, action, n⟩ := by
  rw [feedApplyScan_eq]
  by_cases hskip : Skipped line
  · rw [if_pos (skipped_iff.mp hskip)]
    simp only [reduceCtorEq, false_iff]
    exact fun h => h.not_skipped hskip
  rw [if_neg (mt skipped_iff.mpr hskip)]
  cases hcut : cutFields (feedStripCr line) with
  | none =>
      simp only [Option.bind_none, reduceCtorEq, false_iff]
      rintro ⟨-, tok, name, digits, hline, htok, hname, -⟩
      rw [cutFields_eq_some_iff.mpr ⟨hline, htok, hname⟩] at hcut
      contradiction
  | some f =>
      obtain ⟨tok, name, digits⟩ := f
      obtain ⟨hline, htok, hname⟩ := cutFields_eq_some_iff.mp hcut
      rw [decisionLine_iff hskip hline htok hname, ← canonIp_iff, ← action_iff,
        ← number_iff ngx, Option.bind_some]
      dsimp only
      have hne : ngx.atoi digits = some n → digits ≠ [] := fun h => ((number_iff ngx).mp h).1
      by_cases hbad : digits = [] ∨ (sentinelFeedCanonIp ngx tok).length = 0 ∨
          sentinelFeedAction name = ngxSentinelCsNone
      · rw [if_pos hbad]
        simp only [reduceCtorEq, false_iff]
        rintro ⟨⟨rfl, hip⟩, ⟨rfl, hact⟩, hnum⟩
        exact hbad.elim (hne hnum) (·.elim hip hact)
      · rw [if_neg hbad]
        simp only [not_or] at hbad
        simp only [Option.map_eq_some_iff, Prod.mk.injEq]
        constructor
        · rintro ⟨m, hnum, rfl, rfl, rfl⟩
          exact ⟨⟨rfl, hbad.2.1⟩, ⟨rfl, hbad.2.2⟩, hnum⟩
        · rintro ⟨⟨hip, -⟩, ⟨hact, -⟩, hnum⟩
          exact ⟨n, hnum, hip, hact, rfl⟩

end Fields
section Trailer

def isHexDigit (c : UInt8) : Bool :=
  isDigit c || (ch 'a' ≤ c && c ≤ ch 'f') || (ch 'A' ≤ c && c ≤ ch 'F')

def hexDigit (c : UInt8) : Nat :=
  if c ≤ ch '9' then c.toNat - 48 else if c ≤ ch 'F' then c.toNat - 55 else c.toNat - 87

/-- The number a run of hexadecimal digits spells. -/
def hexValue (s : Bytes) : Nat := s.foldl (fun v c => v * 16 + hexDigit c) 0

/-- `%%EOF <count> SP <hex>` for a given count and checksum. -/
def TrailerLine (line : Bytes) (count : Nat) (crc : UInt32) : Prop :=
  ∃ cnt hex, line = str "%%EOF " ++ (cnt ++ ch ' ' :: hex) ∧
    cnt ≠ [] ∧ cnt.all isDigit = true ∧ decimal cnt = count ∧
    hex ≠ [] ∧ hex.all isHexDigit = true ∧ hexValue hex % 2 ^ 32 = crc.toNat

theorem feedNibble_eq (c : UInt8) :
    feedNibble c = if isHexDigit c then some (UInt32.ofNat (hexDigit c)) else none := by
  revert c
  refine forall_byte ?_
  decide +kernel

theorem hexDigit_lt (c : UInt8) : isHexDigit c = true → hexDigit c < 16 := by
  revert c
  refine forall_byte ?_
  decide +kernel

/-- Shifting a nibble in is multiplication and addition modulo 2^32. -/
theorem shift_or_nibble (v : Nat) {d : Nat} (hd : d < 16) :
    (UInt32.ofNat v <<< 4) ||| UInt32.ofNat d = UInt32.ofNat (v * 16 + d) := by
  apply UInt32.toNat_inj.mp
  have hv : (v % 2 ^ 32) <<< (UInt32.toNat 4 % 32) % 2 ^ 32 = (v % 2 ^ 28) <<< 4 := by
    change (v % 2 ^ 32) <<< 4 % 2 ^ 32 = (v % 2 ^ 28) <<< 4
    simp only [Nat.shiftLeft_eq]
    omega
  simp only [UInt32.toNat_or, UInt32.toNat_shiftLeft, UInt32.toNat_ofNat', hv]
  rw [Nat.mod_eq_of_lt (show d < 2 ^ 32 by omega), ← Nat.shiftLeft_add_eq_or_of_lt (by omega),
    Nat.shiftLeft_eq]
  omega

theorem feedCrcLoop_eq (s : Bytes) (v : Nat) :
    feedCrcLoop (UInt32.ofNat v) s =
      if s.all isHexDigit then
        some (UInt32.ofNat (s.foldl (fun v c => v * 16 + hexDigit c) v))
      else none := by
  induction s generalizing v with
  | nil => rfl
  | cons c s ih =>
      rw [feedCrcLoop, feedNibble_eq]
      by_cases hc : isHexDigit c = true
      · simp only [hc, if_true, shift_or_nibble v (hexDigit_lt c hc), ih, List.all_cons,
          Bool.true_and, List.foldl_cons]
      · simp [hc]

theorem feedCrcLoop_eq_some_iff {hex : Bytes} {crc : UInt32} :
    feedCrcLoop 0 hex = some crc ↔
      hex.all isHexDigit = true ∧ hexValue hex % 2 ^ 32 = crc.toNat := by
  rw [show (0 : UInt32) = UInt32.ofNat 0 from rfl, feedCrcLoop_eq]
  by_cases h : hex.all isHexDigit = true
  · simp only [h, if_true, Option.some.injEq, true_and, ← UInt32.toNat_inj,
      UInt32.toNat_ofNat', hexValue]
  · simp [h]

theorem digits_no_space {cnt : Bytes} (h : cnt.all isDigit = true) : ch ' ' ∉ cnt :=
  not_mem_of_all h rfl

/-- A check that passes has read a count and a checksum, and both were right. -/
theorem checkTrailer_ok {ngx : NgxCore} {line : Bytes} {count : Nat} {crc : UInt32}
    (h : sentinelFeedCheckTrailer ngx line count crc = .ok) :
    ∃ cnt hex, line = str "%%EOF " ++ (cnt ++ ch ' ' :: hex) ∧ ngx.atoi cnt = some count ∧
      hex ≠ [] ∧ feedCrcLoop 0 hex = some crc := by
  rw [sentinelFeedCheckTrailer] at h
  split at h
  · contradiction
  split at h
  · contradiction
  next hmark =>
    have hline : line = str "%%EOF " ++ line.drop 6 := by
      rw [← Classical.not_not.mp hmark, List.take_append_drop]
    rcases Lines.field_cases (ch ' ') (line.drop 6) with ⟨-, hf⟩ | ⟨cnt, hex, -, hd, hf⟩
    · simp [hf] at h
    · rw [hd] at hline
      cases cnt with
      | nil => simp [hf] at h
      | cons c cnt =>
          simp only [hf] at h
          split at h
          · contradiction
          next n hnum =>
            split at h
            · contradiction
            next hn =>
              split at h
              · contradiction
              next hhex =>
                split at h
                · contradiction
                next f hcrc =>
                  split at h
                  next hf' =>
                    rw [hf'] at hcrc
                    rw [Classical.not_not.mp hn] at hnum
                    exact ⟨c :: cnt, hex, hline, hnum, hhex, hcrc⟩
                  next => contradiction

theorem checkTrailer_ok_iff (ngx : NgxCore) (line : Bytes) (crc : UInt32) {count : Nat}
    (hcount : count ≤ ngxMaxIntT) :
    sentinelFeedCheckTrailer ngx line count crc = .ok ↔ TrailerLine line count crc := by
  constructor
  · intro h
    obtain ⟨cnt, hex, hline, hnum, hhex, hcrc⟩ := checkTrailer_ok h
    obtain ⟨h1, h2, h3, -⟩ := (number_iff ngx).mp hnum
    obtain ⟨h4, h5⟩ := feedCrcLoop_eq_some_iff.mp hcrc
    exact ⟨cnt, hex, hline, h1, h2, h3, hhex, h4, h5⟩
  · rintro ⟨cnt, hex, rfl, h1, h2, h3, h4, h5, h6⟩
    have hsp := digits_no_space h2
    have hdrop : (str "%%EOF " ++ (cnt ++ ch ' ' :: hex)).drop 6 = cnt ++ ch ' ' :: hex := rfl
    have htake : (str "%%EOF " ++ (cnt ++ ch ' ' :: hex)).take 6 = str "%%EOF " := rfl
    have hlen : ¬ (str "%%EOF " ++ (cnt ++ ch ' ' :: hex)).length < 9 := by
      have := List.length_pos_of_ne_nil h1
      have := List.length_pos_of_ne_nil h4
      simp [str]
      omega
    have hnum : ngx.atoi cnt = some count := (number_iff ngx).mpr ⟨h1, h2, h3, hcount⟩
    have hcrc : feedCrcLoop 0 hex = some crc := feedCrcLoop_eq_some_iff.mpr ⟨h5, h6⟩
    rw [sentinelFeedCheckTrailer]
    rw [if_neg hlen, if_neg (by rw [htake]; simp), hdrop, Lines.field_append _ hsp]
    cases cnt with
    | nil => exact absurd rfl h1
    | cons c s => simp [hnum, h4, hcrc]

end Trailer
end Sentinel
