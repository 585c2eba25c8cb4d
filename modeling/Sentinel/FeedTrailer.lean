import Sentinel.FeedGrammar
import Sentinel.NgxRef

/-!
The trailer as its comment describes it, a checksum of at most eight digits that
spell the value itself, against what the check reads. The two part on checksum
fields of nine digits or more and on counts that `ngx_atoi` cannot return.
-/

namespace Sentinel

/-- `%%EOF <count> SP <hex>`, whatever the checksum field spells. -/
def TrailerFields (line : Bytes) (count : Nat) (hex : Bytes) : Prop :=
  ∃ cnt, line = str "%%EOF " ++ (cnt ++ ch ' ' :: hex) ∧
    cnt ≠ [] ∧ cnt.all isDigit = true ∧ decimal cnt = count ∧
    hex ≠ [] ∧ hex.all isHexDigit = true

/-- The trailer of a count and a checksum: one to eight digits. -/
def TrailerSyntax (line : Bytes) (count : Nat) (crc : UInt32) : Prop :=
  ∃ hex, TrailerFields line count hex ∧ hex.length ≤ 8 ∧ hexValue hex = crc.toNat

/-- A checksum field that is too long and whose last 32 bits are the checksum. -/
def TrailerLongField (line : Bytes) (count : Nat) (crc : UInt32) : Prop :=
  ∃ hex, TrailerFields line count hex ∧ 8 < hex.length ∧ hexValue hex % 2 ^ 32 = crc.toNat

section Fields

/-- A line has one checksum field. -/
theorem TrailerFields.unique {line hex hex' : Bytes} {count count' : Nat}
    (h : TrailerFields line count hex) (h' : TrailerFields line count' hex') : hex = hex' := by
  obtain ⟨cnt, hline, -, hdigits, -, -, -⟩ := h
  obtain ⟨cnt', hline', -, hdigits', -, -, -⟩ := h'
  rw [hline, List.append_cancel_left_eq] at hline'
  exact (Lines.append_inj (ch ' ') (digits_no_space hdigits) (digits_no_space hdigits')
    hline').2

theorem hexDigit_fold_lt {s : Bytes} (h : s.all isHexDigit = true) (v : Nat) :
    s.foldl (fun v c => v * 16 + hexDigit c) v < (v + 1) * 16 ^ s.length := by
  induction s generalizing v with
  | nil => simp
  | cons c s ih =>
      rw [List.all_cons, Bool.and_eq_true] at h
      have hc := hexDigit_lt c h.1
      calc s.foldl (fun v c => v * 16 + hexDigit c) (v * 16 + hexDigit c)
          < (v * 16 + hexDigit c + 1) * 16 ^ s.length := ih h.2 _
        _ ≤ ((v + 1) * 16) * 16 ^ s.length := Nat.mul_le_mul_right _ (by omega)
        _ = (v + 1) * 16 ^ (c :: s).length := by
            rw [List.length_cons, Nat.pow_succ, Nat.mul_assoc, Nat.mul_comm 16]

/-- Eight digits fill 32 bits. -/
theorem hexValue_lt {hex : Bytes} (h : hex.all isHexDigit = true) (hlen : hex.length ≤ 8) :
    hexValue hex < 2 ^ 32 := by
  have hlt := hexDigit_fold_lt h 0
  have hpow : 16 ^ hex.length ≤ 16 ^ 8 := Nat.pow_le_pow_right (by omega) hlen
  rw [hexValue]
  omega

theorem trailerLine_iff {line : Bytes} {count : Nat} {crc : UInt32} :
    TrailerLine line count crc ↔
      ∃ hex, TrailerFields line count hex ∧ hexValue hex % 2 ^ 32 = crc.toNat := by
  constructor
  · intro h
    obtain ⟨cnt, hex, hline, h1, h2, h3, h4, h5, h6⟩ := h
    exact ⟨hex, ⟨cnt, hline, h1, h2, h3, h4, h5⟩, h6⟩
  · intro h
    obtain ⟨hex, ⟨cnt, hline, h1, h2, h3, h4, h5⟩, h6⟩ := h
    exact ⟨cnt, hex, hline, h1, h2, h3, h4, h5, h6⟩

/-- What the check reads, by the length of the checksum field. -/
theorem trailerLine_cases {line : Bytes} {count : Nat} {crc : UInt32} :
    TrailerLine line count crc ↔
      TrailerSyntax line count crc ∨ TrailerLongField line count crc := by
  rw [trailerLine_iff]
  constructor
  · intro h
    obtain ⟨hex, hfields, hcrc⟩ := h
    by_cases hlen : hex.length ≤ 8
    · obtain ⟨-, -, -, -, -, -, hhex⟩ := id hfields
      rw [Nat.mod_eq_of_lt (hexValue_lt hhex hlen)] at hcrc
      exact .inl ⟨hex, hfields, hlen, hcrc⟩
    · exact .inr ⟨hex, hfields, by omega, hcrc⟩
  · intro h
    cases h with
    | inl h =>
        obtain ⟨hex, hfields, hlen, hcrc⟩ := h
        refine ⟨hex, hfields, ?_⟩
        rw [hcrc]
        exact Nat.mod_eq_of_lt crc.toNat_lt
    | inr h =>
        obtain ⟨hex, hfields, -, hcrc⟩ := h
        exact ⟨hex, hfields, hcrc⟩

theorem not_syntax_of_longField {line : Bytes} {count : Nat} {crc : UInt32}
    (h : TrailerLongField line count crc) : ¬ TrailerSyntax line count crc := by
  intro hs
  obtain ⟨hex, hfields, hlong, -⟩ := h
  obtain ⟨hex', hfields', hshort, -⟩ := hs
  rw [hfields.unique hfields'] at hlong
  omega

end Fields
section Check
variable (ngx : NgxCore)

/-- The check passes only through a count that `ngx_atoi` returned. -/
theorem checkTrailer_count {line : Bytes} {count : Nat} {crc : UInt32}
    (h : sentinelFeedCheckTrailer ngx line count crc = .ok) : count ≤ ngxMaxIntT := by
  obtain ⟨cnt, hex, -, hnum, -, -⟩ := checkTrailer_ok h
  obtain ⟨-, -, -, hle⟩ := (number_iff ngx).mp hnum
  exact hle

/-- The check follows the trailer's syntax exactly on the lines without an overlong
field that it takes for the checksum, for counts that it can compare. -/
theorem checkTrailer_syntax_iff (line : Bytes) (count : UInt64) (crc : UInt32) :
    (sentinelFeedCheckTrailer ngx line count.toNat crc = .ok ↔
        TrailerSyntax line count.toNat crc) ↔
      if count.toNat ≤ ngxMaxIntT then ¬ TrailerLongField line count.toNat crc
      else ¬ TrailerSyntax line count.toNat crc := by
  split
  next hcount =>
    rw [checkTrailer_ok_iff ngx line crc hcount, trailerLine_cases]
    constructor
    · intro h hlong
      exact not_syntax_of_longField hlong (h.mp (.inr hlong))
    · intro h
      exact ⟨fun hline => hline.resolve_right h, .inl⟩
  next hcount =>
    have hdeclined : ¬ sentinelFeedCheckTrailer ngx line count.toNat crc = .ok :=
      fun h => hcount (checkTrailer_count ngx h)
    constructor
    · intro h hsyntax
      exact hdeclined (h.mpr hsyntax)
    · intro h
      exact ⟨fun hok => absurd hok hdeclined, fun hsyntax => absurd hsyntax h⟩

/-- Nine digits that spell 2^32 pass for a checksum of zero. -/
theorem checkTrailer_syntax_nine :
    ¬ (sentinelFeedCheckTrailer Ref.ngx (str "%%EOF 0 100000000") 0 0 = .ok ↔
      TrailerSyntax (str "%%EOF 0 100000000") 0 0) := by
  intro h
  have hfields : TrailerFields (str "%%EOF 0 100000000") 0 (str "100000000") :=
    ⟨str "0", rfl, by decide, by decide, rfl, by decide, by decide⟩
  have hlong : TrailerLongField (str "%%EOF 0 100000000") 0 0 :=
    ⟨str "100000000", hfields, by decide, rfl⟩
  have hok : sentinelFeedCheckTrailer Ref.ngx (str "%%EOF 0 100000000") 0 0 = .ok :=
    (checkTrailer_ok_iff Ref.ngx _ 0 (by decide)).mpr (trailerLine_cases.mpr (.inr hlong))
  exact not_syntax_of_longField hlong (h.mp hok)

end Check
end Sentinel
