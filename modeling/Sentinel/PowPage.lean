import Sentinel.Lib.Bits
import Sentinel.PowGate

/-!
The difficulty test on both sides of the wire. The loop of the server and the
script of the challenge page count the same leading zeros, which is a bound on
the digest as a number, so a nonce that the script stops at passes the server.

The script's numbers are doubles. The byte it shifts stays below 256, and its
counter stops growing at 2^53.
-/

namespace Sentinel

/-- The digest as a big-endian number. -/
def digestValue (digest : Bytes) : Nat := digest.foldl (fun v b => v * 256 + b.toNat) 0

section Page

/-- `while((v&128)===0){n++;v=(v<<1)&255;}` -/
def pageBitLoop : (fuel : Nat) → (v n : Nat) → Nat
  | 0, _, n => n
  | fuel + 1, v, n =>
      if v &&& 128 = 0 then pageBitLoop fuel ((v <<< 1) &&& 255) (n + 1) else n

/-- The `for` loop of `lz`. -/
def pageZeroLoop : (a : List Nat) → (n : Nat) → Nat
  | [], n => n
  | v :: a, n => if v = 0 then pageZeroLoop a (n + 8) else pageBitLoop 8 v n

/-- `lz` of the page's script, on the elements of a `Uint8Array`. -/
def pageLz (a : Bytes) : Nat := pageZeroLoop (a.map UInt8.toNat) 0

/-- `n++` on a double. -/
def pageNext (n : Nat) : Nat := if n < 2 ^ 53 then n + 1 else n

/-- `for(;;){var h=await sha(c+n);if(lz(h)>=d)break;n++;}`: the counter at which
the page stops within `fuel` rounds. -/
def pageSearch (pow : PowCore) (c : Bytes) (d : Int) : (fuel n : Nat) → Option Nat
  | 0, _ => none
  | fuel + 1, n =>
      if (pageLz (pow.sha256 (c ++ ngxPrint n)) : Int) ≥ d then some n
      else pageSearch pow c d fuel (pageNext n)

end Page

section Value

theorem byteBits_length (b : UInt8) : (byteBits b).length = 8 := by simp [byteBits]

theorem byteBits_value (b : UInt8) : Bits.value (byteBits b) = b.toNat := by
  revert b
  refine forall_byte ?_
  decide +kernel

theorem bits_length (digest : Bytes) : (digest.flatMap byteBits).length = 8 * digest.length := by
  simp [List.length_flatMap, byteBits_length, Nat.mul_comm]

theorem digestValue_eq (digest : Bytes) :
    digestValue digest = Bits.value (digest.flatMap byteBits) := by
  induction digest using List.reverseRecOn with
  | nil => rfl
  | append_singleton digest b ih =>
      rw [List.flatMap_append, Bits.value_append, ← ih]
      simp [digestValue, byteBits_value, byteBits_length]

/-- Leading zero bits bound the digest's value. -/
theorem leadingZeroBits_iff {digest : Bytes} {d : Nat} (hd : d ≤ 8 * digest.length) :
    d ≤ leadingZeroBits digest ↔ digestValue digest < 2 ^ (8 * digest.length - d) := by
  rw [digestValue_eq, ← bits_length, ← Bits.le_leadingZeros_iff (by rwa [bits_length])]
  rfl

end Value

section Lz

/-- The `while` loop ends within eight rounds on a byte other than 0. -/
theorem pageBitLoop_fuel {k v : Nat} (hk : k ≤ 7) (hlo : 2 ^ (7 - k) ≤ v) (hhi : v < 256)
    (extra n : Nat) : pageBitLoop (k + 1 + extra) v n = pageBitLoop (k + 1) v n := by
  have htest : ∀ v : Fin 256, (v : Nat) &&& 128 = 0 ↔ (v : Nat) < 128 := by decide +kernel
  have hv := htest ⟨v, hhi⟩
  induction k generalizing v n with
  | zero =>
      have hset : ¬ v &&& 128 = 0 := by
        rw [hv]
        exact Nat.not_lt.mpr hlo
      rw [Nat.zero_add, Nat.add_comm 1 extra, pageBitLoop, pageBitLoop, if_neg hset, if_neg hset]
  | succ k ih =>
      rw [show k + 1 + 1 + extra = (k + 1 + extra) + 1 by omega, pageBitLoop, pageBitLoop]
      split
      next hclear =>
        have hlt : v < 128 := hv.mp hclear
        have hshift : (v <<< 1) &&& 255 = 2 * v := by
          have hall : ∀ v : Fin 128, ((v : Nat) <<< 1) &&& 255 = 2 * (v : Nat) := by
            decide +kernel
          exact hall ⟨v, hlt⟩
        have hpow : 2 ^ (7 - k) = 2 * 2 ^ (7 - (k + 1)) := by
          rw [← Nat.pow_succ']
          congr 1
          omega
        rw [hshift]
        exact ih (by omega) (by omega) (by omega) _ (htest ⟨2 * v, by omega⟩)
      next => rfl

/-- The byte that the script holds is the server's. -/
theorem pageBitLoop_eq (fuel : Nat) (b : UInt8) (n : Nat) :
    (pageBitLoop fuel b.toNat n : Int) = powBitLoop fuel b n := by
  induction fuel generalizing b n with
  | zero => rfl
  | succ fuel ih =>
      have htest : ∀ b : UInt8, b.toNat &&& 128 = 0 ↔ b &&& 0x80 = 0 := by
        refine forall_byte ?_
        decide +kernel
      have hshift : ∀ b : UInt8, (b.toNat <<< 1) &&& 255 = (b <<< 1).toNat := by
        refine forall_byte ?_
        decide +kernel
      simp only [pageBitLoop, powBitLoop, htest, hshift]
      split
      · rw [ih]
        rfl
      · rfl

theorem pageZeroLoop_eq (digest : Bytes) (n : Nat) :
    (pageZeroLoop (digest.map UInt8.toNat) n : Int) = powZeroLoop digest n := by
  induction digest generalizing n with
  | nil => rfl
  | cons b digest ih =>
      have hzero : b.toNat = 0 ↔ b = 0 := by
        rw [← UInt8.toNat_inj]
        rfl
      simp only [List.map_cons, pageZeroLoop, powZeroLoop, hzero]
      split
      · rw [ih]
        rfl
      · exact pageBitLoop_eq 8 b n

/-- The script's count is the server's. -/
theorem pageLz_ge_iff (digest : Bytes) (d : Int) :
    (pageLz digest : Int) ≥ d ↔ sentinelPowMeetsDifficulty digest d = true := by
  rw [pageLz, pageZeroLoop_eq, sentinelPowMeetsDifficulty, decide_eq_true_iff]
  rfl

end Lz

section Search
variable {pow : PowCore} {c : Bytes} {d : Int}

theorem pageNext_le {n : Nat} (h : n ≤ 2 ^ 53) : pageNext n ≤ 2 ^ 53 := by
  rw [pageNext]
  split
  · omega
  · exact h

theorem pageSearch_some {fuel n m : Nat} (hn : n ≤ 2 ^ 53)
    (h : pageSearch pow c d fuel n = some m) :
    m ≤ 2 ^ 53 ∧ sentinelPowMeetsDifficulty (pow.sha256 (c ++ ngxPrint m)) d = true := by
  induction fuel generalizing n with
  | zero => simp [pageSearch] at h
  | succ fuel ih =>
      rw [pageSearch] at h
      split at h
      next hge =>
        obtain rfl := Option.some.inj h
        exact ⟨hn, (pageLz_ge_iff _ _).mp hge⟩
      next => exact ih (pageNext_le hn) h

/-- A number that a double holds exactly has at most 16 digits. -/
theorem print_length {n : Nat} (h : n ≤ 2 ^ 53) :
    1 ≤ (ngxPrint n).length ∧ (ngxPrint n).length ≤ ngxSentinelPowNonceMax := by
  have hne : Numeral.write ch n ≠ [] := Numeral.write_ne_nil n
  have hpos := List.length_pos_iff.mpr hne
  have hle : (Nat.toDigits 10 n).length ≤ 16 :=
    (Nat.length_toDigits_le_iff (by decide) (by decide)).mpr (by omega)
  refine ⟨hpos, ?_⟩
  rw [ngxPrint, Numeral.write, List.length_map, ngxSentinelPowNonceMax]
  omega

end Search

/-- The test is a bound on the digest as a number, the page counts as the server
does, and the server takes the nonce that a page of its own stops at. -/
theorem pow_difficulty (pow : PowCore) :
    (∀ (digest : Bytes) (d : Nat), digest.length = 32 → d ≤ 256 →
      (sentinelPowMeetsDifficulty digest d = true ↔ digestValue digest < 2 ^ (256 - d)) ∧
      (pageLz digest ≥ d ↔ sentinelPowMeetsDifficulty digest d = true)) ∧
    ∀ (challenge : Bytes) (d : Int) (fuel n : Nat), pageSearch pow challenge d fuel 0 = some n →
      ∀ r : PowRequest, r.nonce = some (ngxPrint n) →
        sentinelPowGetNonce r = some (ngxPrint n) ∧
        sentinelPowMeetsDifficulty (pow.sha256 (challenge ++ ngxPrint n)) d = true := by
  refine ⟨fun digest d hlen hd => ⟨?_, ?_⟩, fun challenge d fuel n hfound r hnonce => ?_⟩
  · have hbits : d ≤ leadingZeroBits digest ↔ digestValue digest < 2 ^ (8 * digest.length - d) :=
      leadingZeroBits_iff (by omega)
    rw [meetsDifficulty_iff, Nat.cast_le, hbits, hlen]
  · rw [← pageLz_ge_iff, ge_iff_le, ge_iff_le, Nat.cast_le]
  · obtain ⟨hle, hmeets⟩ := pageSearch_some (Nat.zero_le _) hfound
    exact ⟨getNonce_iff.mpr ⟨hnonce, print_length hle⟩, hmeets⟩

/-- The digest of zeros, which alone meets the hardest difficulty. -/
theorem pow_difficulty_zeros :
    let digest : Bytes := List.replicate 32 0
    (sentinelPowMeetsDifficulty digest 256 = true ↔ digestValue digest < 2 ^ (256 - 256)) ∧
      (pageLz digest ≥ 256 ↔ sentinelPowMeetsDifficulty digest 256 = true) ∧
      pageSearch Ref.pow (str "c") 4 8 0 = some 4 ∧
      sentinelPowMeetsDifficulty (Ref.pow.sha256 (str "c" ++ ngxPrint 4)) 4 = true := by
  intro digest
  have hfound : pageSearch Ref.pow (str "c") 4 8 0 = some 4 := by decide +kernel
  obtain ⟨hvalue, hpage⟩ :=
    (pow_difficulty Ref.pow).1 digest 256 (by decide +kernel) (by decide +kernel)
  obtain ⟨-, hmeets⟩ := (pow_difficulty Ref.pow).2 (str "c") 4 8 4 hfound
    ⟨.inet [192, 0, 2, 7] rfl, none, ⟨[], [], by simp⟩, some (ngxPrint 4)⟩ rfl
  exact ⟨hvalue, hpage, hfound, hmeets⟩

end Sentinel
