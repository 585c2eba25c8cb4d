import Mathlib.Algebra.Group.Nat.Defs
import Mathlib.Data.List.Basic
import Mathlib.Data.List.Induction

/-!
Decimal numerals over any alphabet. A numeral without leading zeros and the
number it stands for determine each other, so that a text which two numerals
make up can be cut in one way only. A reader of bounded width that looks at what
it has before each digit is described by the numerals it accepts.
-/

namespace Numeral
universe u
variable {α : Type u} (enc : Char → α) (dec : α → Nat)

/-- The numeral of a number, most significant digit first. -/
def write (n : Nat) : List α := (Nat.toDigits 10 n).map enc

/-- The number that a row of digits spells. -/
def read (s : List α) : Nat := s.foldl (fun v a => v * 10 + dec a) 0

/-- The same in numbers below `m`, with zero for an answer where a digit is left and
what there is exceeds `g`. -/
def readGuarded (m g v : Nat) : List α → Nat
  | [] => v
  | a :: s => if g < v then 0 else readGuarded m g ((v * 10 + dec a) % m) s

/-- An alphabet whose ten digits can be told apart. -/
structure Code : Prop where
  dec_enc : ∀ d < 10, dec (enc d.digitChar) = d

/-- A row of digits. -/
def Digits (s : List α) : Prop := ∀ a ∈ s, ∃ d < 10, a = enc d.digitChar

/-- A row of digits that starts with a zero only if that is all of it. -/
structure Canonical (s : List α) : Prop where
  ne_nil : s ≠ []
  digits : Digits enc s
  head : s.head? = some (enc '0') → s.length = 1

section Write
variable {enc dec}

theorem write_of_lt {n : Nat} (h : n < 10) : write enc n = [enc n.digitChar] := by
  rw [write, Nat.toDigits_of_lt_base h]
  rfl

theorem write_of_le {n : Nat} (h : 10 ≤ n) :
    write enc n = write enc (n / 10) ++ [enc (n % 10).digitChar] := by
  rw [write, Nat.toDigits_of_base_le (by decide) h, List.map_append]
  rfl

theorem write_ne_nil (n : Nat) : write enc n ≠ [] := by
  rw [write, ne_eq, List.map_eq_nil_iff]
  exact Nat.toDigits_ne_nil

theorem write_digits (n : Nat) : Digits enc (write enc n) := by
  induction n using Nat.strongRecOn with
  | _ n ih =>
      by_cases h : n < 10
      · rw [write_of_lt h]
        intro a ha
        exact ⟨n, h, List.mem_singleton.mp ha⟩
      · rw [write_of_le (by omega)]
        intro a ha
        cases List.mem_append.mp ha with
        | inl ha => exact ih (n / 10) (by omega) a ha
        | inr ha => exact ⟨n % 10, by omega, List.mem_singleton.mp ha⟩

theorem read_append (s : List α) (a : α) : read dec (s ++ [a]) = read dec s * 10 + dec a := by
  simp [read]

theorem read_write (code : Code enc dec) (n : Nat) : read dec (write enc n) = n := by
  induction n using Nat.strongRecOn with
  | _ n ih =>
      by_cases h : n < 10
      · rw [write_of_lt h]
        simp [read, code.dec_enc n h]
      · rw [write_of_le (by omega), read_append, ih (n / 10) (by omega),
          code.dec_enc (n % 10) (by omega)]
        omega

theorem write_injective (code : Code enc dec) {m n : Nat} (h : write enc m = write enc n) :
    m = n := by
  rw [← read_write code m, h, read_write code n]

theorem write_head (code : Code enc dec) {n : Nat} (hn : 0 < n) :
    (write enc n).head? ≠ some (enc '0') := by
  induction n using Nat.strongRecOn with
  | _ n ih =>
      by_cases h : n < 10
      · rw [write_of_lt h, List.head?_cons]
        intro hzero
        have hdec := congrArg dec (Option.some.inj hzero)
        rw [code.dec_enc n h, show '0' = (0 : Nat).digitChar from rfl,
          code.dec_enc 0 (by decide)] at hdec
        omega
      · rw [write_of_le (by omega), List.head?_append_of_ne_nil _ (write_ne_nil _)]
        exact ih (n / 10) (by omega) (by omega)

theorem write_canonical (code : Code enc dec) (n : Nat) : Canonical enc (write enc n) where
  ne_nil := write_ne_nil n
  digits := write_digits n
  head h := by
    by_cases hn : 0 < n
    · exact absurd h (write_head code hn)
    · obtain rfl : n = 0 := by omega
      rfl

/-- A canonical row of digits is the numeral of the number it spells. -/
theorem write_read (code : Code enc dec) {s : List α} (hs : Canonical enc s) :
    write enc (read dec s) = s := by
  induction s using List.reverseRecOn with
  | nil => exact absurd rfl hs.ne_nil
  | append_singleton s a ih =>
      obtain ⟨d, hd, rfl⟩ := hs.digits a (by simp)
      rw [read_append, code.dec_enc d hd]
      cases hcases : s with
      | nil =>
          simp only [read, List.foldl_nil, Nat.zero_mul, Nat.zero_add, List.nil_append]
          exact write_of_lt hd
      | cons b t =>
          have hne : s ≠ [] := by simp [hcases]
          have hhead : s.head? ≠ some (enc '0') := by
            intro h
            have := hs.head (by rw [List.head?_append_of_ne_nil _ hne, h])
            simp [hcases] at this
          have hcanon : Canonical enc s := ⟨hne, fun a ha => hs.digits a (by simp [ha]),
            fun h => absurd h hhead⟩
          have hpos : 0 < read dec s := by
            by_contra hzero
            have hwrite := ih hcanon
            rw [show read dec s = 0 by omega, write_of_lt (by decide)] at hwrite
            rw [← hwrite] at hhead
            exact hhead rfl
          rw [← hcases, write_of_le (by omega), show (read dec s * 10 + d) / 10 = read dec s by omega,
            show (read dec s * 10 + d) % 10 = d by omega, ih hcanon]

theorem read_lt (code : Code enc dec) {s : List α} (hs : Digits enc s) :
    read dec s < 10 ^ s.length := by
  induction s using List.reverseRecOn with
  | nil => simp [read]
  | append_singleton s a ih =>
      obtain ⟨d, hd, rfl⟩ := hs a (by simp)
      have hlt := ih fun a ha => hs a (by simp [ha])
      rw [read_append, code.dec_enc d hd, List.length_append, List.length_singleton, Nat.pow_succ]
      omega

/-- What a numeral can be cut into. -/
theorem Canonical.split {s t : List α} (h : Canonical enc (s ++ t)) (hs : s ≠ []) (ht : t ≠ []) :
    Digits enc s ∧ s.head? ≠ some (enc '0') := by
  refine ⟨fun a ha => h.digits a (by simp [ha]), fun hzero => ?_⟩
  have hlen := h.head (by rw [List.head?_append_of_ne_nil _ hs, hzero])
  have := List.length_pos_iff.mpr hs
  have := List.length_pos_iff.mpr ht
  rw [List.length_append] at hlen
  omega

theorem Digits.canonical_append {s t : List α} (hs : Digits enc s) (hne : s ≠ [])
    (hhead : s.head? ≠ some (enc '0')) (ht : Digits enc t) : Canonical enc (s ++ t) where
  ne_nil := by simp [hne]
  digits a ha := (List.mem_append.mp ha).elim (hs a) (ht a)
  head h := by
    rw [List.head?_append_of_ne_nil _ hne] at h
    exact absurd h hhead

end Write
section Guarded
variable {dec} {m g : Nat}

/-- The row of digits from some number on. -/
theorem foldl_mod (v : Nat) (s : List α) :
    s.foldl (fun v a => v * 10 + dec a) (v % m) % m =
      s.foldl (fun v a => v * 10 + dec a) v % m := by
  induction s using List.reverseRecOn with
  | nil => exact Nat.mod_mod v m
  | append_singleton s a ih =>
      simp only [List.foldl_append, List.foldl_cons, List.foldl_nil]
      rw [Nat.add_mod, Nat.mul_mod, ih, ← Nat.mul_mod, ← Nat.add_mod]

theorem readGuarded_of_le {s : List α} :
    ∀ {v : Nat}, v < m →
      (∀ p a t, s = p ++ a :: t → p.foldl (fun v a => v * 10 + dec a) v % m ≤ g) →
      readGuarded dec m g v s = s.foldl (fun v a => v * 10 + dec a) v % m := by
  induction s with
  | nil =>
      intro v hv _
      exact (Nat.mod_eq_of_lt hv).symm
  | cons a s ih =>
      intro v hv h
      have hle : v ≤ g := by
        have hfirst := h [] a s rfl
        rw [List.foldl_nil, Nat.mod_eq_of_lt hv] at hfirst
        exact hfirst
      rw [readGuarded, if_neg (by omega), List.foldl_cons, ← foldl_mod]
      refine ih (Nat.mod_lt _ (by omega)) ?_
      intro p b t hs
      rw [foldl_mod]
      exact h (a :: p) b t (by rw [hs, List.cons_append])

theorem readGuarded_of_lt {p : List α} (a : α) (t : List α) :
    ∀ {v : Nat}, v < m → g < p.foldl (fun v a => v * 10 + dec a) v % m →
      readGuarded dec m g v (p ++ a :: t) = 0 := by
  induction p with
  | nil =>
      intro v hv h
      rw [List.foldl_nil, Nat.mod_eq_of_lt hv] at h
      rw [List.nil_append, readGuarded, if_pos h]
  | cons b p ih =>
      intro v hv h
      rw [List.cons_append, readGuarded]
      split
      · rfl
      · rw [List.foldl_cons, ← foldl_mod] at h
        exact ih (Nat.mod_lt _ (by omega)) h

/-- A guarded reader returns the remainder of what is spelt, or zero if what some
of the leading digits spell leaves too large a remainder. -/
theorem readGuarded_eq_zero_or {s : List α} (hm : 0 < m) :
    readGuarded dec m g 0 s = 0 ∧ (∃ p a t, s = p ++ a :: t ∧ g < read dec p % m) ∨
      readGuarded dec m g 0 s = read dec s % m ∧
        ∀ p a t, s = p ++ a :: t → read dec p % m ≤ g := by
  by_cases h : ∃ p a t, s = p ++ a :: t ∧ g < read dec p % m
  · refine .inl ⟨?_, h⟩
    obtain ⟨p, a, t, rfl, hp⟩ := h
    exact readGuarded_of_lt a t hm hp
  · refine .inr ?_
    have hle : ∀ p a t, s = p ++ a :: t → read dec p % m ≤ g := by
      intro p a t hs
      by_contra hp
      exact h ⟨p, a, t, hs, by omega⟩
    exact ⟨readGuarded_of_le hm hle, hle⟩

theorem read_append_le (p t : List α) : read dec p ≤ read dec (p ++ t) := by
  induction t using List.reverseRecOn with
  | nil => simp
  | append_singleton t a ih =>
      rw [← List.append_assoc, read_append]
      omega

/-- What a row of digits spells crosses a positive bound at one of its digits. -/
theorem exists_crossing (hm : 0 < m) {s : List α} (h : m ≤ read dec s) :
    ∃ p a t, s = p ++ a :: t ∧ read dec p < m ∧ m ≤ read dec (p ++ [a]) := by
  induction s using List.reverseRecOn with
  | nil => exact absurd hm (Nat.not_lt.mpr h)
  | append_singleton s a ih =>
      by_cases hs : m ≤ read dec s
      · obtain ⟨p, b, t, hsplit, hlt, hle⟩ := ih hs
        exact ⟨p, b, t ++ [a], by simp [hsplit], hlt, hle⟩
      · exact ⟨s, a, [], rfl, by omega, h⟩

end Guarded
end Numeral
