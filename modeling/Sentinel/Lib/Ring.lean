import Mathlib.Data.Nat.ModEq
import Mathlib.Logic.Function.Basic

/-!
Ring buffers with two counters that only ever advance and wrap at a modulus.
The difference of the counters is the number of waiting entries, and the
counter of an entry modulo the capacity is its slot. Both readings survive the
wrap if the capacity divides the modulus and is smaller.
-/

namespace Ring
universe u
variable {α : Type u}

structure State (α : Type u) where
  head : Nat
  tail : Nat
  slots : Nat → α

variable (modulus capacity : Nat)

/-- `head - tail` in the arithmetic of the counters. -/
def used (r : State α) : Nat := (modulus - r.tail + r.head) % modulus

def put (r : State α) (e : α) : Option (State α) :=
  if capacity ≤ used modulus r then none
  else
    some ⟨(r.head + 1) % modulus, r.tail, Function.update r.slots (r.head % capacity) e⟩

def take (r : State α) : Option (α × State α) :=
  if r.tail = r.head then none
  else some (r.slots (r.tail % capacity), { r with tail := (r.tail + 1) % modulus })

/-- The entries of `q` are waiting in this order. -/
structure Holds (r : State α) (q : List α) : Prop where
  tail_lt : r.tail < modulus
  length_le : q.length ≤ capacity
  head : r.head = (r.tail + q.length) % modulus
  slot : ∀ i (h : i < q.length), r.slots ((r.tail + i) % modulus % capacity) = q[i]

/-- Counters of this width can serve a ring of this capacity. -/
structure Sized : Prop where
  dvd : capacity ∣ modulus
  lt : capacity < modulus

variable {modulus capacity} {r : State α} {q : List α} {e : α}

theorem holds_init (h : 0 < modulus) (slots : Nat → α) :
    Holds modulus capacity ⟨0, 0, slots⟩ [] where
  tail_lt := h
  length_le := Nat.zero_le capacity
  head := (Nat.zero_mod modulus).symm
  slot := by
    intro i hi
    exact absurd hi (Nat.not_lt_zero i)

/-- A number less than the modulus that was added can be read off. -/
theorem sub_add_mod {t n : Nat} (ht : t < modulus) (hn : n < modulus) :
    (modulus - t + (t + n) % modulus) % modulus = n := by
  by_cases hwrap : t + n < modulus
  · rw [Nat.mod_eq_of_lt hwrap, show modulus - t + (t + n) = modulus + n by omega,
      Nat.add_mod_left, Nat.mod_eq_of_lt hn]
  · have hmod : (t + n) % modulus = t + n - modulus := by
      rw [Nat.mod_eq_sub_mod (Nat.not_lt.mp hwrap), Nat.mod_eq_of_lt (by omega)]
    rw [hmod, show modulus - t + (t + n - modulus) = n by omega, Nat.mod_eq_of_lt hn]

theorem Holds.used_eq (hs : Sized modulus capacity) (h : Holds modulus capacity r q) :
    used modulus r = q.length := by
  rw [used, h.head]
  exact sub_add_mod h.tail_lt (Nat.lt_of_le_of_lt h.length_le hs.lt)

/-- Fewer than `capacity` places apart, two slots are different. -/
theorem slot_ne (hs : Sized modulus capacity) {t i n : Nat} (hi : i < n) (hn : n < capacity) :
    (t + i) % modulus % capacity ≠ (t + n) % modulus % capacity := by
  rw [Nat.mod_mod_of_dvd _ hs.dvd, Nat.mod_mod_of_dvd _ hs.dvd]
  intro h
  have hmod : i ≡ n [MOD capacity] := Nat.ModEq.add_left_cancel' t h
  have heq := hmod.eq_of_lt_of_lt (Nat.lt_trans hi hn) hn
  omega

theorem Holds.put (hs : Sized modulus capacity) (h : Holds modulus capacity r q)
    (hroom : q.length < capacity) :
    ∃ r', put modulus capacity r e = some r' ∧ Holds modulus capacity r' (q ++ [e]) := by
  have hused := h.used_eq hs
  have hslot : r.head % capacity = (r.tail + q.length) % modulus % capacity := by rw [h.head]
  refine ⟨_, if_neg (by omega), h.tail_lt, ?_, ?_, ?_⟩
  · rw [List.length_append, List.length_singleton]
    exact hroom
  · simp only [List.length_append, List.length_singleton, h.head, Nat.mod_add_mod,
      Nat.add_assoc]
  · intro i hi
    rw [List.length_append, List.length_singleton] at hi
    simp only [hslot]
    by_cases hlast : i = q.length
    · subst hlast
      rw [Function.update_self, List.getElem_append_right (Nat.le_refl _)]
      simp
    · have hi' : i < q.length := by omega
      rw [Function.update_of_ne (slot_ne hs hi' hroom), h.slot i hi', List.getElem_append_left hi']

theorem Holds.put_full (hs : Sized modulus capacity) (h : Holds modulus capacity r q)
    (hfull : q.length = capacity) : Ring.put modulus capacity r e = none := by
  have hused := h.used_eq hs
  exact if_pos (by omega)

theorem Holds.take_nil (h : Holds modulus capacity r []) : take modulus capacity r = none := by
  apply if_pos
  rw [h.head, List.length_nil, Nat.add_zero, Nat.mod_eq_of_lt h.tail_lt]

theorem Holds.take_cons (hs : Sized modulus capacity) (h : Holds modulus capacity r (e :: q)) :
    ∃ r', take modulus capacity r = some (e, r') ∧ Holds modulus capacity r' q := by
  have hlen := h.length_le
  have hlt := hs.lt
  rw [List.length_cons] at hlen
  have hne : ¬ r.tail = r.head := by
    intro heq
    have hused := h.used_eq hs
    rw [used, ← heq, show modulus - r.tail + r.tail = modulus by have := h.tail_lt; omega,
      Nat.mod_self, List.length_cons] at hused
    omega
  have hfirst := h.slot 0 (Nat.succ_pos _)
  rw [Nat.add_zero, Nat.mod_eq_of_lt h.tail_lt, List.getElem_cons_zero] at hfirst
  refine ⟨{ r with tail := (r.tail + 1) % modulus }, ?_, Nat.mod_lt _ (by omega), by omega, ?_, ?_⟩
  · rw [take, if_neg hne, hfirst]
  · rw [h.head, List.length_cons, Nat.mod_add_mod]
    congr 1
    omega
  · intro i hi
    have hnext := h.slot (i + 1) (Nat.succ_lt_succ hi)
    rw [List.getElem_cons_succ] at hnext
    simp only [Nat.mod_add_mod, Nat.add_assoc, Nat.add_comm 1 i]
    exact hnext

end Ring
