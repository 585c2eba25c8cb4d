import Mathlib.Data.List.Basic
import Mathlib.Data.List.Nodup

/-!
Lists of records that each carry a key, read as finite maps. The order of the
list is free: moving a record around is invisible to `get`, and that is what
the users of this module rely on.
-/

namespace Keyed
universe u v
variable {α : Type u} {κ : Type v} (key : α → κ)

def Unique (l : List α) : Prop := (l.map key).Nodup

theorem Unique.of_cons {key : α → κ} {a : α} {l : List α} (h : Unique key (a :: l)) :
    Unique key l :=
  (List.nodup_cons.mp h).2

variable [DecidableEq κ]

def get (l : List α) (k : κ) : Option α := l.find? (fun a => key a = k)

/-- Drop the record stored under `k`. -/
def erase (l : List α) (k : κ) : List α := l.eraseP (fun a => key a = k)

/-- Overwrite the record stored under `key a`, in place. -/
def write (l : List α) (a : α) : List α := l.map (fun b => if key b = key a then a else b)

@[simp] theorem get_nil (k : κ) : get key [] k = none := rfl

theorem get_cons (a : α) (l : List α) (k : κ) :
    get key (a :: l) k = if key a = k then some a else get key l k := by
  by_cases h : key a = k <;> simp [get, h]

theorem key_of_get {l : List α} {k : κ} {a : α} (h : get key l k = some a) : key a = k := by
  simpa using List.find?_some h

theorem mem_of_get {l : List α} {k : κ} {a : α} (h : get key l k = some a) : a ∈ l :=
  List.mem_of_find?_eq_some h

theorem get_eq_none_iff {l : List α} {k : κ} :
    get key l k = none ↔ ∀ a ∈ l, key a ≠ k := by
  simp [get]

variable {key}

theorem get_of_mem {l : List α} (hu : Unique key l) {a : α} (ha : a ∈ l) :
    get key l (key a) = some a := by
  induction l with
  | nil => simp at ha
  | cons b l ih =>
      rw [get_cons]
      cases List.mem_cons.mp ha with
      | inl heq =>
          obtain rfl := heq
          simp
      | inr ha =>
          have hne : key b ≠ key a := by
            intro he
            exact (List.nodup_cons.mp hu).1 (he ▸ List.mem_map_of_mem ha)
          simp [hne, ih hu.of_cons ha]

theorem get_eq_some_iff {l : List α} (hu : Unique key l) {k : κ} {a : α} :
    get key l k = some a ↔ a ∈ l ∧ key a = k := by
  constructor
  · intro h
    exact ⟨mem_of_get key h, key_of_get key h⟩
  · rintro ⟨ha, rfl⟩
    exact get_of_mem hu ha

theorem get_congr {l m : List α} (hl : Unique key l) (hm : Unique key m)
    (h : ∀ a, a ∈ l ↔ a ∈ m) (k : κ) : get key l k = get key m k := by
  ext a
  simp only [get_eq_some_iff hl, get_eq_some_iff hm, h]

variable (key) in
theorem erase_sublist (l : List α) (k : κ) : (erase key l k).Sublist l :=
  List.eraseP_sublist

theorem unique_erase {l : List α} (hu : Unique key l) (k : κ) : Unique key (erase key l k) :=
  hu.sublist ((erase_sublist key l k).map key)

theorem mem_erase {l : List α} (hu : Unique key l) {k : κ} {a : α} :
    a ∈ erase key l k ↔ a ∈ l ∧ key a ≠ k := by
  induction l with
  | nil => simp [erase]
  | cons b l ih =>
      have hb := (List.nodup_cons.mp hu).1
      by_cases h : key b = k
      · have hl : ∀ a ∈ l, key a ≠ k := by
          intro a ha he
          exact hb (h ▸ he ▸ List.mem_map_of_mem ha)
        simp only [erase, h, decide_true, List.eraseP_cons_of_pos, List.mem_cons]
        constructor
        · exact fun ha => ⟨.inr ha, hl a ha⟩
        · rintro ⟨rfl | ha, hne⟩
          · exact absurd h hne
          · exact ha
      · have ih' := ih hu.of_cons
        rw [erase] at ih' ⊢
        rw [List.eraseP_cons_of_neg (by simpa using h)]
        simp only [List.mem_cons, ih']
        constructor
        · rintro (rfl | ⟨ha, hne⟩)
          · exact ⟨.inl rfl, h⟩
          · exact ⟨.inr ha, hne⟩
        · rintro ⟨rfl | ha, hne⟩
          · exact .inl rfl
          · exact .inr ⟨ha, hne⟩

theorem get_erase {l : List α} (hu : Unique key l) (k₀ k : κ) :
    get key (erase key l k₀) k = if k = k₀ then none else get key l k := by
  ext a
  rw [get_eq_some_iff (unique_erase hu k₀), mem_erase hu]
  split
  next h =>
    subst h
    simp only [reduceCtorEq, iff_false, not_and]
    intro ⟨_, hne⟩ he
    exact hne he
  next h =>
    rw [get_eq_some_iff hu]
    constructor
    · rintro ⟨⟨ha, _⟩, he⟩
      exact ⟨ha, he⟩
    · rintro ⟨ha, rfl⟩
      exact ⟨⟨ha, h⟩, rfl⟩

theorem length_erase {l : List α} {a : α} (ha : a ∈ l) :
    (erase key l (key a)).length + 1 = l.length := by
  have hpos := List.length_pos_of_mem ha
  rw [erase, List.length_eraseP_of_mem ha (by simp)]
  omega

/-- Moving a record to the front is a permutation. -/
theorem perm_cons_erase {l : List α} (hu : Unique key l) {a : α} (ha : a ∈ l) :
    (a :: erase key l (key a)).Perm l := by
  have hn : (a :: erase key l (key a)).Nodup := by
    refine List.nodup_cons.mpr ⟨?_, (unique_erase hu _).of_map key⟩
    intro h
    exact ((mem_erase hu).mp h).2 rfl
  rw [List.perm_ext_iff_of_nodup hn (hu.of_map key)]
  intro b
  rw [List.mem_cons, mem_erase hu]
  constructor
  · rintro (rfl | ⟨hb, _⟩)
    · exact ha
    · exact hb
  · intro hb
    by_cases h : key b = key a
    · have hab := get_of_mem hu hb
      rw [h, get_of_mem hu ha] at hab
      exact .inl (Option.some.inj hab).symm
    · exact .inr ⟨hb, h⟩

theorem map_key_write (l : List α) (a : α) : (write key l a).map key = l.map key := by
  simp only [write, List.map_map]
  apply List.map_congr_left
  intro b _
  simp only [Function.comp]
  split
  next h => exact h.symm
  next => rfl

/-- Nothing is overwritten before a key that is new. -/
theorem write_append_new {l : List α} {a : α} (h : get key l (key a) = none) :
    write key (l ++ [a]) a = l ++ [a] := by
  have hne := (get_eq_none_iff key).mp h
  have hl : l.map (fun b => if key b = key a then a else b) = l := by
    rw [List.map_congr_left fun b hb => if_neg (hne b hb), List.map_id']
  rw [write, List.map_append, hl, List.map_singleton, if_pos rfl]

theorem unique_write {l : List α} (hu : Unique key l) (a : α) : Unique key (write key l a) := by
  rw [Unique]
  rw [map_key_write]
  exact hu

theorem get_write (l : List α) (a : α) (k : κ) :
    get key (write key l a) k =
      if k = key a then (get key l k).map (fun _ => a) else get key l k := by
  induction l with
  | nil => simp [write]
  | cons b l ih =>
      have hw : write key (b :: l) a = (if key b = key a then a else b) :: write key l a := rfl
      rw [hw, get_cons, get_cons, ih]
      by_cases hk : k = key a
      · subst hk
        by_cases hb : key b = key a <;> simp [hb]
      · by_cases hb : key b = key a
        · have h1 : ¬ key a = k := fun h => hk h.symm
          simp [hb, h1, hk]
        · simp [hb, hk]

theorem mem_write {l : List α} {a b : α} (h : b ∈ write key l a) : b = a ∨ b ∈ l := by
  obtain ⟨c, hc, rfl⟩ := List.mem_map.mp h
  split
  · exact .inl rfl
  · exact .inr hc

end Keyed
