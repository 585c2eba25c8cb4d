import Sentinel.ZoneConf

/-!
What holds of the shared zones while a configuration is read and its locations
are merged. A push is described by what it does to the elements of the array as
it stands and to the elements of its older blocks.
-/

namespace Sentinel

section Push
variable (cf : NgxConf) (s : ConfState) (kind : ZoneKind) (inPlace : Bool) (d : ZoneDesc)

/-- The element that a push fills. -/
theorem push_ptr : (ngxArrayPush cf s kind inPlace d).2 =
    (ngxArrayPush cf s kind inPlace d).1.elt kind (s.arrays kind).nelts := by
  simp [ngxArrayPush, ConfState.elt]

@[simp] theorem push_nelts : ((ngxArrayPush cf s kind inPlace d).1.arrays kind).nelts =
    (s.arrays kind).nelts + 1 := by
  simp [ngxArrayPush, (cf.arrayPush_pushed kind inPlace d (s.arrays kind) s.mem).nelts]

theorem push_arrays {k : ZoneKind} (h : k ≠ kind) :
    (ngxArrayPush cf s kind inPlace d).1.arrays k = s.arrays k := by
  simp [ngxArrayPush, h]

/-- The array moves exactly when it is full and cannot be extended. -/
theorem push_block : ((ngxArrayPush cf s kind inPlace d).1.arrays kind).block =
    if (s.arrays kind).full ∧ inPlace = false then (s.arrays kind).block + 1
    else (s.arrays kind).block := by
  simp [ngxArrayPush, (cf.arrayPush_pushed kind inPlace d (s.arrays kind) s.mem).block]

theorem push_block_le (k : ZoneKind) :
    (s.arrays k).block ≤ ((ngxArrayPush cf s kind inPlace d).1.arrays k).block := by
  by_cases hk : k = kind
  · subst hk
    rw [push_block]
    split
    · exact Nat.le_succ _
    · exact Nat.le_refl _
  · rw [push_arrays cf s kind inPlace d hk]

theorem push_nelts_le (k : ZoneKind) :
    (s.arrays k).nelts ≤ ((ngxArrayPush cf s kind inPlace d).1.arrays k).nelts := by
  by_cases hk : k = kind
  · subst hk
    rw [push_nelts]
    exact Nat.le_succ _
  · rw [push_arrays cf s kind inPlace d hk]

theorem push_mem_new : (ngxArrayPush cf s kind inPlace d).1.mem
    (ngxArrayPush cf s kind inPlace d).2 = d :=
  (cf.arrayPush_pushed kind inPlace d (s.arrays kind) s.mem).filled

/-- A pointer to an element that is there, of the block in use or of an older
one, still finds it. -/
theorem push_mem_old {p : ZonePtr} (hb : p.block ≤ (s.arrays p.kind).block)
    (hi : p.index < (s.arrays p.kind).nelts) :
    (ngxArrayPush cf s kind inPlace d).1.mem p = s.mem p := by
  have hpushed := cf.arrayPush_pushed kind inPlace d (s.arrays kind) s.mem
  by_cases hp : p.kind = kind ∧
      p.block = (cf.arrayPush kind inPlace d (s.arrays kind) s.mem).1.block ∧
      p.index ≤ (s.arrays kind).nelts
  · obtain ⟨rfl, hblock, -⟩ := hp
    -- the array has not moved, or the pointer would be to the new block
    have hsame : (s.arrays p.kind).block = p.block := by
      have hmoved := hblock.trans hpushed.block
      split at hmoved
      · omega
      · exact hmoved.symm
    have hcopied := hpushed.copied p.index hi
    rw [← hblock, hsame] at hcopied
    exact hcopied
  · exact hpushed.frame p hp

/-- The elements that were there keep their places in the array. -/
theorem push_mem_elt {k : ZoneKind} {i : Nat} (hi : i < (s.arrays k).nelts) :
    (ngxArrayPush cf s kind inPlace d).1.mem ((ngxArrayPush cf s kind inPlace d).1.elt k i) =
      s.mem (s.elt k i) := by
  by_cases hk : k = kind
  · subst hk
    have hcopied := (cf.arrayPush_pushed k inPlace d (s.arrays k) s.mem).copied i hi
    simpa [ngxArrayPush, ConfState.elt] using hcopied
  · have helt : (ngxArrayPush cf s kind inPlace d).1.elt k i = s.elt k i := by
      rw [ConfState.elt, push_arrays cf s kind inPlace d hk]
      rfl
    rw [helt]
    exact push_mem_old cf s kind inPlace d (Nat.le_refl _) hi

theorem push_mem_cases (p : ZonePtr) : (ngxArrayPush cf s kind inPlace d).1.mem p = d ∨
    ∃ q, (ngxArrayPush cf s kind inPlace d).1.mem p = s.mem q := by
  have hpushed := cf.arrayPush_pushed kind inPlace d (s.arrays kind) s.mem
  by_cases hp : p.kind = kind ∧
      p.block = (cf.arrayPush kind inPlace d (s.arrays kind) s.mem).1.block ∧
      p.index ≤ (s.arrays kind).nelts
  · obtain ⟨rfl, hblock, hindex⟩ := hp
    have hp : p = ⟨p.kind, (cf.arrayPush p.kind inPlace d (s.arrays p.kind) s.mem).1.block,
        p.index⟩ := by
      rw [← hblock]
    rw [hp]
    cases Nat.lt_or_eq_of_le hindex with
    | inl hlt => exact .inr ⟨_, hpushed.copied p.index hlt⟩
    | inr heq =>
        rw [heq]
        exact .inl hpushed.filled
  · exact .inr ⟨p, hpushed.frame p hp⟩

end Push

section Add
variable {cf : NgxConf} {s t : ConfState} {z : ShmZone}

theorem add_cases (h : ngxSharedMemoryAdd cf s z = .ok t) :
    ∃ shms, t = { s with shms } ∧
      (Keyed.get ShmZone.name s.shms z.name = none ∧ shms = s.shms ++ [z] ∨
        ∃ old, Keyed.get ShmZone.name s.shms z.name = some old ∧ old.size = z.size ∧
          shms = Keyed.write ShmZone.name s.shms z) := by
  rw [ngxSharedMemoryAdd] at h
  cases hget : Keyed.get ShmZone.name s.shms z.name with
  | none =>
      rw [cf.sharedMemoryAdd_new s.shms z hget] at h
      refine ⟨_, (Except.ok.inj h).symm, .inl ⟨rfl, ?_⟩⟩
      exact Keyed.write_append_new hget
  | some old =>
      by_cases hsize : old.size = z.size
      · rw [cf.sharedMemoryAdd_old s.shms z old hget hsize] at h
        exact ⟨_, (Except.ok.inj h).symm, .inr ⟨old, rfl, hsize, rfl⟩⟩
      · obtain ⟨e, he⟩ := cf.sharedMemoryAdd_conflict s.shms z old hget hsize
        rw [he] at h
        contradiction

theorem add_arrays (h : ngxSharedMemoryAdd cf s z = .ok t) : t.arrays = s.arrays := by
  obtain ⟨shms, rfl, _⟩ := add_cases h
  rfl

theorem add_mem (h : ngxSharedMemoryAdd cf s z = .ok t) : t.mem = s.mem := by
  obtain ⟨shms, rfl, _⟩ := add_cases h
  rfl

/-- Adding stores under the zone's own name and nowhere else. -/
theorem add_get (h : ngxSharedMemoryAdd cf s z = .ok t) (name : Bytes) :
    Keyed.get ShmZone.name t.shms name =
      if name = z.name then some z else Keyed.get ShmZone.name s.shms name := by
  obtain ⟨shms, rfl, hnew | hold⟩ := add_cases h
  · obtain ⟨hget, rfl⟩ := hnew
    by_cases hn : name = z.name
    · subst hn
      rw [Keyed.get] at hget ⊢
      simp [List.find?_append, hget]
    · have hn' : ¬ z.name = name := fun h => hn h.symm
      simp [Keyed.get, List.find?_append, hn, hn']
  · obtain ⟨old, hget, _, rfl⟩ := hold
    rw [Keyed.get_write]
    by_cases hn : name = z.name
    · simp [hn, hget]
    · simp [hn]

theorem mem_add (h : ngxSharedMemoryAdd cf s z = .ok t) {w : ShmZone} (hw : w ∈ t.shms) :
    w = z ∨ w ∈ s.shms := by
  obtain ⟨shms, rfl, hnew | hold⟩ := add_cases h
  · obtain ⟨_, rfl⟩ := hnew
    cases List.mem_append.mp hw with
    | inl hw => exact .inr hw
    | inr hw => exact .inl (List.mem_singleton.mp hw)
  · obtain ⟨_, _, _, rfl⟩ := hold
    exact Keyed.mem_write hw

theorem add_unique (h : ngxSharedMemoryAdd cf s z = .ok t)
    (hu : Keyed.Unique ShmZone.name s.shms) : Keyed.Unique ShmZone.name t.shms := by
  obtain ⟨shms, rfl, hnew | hold⟩ := add_cases h
  · obtain ⟨hget, rfl⟩ := hnew
    have habs := (Keyed.get_eq_none_iff _).mp hget
    rw [Keyed.Unique, List.map_append, List.nodup_append]
    refine ⟨hu, by simp, ?_⟩
    intro a ha b hb
    obtain ⟨w, hw, rfl⟩ := List.mem_map.mp ha
    simp only [List.map_cons, List.map_nil, List.mem_singleton] at hb
    exact hb ▸ habs w hw
  · obtain ⟨old, _, _, rfl⟩ := hold
    exact Keyed.unique_write hu z

end Add

section Wf
variable {ngx : NgxCore} {cf : NgxConf} {s t : ConfState}

/-- The arrays whose nodes carry an event ring. -/
def ZoneKind.ringed : ZoneKind → Bool
  | .zones => true
  | .csZones => false
  | .velZones => true
  | .fcrdnsZones => false

/-- A ring has room for an event, and a descriptor without a ring says so. -/
def Sized (kind : ZoneKind) (zone : Zone) : Prop := 0 < zone.threshold ↔ kind.ringed = true

structure ConfState.Wf (s : ConfState) : Prop where
  unique : Keyed.Unique ShmZone.name s.shms
  allocated : ∀ z ∈ s.shms, ∀ p, z.init = .zone p →
    p.block ≤ (s.arrays p.kind).block ∧ p.index < (s.arrays p.kind).nelts
  named : ∀ z ∈ s.shms, ∀ p, z.init = .zone p → (s.mem p).name = z.name
  sized : ∀ z ∈ s.shms, ∀ p, z.init = .zone p → Sized p.kind (s.mem p).zone
  detached : ∀ p, (s.mem p).sh = none

theorem wf_create : ngxSentinelCreateMainConf.Wf where
  unique := List.nodup_nil
  allocated := by
    intro z hz
    cases hz
  named := by
    intro z hz
    cases hz
  sized := by
    intro z hz
    cases hz
  detached := fun _ => rfl

/-- A zone that no descriptor stands behind. -/
theorem ConfState.Wf.add_other (wf : s.Wf) {z : ShmZone} (hz : ∀ p, z.init ≠ .zone p)
    (h : ngxSharedMemoryAdd cf s z = .ok t) : t.Wf := by
  have hmem := add_mem h
  have harr := add_arrays h
  have hold : ∀ w ∈ t.shms, ∀ p, w.init = .zone p → w ∈ s.shms := by
    intro w hw p hp
    cases mem_add h hw with
    | inl he => exact absurd (he ▸ hp) (hz p)
    | inr hw => exact hw
  refine ⟨add_unique h wf.unique, ?_, ?_, ?_, ?_⟩
  · intro w hw p hp
    rw [harr]
    exact wf.allocated w (hold w hw p hp) p hp
  · intro w hw p hp
    rw [hmem]
    exact wf.named w (hold w hw p hp) p hp
  · intro w hw p hp
    rw [hmem]
    exact wf.sized w (hold w hw p hp) p hp
  · rw [hmem]
    exact wf.detached

/-- A zone directive: the push, and the zone that points to the new element. -/
theorem ConfState.Wf.add_zone (wf : s.Wf) {d : ZoneDecl} {inPlace : Bool} (hd : Sized d.kind d.zone)
    (h : s.declare cf (.zone d) inPlace = .ok t) : t.Wf := by
  simp only [ConfState.declare] at h
  have hmem := add_mem h
  have harr := add_arrays h
  have hnew : ∀ w ∈ t.shms, ∀ p, w.init = .zone p →
      (w.name = d.name ∧ p = (ngxArrayPush cf s d.kind inPlace ⟨d.name, d.zone, none, none⟩).2) ∨
        w ∈ s.shms := by
    intro w hw p hp
    cases mem_add h hw with
    | inl he =>
        subst he
        exact .inl ⟨rfl, (ShmInit.zone.inj hp).symm⟩
    | inr hw => exact .inr hw
  refine ⟨add_unique h wf.unique, ?_, ?_, ?_, ?_⟩
  · intro w hw p hp
    rw [harr]
    cases hnew w hw p hp with
    | inl he =>
        rw [he.2, push_ptr]
        refine ⟨Nat.le_refl _, ?_⟩
        simp [ConfState.elt]
    | inr hw =>
        obtain ⟨hb, hi⟩ := wf.allocated w hw p hp
        exact ⟨hb.trans (push_block_le _ _ _ _ _ _), hi.trans_le (push_nelts_le _ _ _ _ _ _)⟩
  · intro w hw p hp
    rw [hmem]
    cases hnew w hw p hp with
    | inl he => rw [he.1, he.2, push_mem_new]
    | inr hw =>
        obtain ⟨hb, hi⟩ := wf.allocated w hw p hp
        rw [push_mem_old _ _ _ _ _ hb hi]
        exact wf.named w hw p hp
  · intro w hw p hp
    rw [hmem]
    cases hnew w hw p hp with
    | inl he =>
        rw [he.2, push_mem_new, push_ptr]
        exact hd
    | inr hw =>
        obtain ⟨hb, hi⟩ := wf.allocated w hw p hp
        rw [push_mem_old _ _ _ _ _ hb hi]
        exact wf.sized w hw p hp
  · intro p
    rw [hmem]
    cases push_mem_cases cf s d.kind inPlace ⟨d.name, d.zone, none, none⟩ p with
    | inl he => rw [he]
    | inr he =>
        obtain ⟨q, he⟩ := he
        rw [he]
        exact wf.detached q

theorem zoneDecl_ok {directive value : Bytes} {kind : ZoneKind} {zone : Zone} {d : ZoneDecl}
    (h : zoneDecl cf directive kind zone value = .ok d) : d.kind = kind ∧ d.zone = zone := by
  rw [zoneDecl] at h
  split at h
  · cases h
  · split at h
    · cases h
    · split at h
      · cases h
      · cases h
        exact ⟨rfl, rfl⟩

theorem velocityArg_threshold {zone zone' : Zone} {arg : Bytes} (h : 0 < zone.threshold)
    (harg : velocityArg ngx zone arg = .ok zone') : 0 < zone'.threshold := by
  rw [velocityArg] at harg
  split at harg
  · obtain ⟨v, hv, rfl⟩ := Run.map_ok.mp harg
    rw [velocityValue] at hv
    split at hv
    · split at hv
      · cases hv
      next hlt =>
        cases hv
        exact Nat.not_lt.mp hlt
    · cases hv
  split at harg
  · obtain ⟨v, _, rfl⟩ := Run.map_ok.mp harg
    exact h
  split at harg
  · obtain ⟨v, _, rfl⟩ := Run.map_ok.mp harg
    exact h
  · cases harg

/-- Every accepted directive gives its array the ring the array is for. -/
theorem decl_sized {d : ShmDirective} {zd : ZoneDecl} (h : d.decl ngx cf = .ok (.zone zd)) :
    Sized zd.kind zd.zone := by
  cases d with
  | sentinelZone value =>
      obtain ⟨d, hd, he⟩ := Run.map_ok.mp h
      obtain ⟨hk, hz⟩ := zoneDecl_ok hd
      cases he
      simp [Sized, hk, hz, ZoneKind.ringed, ngxSentinelMaxWindowEvents]
  | velocityZone value args =>
      obtain ⟨d, hd, he⟩ := Run.map_ok.mp h
      obtain ⟨d₀, hd₀, hd⟩ := Run.bind_ok.mp hd
      obtain ⟨zone, hzone, hd⟩ := Run.bind_ok.mp hd
      obtain ⟨hk, hz⟩ := zoneDecl_ok hd₀
      have hpos : 0 < zone.threshold := by
        refine Run.tryExec_invariant (I := fun z : Zone => 0 < z.threshold) ?_ hzone ?_
        · intro z arg z' hstep hz
          exact velocityArg_threshold hz hstep
        · rw [hz]
          decide
      cases he
      cases hd
      simp [Sized, hk, hpos, ZoneKind.ringed]
  | crowdsecZone value =>
      obtain ⟨d, hd, he⟩ := Run.map_ok.mp h
      obtain ⟨hk, hz⟩ := zoneDecl_ok hd
      cases he
      simp [Sized, hk, hz, ZoneKind.ringed]
  | fcrdnsZone value =>
      obtain ⟨d, hd, he⟩ := Run.map_ok.mp h
      obtain ⟨hk, hz⟩ := zoneDecl_ok hd
      cases he
      simp [Sized, hk, hz, ZoneKind.ringed]
  | redis value => cases h
  | csSinkPath value => cases h

theorem wf_step {d : ShmDirective × Bool} (h : confStep ngx cf s d = .ok t) (wf : s.Wf) :
    t.Wf := by
  obtain ⟨decl, hdecl, h⟩ := Run.bind_ok.mp h
  cases decl with
  | zone zd => exact wf.add_zone (decl_sized hdecl) h
  | redis name size =>
      refine wf.add_other ?_ h
      intro p hp
      cases hp
  | cssink name size =>
      refine wf.add_other ?_ h
      intro p hp
      cases hp

theorem wf_tarpit (wf : s.Wf) (h : ngxSentinelInitTarpitShm cf s = .ok t) : t.Wf := by
  refine wf.add_other ?_ h
  intro p hp
  cases hp

end Wf

section Merge
variable {s t : ConfState}

/-- A merge writes nothing but ages of entries. -/
structure SameZones (s t : ConfState) : Prop where
  arrays : t.arrays = s.arrays
  shms : t.shms = s.shms
  name : ∀ p, (t.mem p).name = (s.mem p).name
  sh : ∀ p, (t.mem p).sh = (s.mem p).sh
  threshold : ∀ p, (t.mem p).zone.threshold = (s.mem p).zone.threshold

theorem SameZones.refl (s : ConfState) : SameZones s s :=
  ⟨rfl, rfl, fun _ => rfl, fun _ => rfl, fun _ => rfl⟩

theorem SameZones.trans {s t u : ConfState} (h : SameZones s t) (h' : SameZones t u) :
    SameZones s u where
  arrays := h'.arrays.trans h.arrays
  shms := h'.shms.trans h.shms
  name := fun p => (h'.name p).trans (h.name p)
  sh := fun p => (h'.sh p).trans (h.sh p)
  threshold := fun p => (h'.threshold p).trans (h.threshold p)

theorem SameZones.wf (h : SameZones s t) (wf : s.Wf) : t.Wf := by
  have hsized : ∀ p, Sized p.kind (t.mem p).zone ↔ Sized p.kind (s.mem p).zone := by
    intro p
    rw [Sized, Sized, h.threshold]
  refine ⟨?_, ?_, ?_, ?_, ?_⟩
  · rw [h.shms]
    exact wf.unique
  · rw [h.shms, h.arrays]
    exact wf.allocated
  · intro z hz p hp
    rw [h.name]
    exact wf.named z (h.shms ▸ hz) p hp
  · intro z hz p hp
    rw [hsized]
    exact wf.sized z (h.shms ▸ hz) p hp
  · intro p
    rw [h.sh]
    exact wf.detached p

theorem sameZones_setCsInterval (s : ConfState) (staleAfter : Int) (q : Option ZonePtr) :
    SameZones s (setCsInterval s staleAfter q) := by
  cases q with
  | none => exact SameZones.refl s
  | some q =>
      have hmem : ∀ p, (setCsInterval s staleAfter (some q)).mem p =
          if p = q then
            { s.mem q with zone := { (s.mem q).zone with interval := staleAfter } }
          else s.mem p := fun p => Function.update_apply _ _ _ _
      refine ⟨rfl, rfl, ?_, ?_, ?_⟩
      · intro p
        rw [hmem]
        split <;> simp [*]
      · intro p
        rw [hmem]
        split <;> simp [*]
      · intro p
        rw [hmem]
        split <;> simp [*]

/-- A pointer into an array as it stands. -/
def ConfState.InArrays (s : ConfState) (p : ZonePtr) : Prop :=
  p = s.elt p.kind p.index ∧ p.index < (s.arrays p.kind).nelts

theorem SameZones.inArrays (h : SameZones s t) (p : ZonePtr) :
    t.InArrays p ↔ s.InArrays p := by
  rw [ConfState.InArrays, ConfState.InArrays, ConfState.elt, ConfState.elt, h.arrays]

theorem inArrays_elt {kind : ZoneKind} {i : Nat} (hi : i < (s.arrays kind).nelts) :
    s.InArrays (s.elt kind i) := ⟨rfl, hi⟩

theorem inArrays_firstZone {kind : ZoneKind} {p : ZonePtr} (h : s.firstZone kind = some p) :
    s.InArrays p := by
  rw [ConfState.firstZone] at h
  split at h
  next hpos =>
    cases h
    exact inArrays_elt hpos
  next => cases h

theorem inArrays_zoneByName {kind : ZoneKind} {name : Bytes} {p : ZonePtr}
    (h : s.zoneByName kind name = some p) : s.InArrays p := by
  have hmem := List.mem_of_find?_eq_some h
  obtain ⟨i, hi, rfl⟩ := List.mem_map.mp hmem
  exact inArrays_elt (List.mem_range.mp hi)

theorem mergePtr_cases {conf prev : Option (Option ZonePtr)} {p : ZonePtr}
    (h : mergePtr conf prev = some p) : conf.join = some p ∨ prev.join = some p := by
  cases conf with
  | none => exact .inr h
  | some q => exact .inl h

theorem resolveName_bound {kind : ZoneKind} {what name : Bytes}
    {conf prev : Option (Option ZonePtr)} {p : ZonePtr}
    (h : resolveName s kind what name (mergePtr conf prev) = .ok (some p)) :
    conf.join = some p ∨ prev.join = some p ∨ s.InArrays p := by
  rw [resolveName] at h
  split at h
  next =>
    cases mergePtr_cases (Except.ok.inj h) with
    | inl hc => exact .inl hc
    | inr hp => exact .inr (.inl hp)
  next =>
    split at h
    next q hq =>
      cases h
      exact .inr (.inr (inArrays_zoneByName hq))
    next => cases h

theorem bindCsZone_bound {csFeed redisHost : Bytes} {conf prev : Option (Option ZonePtr)}
    {p : ZonePtr} (h : bindCsZone s csFeed redisHost (mergePtr conf prev) = .ok (some p)) :
    conf.join = some p ∨ prev.join = some p ∨ s.InArrays p := by
  simp only [bindCsZone] at h
  split at h
  next q hq =>
    cases h
    cases mergePtr_cases hq with
    | inl hc => exact .inl hc
    | inr hp => exact .inr (.inl hp)
  next =>
    split at h
    next => cases h
    next =>
      split at h
      next q hq =>
        cases h
        exact .inr (.inr (inArrays_firstZone hq))
      next => cases h

theorem firstZone_bound {kind : ZoneKind} {conf prev : Option ZonePtr} {p : ZonePtr}
    (h : (conf.or prev).or (s.firstZone kind) = some p) :
    conf = some p ∨ prev = some p ∨ s.InArrays p := by
  cases conf with
  | some q => exact .inl h
  | none =>
      cases prev with
      | some q => exact .inr (.inl h)
      | none => exact .inr (.inr (inArrays_firstZone h))

theorem mem_bound {l : LocConf} {p : ZonePtr} : p ∈ l.bound ↔
    l.zone = some p ∨ l.csZone.join = some p ∨ l.velZone.join = some p ∨
      l.fcrdnsZone.join = some p := by
  simp [LocConf.bound]

/-- A merge binds elements of the arrays as they stand, or what was inherited. -/
theorem merge_bound {prev conf l : LocConf}
    (h : ngxSentinelMergeLocConf s prev conf = .ok (t, l)) :
    SameZones s t ∧ ∀ p ∈ l.bound, p ∈ conf.bound ∨ p ∈ prev.bound ∨ s.InArrays p := by
  rw [ngxSentinelMergeLocConf] at h
  obtain ⟨fcrdns, hf, h⟩ := Run.bind_ok.mp h
  obtain ⟨vel, hv, h⟩ := Run.bind_ok.mp h
  dsimp only at h
  split at h
  next => cases h
  next =>
    obtain ⟨cs, hc, h⟩ := Run.bind_ok.mp h
    cases h
    refine ⟨sameZones_setCsInterval s _ cs, fun p hp => ?_⟩
    simp only [mem_bound, Option.join_some] at hp ⊢
    rcases hp with hzone | rfl | rfl | rfl
    · have := firstZone_bound hzone
      tauto
    · have := bindCsZone_bound hc
      tauto
    · have := resolveName_bound hv
      tauto
    · have := resolveName_bound hf
      tauto

theorem conf_bound (l : LocDirectives) : l.conf.bound = [] := rfl

/-- Over all merges of a configuration. -/
theorem merges_bound {locs locs' : List LocConf} {ms : List (Nat × LocDirectives)}
    (h : Run.tryExec mergeStep (s, locs) ms = .ok (t, locs'))
    (hlocs : ∀ l ∈ locs, ∀ p ∈ l.bound, s.InArrays p) :
    SameZones s t ∧ ∀ l ∈ locs', ∀ p ∈ l.bound, s.InArrays p := by
  refine Run.tryExec_invariant
    (I := fun r => SameZones s r.1 ∧ ∀ l ∈ r.2, ∀ p ∈ l.bound, s.InArrays p) ?_ h
    ⟨SameZones.refl s, hlocs⟩
  intro r m r' hstep hr
  rw [mergeStep] at hstep
  split at hstep
  next prev hprev =>
    obtain ⟨q, hq, rfl⟩ := Run.map_ok.mp hstep
    obtain ⟨hsame, hbound⟩ := merge_bound hq
    refine ⟨hr.1.trans hsame, fun l hl p hp => ?_⟩
    cases List.mem_append.mp hl with
    | inl hl => exact hr.2 l hl p hp
    | inr hl =>
        rw [List.mem_singleton.mp hl] at hp
        rcases hbound p hp with hown | hin | harr
        · rw [conf_bound] at hown
          cases hown
        · exact hr.2 prev (List.mem_of_getElem? hprev) p hin
        · exact (hr.1.inArrays p).mp harr
  next => cases hstep

end Merge

end Sentinel
