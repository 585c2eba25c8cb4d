import Sentinel.ZoneCycle

/-!
Which of the descriptors that locations are bound to are attached to a segment.
A location points into its array as it stands at merge time, and the zone's
`data` into the array as it stood at the directive. The two are the same element
unless the array moved in between or the zone was declared again, and only then
is the location's descriptor attached. That is proved for every configuration and
every history of reloads.
-/

namespace Sentinel

section Declare
variable {cf : NgxConf} {s t : ConfState} {decl : ShmDecl} {inPlace : Bool}

theorem declare_nelts (h : s.declare cf decl inPlace = .ok t) (k : ZoneKind) :
    (t.arrays k).nelts =
      if decl.pushes = some k then (s.arrays k).nelts + 1 else (s.arrays k).nelts := by
  cases decl with
  | zone d =>
      rw [add_arrays h]
      by_cases hk : d.kind = k
      · subst hk
        simp [ShmDecl.pushes]
      · have hk' : k ≠ d.kind := fun he => hk he.symm
        simp [ShmDecl.pushes, hk, push_arrays _ _ _ _ _ hk']
  | redis name size => simp [ShmDecl.pushes, add_arrays h]
  | cssink name size => simp [ShmDecl.pushes, add_arrays h]

theorem declare_block (h : s.declare cf decl inPlace = .ok t) (k : ZoneKind) :
    (t.arrays k).block =
      if decl.pushes = some k ∧ (s.arrays k).full ∧ inPlace = false then
        (s.arrays k).block + 1
      else (s.arrays k).block := by
  cases decl with
  | zone d =>
      rw [add_arrays h]
      by_cases hk : d.kind = k
      · subst hk
        rw [push_block]
        simp [ShmDecl.pushes]
      · have hk' : k ≠ d.kind := fun he => hk he.symm
        simp [ShmDecl.pushes, hk, push_arrays _ _ _ _ _ hk']
  | redis name size => simp [ShmDecl.pushes, add_arrays h]
  | cssink name size => simp [ShmDecl.pushes, add_arrays h]

theorem declare_mem_elt (h : s.declare cf decl inPlace = .ok t) {k : ZoneKind} {i : Nat}
    (hi : i < (s.arrays k).nelts) : t.mem (t.elt k i) = s.mem (s.elt k i) := by
  have helt : ∀ u : ConfState, t.arrays = u.arrays → t.elt k i = u.elt k i := by
    intro u hu
    rw [ConfState.elt, hu]
    rfl
  cases decl with
  | zone d =>
      rw [add_mem h, helt _ (add_arrays h)]
      exact push_mem_elt _ _ _ _ _ hi
  | redis name size => rw [add_mem h, helt _ (add_arrays h)]
  | cssink name size => rw [add_mem h, helt _ (add_arrays h)]

/-- The zone of another name is left alone. -/
theorem declare_get_ne (h : s.declare cf decl inPlace = .ok t) {name : Bytes}
    (hn : name ≠ decl.name) :
    Keyed.get ShmZone.name t.shms name = Keyed.get ShmZone.name s.shms name := by
  cases decl with
  | zone d => exact (add_get h name).trans (if_neg hn)
  | redis n size => exact (add_get h name).trans (if_neg hn)
  | cssink n size => exact (add_get h name).trans (if_neg hn)

/-- The zone declared points to the next element of its array, if to any. -/
theorem declare_get_self (h : s.declare cf decl inPlace = .ok t) :
    ∃ z, Keyed.get ShmZone.name t.shms decl.name = some z ∧ ∀ p, z.init = .zone p ↔
      decl.pushes = some p.kind ∧ p = t.elt p.kind (s.arrays p.kind).nelts := by
  cases decl with
  | zone d =>
      refine ⟨_, by simpa [ShmDecl.name] using add_get h d.name, fun p => ?_⟩
      have helt : t.elt d.kind (s.arrays d.kind).nelts =
          (ngxArrayPush cf s d.kind inPlace ⟨d.name, d.zone, none, none⟩).2 := by
        rw [push_ptr, ConfState.elt, ConfState.elt, add_arrays h]
      simp only [ShmInit.zone.injEq, ShmDecl.pushes, Option.some.injEq]
      constructor
      · rintro rfl
        refine ⟨rfl, ?_⟩
        rw [← helt]
        rfl
      · intro h
        rw [h.2, ← h.1, helt]
  | redis n size =>
      exact ⟨_, by simpa [ShmDecl.name] using add_get h n, by simp [ShmDecl.pushes]⟩
  | cssink n size =>
      exact ⟨_, by simpa [ShmDecl.name] using add_get h n, by simp [ShmDecl.pushes]⟩

end Declare

section Kept
variable (ngx : NgxCore) (cf : NgxConf)

/-- A directive that neither moves the array `kind` nor declares the name. -/
def Spares (kind : ZoneKind) (name : Bytes) (s : ConfState) (d : ShmDirective × Bool) : Prop :=
  ∀ decl, d.1.decl ngx cf = .ok decl → decl.name ≠ name ∧
    ¬ (decl.pushes = some kind ∧ (s.arrays kind).full = true ∧ d.2 = false)

/-- The directive that made the element at `p` is followed by no other one that
declares its name, and by no push that moves its array. -/
def PointerKept (ds : List (ShmDirective × Bool)) (p : ZonePtr) : Prop :=
  ∃ before d after zone s t, ds = before ++ d :: after ∧
    Run.tryExec (confStep ngx cf) ngxSentinelCreateMainConf before = .ok s ∧
    d.1.decl ngx cf = .ok (.zone zone) ∧ zone.kind = p.kind ∧
    (s.arrays p.kind).nelts = p.index ∧ confStep ngx cf s d = .ok t ∧
    zone.name ≠ tarpitZoneName ∧
    Run.TryAlong (Spares ngx cf p.kind zone.name) (confStep ngx cf) t after

end Kept

section Pointed
variable {ngx : NgxCore} {cf : NgxConf} {s t : ConfState} {kind : ZoneKind} {name : Bytes}
  {i : Nat}

/-- The zone of that name points to element `i` as the array is now. -/
def Pointed (kind : ZoneKind) (i : Nat) (name : Bytes) (s : ConfState) : Prop :=
  ∃ z, Keyed.get ShmZone.name s.shms name = some z ∧ z.init = .zone (s.elt kind i)

/-- Element `i` is there, under its name. -/
structure Settled (kind : ZoneKind) (i : Nat) (name : Bytes) (s : ConfState) : Prop where
  wf : s.Wf
  lt : i < (s.arrays kind).nelts
  name : (s.mem (s.elt kind i)).name = name

theorem settled_step {d : ShmDirective × Bool} (hs : Settled kind i name s)
    (h : confStep ngx cf s d = .ok t) : Settled kind i name t := by
  obtain ⟨decl, hdecl, hdo⟩ := Run.bind_ok.mp h
  refine ⟨wf_step h hs.wf, ?_, ?_⟩
  · rw [declare_nelts hdo]
    have := hs.lt
    split <;> omega
  · rw [declare_mem_elt hdo hs.lt]
    exact hs.name

theorem pointed_step {d : ShmDirective × Bool} (hs : Settled kind i name s)
    (h : confStep ngx cf s d = .ok t) :
    Pointed kind i name t ↔ Pointed kind i name s ∧ Spares ngx cf kind name s d := by
  obtain ⟨decl, hdecl, hdo⟩ := Run.bind_ok.mp h
  have hspares : Spares ngx cf kind name s d ↔ decl.name ≠ name ∧
      ¬ (decl.pushes = some kind ∧ (s.arrays kind).full = true ∧ d.2 = false) := by
    constructor
    · intro hall
      exact hall decl hdecl
    · intro hone decl' hdecl'
      obtain rfl := Except.ok.inj (hdecl.symm.trans hdecl')
      exact hone
  rw [hspares]
  by_cases hn : decl.name = name
  · -- the new `data` is the element after all those there are
    constructor
    · intro ⟨z, hz, hinit⟩
      obtain ⟨z', hz', hself⟩ := declare_get_self hdo
      rw [hn, hz] at hz'
      obtain rfl := Option.some.inj hz'
      have hindex := congrArg ZonePtr.index ((hself _).mp hinit).2
      have hlt := hs.lt
      simp only [ConfState.elt] at hindex
      omega
    · intro hfalse
      exact absurd hn hfalse.2.1
  · have hget := declare_get_ne hdo (fun he => hn he.symm : name ≠ decl.name)
    have hblock := declare_block hdo kind
    by_cases hmove : decl.pushes = some kind ∧ (s.arrays kind).full = true ∧ d.2 = false
    · -- what the zone points to lies in a block before the new one
      rw [if_pos hmove] at hblock
      constructor
      · intro ⟨z, hz, hinit⟩
        rw [hget] at hz
        have hle := (hs.wf.allocated z (Keyed.mem_of_get _ hz) _ hinit).1
        simp only [ConfState.elt, hblock] at hle
        omega
      · intro hfalse
        exact absurd hmove hfalse.2.2
    · rw [if_neg hmove] at hblock
      have helt : t.elt kind i = s.elt kind i := by
        rw [ConfState.elt, hblock]
        rfl
      simp [Pointed, hget, helt, hn, hmove]

/-- The directive that makes the element leaves its zone pointing there. -/
theorem pointed_new {d : ShmDirective × Bool} {zone : ZoneDecl} (wf : s.Wf)
    (hdecl : d.1.decl ngx cf = .ok (.zone zone)) (h : confStep ngx cf s d = .ok t) :
    Settled zone.kind (s.arrays zone.kind).nelts zone.name t ∧
      Pointed zone.kind (s.arrays zone.kind).nelts zone.name t := by
  obtain ⟨decl, hdecl', hdo⟩ := Run.bind_ok.mp h
  obtain rfl := Except.ok.inj (hdecl.symm.trans hdecl')
  obtain ⟨z, hz, hself⟩ := declare_get_self hdo
  have hinit : z.init = .zone (t.elt zone.kind (s.arrays zone.kind).nelts) :=
    (hself _).mpr ⟨rfl, rfl⟩
  have htwf := wf_step h wf
  refine ⟨⟨htwf, ?_, ?_⟩, z, hz, hinit⟩
  · rw [declare_nelts hdo]
    simp [ShmDecl.pushes]
  · rw [htwf.named z (Keyed.mem_of_get _ hz) _ hinit]
    exact Keyed.key_of_get _ hz

/-- After that, its zone points there as long as each directive spares it. -/
theorem pointed_run {before after : List (ShmDirective × Bool)} {d : ShmDirective × Bool}
    {zone : ZoneDecl} {u v : ConfState} (wf : s.Wf)
    (hrun : Run.tryExec (confStep ngx cf) s (before ++ d :: after) = .ok t)
    (hu : Run.tryExec (confStep ngx cf) s before = .ok u)
    (hdecl : d.1.decl ngx cf = .ok (.zone zone)) (hv : confStep ngx cf u d = .ok v) :
    Settled zone.kind (u.arrays zone.kind).nelts zone.name t ∧
      (Pointed zone.kind (u.arrays zone.kind).nelts zone.name t ↔
        Run.TryAlong (Spares ngx cf zone.kind zone.name) (confStep ngx cf) v after) := by
  have wfu : u.Wf := Run.tryExec_invariant (I := ConfState.Wf)
    (fun _ _ _ hstep wf => wf_step hstep wf) hu wf
  obtain ⟨hsettled, hpointed⟩ := pointed_new wfu hdecl hv
  have hafter : Run.tryExec (confStep ngx cf) v after = .ok t := by
    obtain ⟨u', hu', hrun⟩ := Run.tryExec_append_ok.mp hrun
    obtain rfl := Except.ok.inj (hu.symm.trans hu')
    obtain ⟨v', hv', hrun⟩ := Run.tryExec_cons_ok.mp hrun
    obtain rfl := Except.ok.inj (hv.symm.trans hv')
    exact hrun
  generalize (u.arrays zone.kind).nelts = i at hsettled hpointed
  have hruniff := Run.tryExec_kept_iff (I := Settled zone.kind i zone.name)
    (K := Pointed zone.kind i zone.name) (P := Spares ngx cf zone.kind zone.name)
    (fun _ _ _ hstep hs => settled_step hs hstep)
    (fun _ _ _ hstep hs => pointed_step hs hstep) hafter hsettled
  refine ⟨Run.tryExec_invariant (I := Settled zone.kind i zone.name)
    (fun _ _ _ hstep hs => settled_step hs hstep) hafter hsettled, ?_⟩
  rw [hruniff]
  exact and_iff_right hpointed

/-- Every element was made by one directive of the configuration. -/
theorem exists_push {ds : List (ShmDirective × Bool)}
    (h : Run.tryExec (confStep ngx cf) s ds = .ok t) (hlo : (s.arrays kind).nelts ≤ i)
    (hhi : i < (t.arrays kind).nelts) :
    ∃ before d after zone u v, ds = before ++ d :: after ∧
      Run.tryExec (confStep ngx cf) s before = .ok u ∧ d.1.decl ngx cf = .ok (.zone zone) ∧
      zone.kind = kind ∧ (u.arrays kind).nelts = i ∧ confStep ngx cf u d = .ok v ∧
      Run.tryExec (confStep ngx cf) v after = .ok t := by
  induction ds generalizing s with
  | nil =>
      obtain rfl := Except.ok.inj h
      omega
  | cons d ds ih =>
      obtain ⟨v, hv, h⟩ := Run.tryExec_cons_ok.mp h
      by_cases hnow : i < (v.arrays kind).nelts
      · obtain ⟨decl, hdecl, hdo⟩ := Run.bind_ok.mp hv
        have hnelts := declare_nelts hdo kind
        split at hnelts
        next hpush =>
          cases decl with
          | zone zone =>
              exact ⟨[], d, ds, zone, s, v, rfl, rfl, hdecl, Option.some.inj hpush, by omega, hv, h⟩
          | redis n size => cases hpush
          | cssink n size => cases hpush
        next => omega
      · obtain ⟨before, d', after, zone, u, w, rfl, hu, hrest⟩ := ih h (Nat.not_lt.mp hnow)
        exact ⟨d :: before, d', after, zone, u, w, rfl,
          Run.tryExec_cons_ok.mpr ⟨v, hv, hu⟩, hrest⟩

end Pointed

section Attached
variable {ngx : NgxCore} {cf : NgxConf} {old : Option Cycle} {s s₀ s₁ : ConfState} {c : Cycle}

/-- The callback attaches what a zone points to, and nothing else. -/
theorem attached_iff_stored (hold : ∀ o ∈ old, o.Wf) (wf : s.Wf) {locs : List LocConf}
    (hinv : InitInv cf old s locs [] c) (p : ZonePtr) :
    (c.mem p).attached = true ↔ ∃ z ∈ s.shms, z.init = .zone p := by
  have cwf := initInv_wf hold wf hinv
  have hzones : c.shms.map MappedZone.toShmZone = s.shms := by
    simpa using hinv.zones
  constructor
  · intro h
    obtain ⟨g, hg⟩ := Option.isSome_iff_exists.mp (Bool.and_eq_true_iff.mp h).1
    obtain ⟨m, hm, hinit, _⟩ := cwf.stored p g hg
    exact ⟨m.toShmZone, hzones ▸ List.mem_map_of_mem hm, hinit⟩
  · intro ⟨z, hz, hinit⟩
    rw [← hzones] at hz
    obtain ⟨m, hm, rfl⟩ := List.mem_map.mp hz
    obtain ⟨hsh, hpool⟩ := cwf.attached m hm p hinit
    simp [ZoneDesc.attached, hsh, hpool]

theorem SameZones.settled (h : SameZones s₀ s₁) {kind : ZoneKind} {i : Nat} {name : Bytes}
    (hs : Settled kind i name s₀) : Settled kind i name s₁ := by
  refine ⟨h.wf hs.wf, h.arrays ▸ hs.lt, ?_⟩
  rw [h.name, ConfState.elt, h.arrays]
  exact hs.name

theorem SameZones.pointed_iff (h : SameZones s₀ s₁) (kind : ZoneKind) (i : Nat)
    (name : Bytes) : Pointed kind i name s₁ ↔ Pointed kind i name s₀ := by
  rw [Pointed, Pointed, h.shms, ConfState.elt, ConfState.elt, h.arrays]

theorem settled_tarpit (h : ngxSentinelInitTarpitShm cf s₁ = .ok s) (wf : s.Wf) {kind : ZoneKind}
    {i : Nat} {name : Bytes} (hs : Settled kind i name s₁) : Settled kind i name s := by
  refine ⟨wf, add_arrays h ▸ hs.lt, ?_⟩
  rw [add_mem h, ConfState.elt, add_arrays h]
  exact hs.name

/-- The postconfiguration takes a zone away only by its name. -/
theorem pointed_tarpit (h : ngxSentinelInitTarpitShm cf s₁ = .ok s) (kind : ZoneKind)
    (i : Nat) (name : Bytes) :
    Pointed kind i name s ↔ Pointed kind i name s₁ ∧ name ≠ tarpitZoneName := by
  have helt : s.elt kind i = s₁.elt kind i := by
    rw [ConfState.elt, add_arrays h]
    rfl
  rw [Pointed, Pointed, helt]
  simp only [add_get h]
  by_cases hn : name = tarpitZoneName
  · simp [hn]
  · simp [hn]

theorem stored_iff_pointed {kind : ZoneKind} {i : Nat} {name : Bytes}
    (hs : Settled kind i name s) :
    (∃ z ∈ s.shms, z.init = .zone (s.elt kind i)) ↔ Pointed kind i name s := by
  constructor
  · intro ⟨z, hz, hinit⟩
    refine ⟨z, ?_, hinit⟩
    rw [← hs.name, hs.wf.named z hz _ hinit]
    exact Keyed.get_of_mem hs.wf.unique hz
  · intro ⟨z, hz, hinit⟩
    exact ⟨z, Keyed.mem_of_get _ hz, hinit⟩

/-- In every cycle, after any history of starts and reloads, a descriptor that a
location is bound to is attached exactly when its array was not moved and its
name not declared again after the directive that made it. -/
theorem bound_zone_attached_iff (ngx : NgxCore) (cf : NgxConf) (confs : List Conf)
    (conf : Conf) (c : Cycle)
    (h : ngxInitCycle ngx cf (ngxReloads ngx cf confs) conf = .ok c) :
    ∀ l ∈ c.locs, ∀ p ∈ l.bound,
      ((c.mem p).attached = true ↔ PointerKept ngx cf conf.directives p) := by
  intro l hl p hp
  have hold := wf_reloads ngx cf confs
  obtain ⟨s, hparse, wf, hinv⟩ := initCycle_spec hold h
  obtain ⟨s₀, s₁, hrun, hsame, htarpit, wf₀, _, hbound⟩ := parse_spec hparse
  obtain ⟨helt, hlt⟩ := hbound l hl p hp
  have helt' : p = s.elt p.kind p.index := by
    rw [ConfState.elt, add_arrays htarpit, hsame.arrays]
    exact helt
  -- from any directive that made the element on, one invariant decides
  have hkey : ∀ before d after zone u v, conf.directives = before ++ d :: after →
      Run.tryExec (confStep ngx cf) ngxSentinelCreateMainConf before = .ok u →
      d.1.decl ngx cf = .ok (.zone zone) → zone.kind = p.kind →
      (u.arrays p.kind).nelts = p.index → confStep ngx cf u d = .ok v →
      ((c.mem p).attached = true ↔ zone.name ≠ tarpitZoneName ∧
        Run.TryAlong (Spares ngx cf p.kind zone.name) (confStep ngx cf) v after) := by
    intro before d after zone u v hds hu hdecl hkind hindex hv
    rw [hds] at hrun
    obtain ⟨hsettled₀, hpointed₀⟩ := pointed_run wf_create hrun hu hdecl hv
    rw [hkind, hindex] at hsettled₀ hpointed₀
    have hsettled := settled_tarpit htarpit wf (hsame.settled hsettled₀)
    rw [attached_iff_stored hold wf hinv p]
    calc (∃ z ∈ s.shms, z.init = .zone p)
        ↔ ∃ z ∈ s.shms, z.init = .zone (s.elt p.kind p.index) := by rw [← helt']
      _ ↔ Pointed p.kind p.index zone.name s := stored_iff_pointed hsettled
      _ ↔ Pointed p.kind p.index zone.name s₁ ∧ zone.name ≠ tarpitZoneName :=
          pointed_tarpit htarpit _ _ _
      _ ↔ Pointed p.kind p.index zone.name s₀ ∧ zone.name ≠ tarpitZoneName := by
          rw [hsame.pointed_iff]
      _ ↔ zone.name ≠ tarpitZoneName ∧
          Run.TryAlong (Spares ngx cf p.kind zone.name) (confStep ngx cf) v after := by
          rw [hpointed₀, and_comm]
  constructor
  · intro hatt
    obtain ⟨before, d, after, zone, u, v, hds, hu, hdecl, hkind, hindex, hv, _⟩ :=
      exists_push hrun (Nat.zero_le p.index) hlt
    have hboth := (hkey before d after zone u v hds hu hdecl hkind hindex hv).mp hatt
    exact ⟨before, d, after, zone, u, v, hds, hu, hdecl, hkind, hindex, hv, hboth⟩
  · intro hkept
    obtain ⟨before, d, after, zone, u, v, hds, hu, hdecl, hkind, hindex, hv, hboth⟩ := hkept
    exact (hkey before d after zone u v hds hu hdecl hkind hindex hv).mpr hboth

end Attached

section Example

/-- Velocity zones of those names, in a pool that never extends an array in
place, and one location that uses the zone "v". -/
def velocityConf (names : List Bytes) : Conf where
  directives := names.map fun name => (.velocityZone (name ++ str ":1m") [], false)
  main := ⟨[], [], [], [], none⟩
  locs := [(0, ⟨str "v", [], [], [], none⟩)]

/-- For each pointer that a location holds, whether it is attached. -/
def boundAttached : Except Bytes Cycle → List Bool
  | .ok c => c.locs.flatMap fun l => l.bound.map fun p => (c.mem p).attached
  | .error _ => []

theorem mem_boundAttached {r : Except Bytes Cycle} {b : Bool} (h : b ∈ boundAttached r) :
    ∃ c l p, r = .ok c ∧ l ∈ c.locs ∧ p ∈ l.bound ∧ (c.mem p).attached = b := by
  cases r with
  | error e => cases h
  | ok c =>
      obtain ⟨l, hl, hb⟩ := List.mem_flatMap.mp h
      obtain ⟨p, hp, hb⟩ := List.mem_map.mp hb
      exact ⟨c, l, p, rfl, hl, hp, hb⟩

/-- Reloading from three zones to two brings "v" back. -/
theorem bound_zone_attached_after_reload :
    ∃ c l p, ngxInitCycle Ref.ngx Ref.conf
        (ngxReloads Ref.ngx Ref.conf [velocityConf [str "v", str "w", str "x"]])
        (velocityConf [str "v", str "w"]) = .ok c ∧
      l ∈ c.locs ∧ p ∈ l.bound ∧
      PointerKept Ref.ngx Ref.conf (velocityConf [str "v", str "w"]).directives p := by
  have hmem : true ∈ boundAttached (ngxInitCycle Ref.ngx Ref.conf
      (ngxReloads Ref.ngx Ref.conf [velocityConf [str "v", str "w", str "x"]])
      (velocityConf [str "v", str "w"])) := by decide +kernel
  obtain ⟨c, l, p, hc, hl, hp, hatt⟩ := mem_boundAttached hmem
  exact ⟨c, l, p, hc, hl, hp, (bound_zone_attached_iff _ _ _ _ c hc l hl p hp).mp hatt⟩

/-- The third velocity zone moves the array away from under the first. -/
theorem third_velocity_zone_detaches :
    ¬ ∀ (ngx : NgxCore) (cf : NgxConf) (confs : List Conf) (conf : Conf) (c : Cycle),
      ngxInitCycle ngx cf (ngxReloads ngx cf confs) conf = .ok c →
      ∀ l ∈ c.locs, ∀ p ∈ l.bound, (c.mem p).attached = true := by
  intro hall
  have hmem : false ∈ boundAttached (ngxInitCycle Ref.ngx Ref.conf
      (ngxReloads Ref.ngx Ref.conf []) (velocityConf [str "v", str "w", str "x"])) := by
    decide +kernel
  obtain ⟨c, l, p, hc, hl, hp, hatt⟩ := mem_boundAttached hmem
  have htrue := hall _ _ _ _ c hc l hl p hp
  rw [hatt] at htrue
  cases htrue

end Example
end Sentinel
