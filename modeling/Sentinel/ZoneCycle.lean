import Sentinel.NgxRef
import Sentinel.ZoneWf

/-!
The cycles nginx runs with a configuration. Each shared zone has a segment of its
own, which is a fresh one or that of the same name and size in the cycle before,
and exactly the descriptors that zones point to are attached. One step of the
loop over the shared zones is inverted once, and its invariant follows.
-/

namespace Sentinel

section Cycle
variable {ngx : NgxCore} {cf : NgxConf} {old : Option Cycle} {s : ConfState} {c c' : Cycle}
  {z : ShmZone}

/-- A cycle's zones have segments of their own, and exactly the descriptors they
point to are attached. -/
structure Cycle.Wf (c : Cycle) : Prop where
  addr_inj : ∀ m ∈ c.shms, ∀ m' ∈ c.shms, m.addr = m'.addr → m = m'
  addr_lt : ∀ m ∈ c.shms, m.addr < c.mapped
  attached : ∀ m ∈ c.shms, ∀ p, m.init = .zone p →
    (c.mem p).sh = some m.addr ∧ (c.mem p).shpool = some m.addr
  stored : ∀ p g, (c.mem p).sh = some g → ∃ m ∈ c.shms, m.init = .zone p ∧ m.addr = g
  sized : ∀ m ∈ c.shms, ∀ p, m.init = .zone p → Sized p.kind (c.mem p).zone

/-- The zone keeps the segment that the previous cycle had under its name. -/
def Kept (cf : NgxConf) (old : Option Cycle) (z : ShmZone) (addr : Nat) : Prop :=
  ∃ o m, old = some o ∧ cf.survivor o.shms z = some m ∧ m.addr = addr ∧
    ∀ p, z.init = .zone p → ∃ q, m.init = .zone q

/-- What a start or a reload does for one shared zone. -/
structure Initialised (cf : NgxConf) (old : Option Cycle) (c : Cycle) (z : ShmZone) (c' : Cycle)
    (addr : Nat) : Prop where
  shms : c'.shms = c.shms ++ [⟨z, addr⟩]
  locs : c'.locs = c.locs
  segment : Kept cf old z addr ∧ c'.mapped = c.mapped ∨
    addr = c.mapped ∧ c'.mapped = c.mapped + 1
  name : ∀ p, (c'.mem p).name = (c.mem p).name
  zone : ∀ p, (c'.mem p).zone = (c.mem p).zone
  own : ∀ p, z.init = .zone p → (c'.mem p).sh = some addr ∧ (c'.mem p).shpool = some addr
  frame : ∀ p, z.init ≠ .zone p → c'.mem p = c.mem p

/-- Where the zone's segment comes from. -/
def SegmentFrom (cf : NgxConf) (old : Option Cycle) (c : Cycle) (z : ShmZone)
    (addr mapped : Nat) : Prop :=
  Kept cf old z addr ∧ mapped = c.mapped ∨ addr = c.mapped ∧ mapped = c.mapped + 1

theorem initialised_attach {addr mapped : Nat} {p : ZonePtr} (hz : z.init = .zone p)
    (hseg : SegmentFrom cf old c z addr mapped) :
    Initialised cf old c z
      { c with
        mem := Function.update c.mem p { c.mem p with sh := some addr, shpool := some addr }
        shms := c.shms ++ [⟨z, addr⟩]
        mapped } addr := by
  refine ⟨rfl, rfl, hseg, fun q => ?_, fun q => ?_, fun q hq => ?_, fun q hq => ?_⟩
  · simp only [Function.update_apply]
    split <;> simp [*]
  · simp only [Function.update_apply]
    split <;> simp [*]
  · have hqp : q = p := (ShmInit.zone.inj (hz.symm.trans hq)).symm
    simp [hqp]
  · have hqp : q ≠ p := fun he => hq (he ▸ hz)
    simp [Function.update_of_ne hqp]

/-- A zone without a descriptor takes its segment and attaches nothing. -/
theorem initialised_skip {addr mapped : Nat} (hz : ∀ p, z.init ≠ .zone p)
    (hseg : SegmentFrom cf old c z addr mapped) :
    Initialised cf old c z { c with shms := c.shms ++ [⟨z, addr⟩], mapped } addr :=
  ⟨rfl, rfl, hseg, fun _ => rfl, fun _ => rfl, fun p hp => absurd hp (hz p), fun _ _ => rfl⟩

theorem initShm_cases (hold : ∀ o ∈ old, o.Wf) (h : ngxInitShm cf old c z = .ok c') :
    ∃ addr, Initialised cf old c z c' addr := by
  rw [ngxInitShm] at h
  split at h
  next mem m hm =>
    obtain ⟨o, rfl, hm⟩ := Option.bind_eq_some_iff.mp hm
    obtain ⟨m₀, hsurv, hpair⟩ := Option.map_eq_some_iff.mp hm
    cases hpair
    obtain ⟨hmem, _⟩ := cf.survivor_mem _ _ _ hsurv
    split at h
    next p q hz hq =>
      obtain ⟨hsh, hpool⟩ := (hold o rfl).attached m hmem q hq
      simp only [sentinelShmInitZoneDesc, hsh, hpool] at h
      cases h
      exact ⟨m.addr, initialised_attach hz
        (.inl ⟨⟨o, m, rfl, hsurv, rfl, fun _ _ => ⟨q, hq⟩⟩, rfl⟩)⟩
    next => cases h
    next hz =>
      cases h
      have hnone : ∀ p, z.init ≠ .zone p := by
        intro p hp
        cases hm' : m.init with
        | zone q => exact hz p q hp hm'
        | redis => simp_all
        | cssink => simp_all
        | tarpit => simp_all
      exact ⟨m.addr, initialised_skip hnone
        (.inl ⟨⟨o, m, rfl, hsurv, rfl, fun p hp => absurd hp (hnone p)⟩, rfl⟩)⟩
  next =>
    split at h
    next p hz =>
      cases hserves : cf.slabServes z.size with
      | false => simp [sentinelShmInitZoneDesc, hserves] at h
      | true =>
          simp only [sentinelShmInitZoneDesc, hserves, Bool.false_eq_true, if_false,
            if_true] at h
          cases h
          exact ⟨c.mapped, initialised_attach hz (.inr ⟨rfl, rfl⟩)⟩
    next hz =>
      cases h
      exact ⟨c.mapped, initialised_skip hz (.inr ⟨rfl, rfl⟩)⟩

/-- How many segments there were before. -/
def mappedBefore (old : Option Cycle) : Nat := (old.map Cycle.mapped).getD 0

/-- Where the loop over the shared zones stands with `todo` to go. -/
structure InitInv (cf : NgxConf) (old : Option Cycle) (s : ConfState) (locs : List LocConf)
    (todo : List ShmZone) (c : Cycle) : Prop where
  zones : c.shms.map MappedZone.toShmZone ++ todo = s.shms
  locs : c.locs = locs
  name : ∀ p, (c.mem p).name = (s.mem p).name
  zone : ∀ p, (c.mem p).zone = (s.mem p).zone
  mapped_le : mappedBefore old ≤ c.mapped
  segment : ∀ m ∈ c.shms, Kept cf old m.toShmZone m.addr ∨
    mappedBefore old ≤ m.addr ∧ m.addr < c.mapped
  addr_inj : ∀ m ∈ c.shms, ∀ m' ∈ c.shms, m.addr = m'.addr → m = m'
  attached : ∀ m ∈ c.shms, ∀ p, m.init = .zone p →
    (c.mem p).sh = some m.addr ∧ (c.mem p).shpool = some m.addr
  stored : ∀ p g, (c.mem p).sh = some g → ∃ m ∈ c.shms, m.init = .zone p ∧ m.addr = g

theorem kept_lt (hold : ∀ o ∈ old, o.Wf) {addr : Nat} (h : Kept cf old z addr) :
    addr < mappedBefore old := by
  obtain ⟨o, m, rfl, hsurv, rfl, _⟩ := h
  exact (hold o rfl).addr_lt m (cf.survivor_mem _ _ _ hsurv).1

theorem kept_inj (hold : ∀ o ∈ old, o.Wf) {z z' : ShmZone} {addr : Nat} (h : Kept cf old z addr)
    (h' : Kept cf old z' addr) : z.name = z'.name := by
  obtain ⟨o, m, rfl, hsurv, rfl, _⟩ := h
  obtain ⟨o', m', ho, hsurv', haddr, _⟩ := h'
  obtain rfl := Option.some.inj ho
  obtain ⟨hm, hname, _⟩ := cf.survivor_mem _ _ _ hsurv
  obtain ⟨hm', hname', _⟩ := cf.survivor_mem _ _ _ hsurv'
  rw [← hname, ← hname']
  rw [(hold o rfl).addr_inj m hm m' hm' haddr.symm]

theorem InitInv.name_ne (wf : s.Wf) {locs : List LocConf} {todo : List ShmZone}
    (hinv : InitInv cf old s locs (z :: todo) c) : ∀ m ∈ c.shms, m.name ≠ z.name := by
  have hu := wf.unique
  rw [← hinv.zones, Keyed.Unique, List.map_append, List.nodup_append] at hu
  intro m hm
  exact hu.2.2 m.name (List.mem_map_of_mem (List.mem_map_of_mem hm)) z.name (by simp)

/-- No zone so far has the segment of the next one: those of the cycle before
go by name, and the rest are fresh. -/
theorem InitInv.addr_ne (hold : ∀ o ∈ old, o.Wf) (wf : s.Wf) {locs : List LocConf}
    {todo : List ShmZone} (hinv : InitInv cf old s locs (z :: todo) c) {addr mapped : Nat}
    (hseg : SegmentFrom cf old c z addr mapped) : ∀ m ∈ c.shms, m.addr ≠ addr := by
  intro m hm he
  cases hseg with
  | inl hk =>
      cases hinv.segment m hm with
      | inl hk' => exact hinv.name_ne wf m hm (kept_inj hold (he ▸ hk') hk.1)
      | inr hf =>
          have := kept_lt hold hk.1
          omega
  | inr hf =>
      cases hinv.segment m hm with
      | inl hk' =>
          have := kept_lt hold hk'
          have := hinv.mapped_le
          omega
      | inr hf' => omega

theorem initInv_step (hold : ∀ o ∈ old, o.Wf) (wf : s.Wf) {locs : List LocConf}
    {todo : List ShmZone} (hinv : InitInv cf old s locs (z :: todo) c)
    (h : ngxInitShm cf old c z = .ok c') : InitInv cf old s locs todo c' := by
  obtain ⟨addr, hz⟩ := initShm_cases hold h
  have hall : ∀ w ∈ c.shms.map MappedZone.toShmZone ++ (z :: todo), w ∈ s.shms :=
    fun w hw => hinv.zones ▸ hw
  have hdone : ∀ m ∈ c.shms, m.toShmZone ∈ s.shms := fun m hm =>
    hall _ (List.mem_append_left _ (List.mem_map_of_mem hm))
  have hnew : z ∈ s.shms := hall _ (List.mem_append_right _ List.mem_cons_self)
  -- an entry that was initialised before points to another descriptor
  have hother : ∀ m ∈ c.shms, ∀ p, m.init = .zone p → z.init ≠ .zone p := by
    intro m hm p hp hzp
    apply hinv.name_ne wf m hm
    rw [← wf.named z hnew p hzp]
    exact (wf.named _ (hdone m hm) p hp).symm
  have hcases : ∀ m ∈ c'.shms, m ∈ c.shms ∨ m = ⟨z, addr⟩ := by
    intro m hm
    rw [hz.shms] at hm
    simpa using hm
  have hold_lt : mappedBefore old ≤ c'.mapped := by
    cases hz.segment with
    | inl hk => exact hk.2 ▸ hinv.mapped_le
    | inr hf => exact hinv.mapped_le.trans (hf.2 ▸ Nat.le_succ _)
  have haddr_ne := hinv.addr_ne hold wf hz.segment
  constructor
  · rw [hz.shms, ← hinv.zones]
    simp
  · exact hz.locs.trans hinv.locs
  · exact fun p => (hz.name p).trans (hinv.name p)
  · exact fun p => (hz.zone p).trans (hinv.zone p)
  · exact hold_lt
  · intro m hm
    cases hcases m hm with
    | inl hm =>
        cases hinv.segment m hm with
        | inl hk => exact .inl hk
        | inr hf => exact .inr ⟨hf.1, by cases hz.segment <;> omega⟩
    | inr hm =>
        subst hm
        cases hz.segment with
        | inl hk => exact .inl hk.1
        | inr hf =>
            have := hinv.mapped_le
            exact .inr ⟨by simp only; omega, by simp only; omega⟩
  · intro m hm m' hm' he
    cases hcases m hm with
    | inl hm =>
        cases hcases m' hm' with
        | inl hm' => exact hinv.addr_inj m hm m' hm' he
        | inr hm' =>
            subst hm'
            exact absurd he (haddr_ne m hm)
    | inr hm =>
        subst hm
        cases hcases m' hm' with
        | inl hm' => exact absurd he.symm (haddr_ne m' hm')
        | inr hm' => exact hm'.symm
  · intro m hm p hp
    cases hcases m hm with
    | inl hm =>
        rw [hz.frame p (hother m hm p hp)]
        exact hinv.attached m hm p hp
    | inr hm =>
        subst hm
        exact hz.own p hp
  · intro p g hg
    by_cases hp : z.init = .zone p
    · have hown := (hz.own p hp).1
      refine ⟨⟨z, addr⟩, ?_, hp, ?_⟩
      · rw [hz.shms]
        simp
      · exact Option.some.inj (hown.symm.trans hg)
    · rw [hz.frame p hp] at hg
      obtain ⟨m, hm, hinit, haddr⟩ := hinv.stored p g hg
      refine ⟨m, ?_, hinit, haddr⟩
      rw [hz.shms]
      exact List.mem_append_left _ hm

theorem initInv_start (wf : s.Wf) (locs : List LocConf) :
    InitInv cf old s locs s.shms ⟨s.mem, [], locs, mappedBefore old⟩ where
  zones := rfl
  locs := rfl
  name := fun _ => rfl
  zone := fun _ => rfl
  mapped_le := Nat.le_refl _
  segment := fun m hm => absurd hm List.not_mem_nil
  addr_inj := fun m hm => absurd hm List.not_mem_nil
  attached := fun m hm => absurd hm List.not_mem_nil
  stored := by
    intro p g hg
    rw [wf.detached p] at hg
    cases hg

theorem initInv_run (hold : ∀ o ∈ old, o.Wf) (wf : s.Wf) {locs : List LocConf}
    {todo : List ShmZone} (hinv : InitInv cf old s locs todo c)
    (h : Run.tryExec (ngxInitShm cf old) c todo = .ok c') : InitInv cf old s locs [] c' := by
  induction todo generalizing c with
  | nil => exact Except.ok.inj h ▸ hinv
  | cons z todo ih =>
      obtain ⟨d, hd, h⟩ := Run.tryExec_cons_ok.mp h
      exact ih (initInv_step hold wf hinv hd) h

/-- What is read before the first merge binds anything. -/
theorem parse_spec {conf : Conf} {locs : List LocConf}
    (h : ngxConfParse ngx cf conf = .ok (s, locs)) :
    ∃ s₀ s₁, Run.tryExec (confStep ngx cf) ngxSentinelCreateMainConf conf.directives = .ok s₀ ∧
      SameZones s₀ s₁ ∧ ngxSentinelInitTarpitShm cf s₁ = .ok s ∧ s₀.Wf ∧ s.Wf ∧
      ∀ l ∈ locs, ∀ p ∈ l.bound, s₀.InArrays p := by
  obtain ⟨s₀, hs₀, h⟩ := Run.bind_ok.mp h
  obtain ⟨⟨s₁, locs₁⟩, hr, h⟩ := Run.bind_ok.mp h
  obtain ⟨s₂, hs₂, h⟩ := Run.bind_ok.mp h
  cases h
  have wf₀ : s₀.Wf := Run.tryExec_invariant (I := ConfState.Wf)
    (fun _ _ _ hstep wf => wf_step hstep wf) hs₀ wf_create
  have hmain : ∀ l ∈ [conf.main.conf], ∀ p ∈ l.bound, s₀.InArrays p := by
    intro l hl p hp
    rw [List.mem_singleton.mp hl, conf_bound] at hp
    cases hp
  obtain ⟨hsame, hbound⟩ := merges_bound hr hmain
  exact ⟨s₀, s₁, hs₀, hsame, hs₂, wf₀, wf_tarpit (hsame.wf wf₀) hs₂, hbound⟩

/-- A cycle that nginx starts or reloads to. -/
theorem initCycle_spec {conf : Conf} (hold : ∀ o ∈ old, o.Wf)
    (h : ngxInitCycle ngx cf old conf = .ok c) :
    ∃ s, ngxConfParse ngx cf conf = .ok (s, c.locs) ∧ s.Wf ∧ InitInv cf old s c.locs [] c := by
  obtain ⟨r, hr, h⟩ := Run.bind_ok.mp h
  obtain ⟨s, locs⟩ := r
  obtain ⟨s₀, s₁, _, _, _, _, wf, _⟩ := parse_spec hr
  have hinv : InitInv cf old s locs [] c := initInv_run hold wf (initInv_start wf locs) h
  have hlocs := hinv.locs
  subst hlocs
  exact ⟨s, hr, wf, hinv⟩

theorem initInv_wf (hold : ∀ o ∈ old, o.Wf) (wf : s.Wf) {locs : List LocConf}
    (hinv : InitInv cf old s locs [] c) : c.Wf where
  addr_inj := hinv.addr_inj
  addr_lt := by
    intro m hm
    cases hinv.segment m hm with
    | inl hk => exact (kept_lt hold hk).trans_le hinv.mapped_le
    | inr hf => exact hf.2
  attached := hinv.attached
  stored := hinv.stored
  sized := by
    intro m hm p hp
    rw [hinv.zone p]
    refine wf.sized m.toShmZone ?_ p hp
    rw [← hinv.zones]
    simpa using List.mem_map_of_mem hm

theorem wf_initCycle {conf : Conf} (hold : ∀ o ∈ old, o.Wf)
    (h : ngxInitCycle ngx cf old conf = .ok c) : c.Wf := by
  obtain ⟨s, _, wf, hinv⟩ := initCycle_spec hold h
  exact initInv_wf hold wf hinv

theorem wf_reloads (ngx : NgxCore) (cf : NgxConf) (confs : List Conf) :
    ∀ o ∈ ngxReloads ngx cf confs, o.Wf := by
  refine Run.exec_invariant (I := fun old : Option Cycle => ∀ o ∈ old, o.Wf) ?_ ?_ confs
  · intro old conf hold o ho
    cases hc : ngxInitCycle ngx cf old conf with
    | error e =>
        rw [hc] at ho
        exact hold o ho
    | ok c =>
        rw [hc] at ho
        cases ho
        exact wf_initCycle hold hc
  · intro o ho
    cases ho

end Cycle

/-- A full array gets one more element in place, or twice the room elsewhere. -/
def Ref.arrayPush (kind : ZoneKind) (inPlace : Bool) (d : ZoneDesc) (a : NgxArray)
    (mem : ZonePtr → ZoneDesc) : NgxArray × (ZonePtr → ZoneDesc) :=
  let b : NgxArray :=
    if a.full then
      if inPlace then { a with nalloc := a.nalloc + 1 }
      else { a with block := a.block + 1, nalloc := 2 * a.nalloc }
    else a
  let copied : ZonePtr → ZoneDesc := fun p =>
    if p.kind = kind ∧ p.block = b.block ∧ p.index < a.nelts then mem { p with block := a.block }
    else mem p
  ({ b with nelts := a.nelts + 1 }, Function.update copied ⟨kind, b.block, a.nelts⟩ d)

theorem Ref.arrayPush_pushed (kind : ZoneKind) (inPlace : Bool) (d : ZoneDesc) (a : NgxArray)
    (mem : ZonePtr → ZoneDesc) :
    Pushed kind inPlace d a mem (Ref.arrayPush kind inPlace d a mem).1
      (Ref.arrayPush kind inPlace d a mem).2 := by
  refine ⟨rfl, ?_, ?_, fun i hi => ?_, fun p hp => ?_⟩
  · simp only [Ref.arrayPush]
    cases a.full with
    | false => simp
    | true => cases inPlace <;> simp
  · simp [Ref.arrayPush]
  · have hne : i ≠ a.nelts := Nat.ne_of_lt hi
    simp [Ref.arrayPush, hne, hi]
  · have hnew : p ≠ ⟨kind, (Ref.arrayPush kind inPlace d a mem).1.block, a.nelts⟩ := by
      rintro rfl
      exact hp ⟨rfl, rfl, Nat.le_refl _⟩
    have hold : ¬ (p.kind = kind ∧ p.block = (Ref.arrayPush kind inPlace d a mem).1.block ∧
        p.index < a.nelts) := fun h => hp ⟨h.1, h.2.1, Nat.le_of_lt h.2.2⟩
    simp only [Ref.arrayPush] at hnew hold ⊢
    rw [Function.update_of_ne hnew, if_neg hold]

def Ref.sharedMemoryAdd (shms : List ShmZone) (z : ShmZone) : Except Bytes (List ShmZone) :=
  match Keyed.get ShmZone.name shms z.name with
  | none => .ok (shms ++ [z])
  | some old =>
      if old.size = z.size then .ok shms
      else
        .error (str "the size of shared memory zone " ++ quoted z.name ++
          str " conflicts with already declared size")

/-- Pages of 4096 bytes; the header of a pool takes less than one, and each of
the two allocations a page of its own at most. -/
def Ref.conf : NgxConf where
  pagesize := 4096
  parseSize := Ref.parseSize
  slabServes := fun size => 3 * 4096 ≤ size
  arrayPush := Ref.arrayPush
  arrayPush_pushed := Ref.arrayPush_pushed
  sharedMemoryAdd := Ref.sharedMemoryAdd
  sharedMemoryAdd_new := by
    intro shms z hget
    rw [Ref.sharedMemoryAdd, hget]
  sharedMemoryAdd_old := by
    intro shms z old hget hsize
    rw [Ref.sharedMemoryAdd, hget]
    exact if_pos hsize
  sharedMemoryAdd_conflict := by
    intro shms z old hget hsize
    rw [Ref.sharedMemoryAdd, hget]
    exact ⟨_, if_neg hsize⟩
  survivor := fun shms z => shms.find? fun o => o.name = z.name ∧ o.size = z.size
  survivor_mem := by
    intro shms z m hfind
    refine ⟨List.mem_of_find?_eq_some hfind, ?_⟩
    simpa using List.find?_some hfind

end Sentinel
