import Mathlib.Logic.Function.Basic
import Sentinel.Lib.Run
import Sentinel.Tarpit

/-!
The block that holds the tarpit counters and the metrics, over configuration
reloads. nginx calls the callback of the zone in three situations: on a fresh
segment, on one that it found to exist, and on a reload with the previous
cycle's data. The callback asks only about the second, so a reload takes another
block. Proved here: the block is kept in exactly the runs without a reload, and
a pool of bounded size refuses a reload in the end.
-/

namespace Sentinel

/-- nginx's slab allocator: a block that is handed out is none of those in use,
and takes room. -/
structure SlabPool (σ : Type) where
  alloc : σ → Nat → Option (Nat × σ)
  live : σ → Nat → Prop
  alloc_fresh : ∀ p size b p', alloc p size = some (b, p') → ¬ live p b
  alloc_live : ∀ p size b p', alloc p size = some (b, p') → ∀ c, live p' c ↔ c = b ∨ live p c
  free : σ → Nat
  alloc_free : ∀ p size b p', alloc p size = some (b, p') → 0 < size → free p' < free p

/-- `NGX_SENTINEL_M_MAX` -/
def ngxSentinelMMax : Nat := 20

/-- The words of the one block: the tarpit slots and then the metrics. -/
def tarpitWords : Nat := ngxMaxProcesses + ngxSentinelMMax

/-- The segment: its pool, `shpool->data`, and the words of each block. -/
structure TarpitSegment (σ : Type) where
  pool : σ
  data : Option Nat
  words : Nat → Nat → Int

/-- An `ngx_atomic_t *`: a block, or `NULL`, and the word it points to. -/
structure WordPtr where
  block : Option Nat
  word : Nat
  deriving DecidableEq, Repr

/-- The two pointers of `ngx_sentinel_main_conf_t` into the segment. -/
structure MainPtrs where
  tarpitConns : WordPtr
  metrics : WordPtr
  deriving DecidableEq, Repr

/-- As `ngx_pcalloc` leaves them. -/
def MainPtrs.null : MainPtrs := ⟨⟨none, 0⟩, ⟨none, 0⟩⟩

/-- Both pointers, from `shpool->data`. -/
def MainPtrs.ofData (data : Option Nat) : MainPtrs := ⟨⟨data, 0⟩, ⟨data, ngxMaxProcesses⟩⟩

section Callback
variable {σ : Type} (slab : SlabPool σ)

/-- `present` is `shm.exists`; `_data` is the previous cycle's data, which the
callback does not look at. -/
def ngxSentinelTarpitShmInit (seg : TarpitSegment σ) (present : Bool)
    (_data : Option MainPtrs) : NgxRc × TarpitSegment σ × MainPtrs :=
  if present then (.ok, seg, .ofData seg.data)
  else
    match slab.alloc seg.pool (8 * tarpitWords) with
    | none => (.error, seg, .null)
    | some (conns, pool) =>
        let zeroed := fun i => if i < tarpitWords then 0 else seg.words conns i
        (.ok, ⟨pool, some conns, Function.update seg.words conns zeroed⟩,
          .ofData (some conns))

/-- The running cycle's pointers, and the segment. -/
structure TarpitShm (σ : Type) where
  seg : TarpitSegment σ
  mcf : MainPtrs

inductive TarpitShmEvent where
  | reload
  /-- A worker of any cycle counts something. -/
  | store (block i : Nat) (v : Int)
  deriving DecidableEq, Repr

/-- On a reload the callback gets the same segment, not marked as existing, and
the data of the cycle before; a refused one leaves that cycle running. -/
def tarpitShmStep (s : TarpitShm σ) : TarpitShmEvent → TarpitShm σ
  | .reload =>
      match ngxSentinelTarpitShmInit slab s.seg false (some s.mcf) with
      | (.ok, seg, mcf) => ⟨seg, mcf⟩
      | (_, seg, _) => { s with seg }
  | .store block i v =>
      let words := Function.update s.seg.words block
        (Function.update (s.seg.words block) i v)
      { s with seg := { s.seg with words } }

/-- The word that lies `i` words after a pointer. -/
def TarpitSegment.at (seg : TarpitSegment σ) (p : WordPtr) (i : Nat) : Option Int :=
  p.block.map fun b => seg.words b (p.word + i)

/-- A reload that is accepted, finds the same block, and loses no count. -/
def KeepsBlock (s : TarpitShm σ) : TarpitShmEvent → Prop
  | .reload =>
      let r := ngxSentinelTarpitShmInit slab s.seg false (some s.mcf)
      r.1 = .ok ∧ r.2.2 = s.mcf ∧
        ∀ i < tarpitWords, r.2.1.at r.2.2.tarpitConns i = s.seg.at s.mcf.tarpitConns i
  | .store _ _ _ => True

end Callback

section Reloads
variable {σ : Type} {slab : SlabPool σ} {s : TarpitShm σ}

/-- The running cycle's block is one that is in use. -/
def TarpitShm.Mapped (slab : SlabPool σ) (s : TarpitShm σ) : Prop :=
  ∃ b, s.mcf = .ofData (some b) ∧ slab.live s.seg.pool b

/-- What a call of the callback does on a segment that it is not told exists. -/
theorem shmInit_cases (slab : SlabPool σ) (seg : TarpitSegment σ) (data : Option MainPtrs) :
    ngxSentinelTarpitShmInit slab seg false data = (.error, seg, .null) ∨
      ∃ b seg', ngxSentinelTarpitShmInit slab seg false data = (.ok, seg', .ofData (some b)) ∧
        ¬ slab.live seg.pool b ∧ slab.live seg'.pool b ∧ slab.free seg'.pool < slab.free seg.pool ∧
        ∀ i < tarpitWords, seg'.words b i = 0 := by
  rw [ngxSentinelTarpitShmInit]
  cases h : slab.alloc seg.pool (8 * tarpitWords) with
  | none => exact .inl rfl
  | some r =>
      obtain ⟨b, pool⟩ := r
      refine .inr ⟨b, _, rfl, slab.alloc_fresh _ _ _ _ h, ?_, ?_, ?_⟩
      · exact (slab.alloc_live _ _ _ _ h b).mpr (.inl rfl)
      · exact slab.alloc_free _ _ _ _ h (by decide)
      · intro i hi
        simp [hi]

/-- The first call, which maps the segment. -/
theorem mapped_start {seg seg' : TarpitSegment σ} {data : Option MainPtrs} {mcf : MainPtrs}
    (h : ngxSentinelTarpitShmInit slab seg false data = (.ok, seg', mcf)) :
    TarpitShm.Mapped slab ⟨seg', mcf⟩ := by
  cases shmInit_cases slab seg data with
  | inl he =>
      rw [he] at h
      cases h
  | inr hs =>
      obtain ⟨b, seg'', hs, _, hlive, _⟩ := hs
      rw [hs] at h
      cases h
      exact ⟨b, rfl, hlive⟩

theorem mapped_step (h : s.Mapped slab) (e : TarpitShmEvent) :
    (tarpitShmStep slab s e).Mapped slab := by
  cases e with
  | reload =>
      cases shmInit_cases slab s.seg (some s.mcf) with
      | inl he =>
          simp only [tarpitShmStep, he]
          exact h
      | inr hs =>
          obtain ⟨b, seg', hs, _, hlive, _⟩ := hs
          simp only [tarpitShmStep, hs]
          exact ⟨b, rfl, hlive⟩
  | store block i v => exact h

/-- No reload keeps the block: the one it takes is not in use yet. -/
theorem not_keepsBlock_reload (h : s.Mapped slab) : ¬ KeepsBlock slab s .reload := by
  intro hkeep
  obtain ⟨b, hb, hlive⟩ := h
  cases shmInit_cases slab s.seg (some s.mcf) with
  | inl he =>
      simp only [KeepsBlock, he] at hkeep
      cases hkeep.1
  | inr hs =>
      obtain ⟨b', seg', hs, hfresh, _⟩ := hs
      have hptr := hkeep.2.1
      rw [hs, hb] at hptr
      have hsame : b' = b := by
        simpa [MainPtrs.ofData] using congrArg MainPtrs.tarpitConns hptr
      exact hfresh (hsame ▸ hlive)

/-- An accepted reload starts all counters from zero. -/
theorem reload_zeroes {seg' : TarpitSegment σ} {mcf : MainPtrs}
    (h : ngxSentinelTarpitShmInit slab s.seg false (some s.mcf) = (.ok, seg', mcf)) :
    ∀ i < tarpitWords, seg'.at mcf.tarpitConns i = some 0 := by
  intro i hi
  cases shmInit_cases slab s.seg (some s.mcf) with
  | inl he =>
      rw [he] at h
      cases h
  | inr hs =>
      obtain ⟨b, seg'', hs, _, _, _, hzero⟩ := hs
      rw [hs] at h
      cases h
      simp [TarpitSegment.at, MainPtrs.ofData, hzero i hi]

/-- The number of reloads of a run. -/
def reloads (events : List TarpitShmEvent) : Nat := events.count .reload

@[simp] theorem reloads_reload (events : List TarpitShmEvent) :
    reloads (.reload :: events) = reloads events + 1 :=
  List.count_cons_self

@[simp] theorem reloads_store (block i : Nat) (v : Int) (events : List TarpitShmEvent) :
    reloads (.store block i v :: events) = reloads events :=
  List.count_cons_of_ne (by simp)

theorem kept_iff_of_mapped (h : s.Mapped slab) (events : List TarpitShmEvent) :
    Run.Along (KeepsBlock slab) (tarpitShmStep slab) s events ↔ reloads events = 0 := by
  induction events generalizing s with
  | nil => simp [Run.Along, reloads]
  | cons e events ih =>
      have hrest := ih (mapped_step h e)
      cases e with
      | reload => simp [Run.Along, not_keepsBlock_reload h]
      | store block i v => simpa [Run.Along, KeepsBlock] using hrest

/-- From any start that succeeds, the block and its counters are kept in exactly
the runs with no reload. -/
theorem tarpit_block_kept_iff (slab : SlabPool σ) (seg seg' : TarpitSegment σ)
    (mcf : MainPtrs) (h : ngxSentinelTarpitShmInit slab seg false none = (.ok, seg', mcf))
    (events : List TarpitShmEvent) :
    Run.Along (KeepsBlock slab) (tarpitShmStep slab) ⟨seg', mcf⟩ events ↔
      reloads events = 0 :=
  kept_iff_of_mapped (mapped_start h) events

/-- nginx accepts the configuration as far as this zone goes. -/
def ReloadAccepted (slab : SlabPool σ) (s : TarpitShm σ) : TarpitShmEvent → Prop
  | .reload => (ngxSentinelTarpitShmInit slab s.seg false (some s.mcf)).1 = .ok
  | .store _ _ _ => True

/-- No more reloads are accepted than the pool has room for, as each of them takes
a block and none gives one back. -/
theorem reloads_le_free (events : List TarpitShmEvent) (s : TarpitShm σ)
    (h : Run.Along (ReloadAccepted slab) (tarpitShmStep slab) s events) :
    reloads events ≤ slab.free s.seg.pool := by
  induction events generalizing s with
  | nil => exact Nat.zero_le _
  | cons e events ih =>
      have hrest := ih _ h.2
      cases e with
      | reload =>
          cases shmInit_cases slab s.seg (some s.mcf) with
          | inl he =>
              have hacc := h.1
              simp only [ReloadAccepted, he] at hacc
              cases hacc
          | inr hs =>
              obtain ⟨b, seg', hs, _, _, hfree, _⟩ := hs
              simp only [tarpitShmStep, hs] at hrest
              rw [reloads_reload]
              omega
      | store block i v => exact (reloads_store block i v events).symm ▸ hrest

end Reloads

section Example

/-- The pages of an 8-page segment that follow the allocator's own: those from
`used` on are free, and each block is named by its first page. -/
structure Ref.Pages where
  used : Nat
  blocks : List Nat
  lt : ∀ b ∈ blocks, b < used

/-- An allocation of whole pages when none was ever freed. -/
def Ref.allocPages (p : Ref.Pages) (size : Nat) : Option (Nat × Ref.Pages) :=
  if h : 0 < size ∧ p.used + (size + 4095) / 4096 ≤ 7 then
    some (p.used, ⟨p.used + (size + 4095) / 4096, p.used :: p.blocks, by
      intro b hb
      cases List.mem_cons.mp hb with
      | inl he => omega
      | inr hb =>
          have := p.lt b hb
          omega⟩)
  else none

def Ref.slab : SlabPool Ref.Pages where
  alloc := Ref.allocPages
  live p b := b ∈ p.blocks
  alloc_fresh := by
    intro p size b p' h hb
    rw [Ref.allocPages] at h
    split at h
    · cases h
      exact Nat.lt_irrefl _ (p.lt _ hb)
    · cases h
  alloc_live := by
    intro p size b p' h c
    rw [Ref.allocPages] at h
    split at h
    · cases h
      exact List.mem_cons
    · cases h
  free p := 7 - p.used
  alloc_free := by
    intro p size b p' h hpos
    rw [Ref.allocPages] at h
    split at h
    · cases h
      simp only
      omega
    · cases h

def freshTarpitSegment : TarpitSegment Ref.Pages := ⟨⟨0, [], by simp⟩, none, fun _ _ => 0⟩

/-- The state after the start. -/
def startedTarpitShm : TarpitShm Ref.Pages :=
  let r := ngxSentinelTarpitShmInit Ref.slab freshTarpitSegment false none
  ⟨r.2.1, r.2.2⟩

theorem tarpit_block_kept_without_reload :
    Run.Along (KeepsBlock Ref.slab) (tarpitShmStep Ref.slab) startedTarpitShm
      [.store 0 1024 1, .store 0 1024 2] ↔ reloads [.store 0 1024 1, .store 0 1024 2] = 0 :=
  tarpit_block_kept_iff Ref.slab freshTarpitSegment startedTarpitShm.seg startedTarpitShm.mcf
    rfl _

/-- One reload is enough to lose the block. -/
theorem first_reload_loses_block :
    ¬ ∀ (σ : Type) (slab : SlabPool σ) (seg seg' : TarpitSegment σ) (mcf : MainPtrs),
      ngxSentinelTarpitShmInit slab seg false none = (.ok, seg', mcf) →
      ∀ events, Run.Along (KeepsBlock slab) (tarpitShmStep slab) ⟨seg', mcf⟩ events := by
  intro hall
  have h := hall _ Ref.slab freshTarpitSegment startedTarpitShm.seg startedTarpitShm.mcf rfl
    [.store 0 1024 1, .reload]
  have hptr := h.2.1.2.1
  revert hptr
  decide

/-- The second is refused: a block is three pages. -/
example : (ngxSentinelTarpitShmInit Ref.slab
    (tarpitShmStep Ref.slab startedTarpitShm .reload).seg false none).1 = .error := by
  decide

end Example
end Sentinel
