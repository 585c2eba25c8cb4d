import Sentinel.ShmCrowdsec
import Sentinel.ShmErrrate
import Sentinel.ZoneCycle

/-!
The store across reloads. nginx keeps a segment whose zone has the same name and
size, so nodes outlive the descriptor they were sized by, and the workers of the
previous cycle go on serving while they finish. Proved here: as long as no reload
keeps a segment with another ring size, and no node's size overflows, every index
into an event ring stays within the slots of its node, in every run.
-/

namespace Sentinel

/-- The newest cycle is first; the others are those with workers left. -/
structure Server where
  cycles : List Cycle
  segs : Nat → Shctx

def serverStart : Server := ⟨[], fun _ => sentinelShmInitZone⟩

/-- The store operations that workers call. The verdict cache uses those of the
ban table. -/
inductive ZoneCall where
  | errrateLookup (key : Key) (now : Int)
  | errrateRecord (key : Key) (now : Int) (slab : Bool)
  | softbanSet (key : Key) (now ttl : Int) (slab : Bool)
  | crowdsecLookup (key : Key) (now : Int)
  | crowdsecUpsert (key : Key) (expiry : Int) (action : UInt8) (generation : Nat) (now : Int)
      (redisPulled slab : Bool)
  | crowdsecBump
  | crowdsecSweep (generation batch : Nat)

/-- The operations of the error-rate and velocity zones. -/
def ZoneCall.ringed : ZoneCall → Bool
  | .errrateLookup _ _ => true
  | .errrateRecord _ _ _ => true
  | .softbanSet _ _ _ _ => true
  | .crowdsecLookup _ _ => false
  | .crowdsecUpsert _ _ _ _ _ _ _ => false
  | .crowdsecBump => false
  | .crowdsecSweep _ _ => false

def ZoneCall.run (ngx : NgxCore) (zone : Zone) (sh : Shctx) : ZoneCall → Shctx
  | .errrateLookup key now => (sentinelShmErrrateLookup ngx (some zone) sh key now).2
  | .errrateRecord key now slab =>
      (sentinelShmErrrateRecord ngx (some zone) sh key now slab).2
  | .softbanSet key now ttl slab =>
      (sentinelShmSoftbanSet ngx (some zone) sh key now ttl slab).2
  | .crowdsecLookup key now => (sentinelShmCrowdsecLookup ngx (some zone) sh key now).2.2
  | .crowdsecUpsert key expiry action generation now redisPulled slab =>
      (sentinelShmCrowdsecUpsert ngx (some zone) sh key expiry action generation now
        redisPulled slab).2
  | .crowdsecBump => { sh with csGeneration := sh.csGeneration + 1 }
  | .crowdsecSweep generation batch =>
      (sentinelShmCrowdsecSweep ngx (some zone) sh generation batch).2

inductive ServerEvent where
  /-- A start, when there is no cycle yet, or a reload. -/
  | reload (conf : Conf)
  /-- A worker of that cycle uses one of its locations' descriptors. -/
  | call (cycle : Nat) (p : ZonePtr) (op : ZoneCall)
  /-- The last worker of an older cycle is gone. -/
  | exit (older : Nat)

/-- The parameters and the segment that a call works on, if it does anything. -/
def Server.target (s : Server) (cycle : Nat) (p : ZonePtr) (op : ZoneCall) :
    Option (Zone × Nat) :=
  match s.cycles[cycle]? with
  | none => none
  | some c =>
      if p ∈ c.locs.flatMap LocConf.bound ∧ p.kind.ringed = op.ringed ∧
          (c.mem p).attached = true then
        (c.mem p).sh.map fun g => ((c.mem p).zone, g)
      else none

def serverStep (ngx : NgxCore) (cf : NgxConf) (s : Server) : ServerEvent → Server
  | .reload conf =>
      match ngxInitCycle ngx cf s.cycles.head? conf with
      | .error _ => s
      | .ok c =>
          { cycles := c :: s.cycles
            segs := fun g =>
              if mappedBefore s.cycles.head? ≤ g then sentinelShmInitZone else s.segs g }
  | .call cycle p op =>
      match s.target cycle p op with
      | none => s
      | some (zone, g) =>
          { s with segs := Function.update s.segs g (op.run ngx zone (s.segs g)) }
  | .exit older => { s with cycles := s.cycles.eraseIdx (older + 1) }

section Indices

/-- The slots that `sentinel_shm_prune` reads. -/
def pruneReads (zone : Zone) (n : Node) : List Nat :=
  (List.range n.eventCount).map (sentinelShmPruneIndex zone.threshold n.eventHead)

/-- The slots that `sentinel_shm_errrate_lookup` reads on the node it found. -/
def errrateLookupIndices (zone : Zone) (n : Node) (now : Int) : List Nat :=
  if n.blockedUntil > now then []
  else if n.blockedUntil ≠ 0 then []
  else pruneReads zone n

/-- The slots that `sentinel_shm_errrate_record` reads, and then the one it
writes. -/
def errrateRecordIndices (zone : Zone) (n : Node) (now : Int) : List Nat :=
  if n.blockedUntil > now then []
  else
    let n := if n.blockedUntil ≠ 0 then sentinelShmUnban n else n
    pruneReads zone n ++ [sentinelShmRecordIndex zone (sentinelShmPrune zone n now)]

/-- The node whose ring a call uses, and the indices it uses. -/
def ZoneCall.indices (ngx : NgxCore) (zone : Zone) (sh : Shctx) :
    ZoneCall → Option (Node × List Nat)
  | .errrateLookup key now =>
      let sh := sentinelShmExpire ngx zone now ngxSentinelExpireBatch sh
      (sentinelShmLookup ngx sh (ngx.crc32Short key.data) key).map
        fun n => (n, errrateLookupIndices zone n now)
  | .errrateRecord key now slab =>
      let sh := sentinelShmExpire ngx zone now ngxSentinelExpireBatch sh
      match sentinelShmLookup ngx sh (ngx.crc32Short key.data) key with
      | some n => some (n, errrateRecordIndices zone n now)
      | none =>
          (sentinelShmCreateNode ngx zone sh (ngx.crc32Short key.data) key now slab).map
            fun r => (r.2, errrateRecordIndices zone r.2 now)
  | _ => none

/-- The result of pruning depends on the ring through those reads only. -/
theorem pruneLoop_congr (threshold head : Nat) (cutoff : Int) (S : Nat → Prop) (left : Nat) :
    ∀ (i keep : Nat) (e e' : Nat → Int),
      (∀ j, i ≤ j → j < i + left → S (sentinelShmPruneIndex threshold head j)) →
      (∀ x, S x → e x = e' x) →
      (sentinelShmPruneLoop threshold head cutoff left i e keep).2 =
        (sentinelShmPruneLoop threshold head cutoff left i e' keep).2 := by
  induction left with
  | zero =>
      intro i keep e e' _ _
      rfl
  | succ left ih =>
      intro i keep e e' hS he
      have hread := he _ (hS i (Nat.le_refl i) (by omega))
      have hS' : ∀ j, i + 1 ≤ j → j < i + 1 + left →
          S (sentinelShmPruneIndex threshold head j) :=
        fun j hlo hhi => hS j (by omega) (by omega)
      simp only [sentinelShmPruneLoop, hread]
      split
      · apply ih _ _ _ _ hS'
        intro x hx
        by_cases hk : x = keep
        · simp [hk]
        · simp [Function.update_of_ne hk, he x hx]
      · exact ih _ _ _ _ hS' he

theorem prune_reads (zone : Zone) (n : Node) (now : Int) (events : Nat → Int)
    (h : ∀ x ∈ pruneReads zone n, n.events x = events x) :
    (sentinelShmPrune zone n now).eventCount =
      (sentinelShmPrune zone { n with events } now).eventCount := by
  refine pruneLoop_congr _ _ _ (· ∈ pruneReads zone n) _ _ _ _ _ ?_ h
  intro j _ hj
  exact List.mem_map_of_mem (List.mem_range.mpr (by omega))

/-- An index is a remainder by the threshold in force now. -/
theorem index_lt {ngx : NgxCore} {zone : Zone} {sh : Shctx} {op : ZoneCall} {n : Node}
    {idx : List Nat} (hpos : 0 < zone.threshold)
    (h : op.indices ngx zone sh = some (n, idx)) : ∀ i ∈ idx, i < zone.threshold := by
  have hreads : ∀ m, ∀ i ∈ pruneReads zone m, i < zone.threshold := by
    intro m i hi
    obtain ⟨j, _, rfl⟩ := List.mem_map.mp hi
    exact Nat.mod_lt _ hpos
  have hlookup : ∀ m now, ∀ i ∈ errrateLookupIndices zone m now, i < zone.threshold := by
    intro m now i hi
    rw [errrateLookupIndices] at hi
    split at hi
    · cases hi
    split at hi
    · cases hi
    · exact hreads m i hi
  have hrecord : ∀ m now, ∀ i ∈ errrateRecordIndices zone m now, i < zone.threshold := by
    intro m now i hi
    rw [errrateRecordIndices] at hi
    split at hi
    · cases hi
    · cases List.mem_append.mp hi with
      | inl hi => exact hreads _ i hi
      | inr hi =>
          rw [List.mem_singleton.mp hi]
          exact Nat.mod_lt _ hpos
  cases op with
  | errrateLookup key now =>
      obtain ⟨m, _, he⟩ := Option.map_eq_some_iff.mp h
      cases he
      exact hlookup _ _
  | errrateRecord key now slab =>
      simp only [ZoneCall.indices] at h
      split at h
      · cases h
        exact hrecord _ _
      · obtain ⟨r, _, he⟩ := Option.map_eq_some_iff.mp h
        cases he
        exact hrecord _ _
  | softbanSet key now ttl slab => cases h
  | crowdsecLookup key now => cases h
  | crowdsecUpsert key expiry action generation now redisPulled slab => cases h
  | crowdsecBump => cases h
  | crowdsecSweep generation batch => cases h

end Indices

section Slots
variable {ngx : NgxCore} {zone : Zone} {sh : Shctx} {r : Nat}

/-- Every ring in the segment has room for `r` events. -/
def SlotsAtLeast (r : Nat) (sh : Shctx) : Prop := ∀ n ∈ sh.queue, r ≤ n.slots

/-- The size of a node for this key does not wrap. -/
def NodeFits (key : Key) (zone : Zone) : Prop :=
  sentinelEventsOffset key.data.length + zone.threshold * 8 < 2 ^ 64

instance (key : Key) (zone : Zone) : Decidable (NodeFits key zone) :=
  inferInstanceAs (Decidable (_ < _))

theorem slots_remove (h : SlotsAtLeast r sh) (n : Node) :
    SlotsAtLeast r (sentinelShmRemove ngx sh n) := by
  intro m hm
  exact h m ((Keyed.erase_sublist Node.key sh.queue n.key).subset hm)

theorem slots_write (h : SlotsAtLeast r sh) {n : Node} (hn : r ≤ n.slots) :
    SlotsAtLeast r (sh.write n) := by
  intro m hm
  cases Keyed.mem_write hm with
  | inl he => exact he ▸ hn
  | inr hm => exact h m hm

theorem slots_link (h : SlotsAtLeast r sh) {n : Node} (hn : r ≤ n.slots) :
    SlotsAtLeast r (sentinelShmLink ngx sh n) := by
  intro m hm
  cases List.mem_cons.mp hm with
  | inl he => exact he ▸ hn
  | inr hm => exact h m hm

theorem slots_touch (h : SlotsAtLeast r sh) {n : Node} (hn : n ∈ sh.queue) :
    SlotsAtLeast r (sentinelShmTouch sh n) := by
  intro m hm
  cases List.mem_cons.mp hm with
  | inl he => exact he ▸ h n hn
  | inr hm => exact h m ((Keyed.erase_sublist Node.key sh.queue n.key).subset hm)

/-- The update of a node that was found. -/
theorem slots_touch_write (h : SlotsAtLeast r sh) {n m : Node} (hn : n ∈ sh.queue)
    (hm : m.slots = n.slots) : SlotsAtLeast r ((sentinelShmTouch sh n).write m) :=
  slots_write (slots_touch h hn) (hm ▸ h n hn)

theorem slots_expire (zone : Zone) (now : Int) (batch : Nat) (h : SlotsAtLeast r sh) :
    SlotsAtLeast r (sentinelShmExpire ngx zone now batch sh) := by
  induction batch generalizing sh with
  | zero => exact h
  | succ batch ih =>
      simp only [sentinelShmExpire]
      split
      · exact h
      split
      · exact h
      split
      · exact h
      · exact ih (slots_remove h _)

theorem lookup_mem {hash : UInt32} {key : Key} {n : Node}
    (h : sentinelShmLookup ngx sh hash key = some n) : n ∈ sh.queue := by
  obtain ⟨tk, _, hn⟩ := Option.bind_eq_some_iff.mp h
  exact List.mem_of_find?_eq_some hn

/-- A new node has a slot for each event of the threshold it is created under. -/
theorem create_slots {hash : UInt32} {key : Key} {now : Int} {slab : Bool} {sh' : Shctx}
    {n : Node} (hfit : NodeFits key zone)
    (h : sentinelShmCreateNode ngx zone sh hash key now slab = some (sh', n)) :
    n.slots = zone.threshold ∧ sh' = sentinelShmLink ngx sh n := by
  rw [sentinelShmCreateNode] at h
  rw [NodeFits] at hfit
  split at h
  · cases h
    refine ⟨?_, rfl⟩
    simp only [sentinelNodeSize]
    rw [Nat.mod_eq_of_lt hfit]
    omega
  · cases h

theorem prune_slots (n : Node) (now : Int) : (sentinelShmPrune zone n now).slots = n.slots :=
  rfl

theorem errrateLookupNode_slots (n : Node) (now : Int) :
    (errrateLookupNode zone n now).2.slots = n.slots := by
  rw [errrateLookupNode]
  split
  · rfl
  · dsimp only
    split <;> rfl

theorem errrateRecordEvent_slots (n : Node) (now : Int) :
    (errrateRecordEvent zone n now).slots = n.slots := by
  rw [errrateRecordEvent]
  dsimp only
  split <;> rfl

theorem errrateRecordNode_slots (n : Node) (now : Int) :
    (errrateRecordNode zone n now).2.slots = n.slots := by
  rw [errrateRecordNode]
  split
  · rfl
  · dsimp only
    rw [errrateRecordEvent_slots, prune_slots]
    split <;> rfl

/-- An operation on a zone with rings keeps them as large as its threshold. -/
theorem slots_run {op : ZoneCall} (hr : r = zone.threshold) (hop : op.ringed = true)
    (hfit : ∀ key, (∃ now slab, op = .errrateRecord key now slab) ∨
      (∃ now ttl slab, op = .softbanSet key now ttl slab) → NodeFits key zone)
    (h : SlotsAtLeast r sh) : SlotsAtLeast r (op.run ngx zone sh) := by
  have hexp : ∀ now, SlotsAtLeast r (sentinelShmExpire ngx zone now ngxSentinelExpireBatch sh) :=
    fun now => slots_expire zone now _ h
  cases op with
  | errrateLookup key now =>
      simp only [ZoneCall.run, sentinelShmErrrateLookup]
      split
      · exact hexp now
      next n hn =>
        exact slots_touch_write (hexp now) (lookup_mem hn) (errrateLookupNode_slots _ _)
  | errrateRecord key now slab =>
      simp only [ZoneCall.run, sentinelShmErrrateRecord]
      split
      next hn =>
        split
        next => exact hexp now
        next sh' n hc =>
          obtain ⟨hslots, rfl⟩ := create_slots (hfit key (.inl ⟨now, slab, rfl⟩)) hc
          refine slots_write (slots_link (hexp now) (by omega)) ?_
          rw [errrateRecordNode_slots]
          omega
      next n hn =>
        exact slots_touch_write (hexp now) (lookup_mem hn) (errrateRecordNode_slots _ _)
  | softbanSet key now ttl slab =>
      simp only [ZoneCall.run, sentinelShmSoftbanSet]
      split
      next => exact h
      next =>
        split
        next hn =>
          split
          next => exact hexp now
          next sh' n hc =>
            obtain ⟨hslots, rfl⟩ := create_slots (hfit key (.inr ⟨now, ttl, slab, rfl⟩)) hc
            refine slots_write (slots_link (hexp now) (by omega)) ?_
            simp only [softbanNode]
            omega
        next n hn => exact slots_touch_write (hexp now) (lookup_mem hn) rfl
  | crowdsecLookup key now => cases hop
  | crowdsecUpsert key expiry action generation now redisPulled slab => cases hop
  | crowdsecBump => cases hop
  | crowdsecSweep generation batch => cases hop

/-- The node whose ring a call uses. -/
theorem indices_slots {op : ZoneCall} {n : Node} {idx : List Nat} (hr : r = zone.threshold)
    (hfit : ∀ key now slab, op = .errrateRecord key now slab → NodeFits key zone)
    (h : SlotsAtLeast r sh) (hidx : op.indices ngx zone sh = some (n, idx)) : r ≤ n.slots := by
  have hexp : ∀ now, SlotsAtLeast r (sentinelShmExpire ngx zone now ngxSentinelExpireBatch sh) :=
    fun now => slots_expire zone now _ h
  cases op with
  | errrateLookup key now =>
      obtain ⟨m, hm, he⟩ := Option.map_eq_some_iff.mp hidx
      cases he
      exact hexp now _ (lookup_mem hm)
  | errrateRecord key now slab =>
      simp only [ZoneCall.indices] at hidx
      split at hidx
      next m hm =>
        cases hidx
        exact hexp now _ (lookup_mem hm)
      next =>
        obtain ⟨q, hq, he⟩ := Option.map_eq_some_iff.mp hidx
        obtain ⟨sh', m⟩ := q
        cases he
        have hslots := (create_slots (hfit key now slab rfl) hq).1
        simp only
        omega
  | softbanSet key now ttl slab => cases hidx
  | crowdsecLookup key now => cases hidx
  | crowdsecUpsert key expiry action generation now redisPulled slab => cases hidx
  | crowdsecBump => cases hidx
  | crowdsecSweep generation batch => cases hidx

end Slots

section Run
variable {ngx : NgxCore} {cf : NgxConf} {s : Server}

/-- The key for which a call may create a node with a ring. -/
def ZoneCall.creates : ZoneCall → Option Key
  | .errrateRecord key _ _ => some key
  | .softbanSet key _ _ _ => some key
  | _ => none

/-- How many events the nodes of a zone are meant to hold. -/
def ringSize (mem : ZonePtr → ZoneDesc) : ShmInit → Option Nat
  | .zone p => some (mem p).zone.threshold
  | _ => none

/-- A reload that keeps a segment declares it with the same ring size, and a call
that may create a node computes its size without wrapping. -/
def keepsRings (ngx : NgxCore) (cf : NgxConf) (s : Server) : ServerEvent → Bool
  | .reload conf =>
      match s.cycles.head?, ngxConfParse ngx cf conf with
      | some o, .ok (st, _) =>
          st.shms.all fun z =>
            match cf.survivor o.shms z with
            | none => true
            | some m => ringSize st.mem z.init = ringSize o.mem m.init
      | _, _ => true
  | .call cycle p op =>
      match s.target cycle p op, op.creates with
      | some (zone, _), some key => NodeFits key zone
      | _, _ => true
  | .exit _ => true

/-- Every index that a call uses is a slot of its node. -/
def indicesInSlots (ngx : NgxCore) (s : Server) : ServerEvent → Bool
  | .reload _ => true
  | .call cycle p op =>
      match s.target cycle p op with
      | none => true
      | some (zone, g) =>
          match op.indices ngx zone (s.segs g) with
          | none => true
          | some (n, idx) => idx.all fun i => i < n.slots
  | .exit _ => true

/-- One ring size for each segment, and no smaller node in it. -/
structure Server.Inv (s : Server) (size : Nat → Nat) : Prop where
  wf : ∀ c ∈ s.cycles, c.Wf
  mapped : ∀ c ∈ s.cycles, c.mapped ≤ mappedBefore s.cycles.head?
  declared : ∀ c ∈ s.cycles, ∀ m ∈ c.shms, ∀ p, m.init = .zone p →
    (c.mem p).zone.threshold = size m.addr
  slots : ∀ g, SlotsAtLeast (size g) (s.segs g)

theorem target_spec {cycle : Nat} {p : ZonePtr} {op : ZoneCall} {zone : Zone} {g : Nat}
    {size : Nat → Nat} (hs : s.Inv size) (h : s.target cycle p op = some (zone, g)) :
    zone.threshold = size g ∧ (0 < zone.threshold ↔ op.ringed = true) := by
  rw [Server.target] at h
  split at h
  next => cases h
  next c hc =>
    split at h
    next hcond =>
      obtain ⟨g', hg, he⟩ := Option.map_eq_some_iff.mp h
      cases he
      have hmem := List.mem_of_getElem? hc
      obtain ⟨m, hm, hinit, rfl⟩ := (hs.wf c hmem).stored p _ hg
      refine ⟨hs.declared c hmem m hm p hinit, ?_⟩
      rw [← hcond.2.1]
      exact (hs.wf c hmem).sized m hm p hinit
    next => cases h

theorem inv_call {cycle : Nat} {p : ZonePtr} {op : ZoneCall} {size : Nat → Nat}
    (hs : s.Inv size) (hkeep : keepsRings ngx cf s (.call cycle p op) = true) :
    (serverStep ngx cf s (.call cycle p op)).Inv size := by
  simp only [serverStep]
  cases htarget : s.target cycle p op with
  | none => exact hs
  | some zg =>
      obtain ⟨zone, g⟩ := zg
      obtain ⟨hsize, hringed⟩ := target_spec hs htarget
      refine ⟨hs.wf, hs.mapped, hs.declared, fun g' => ?_⟩
      by_cases hg : g' = g
      · subst hg
        simp only [Function.update_self]
        cases hop : op.ringed with
        | true =>
            refine slots_run hsize.symm hop ?_ (hs.slots g')
            intro key hkey
            simp only [keepsRings, htarget] at hkeep
            cases hkey with
            | inl h =>
                obtain ⟨now, slab, rfl⟩ := h
                simpa [ZoneCall.creates] using hkeep
            | inr h =>
                obtain ⟨now, ttl, slab, rfl⟩ := h
                simpa [ZoneCall.creates] using hkeep
        | false =>
            -- a zone without rings asks for no slots
            have hzero : size g' = 0 := by
              have : ¬ 0 < zone.threshold := by
                rw [hringed, hop]
                decide
              omega
            rw [hzero]
            exact fun n _ => Nat.zero_le _
      · simp only [Function.update_of_ne hg]
        exact hs.slots g'

theorem inBounds_call {cycle : Nat} {p : ZonePtr} {op : ZoneCall} {size : Nat → Nat}
    (hs : s.Inv size) (hkeep : keepsRings ngx cf s (.call cycle p op) = true) :
    indicesInSlots ngx s (.call cycle p op) = true := by
  simp only [indicesInSlots]
  cases htarget : s.target cycle p op with
  | none => rfl
  | some zg =>
      obtain ⟨zone, g⟩ := zg
      obtain ⟨hsize, hringed⟩ := target_spec hs htarget
      dsimp only
      split
      next => rfl
      next n idx hidx =>
        have hop : op.ringed = true := by
          cases op <;> first | rfl | cases hidx
        have hpos : 0 < zone.threshold := hringed.mpr hop
        have hslots : size g ≤ n.slots := by
          refine indices_slots hsize.symm ?_ (hs.slots g) hidx
          intro key now slab he
          subst he
          simpa [keepsRings, htarget, ZoneCall.creates] using hkeep
        rw [List.all_eq_true]
        intro i hi
        have hlt := index_lt hpos hidx i hi
        simp only [decide_eq_true_eq]
        omega

/-- The ring size of a segment that a cycle mapped. -/
def freshSize (c : Cycle) (g : Nat) : Nat :=
  match c.shms.find? fun m => m.addr = g with
  | some m => (ringSize c.mem m.init).getD 0
  | none => 0

theorem freshSize_eq {c : Cycle} (wf : c.Wf) {m : MappedZone} (hm : m ∈ c.shms) {p : ZonePtr}
    (hp : m.init = .zone p) : freshSize c m.addr = (c.mem p).zone.threshold := by
  rw [freshSize]
  cases hfind : c.shms.find? fun m' => m'.addr = m.addr with
  | none =>
      have hne := List.find?_eq_none.mp hfind m hm
      simp at hne
  | some m' =>
      have haddr : m'.addr = m.addr := by simpa using List.find?_some hfind
      have he := wf.addr_inj m' (List.mem_of_find?_eq_some hfind) m hm haddr
      simp [he, hp, ringSize]

theorem inv_reload {conf : Conf} {size : Nat → Nat} (hs : s.Inv size)
    (hkeep : keepsRings ngx cf s (.reload conf) = true) :
    ∃ size', (serverStep ngx cf s (.reload conf)).Inv size' := by
  simp only [serverStep]
  cases hc : ngxInitCycle ngx cf s.cycles.head? conf with
  | error e => exact ⟨size, hs⟩
  | ok c =>
      have hold : ∀ o ∈ s.cycles.head?, o.Wf :=
        fun o ho => hs.wf o (List.mem_of_mem_head? ho)
      obtain ⟨st, hparse, stwf, hinv⟩ := initCycle_spec hold hc
      have cwf := initInv_wf hold stwf hinv
      have hmapped := hinv.mapped_le
      refine ⟨fun g => if g < mappedBefore s.cycles.head? then size g else freshSize c g,
        ?_, ?_, ?_, ?_⟩
      · intro d hd
        cases List.mem_cons.mp hd with
        | inl he => exact he ▸ cwf
        | inr hd => exact hs.wf d hd
      · intro d hd
        cases List.mem_cons.mp hd with
        | inl he => exact he ▸ Nat.le_refl _
        | inr hd => exact (hs.mapped d hd).trans hmapped
      · intro d hd m hm p hp
        cases List.mem_cons.mp hd with
        | inl he =>
            subst he
            cases hinv.segment m hm with
            | inl hk =>
                have hlt := kept_lt hold hk
                obtain ⟨o, m₀, ho, hsurv, haddr, hinit⟩ := hk
                obtain ⟨q, hq⟩ := hinit p hp
                have hmem : m.toShmZone ∈ st.shms := by
                  rw [← hinv.zones]
                  simpa using List.mem_map_of_mem hm
                simp only [keepsRings, ho, hparse, List.all_eq_true] at hkeep
                have hsame := hkeep _ hmem
                simp only [hsurv, hp, hq, ringSize, Option.some.injEq, decide_eq_true_eq]
                  at hsame
                have hold' := hs.declared o (List.mem_of_mem_head? ho) m₀
                  (cf.survivor_mem _ _ _ hsurv).1 q hq
                simp only [hlt, if_true]
                rw [hinv.zone p, hsame, hold', haddr]
            | inr hf =>
                have hge : ¬ m.addr < mappedBefore s.cycles.head? := by omega
                simp only [hge, if_false]
                exact (freshSize_eq cwf hm hp).symm
        | inr hd =>
            have hlt : m.addr < mappedBefore s.cycles.head? :=
              ((hs.wf d hd).addr_lt m hm).trans_le (hs.mapped d hd)
            simp only [hlt, if_true]
            exact hs.declared d hd m hm p hp
      · intro g
        by_cases hg : mappedBefore s.cycles.head? ≤ g
        · simp only [hg, if_true]
          intro n hn
          cases hn
        · have hlt : g < mappedBefore s.cycles.head? := Nat.not_le.mp hg
          simp only [hg, hlt, if_false, if_true]
          exact hs.slots g

theorem inv_exit {older : Nat} {size : Nat → Nat} (hs : s.Inv size) :
    (serverStep ngx cf s (.exit older)).Inv size := by
  have hmem : ∀ c ∈ s.cycles.eraseIdx (older + 1), c ∈ s.cycles :=
    fun c hc => List.mem_of_mem_eraseIdx hc
  have hhead : (s.cycles.eraseIdx (older + 1)).head? = s.cycles.head? := by
    cases s.cycles with
    | nil => rfl
    | cons c cs => rfl
  refine ⟨fun c hc => hs.wf c (hmem c hc), fun c hc => ?_,
    fun c hc => hs.declared c (hmem c hc), hs.slots⟩
  simp only [serverStep, hhead]
  exact hs.mapped c (hmem c hc)

theorem inv_start : serverStart.Inv fun _ => 0 where
  wf := fun _ hc => absurd hc List.not_mem_nil
  mapped := fun _ hc => absurd hc List.not_mem_nil
  declared := fun _ hc => absurd hc List.not_mem_nil
  slots := fun _ _ hn => absurd hn List.not_mem_nil

/-- In every run whose reloads keep the ring size of each segment they keep, and
whose nodes are sized without wrapping, every ring index read or written lies
within the slots allocated for the node. -/
theorem ring_indices_in_slots (ngx : NgxCore) (cf : NgxConf) (events : List ServerEvent)
    (h : Run.Along (fun s e => keepsRings ngx cf s e = true) (serverStep ngx cf) serverStart
      events) :
    Run.Along (fun s e => indicesInSlots ngx s e = true) (serverStep ngx cf) serverStart
      events := by
  refine Run.along_imp (I := fun s => ∃ size, Server.Inv s size) ?_ ?_ h ⟨_, inv_start⟩
  · intro s e hkeep hs
    obtain ⟨size, hs⟩ := hs
    cases e with
    | reload conf => exact inv_reload hs hkeep
    | call cycle p op => exact ⟨size, inv_call hs hkeep⟩
    | exit older => exact ⟨size, inv_exit hs⟩
  · intro s e hkeep hs
    obtain ⟨size, hs⟩ := hs
    cases e with
    | reload conf => rfl
    | call cycle p op => exact inBounds_call hs hkeep
    | exit older => rfl

end Run

section Example

/-- One velocity zone "v" with these arguments, and a location that uses it. -/
def rateConf (args : List String) : Conf where
  directives := [(.velocityZone (str "v:1m") (args.map str), false)]
  main := ⟨[], [], [], [], none⟩
  locs := [(0, ⟨str "v", [], [], [], none⟩)]

/-- A recorded request at time 50, under the zone's only descriptor. -/
def recordCall (cycle : Nat) : ServerEvent :=
  .call cycle ⟨.velZones, 0, 0⟩ (.errrateRecord ⟨str "k", by decide⟩ 50 true)

/-- A reload that changes the window only. -/
theorem ring_indices_in_slots_new_window :
    Run.Along (fun s e => indicesInSlots Ref.ngx s e = true)
      (serverStep Ref.ngx Ref.conf) serverStart
      [.reload (rateConf ["rate=3"]), recordCall 0,
        .reload (rateConf ["rate=3", "window=60"]), recordCall 1, recordCall 0, recordCall 0] :=
  ring_indices_in_slots Ref.ngx Ref.conf _ (by decide +kernel)

/-- A node made under rate=2 is indexed under rate=100. -/
theorem raised_rate_overruns :
    ¬ ∀ (ngx : NgxCore) (cf : NgxConf) (events : List ServerEvent),
      Run.Along (fun s e => indicesInSlots ngx s e = true) (serverStep ngx cf) serverStart
        events := by
  intro hall
  have h := hall Ref.ngx Ref.conf
    [.reload (rateConf ["rate=2"]), recordCall 0, .reload (rateConf ["rate=100"]), recordCall 0,
      recordCall 0]
  revert h
  decide +kernel

/-- A lower rate does so too, from a worker that still serves the old cycle; and
so does a rate whose ring size wraps. -/
example : ¬ Run.Along (fun s e => indicesInSlots Ref.ngx s e = true)
    (serverStep Ref.ngx Ref.conf) serverStart
    [.reload (rateConf ["rate=100"]), .reload (rateConf ["rate=2"]), recordCall 0, recordCall 1,
      recordCall 1] := by
  decide +kernel

example : ¬ Run.Along (fun s e => indicesInSlots Ref.ngx s e = true)
    (serverStep Ref.ngx Ref.conf) serverStart
    [.reload (rateConf ["rate=2305843009213693952"]), recordCall 0] := by
  decide +kernel

end Example
end Sentinel
