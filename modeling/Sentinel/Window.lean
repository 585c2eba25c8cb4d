import Sentinel.Lib.Run
import Sentinel.NgxRef
import Sentinel.ShmErrrate
import Sentinel.ShmWf

/-!
The error-rate store refines a reference with one independent entry per key and
no eviction. The reference is the component's purpose in its own terms: a ban
end and the list of event times since it was set. The ring, the order of the
queue and the removal of nodes at its tail do not show in any reply, as long as
the ends of the bans fit into a `time_t`: the reference adds as mathematics does.
-/

namespace Sentinel
open Function

/-- A ban end (`0` for a key never banned) and the event times since, oldest
first. -/
structure WindowEntry where
  ban : Int
  events : List Int

namespace WindowEntry

def empty : WindowEntry := ⟨0, []⟩

/-- The events in `(now - interval, now]`. -/
def inWindow (e : WindowEntry) (interval now : Int) : List Int :=
  e.events.filter fun t => now - interval < t ∧ t ≤ now

def lookup (zone : Zone) (e : WindowEntry) (now : Int) : ErrrateReply × WindowEntry :=
  if now < e.ban then (⟨.busy, zone.threshold, e.ban⟩, e)
  else (⟨.ok, (e.inWindow zone.interval now).length, 0⟩, e)

def record (zone : Zone) (e : WindowEntry) (now : Int) : ErrrateReply × WindowEntry :=
  if now < e.ban then (⟨.busy, zone.threshold, e.ban⟩, e)
  else
    let e : WindowEntry := { e with events := e.events ++ [now] }
    let count := (e.inWindow zone.interval now).length
    if zone.threshold ≤ count then
      (⟨.busy, zone.threshold, now + zone.block⟩, ⟨now + zone.block, []⟩)
    else (⟨.ok, count, 0⟩, e)

def softban (e : WindowEntry) (now ttl : Int) : ErrrateReply × WindowEntry :=
  if ttl ≤ 0 then (⟨.error, 0, 0⟩, e) else (⟨.ok, 0, 0⟩, ⟨now + ttl, []⟩)

end WindowEntry

inductive StoreOp where
  | lookup
  | record
  | softban (ttl : Int)

/-- One call on the store: when (seconds since the epoch), on which key, and
which operation. -/
structure StoreCall where
  now : Nat
  key : Key
  op : StoreOp

def storeStep (ngx : NgxCore) (zone : Zone) (sh : Shctx) (c : StoreCall) :
    ErrrateReply × Shctx :=
  match c.op with
  | .lookup => sentinelShmErrrateLookup ngx (some zone) sh c.key c.now
  | .record => sentinelShmErrrateRecord ngx (some zone) sh c.key c.now true
  | .softban ttl =>
      let r := sentinelShmSoftbanSet ngx (some zone) sh c.key c.now ttl true
      (⟨r.1, 0, 0⟩, r.2)

/-- The ban that a call may set ends at a time that a `time_t` holds. -/
def StoreCall.NoOverflow (zone : Zone) (c : StoreCall) : Prop :=
  match c.op with
  | .lookup => True
  | .record => c.now + zone.block < 2 ^ 63
  | .softban ttl => c.now + ttl < 2 ^ 63

instance decidableNoOverflow (zone : Zone) : ∀ c, Decidable (StoreCall.NoOverflow zone c)
  | ⟨_, _, .lookup⟩ => isTrue trivial
  | ⟨_, _, .record⟩ => inferInstanceAs (Decidable (_ < _))
  | ⟨_, _, .softban _⟩ => inferInstanceAs (Decidable (_ < _))

def windowStep (zone : Zone) (ref : Key → WindowEntry) (c : StoreCall) :
    ErrrateReply × (Key → WindowEntry) :=
  let r := match c.op with
    | .lookup => (ref c.key).lookup zone c.now
    | .record => (ref c.key).record zone c.now
    | .softban ttl => (ref c.key).softban c.now ttl
  (r.1, update ref c.key r.2)

/-- The times in a node's ring, oldest first. -/
def Node.ring (n : Node) : List Int := (List.range n.eventCount).map n.events

section Ring

theorem map_range_update_of_le {keep i m : Nat} (events : Nat → Int) (ts : Int)
    (h : keep < i) :
    (List.range' i m).map (update events keep ts) = (List.range' i m).map events := by
  apply List.map_congr_left
  intro j hj
  have := List.left_le_of_mem_range' hj
  exact update_of_ne (by omega) _ _

theorem map_range_update_succ (events : Nat → Int) (keep : Nat) (ts : Int) :
    (List.range (keep + 1)).map (update events keep ts) =
      (List.range keep).map events ++ [ts] := by
  rw [List.range_succ, List.map_append, List.map_singleton, update_self]
  congr 1
  apply List.map_congr_left
  intro j hj
  exact update_of_ne (Nat.ne_of_lt (List.mem_range.mp hj)) _ _

/-- The in-place loop never overwrites a slot it has yet to read: `keep` trails
`i`, so what it leaves is the filtered ring. -/
theorem pruneLoop_ring {threshold : Nat} (cutoff : Int) (left : Nat) :
    ∀ (i keep : Nat) (events : Nat → Int), keep ≤ i → i + left ≤ threshold →
      let r := sentinelShmPruneLoop threshold 0 cutoff left i events keep
      (List.range r.2).map r.1 = (List.range keep).map events ++
        ((List.range' i left).map events).filter (fun t => cutoff < t) ∧
      r.2 ≤ keep + left := by
  induction left with
  | zero =>
      intro i keep events _ _
      simp [sentinelShmPruneLoop]
  | succ left ih =>
      intro i keep events hk hi
      have hread : sentinelShmPruneIndex threshold 0 i = i := by
        simp only [sentinelShmPruneIndex, Nat.zero_add]
        exact Nat.mod_eq_of_lt (by omega)
      simp only [sentinelShmPruneLoop, hread, gt_iff_lt]
      split
      next hts =>
        obtain ⟨hr, hle⟩ := ih (i + 1) (keep + 1) (update events keep (events i))
          (by omega) (by omega)
        refine ⟨?_, by omega⟩
        rw [hr, map_range_update_succ, map_range_update_of_le events (events i) (by omega)]
        simp [List.range'_succ, hts]
      next hts =>
        obtain ⟨hr, hle⟩ := ih (i + 1) keep events (by omega) (by omega)
        refine ⟨?_, by omega⟩
        rw [hr]
        simp [List.range'_succ, hts]

theorem prune_ring {zone : Zone} {n : Node} (now : Int) (hh : n.eventHead = 0)
    (hc : n.eventCount ≤ zone.threshold) :
    (sentinelShmPrune zone n now).ring =
      n.ring.filter (fun t => now - zone.interval < t) ∧
    (sentinelShmPrune zone n now).eventCount ≤ n.eventCount := by
  have h := pruneLoop_ring (now - zone.interval) n.eventCount 0 0 n.events (Nat.le_refl 0)
    (show 0 + n.eventCount ≤ zone.threshold by omega)
  simp only [List.range_zero, List.map_nil, List.nil_append, Nat.zero_add,
    ← List.range_eq_range'] at h
  simpa only [sentinelShmPrune, Node.ring, hh] using h

@[simp] theorem ring_length (n : Node) : n.ring.length = n.eventCount := by
  simp [Node.ring]

end Ring

/-- A node against its reference entry, when no call was made after `t`: the
two agree on every event that a window ending at `t` or later can hold. -/
structure NodeRel (zone : Zone) (t : Int) (n : Node) (e : WindowEntry) : Prop where
  head : n.eventHead = 0
  count_lt : n.eventCount < zone.threshold
  seen_le : n.lastSeen ≤ t
  ring_le : ∀ x ∈ n.ring, x ≤ n.lastSeen
  events_le : ∀ x ∈ e.events, x ≤ t
  ban : n.blockedUntil = e.ban ∨ n.blockedUntil = 0 ∧ e.ban ≤ t
  banned_empty : n.blockedUntil ≠ 0 → n.eventCount = 0 ∧ e.events = []
  window : ∀ c, t - zone.interval ≤ c →
    n.ring.filter (fun x => c < x) = e.events.filter (fun x => c < x)

/-- An entry whose node is gone has nothing left that a reply could show. -/
def EntryRel (zone : Zone) (t : Int) : Option Node → WindowEntry → Prop
  | none, e => e.ban ≤ t ∧ ∀ x ∈ e.events, x ≤ t - zone.interval
  | some n, e => NodeRel zone t n e

section Node
variable {zone : Zone} {t now : Int} {n : Node} {e : WindowEntry}

theorem NodeRel.mono (h : NodeRel zone t n e) (ht : t ≤ now) : NodeRel zone now n e where
  head := h.head
  count_lt := h.count_lt
  seen_le := h.seen_le.trans ht
  ring_le := h.ring_le
  events_le := fun x hx => (h.events_le x hx).trans ht
  ban := h.ban.imp_right (And.imp_right (·.trans ht))
  banned_empty := h.banned_empty
  window := fun c hc => h.window c (by omega)

theorem EntryRel.mono {o : Option Node} (h : EntryRel zone t o e) (ht : t ≤ now) :
    EntryRel zone now o e := by
  cases o with
  | none => exact ⟨h.1.trans ht, fun x hx => by have := h.2 x hx; omega⟩
  | some n => exact NodeRel.mono h ht

theorem NodeRel.touch (h : NodeRel zone t n e) (ht : t ≤ now) :
    NodeRel zone now { n with lastSeen := now } e where
  head := h.head
  count_lt := h.count_lt
  seen_le := Int.le_refl now
  ring_le := fun x hx => ((h.ring_le x hx).trans h.seen_le).trans ht
  events_le := fun x hx => (h.events_le x hx).trans ht
  ban := (h.mono ht).ban
  banned_empty := h.banned_empty
  window := (h.mono ht).window

/-- Evicting a dead node loses nothing. -/
theorem NodeRel.of_dead (h : NodeRel zone now n e) (hd : Dead zone now n) :
    EntryRel zone now none e := by
  obtain ⟨hb, hs⟩ := hd
  constructor
  · rcases h.ban with h | ⟨_, h⟩ <;> omega
  · intro x hx
    by_contra hlt
    have hmem : x ∈ e.events.filter (fun y => now - zone.interval < y) :=
      List.mem_filter.mpr ⟨hx, by simpa using hlt⟩
    rw [← h.window _ (Int.le_refl _)] at hmem
    have := h.ring_le x (List.mem_of_mem_filter hmem)
    omega

/-- While a ban runs both sides hold the same ban end. -/
theorem NodeRel.ban_iff (h : NodeRel zone now n e) (h0 : 0 ≤ now) :
    (now < n.blockedUntil ↔ now < e.ban) ∧ (now < e.ban → n.blockedUntil = e.ban) := by
  rcases h.ban with h | ⟨hz, hle⟩
  · exact ⟨by rw [h], fun _ => h⟩
  · exact ⟨by omega, fun hlt => by omega⟩

theorem NodeRel.unban (h : NodeRel zone now n e) (hb : ¬ now < n.blockedUntil)
    (hz : n.blockedUntil ≠ 0) : NodeRel zone now (sentinelShmUnban n) e where
  head := rfl
  count_lt := Nat.lt_of_le_of_lt (Nat.zero_le _) h.count_lt
  seen_le := h.seen_le
  ring_le := by simp [sentinelShmUnban, Node.ring]
  events_le := h.events_le
  ban := by
    right
    refine ⟨rfl, ?_⟩
    rcases h.ban with h | ⟨h, _⟩
    · omega
    · exact absurd h hz
  banned_empty := fun hne => absurd rfl hne
  window := by
    intro c _
    simp [(h.banned_empty hz).2, sentinelShmUnban, Node.ring]

theorem NodeRel.inWindow_eq (h : NodeRel zone now n e) :
    e.inWindow zone.interval now = e.events.filter (fun x => now - zone.interval < x) := by
  apply List.filter_congr
  intro x hx
  simp [h.events_le x hx]

theorem NodeRel.prune (h : NodeRel zone now n e) (hz : n.blockedUntil = 0) :
    NodeRel zone now (sentinelShmPrune zone n now) e ∧
      (sentinelShmPrune zone n now).ring = e.inWindow zone.interval now := by
  obtain ⟨hring, hcount⟩ := prune_ring now h.head h.count_lt.le
  refine ⟨⟨rfl, hcount.trans_lt h.count_lt, h.seen_le, ?_, h.events_le, h.ban,
    fun hne => absurd hz hne, ?_⟩, ?_⟩
  · intro x hx
    rw [hring] at hx
    exact h.ring_le x (List.mem_of_mem_filter hx)
  · intro c hc
    rw [hring, List.filter_filter, ← h.window c hc]
    apply List.filter_congr
    intro x _
    simp only [Bool.and_eq_left_iff_imp, decide_eq_true_eq]
    omega
  · rw [hring, h.inWindow_eq, h.window _ (Int.le_refl _)]

/-- A node just created stands for whatever entry had no node. -/
theorem EntryRel.create {n : Node} (h : EntryRel zone t none e) (ht : t ≤ now)
    (hthr : 1 ≤ zone.threshold) (hint : 1 ≤ zone.interval)
    (hn : n.eventHead = 0 ∧ n.eventCount = 0 ∧ n.blockedUntil = 0 ∧ n.lastSeen = now) :
    NodeRel zone now n e := by
  obtain ⟨hhead, hcount, hblock, hseen⟩ := hn
  refine ⟨hhead, by omega, hseen.le, ?_, ?_, .inr ⟨hblock, h.1.trans ht⟩,
    fun hne => absurd hblock hne, ?_⟩
  · simp [Node.ring, hcount]
  · intro x hx
    have := h.2 x hx
    omega
  · intro c hc
    have : e.events.filter (fun x => c < x) = [] := by
      apply List.filter_eq_nil_iff.mpr
      intro x hx
      have := h.2 x hx
      simp only [decide_eq_true_eq]
      omega
    simp [this, Node.ring, hcount]

theorem lookupNode_refines (h : NodeRel zone now n e) (h0 : 0 ≤ now) :
    (errrateLookupNode zone n now).1 = (e.lookup zone now).1 ∧
      NodeRel zone now (errrateLookupNode zone n now).2 (e.lookup zone now).2 := by
  obtain ⟨hiff, heq⟩ := h.ban_iff h0
  rw [errrateLookupNode, WindowEntry.lookup]
  by_cases hb : now < n.blockedUntil
  · have hban := hiff.mp hb
    simp only [gt_iff_lt, hban, if_true, heq hban, true_and]
    exact h
  · have hban : ¬ now < e.ban := fun hc => hb (hiff.mpr hc)
    simp only [gt_iff_lt, hb, hban, if_false]
    by_cases hz : n.blockedUntil = 0
    · obtain ⟨hrel, hring⟩ := h.prune hz
      simp only [hz, ne_eq, not_true_eq_false, if_false, ← ring_length, hring, true_and]
      exact hrel
    · simp only [hz, ne_eq, not_false_eq_true, if_true]
      refine ⟨?_, h.unban hb hz⟩
      simp [sentinelShmUnban, WindowEntry.inWindow, (h.banned_empty hz).2]

/-- The state in which a record appends its event: no ban, and the ring pruned
to the window. -/
theorem NodeRel.settle (h : NodeRel zone now n e) (hb : ¬ now < n.blockedUntil) :
    let m := sentinelShmPrune zone
      (if n.blockedUntil ≠ 0 then sentinelShmUnban n else n) now
    NodeRel zone now m e ∧ m.ring = e.inWindow zone.interval now ∧ m.blockedUntil = 0 ∧
      m.lastSeen = n.lastSeen := by
  by_cases hz : n.blockedUntil = 0
  · obtain ⟨hrel, hring⟩ := h.prune hz
    simp only [hz, ne_eq, not_true_eq_false, if_false]
    exact ⟨hrel, hring, hz, rfl⟩
  · have hrel := h.unban hb hz
    obtain ⟨hrel', hring⟩ := hrel.prune rfl
    simp only [hz, ne_eq, not_false_eq_true, if_true]
    exact ⟨hrel', hring, rfl, rfl⟩

theorem recordEvent_ring {n : Node} (now : Int) (hh : n.eventHead = 0)
    (hc : n.eventCount < zone.threshold) (hfull : n.eventCount + 1 < zone.threshold) :
    (errrateRecordEvent zone n now).ring = n.ring ++ [now] := by
  have hidx : sentinelShmRecordIndex zone n = n.eventCount := by
    rw [sentinelShmRecordIndex, hh, Nat.zero_add, Nat.mod_eq_of_lt hc]
  have hge : ¬ n.eventCount + 1 ≥ zone.threshold := by omega
  simp only [errrateRecordEvent, hidx, hge, if_false, Node.ring]
  exact map_range_update_succ n.events n.eventCount now

theorem inWindow_append (hint : 1 ≤ zone.interval) :
    ({ e with events := e.events ++ [now] } : WindowEntry).inWindow zone.interval now =
      e.inWindow zone.interval now ++ [now] := by
  have hnow : now - zone.interval < now := by omega
  simp [WindowEntry.inWindow, List.filter_append, hnow]

theorem recordNode_refines (h : NodeRel zone now n e) (hs : n.lastSeen = now) (h0 : 0 ≤ now)
    (hint : 1 ≤ zone.interval) (hblk : 1 ≤ zone.block) (hfits : now + zone.block < 2 ^ 63) :
    (errrateRecordNode zone n now).1 = (e.record zone now).1 ∧
      NodeRel zone now (errrateRecordNode zone n now).2 (e.record zone now).2 := by
  obtain ⟨hiff, heq⟩ := h.ban_iff h0
  rw [errrateRecordNode, WindowEntry.record]
  by_cases hb : now < n.blockedUntil
  · have hban := hiff.mp hb
    simp only [gt_iff_lt, hban, if_true, heq hban, true_and]
    exact h
  · have hban : ¬ now < e.ban := fun hc => hb (hiff.mpr hc)
    simp only [gt_iff_lt, hb, hban, if_false]
    obtain ⟨hrel, hring, hz, hseen⟩ := h.settle hb
    generalize sentinelShmPrune zone
      (if n.blockedUntil ≠ 0 then sentinelShmUnban n else n) now = m at hrel hring hz hseen ⊢
    have hlen : (e.inWindow zone.interval now).length = m.eventCount := by
      rw [← hring, ring_length]
    simp only [inWindow_append hint, List.length_append, List.length_singleton, hlen]
    by_cases hfull : zone.threshold ≤ m.eventCount + 1
    · -- the event that fills the window: both sides drop it and start the ban
      have hlt : now < now + zone.block := by omega
      have hend : timeAdd now zone.block = now + zone.block := timeAdd_eq (by omega) hfits
      simp only [errrateRecordEvent, hfull, if_true, hend, hlt, true_and]
      exact ⟨rfl, Nat.lt_of_le_of_lt (Nat.zero_le _) hrel.count_lt, hrel.seen_le,
        by simp [Node.ring], by simp, .inl rfl, fun _ => ⟨rfl, rfl⟩, by simp [Node.ring]⟩
    · have hring' := recordEvent_ring now hrel.head hrel.count_lt (by omega)
      have hevent : (errrateRecordEvent zone m now).blockedUntil = 0 ∧
          (errrateRecordEvent zone m now).eventCount = m.eventCount + 1 ∧
          (errrateRecordEvent zone m now).eventHead = 0 ∧
          (errrateRecordEvent zone m now).lastSeen = m.lastSeen := by
        simp [errrateRecordEvent, hfull, hz, hrel.head]
      obtain ⟨hz', hcount', hhead', hseen'⟩ := hevent
      have hno : ¬ now < 0 := by omega
      simp only [hfull, if_false, hz', hcount', hno, true_and]
      refine ⟨hhead', by omega, hseen'.le.trans hrel.seen_le, ?_, ?_, .inr ⟨hz', ?_⟩,
        fun hne => absurd hz' hne, ?_⟩
      · intro x hx
        rw [hring'] at hx
        rw [hseen', hseen, hs]
        cases List.mem_append.mp hx with
        | inl hx => exact (hrel.ring_le x hx).trans hrel.seen_le
        | inr hx => exact (List.mem_singleton.mp hx).le
      · intro x hx
        cases List.mem_append.mp hx with
        | inl hx => exact hrel.events_le x hx
        | inr hx => exact (List.mem_singleton.mp hx).le
      · show e.ban ≤ now
        omega
      · intro c hc
        rw [hring', List.filter_append, List.filter_append, hrel.window c hc]

theorem softbanNode_refines (h : NodeRel zone t n e) (now ttl : Int) :
    NodeRel zone now (softbanNode n now ttl) ⟨timeAdd now ttl, []⟩ :=
  ⟨rfl, Nat.lt_of_le_of_lt (Nat.zero_le _) h.count_lt, Int.le_refl now,
    by simp [softbanNode, Node.ring], by simp, .inl rfl, fun _ => ⟨rfl, rfl⟩,
    by simp [softbanNode, Node.ring]⟩

end Node

section Store
variable {ngx : NgxCore} {zone : Zone} {t now : Int} {sh : Shctx} {ref : Key → WindowEntry}

def StoreRel (ngx : NgxCore) (zone : Zone) (t : Int) (sh : Shctx) (ref : Key → WindowEntry) :
    Prop :=
  sh.Wf ngx ∧ ∀ k, EntryRel zone t (sh.get k) (ref k)

/-- The fields of a node that no error-rate operation stores to. -/
def Node.SameId (m n : Node) : Prop :=
  m.key = n.key ∧ m.hash = n.hash ∧ m.csGeneration = n.csGeneration

theorem lookupNode_sameId (zone : Zone) (now : Int) (n : Node) :
    (errrateLookupNode zone n now).2.SameId n := by
  rw [errrateLookupNode]
  split
  · exact ⟨rfl, rfl, rfl⟩
  · dsimp only
    split <;> exact ⟨rfl, rfl, rfl⟩

theorem recordEvent_sameId (n : Node) : (errrateRecordEvent zone n now).SameId n := by
  rw [errrateRecordEvent]
  dsimp only
  split <;> exact ⟨rfl, rfl, rfl⟩

theorem recordNode_sameId (zone : Zone) (now : Int) (n : Node) :
    (errrateRecordNode zone n now).2.SameId n := by
  rw [errrateRecordNode]
  split
  · exact ⟨rfl, rfl, rfl⟩
  · dsimp only
    split
    · exact recordEvent_sameId (sentinelShmPrune zone (sentinelShmUnban n) now)
    · exact recordEvent_sameId (sentinelShmPrune zone n now)

/-- The eviction that opens every call. -/
theorem StoreRel.expire (h : StoreRel ngx zone t sh ref) (ht : t ≤ now) :
    StoreRel ngx zone now
      (sentinelShmExpire ngx zone now ngxSentinelExpireBatch sh) ref := by
  obtain ⟨wf, hget⟩ := expire_get zone now ngxSentinelExpireBatch h.1
  refine ⟨wf, fun k => ?_⟩
  have hk := (h.2 k).mono ht
  rcases hget k with he | ⟨hnone, n, hn, hd⟩
  · rw [he]
    exact hk
  · rw [hn] at hk
    rw [hnone]
    exact NodeRel.of_dead hk hd

theorem touch_write_sameId (wf : sh.Wf ngx) {k : Key} {n m : Node} (hn : sh.get k = some n)
    (hid : m.SameId n) :
    ((sentinelShmTouch sh n).write m).Wf ngx ∧
      ∀ k', ((sentinelShmTouch sh n).write m).get k' = if k' = k then some m else sh.get k' := by
  obtain ⟨hkey, hhash, hgen⟩ := hid
  apply touch_write_spec wf hn hkey hhash
  rw [hgen]
  exact wf.gen_le n (mem_of_get hn)

theorem link_write_sameId (wf : sh.Wf ngx) {n m : Node} (hn : sh.get n.key = none)
    (hh : n.hash = ngx.crc32Short n.key.data) (hg : n.csGeneration = 0) (hid : m.SameId n) :
    ((sentinelShmLink ngx sh n).write m).Wf ngx ∧
      ∀ k', ((sentinelShmLink ngx sh n).write m).get k' =
        if k' = n.key then some m else sh.get k' := by
  obtain ⟨hkey, hhash, hgen⟩ := hid
  apply link_write_spec wf hn hh hg hkey hhash
  rw [hgen, hg]
  exact Nat.zero_le _

theorem StoreRel.touch_write (h : StoreRel ngx zone now sh ref) {k : Key} {n m : Node}
    (hn : sh.get k = some n) (hid : m.SameId n) {e : WindowEntry}
    (hm : NodeRel zone now m e) :
    StoreRel ngx zone now ((sentinelShmTouch sh n).write m) (update ref k e) := by
  obtain ⟨hwf, hget⟩ := touch_write_sameId h.1 hn hid
  refine ⟨hwf, fun k' => ?_⟩
  rw [hget]
  by_cases hk : k' = k
  · subst hk
    simp only [if_true, update_self]
    exact hm
  · simpa [hk] using h.2 k'

theorem StoreRel.link_write (h : StoreRel ngx zone now sh ref) {n m : Node}
    (hn : sh.get n.key = none) (hh : n.hash = ngx.crc32Short n.key.data)
    (hg : n.csGeneration = 0) (hid : m.SameId n) {e : WindowEntry}
    (hm : NodeRel zone now m e) :
    StoreRel ngx zone now ((sentinelShmLink ngx sh n).write m) (update ref n.key e) := by
  obtain ⟨hwf, hget⟩ := link_write_sameId h.1 hn hh hg hid
  refine ⟨hwf, fun k' => ?_⟩
  rw [hget]
  by_cases hk : k' = n.key
  · subst hk
    simp only [if_true, update_self]
    exact hm
  · simpa [hk] using h.2 k'

theorem createNode_eq (ngx : NgxCore) (zone : Zone) (sh : Shctx) (now : Int) (k : Key) :
    ∃ n, sentinelShmCreateNode ngx zone sh (ngx.crc32Short k.data) k now true =
        some (sentinelShmLink ngx sh n, n) ∧
      n.key = k ∧ n.hash = ngx.crc32Short k.data ∧ n.csGeneration = 0 ∧
      (n.eventHead = 0 ∧ n.eventCount = 0 ∧ n.blockedUntil = 0 ∧ n.lastSeen = now) :=
  ⟨_, rfl, rfl, rfl, rfl, rfl, rfl, rfl, rfl⟩

theorem lookup_refines (h : StoreRel ngx zone t sh ref) (ht : t ≤ now) (h0 : 0 ≤ now)
    (k : Key) :
    (sentinelShmErrrateLookup ngx (some zone) sh k now).1 = ((ref k).lookup zone now).1 ∧
      StoreRel ngx zone now (sentinelShmErrrateLookup ngx (some zone) sh k now).2
        (update ref k ((ref k).lookup zone now).2) := by
  have hx := h.expire ht
  have hk := hx.2 k
  have hlook := sentinelShmLookup_eq_get hx.1 k
  cases hget : (sentinelShmExpire ngx zone now ngxSentinelExpireBatch sh).get k with
  | none =>
      rw [hget] at hk hlook
      obtain ⟨hban, hev⟩ := hk
      have hno : ¬ now < (ref k).ban := by omega
      have hnil : (ref k).inWindow zone.interval now = [] := by
        apply List.filter_eq_nil_iff.mpr
        intro x hmem
        have := hev x hmem
        simp only [decide_eq_true_eq]
        omega
      simp only [sentinelShmErrrateLookup, hlook, WindowEntry.lookup, hno, if_false, hnil,
        List.length_nil, update_eq_self, true_and]
      exact hx
  | some n =>
      rw [hget] at hk hlook
      have hseen := NodeRel.touch hk (Int.le_refl now)
      obtain ⟨hreply, hrel⟩ := lookupNode_refines hseen h0
      simp only [sentinelShmErrrateLookup, hlook]
      exact ⟨hreply, hx.touch_write hget (lookupNode_sameId _ _ { n with lastSeen := now }) hrel⟩

theorem record_refines (h : StoreRel ngx zone t sh ref) (ht : t ≤ now) (h0 : 0 ≤ now)
    (hthr : 1 ≤ zone.threshold) (hint : 1 ≤ zone.interval) (hblk : 1 ≤ zone.block)
    (hfits : now + zone.block < 2 ^ 63) (k : Key) :
    (sentinelShmErrrateRecord ngx (some zone) sh k now true).1 =
        ((ref k).record zone now).1 ∧
      StoreRel ngx zone now (sentinelShmErrrateRecord ngx (some zone) sh k now true).2
        (update ref k ((ref k).record zone now).2) := by
  have hx := h.expire ht
  have hk := hx.2 k
  have hlook := sentinelShmLookup_eq_get hx.1 k
  cases hget : (sentinelShmExpire ngx zone now ngxSentinelExpireBatch sh).get k with
  | none =>
      rw [hget] at hk hlook
      obtain ⟨n, hcreate, hkey, hhash, hgen, hnew⟩ := createNode_eq ngx zone
        (sentinelShmExpire ngx zone now ngxSentinelExpireBatch sh) now k
      subst hkey
      obtain ⟨hreply, hrel⟩ := recordNode_refines
        (EntryRel.create hk (Int.le_refl now) hthr hint hnew) hnew.2.2.2 h0 hint hblk hfits
      simp only [sentinelShmErrrateRecord, hlook, hcreate]
      exact ⟨hreply, hx.link_write hget hhash hgen (recordNode_sameId _ _ n) hrel⟩
  | some n =>
      rw [hget] at hk hlook
      have hseen := NodeRel.touch hk (Int.le_refl now)
      obtain ⟨hreply, hrel⟩ := recordNode_refines hseen rfl h0 hint hblk hfits
      simp only [sentinelShmErrrateRecord, hlook]
      exact ⟨hreply, hx.touch_write hget (recordNode_sameId _ _ { n with lastSeen := now }) hrel⟩

theorem softban_refines (h : StoreRel ngx zone t sh ref) (ht : t ≤ now) (h0 : 0 ≤ now)
    (hthr : 1 ≤ zone.threshold) (hint : 1 ≤ zone.interval) (k : Key) {ttl : Int}
    (hfits : now + ttl < 2 ^ 63) :
    (sentinelShmSoftbanSet ngx (some zone) sh k now ttl true).1 =
        ((ref k).softban now ttl).1.rc ∧
      StoreRel ngx zone now (sentinelShmSoftbanSet ngx (some zone) sh k now ttl true).2
        (update ref k ((ref k).softban now ttl).2) := by
  by_cases httl : ttl ≤ 0
  · simp only [sentinelShmSoftbanSet, WindowEntry.softban, httl, if_true, update_eq_self,
      true_and]
    exact ⟨h.1, fun k => (h.2 k).mono ht⟩
  have hx := h.expire ht
  have hk := hx.2 k
  have hlook := sentinelShmLookup_eq_get hx.1 k
  have hend : timeAdd now ttl = now + ttl := timeAdd_eq (by omega) hfits
  simp only [sentinelShmSoftbanSet, WindowEntry.softban, httl, if_false, ← hend]
  cases hget : (sentinelShmExpire ngx zone now ngxSentinelExpireBatch sh).get k with
  | none =>
      rw [hget] at hk hlook
      obtain ⟨n, hcreate, hkey, hhash, hgen, hnew⟩ := createNode_eq ngx zone
        (sentinelShmExpire ngx zone now ngxSentinelExpireBatch sh) now k
      subst hkey
      have hrel := softbanNode_refines (EntryRel.create hk (Int.le_refl now) hthr hint hnew)
        now ttl
      simp only [hlook, hcreate, true_and]
      have hid : (softbanNode n now ttl).SameId n := ⟨rfl, rfl, rfl⟩
      exact hx.link_write hget hhash hgen hid hrel
  | some n =>
      rw [hget] at hk hlook
      have hrel := softbanNode_refines hk now ttl
      simp only [hlook, true_and]
      have hid : (softbanNode n now ttl).SameId n := ⟨rfl, rfl, rfl⟩
      exact hx.touch_write hget hid hrel

theorem storeStep_refines (hthr : 1 ≤ zone.threshold) (hint : 1 ≤ zone.interval)
    (hblk : 1 ≤ zone.block) (h : StoreRel ngx zone t sh ref) (c : StoreCall)
    (hfits : c.NoOverflow zone) (ht : t ≤ c.now) :
    (storeStep ngx zone sh c).1 = (windowStep zone ref c).1 ∧
      StoreRel ngx zone c.now (storeStep ngx zone sh c).2 (windowStep zone ref c).2 := by
  have h0 : (0 : Int) ≤ c.now := Int.natCast_nonneg _
  obtain ⟨now, key, op⟩ := c
  cases op with
  | lookup => exact lookup_refines h ht h0 key
  | record => exact record_refines h ht h0 hthr hint hblk hfits key
  | softban ttl =>
      obtain ⟨hrc, hrel⟩ := softban_refines h ht h0 hthr hint key hfits
      refine ⟨?_, hrel⟩
      simp only [storeStep, windowStep, hrc, WindowEntry.softban]
      split <;> rfl

theorem storeRel_init : StoreRel ngx zone 0 sentinelShmInitZone (fun _ => .empty) :=
  ⟨wf_init, fun _ => ⟨Int.le_refl 0, by simp [WindowEntry.empty]⟩⟩

/-- No reply of any run shows the ring, the queue or an eviction. -/
theorem errrate_store_refines_window (ngx : NgxCore) (zone : Zone)
    (hthr : 1 ≤ zone.threshold) (hint : 1 ≤ zone.interval) (hblk : 1 ≤ zone.block)
    (calls : List StoreCall) (hmono : calls.Pairwise fun c d => c.now ≤ d.now)
    (hfits : ∀ c ∈ calls, c.NoOverflow zone) :
    Run.outputs (storeStep ngx zone) sentinelShmInitZone calls =
      Run.outputs (windowStep zone) (fun _ => WindowEntry.empty) calls := by
  have hstep : ∀ (t : Int) sh ref (c : StoreCall), c.NoOverflow zone →
      StoreRel ngx zone t sh ref → t ≤ c.now →
      (storeStep ngx zone sh c).1 = (windowStep zone ref c).1 ∧
        StoreRel ngx zone c.now (storeStep ngx zone sh c).2 (windowStep zone ref c).2 :=
    fun _ _ _ c hc hR ht => storeStep_refines hthr hint hblk hR c hc ht
  exact Run.outputs_eq_of_timed_sim (fun c : StoreCall => (c.now : Int)) hstep storeRel_init
    hfits (fun c _ => Int.natCast_nonneg _) (hmono.imp fun h => Int.ofNat_le.mpr h)

/-- Two events fill a window of two, the ban outlasts the next event, and a
soft-ban of another key runs beside it. -/
theorem errrate_store_two_events :
    let a : Key := ⟨str "a", by decide⟩
    let b : Key := ⟨str "b", by decide⟩
    Run.outputs (storeStep Ref.ngx ⟨10, 60, 2⟩) sentinelShmInitZone
        [⟨100, a, .record⟩, ⟨105, a, .record⟩, ⟨106, b, .softban 5⟩, ⟨107, a, .lookup⟩,
          ⟨107, b, .record⟩, ⟨170, a, .record⟩] =
      [⟨.ok, 1, 0⟩, ⟨.busy, 2, 165⟩, ⟨.ok, 0, 0⟩, ⟨.busy, 2, 165⟩, ⟨.busy, 2, 111⟩,
        ⟨.ok, 1, 0⟩] :=
  (errrate_store_refines_window Ref.ngx ⟨10, 60, 2⟩ (by decide) (by decide) (by decide) _
    (by decide) (by decide)).trans (by decide)

end Store
end Sentinel
