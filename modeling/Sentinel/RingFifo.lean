import Mathlib.Data.List.Induction
import Sentinel.Lib.Ring
import Sentinel.Lib.Run
import Sentinel.PushRing

/-!
The two rings in shared memory as they lie there: an entry is a buffer of
`NGX_SOCKADDR_STRLEN` bytes of which an enqueue overwrites the first `ip_len`,
in a slot that an earlier entry has left. `PushRing` is what a reader sees of
it. Whatever the workers do, the readers get a prefix of what was accepted, also
after the counters have wrapped; only the telemetry counter forgets its wraps.
-/

namespace Sentinel
open Function

/-- `ngx_sentinel_redis_push_t`, byte for byte. -/
structure RawEntry where
  ip : Fin ngxSockaddrStrlen → UInt8
  ipLen : UInt16
  action : UInt8
  expiry : Int

structure RawRing where
  head : UInt64
  tail : UInt64
  dropped : UInt64
  ring : Nat → RawEntry

/-- A zeroed segment. -/
def rawRingInit : RawRing := ⟨0, 0, 0, fun _ => ⟨fun _ => 0, 0, 0, 0⟩⟩

/-- The four stores of an enqueue: `ngx_memcpy` leaves the bytes behind `ip.length`. -/
def RawEntry.store (old : RawEntry) (e : PushEntry) : RawEntry where
  ip := fun i => e.ip.getD i (old.ip i)
  ipLen := UInt16.ofNat e.ip.length
  action := e.action
  expiry := e.expiry

/-- What a reader of the slot makes of it. -/
def RawEntry.entry (raw : RawEntry) : PushEntry :=
  ⟨(List.ofFn raw.ip).take raw.ipLen.toNat, raw.action, raw.expiry⟩

namespace RawRing

/-- The enqueues from the lock on. -/
def put (capacity : UInt64) (raw : RawRing) (e : PushEntry) : RawRing :=
  if raw.head - raw.tail ≥ capacity then { raw with dropped := raw.dropped + 1 }
  else
    let slot := (raw.head % capacity).toNat
    { raw with
      ring := update raw.ring slot ((raw.ring slot).store e)
      head := raw.head + 1 }

/-- The drain loops from the lock on: the slot is copied out. -/
def take (capacity : UInt64) (raw : RawRing) : Option RawEntry × RawRing :=
  if raw.tail = raw.head then (none, raw)
  else (some (raw.ring (raw.tail % capacity).toNat), { raw with tail := raw.tail + 1 })

/-- The two enqueues, in a worker whose own ring this is. -/
def enqueueBan (capacity : UInt64) (raw : RawRing) (e : PushEntry) : RawRing :=
  if e.ip.length = 0 ∨ e.ip.length ≥ ngxSockaddrStrlen then raw else raw.put capacity e

def view (raw : RawRing) : PushRing :=
  ⟨raw.head, raw.tail, raw.dropped, fun slot => (raw.ring slot).entry⟩

end RawRing

section View
variable {capacity : UInt64} {raw : RawRing} {e : PushEntry}

/-- The text that was stored is read back, whatever the slot held before. -/
theorem entry_store (old : RawEntry) (h : e.ip.length < ngxSockaddrStrlen) :
    (old.store e).entry = e := by
  have hlen : (UInt16.ofNat e.ip.length).toNat = e.ip.length := by
    rw [UInt16.toNat_ofNat', Nat.mod_eq_of_lt]
    simp only [ngxSockaddrStrlen] at h
    omega
  have hip : (List.ofFn fun i : Fin ngxSockaddrStrlen => e.ip.getD i (old.ip i)).take
      e.ip.length = e.ip := by
    apply List.ext_getElem
    · simp only [List.length_take, List.length_ofFn]
      omega
    · intro i hi hi'
      simp only [List.getElem_take, List.getElem_ofFn, List.getD_eq_getElem?_getD]
      rw [List.getElem?_eq_getElem hi', Option.getD_some]
  simp only [RawEntry.entry, RawEntry.store, hlen, hip]

theorem view_put (h : e.ip.length < ngxSockaddrStrlen) :
    (raw.put capacity e).view = raw.view.put capacity e := by
  by_cases hfull : raw.head - raw.tail ≥ capacity
  · simp [RawRing.put, PushRing.put, RawRing.view, hfull]
  · have hring : ∀ slot, (fun s => (update raw.ring slot ((raw.ring slot).store e) s).entry) =
        update (fun s => (raw.ring s).entry) slot e := by
      intro slot
      funext s
      by_cases hs : s = slot
      · subst hs
        rw [update_self, update_self, entry_store _ h]
      · rw [update_of_ne hs, update_of_ne hs]
    simp [RawRing.put, PushRing.put, RawRing.view, hfull, hring]

theorem view_take :
    (raw.view.take capacity) =
      ((raw.take capacity).1.map RawEntry.entry, (raw.take capacity).2.view) := by
  by_cases hempty : raw.tail = raw.head
  · simp [RawRing.take, PushRing.take, RawRing.view, hempty]
  · simp [RawRing.take, PushRing.take, RawRing.view, hempty]

/-- The byte-level enqueue is that of the request path. -/
theorem view_enqueueBan (rings : Nat → RawRing) (g : Nat) (ip : Bytes) (action : UInt8)
    (expiry : Int) :
    ((rings g).enqueueBan capacity ⟨ip, action, expiry⟩).view =
      enqueueBan capacity (some g) (some g) (fun i => (rings i).view) ip action expiry g := by
  by_cases hlen : ip.length = 0 ∨ ip.length ≥ ngxSockaddrStrlen
  · simp only [RawRing.enqueueBan, enqueueBan, hlen, if_true, ne_eq, not_true_eq_false, if_false]
  · have hshort : ip.length < ngxSockaddrStrlen := by omega
    simp only [RawRing.enqueueBan, enqueueBan, hlen, if_false, ne_eq, not_true_eq_false]
    rw [view_put hshort, update_self]

end View
section Holds
variable {capacity : UInt64} {push : PushRing} {q : List PushEntry} {e : PushEntry}

/-- The counters of the source are machine words. -/
def PushRing.state (push : PushRing) : Ring.State PushEntry :=
  ⟨push.head.toNat, push.tail.toNat, push.ring⟩

/-- The entries of `q` are waiting in the ring. -/
def PushRing.Holds (capacity : UInt64) (push : PushRing) (q : List PushEntry) : Prop :=
  Ring.Holds (2 ^ 64) capacity.toNat push.state q

theorem used_state (push : PushRing) :
    Ring.used (2 ^ 64) push.state = (push.head - push.tail).toNat :=
  (UInt64.toNat_sub push.head push.tail).symm

theorem put_state (capacity : UInt64) (push : PushRing) (e : PushEntry) :
    Ring.put (2 ^ 64) capacity.toNat push.state e =
      if push.head - push.tail ≥ capacity then none
      else some (push.put capacity e).state := by
  by_cases hfull : push.head - push.tail ≥ capacity
  · have hfull' : capacity.toNat ≤ (push.head - push.tail).toNat := UInt64.le_iff_toNat_le.mp hfull
    rw [if_pos hfull, Ring.put, used_state, if_pos hfull']
  · have hroom : ¬ capacity.toNat ≤ (push.head - push.tail).toNat :=
      fun h => hfull (UInt64.le_iff_toNat_le.mpr h)
    rw [if_neg hfull, Ring.put, used_state, if_neg hroom, PushRing.put, if_neg hfull]
    simp only [PushRing.state, UInt64.toNat_add, UInt64.toNat_mod, UInt64.toNat_one]

theorem take_state (capacity : UInt64) (push : PushRing) :
    Ring.take (2 ^ 64) capacity.toNat push.state =
      (push.take capacity).1.map fun e => (e, (push.take capacity).2.state) := by
  by_cases hempty : push.tail = push.head
  · have hempty' : push.state.tail = push.state.head := congrArg UInt64.toNat hempty
    rw [Ring.take, if_pos hempty', PushRing.take, if_pos hempty]
    rfl
  · have hempty' : ¬ push.state.tail = push.state.head :=
      fun h => hempty (UInt64.toNat_inj.mp h)
    rw [Ring.take, if_neg hempty', PushRing.take, if_neg hempty]
    simp only [PushRing.state, UInt64.toNat_add, UInt64.toNat_mod, UInt64.toNat_one,
      Option.map_some]

variable (hs : Ring.Sized (2 ^ 64) capacity.toNat)
include hs

theorem PushRing.Holds.waiting (h : push.Holds capacity q) :
    (push.head - push.tail).toNat = q.length := by
  rw [← used_state]
  exact Ring.Holds.used_eq hs h

/-- An enqueue is refused when the ring is full, and otherwise appends. -/
theorem PushRing.Holds.put (h : push.Holds capacity q) (e : PushEntry) :
    if q.length = capacity.toNat then
      push.put capacity e = { push with dropped := push.dropped + 1 }
    else
      (push.put capacity e).Holds capacity (q ++ [e]) ∧
        (push.put capacity e).head = push.head + 1 ∧
        (push.put capacity e).dropped = push.dropped := by
  have hlen := Ring.Holds.length_le h
  have hput := put_state capacity push e
  by_cases hfull : q.length = capacity.toNat
  · have hge : push.head - push.tail ≥ capacity := by
      by_contra hroom
      rw [if_neg hroom, Ring.Holds.put_full hs h hfull] at hput
      contradiction
    rw [if_pos hfull, PushRing.put, if_pos hge]
  · obtain ⟨r', hr', hholds⟩ := Ring.Holds.put (e := e) hs h (by omega)
    have hge : ¬ push.head - push.tail ≥ capacity := by
      intro hge
      rw [if_pos hge, hr'] at hput
      contradiction
    rw [if_neg hge, hr'] at hput
    rw [if_neg hfull, PushRing.Holds, ← Option.some.inj hput]
    refine ⟨hholds, ?_, ?_⟩
    · rw [PushRing.put, if_neg hge]
    · rw [PushRing.put, if_neg hge]

theorem PushRing.Holds.take (h : push.Holds capacity q) :
    (push.take capacity).1 = q.head? ∧ (push.take capacity).2.Holds capacity q.tail ∧
      (push.take capacity).2.dropped = push.dropped := by
  have htake := take_state capacity push
  cases q with
  | nil =>
      have hempty : push.tail = push.head := by
        rw [Ring.Holds.take_nil h] at htake
        by_contra hne
        rw [PushRing.take, if_neg hne] at htake
        contradiction
      rw [PushRing.take, if_pos hempty]
      exact ⟨rfl, h, rfl⟩
  | cons e q =>
      obtain ⟨r', hr', hholds⟩ := Ring.Holds.take_cons hs h
      rw [hr'] at htake
      have hne : ¬ push.tail = push.head := by
        intro hempty
        rw [PushRing.take, if_pos hempty] at htake
        contradiction
      rw [PushRing.take, if_neg hne] at htake ⊢
      obtain ⟨he, hstate⟩ := Prod.mk.inj (Option.some.inj htake)
      refine ⟨congrArg some he.symm, ?_, rfl⟩
      rw [List.tail_cons, PushRing.Holds, ← hstate]
      exact hholds

end Holds
section Run

inductive RingKind where
  | redisPush | cssink
  deriving DecidableEq, Repr

def RingKind.capacity : RingKind → UInt64
  | .redisPush => ngxSentinelRedisPushRing
  | .cssink => ngxSentinelCssinkRing

/-- What the workers do, in the order in which they get the mutex. -/
inductive RingOp where
  | enqueue (e : PushEntry)
  | dequeue

/-- An address that passes the checks of the enqueue, which then takes the lock. -/
def RingOp.locks : RingOp → Bool
  | .enqueue e => decide (¬ (e.ip.length = 0 ∨ e.ip.length ≥ ngxSockaddrStrlen))
  | .dequeue => false

/-- The ring, and its history: the entries that were stored, those that were
handed out, and how many enqueues came upon exactly `capacity` entries waiting. -/
structure RingRun where
  raw : RawRing
  accepted : List PushEntry
  taken : List PushEntry
  refused : Nat

def ringStart : RingRun := ⟨rawRingInit, [], [], 0⟩

def ringStep (kind : RingKind) (s : RingRun) : RingOp → RingRun
  | .enqueue e =>
      let raw := s.raw.enqueueBan kind.capacity e
      { raw
        accepted := if raw.head = s.raw.head then s.accepted else s.accepted ++ [e]
        taken := s.taken
        refused :=
          if (RingOp.enqueue e).locks ∧ s.accepted.length = s.taken.length + 4096 then
            s.refused + 1
          else s.refused }
  | .dequeue =>
      let r := s.raw.take kind.capacity
      { s with raw := r.2, taken := s.taken ++ (r.1.map RawEntry.entry).toList }

/-- What was accepted is what was handed out and what is waiting. -/
structure RingInv (kind : RingKind) (s : RingRun) (q : List PushEntry) : Prop where
  holds : s.raw.view.Holds kind.capacity q
  accepted : s.accepted = s.taken ++ q
  dropped : s.raw.dropped = UInt64.ofNat s.refused

variable {kind : RingKind} {s : RingRun} {q : List PushEntry}

theorem ring_sized (kind : RingKind) : Ring.Sized (2 ^ 64) kind.capacity.toNat := by
  cases kind with
  | redisPush => exact ⟨by decide, by decide⟩
  | cssink => exact ⟨by decide, by decide⟩

theorem capacity_toNat (kind : RingKind) : kind.capacity.toNat = 4096 := by
  cases kind <;> rfl

theorem ringInv_start (kind : RingKind) : RingInv kind ringStart [] where
  holds := Ring.holds_init (by decide) _
  accepted := rfl
  dropped := rfl

/-- What one operation does to the history. -/
inductive RingEffect (s : RingRun) (q : List PushEntry) : RingOp → RingRun → List PushEntry → Prop
  | invalid (e : PushEntry) : (RingOp.enqueue e).locks = false →
      RingEffect s q (.enqueue e) s q
  | refuse (e : PushEntry) (s' : RingRun) : (RingOp.enqueue e).locks = true → q.length = 4096 →
      s'.accepted = s.accepted → s'.taken = s.taken → s'.refused = s.refused + 1 →
      RingEffect s q (.enqueue e) s' q
  | accept (e : PushEntry) (s' : RingRun) : (RingOp.enqueue e).locks = true → q.length < 4096 →
      s'.accepted = s.accepted ++ [e] → s'.taken = s.taken → s'.refused = s.refused →
      RingEffect s q (.enqueue e) s' (q ++ [e])
  | dequeue (s' : RingRun) : s'.accepted = s.accepted → s'.taken = s.taken ++ q.head?.toList →
      s'.refused = s.refused → RingEffect s q .dequeue s' q.tail

theorem RingInv.length (h : RingInv kind s q) : s.accepted.length = s.taken.length + q.length := by
  rw [h.accepted, List.length_append]

theorem RingInv.length_le (h : RingInv kind s q) : q.length ≤ 4096 := by
  have hle := Ring.Holds.length_le h.holds
  rwa [capacity_toNat] at hle

theorem ringStep_effect (h : RingInv kind s q) (op : RingOp) :
    ∃ q', RingInv kind (ringStep kind s op) q' ∧ RingEffect s q op (ringStep kind s op) q' := by
  have hlen := h.length
  have hle := h.length_le
  cases op with
  | dequeue =>
      obtain ⟨hentry, hholds, hdropped⟩ := PushRing.Holds.take (ring_sized kind) h.holds
      rw [view_take] at hentry hholds hdropped
      have htaken : (ringStep kind s .dequeue).taken = s.taken ++ q.head?.toList := by
        rw [← hentry]
        rfl
      refine ⟨q.tail, ⟨hholds, ?_, hdropped.trans h.dropped⟩, .dequeue _ rfl htaken rfl⟩
      rw [htaken, List.append_assoc]
      cases q with
      | nil => exact h.accepted
      | cons e q => exact h.accepted
  | enqueue e =>
      cases hlocks : (RingOp.enqueue e).locks with
      | false =>
          have hskip : s.raw.enqueueBan kind.capacity e = s.raw := by
            apply if_pos
            by_contra hvalid
            rw [RingOp.locks, decide_eq_true hvalid] at hlocks
            contradiction
          have hstep : ringStep kind s (.enqueue e) = s := by
            simp [ringStep, hskip, hlocks]
          rw [hstep]
          exact ⟨q, h, .invalid e hlocks⟩
      | true =>
          have hvalid := of_decide_eq_true hlocks
          have hput : s.raw.enqueueBan kind.capacity e = s.raw.put kind.capacity e := if_neg hvalid
          have hview : (s.raw.put kind.capacity e).view = s.raw.view.put kind.capacity e :=
            view_put (by omega)
          have heffect := PushRing.Holds.put (ring_sized kind) h.holds e
          rw [capacity_toNat, ← hview] at heffect
          by_cases hfull : q.length = 4096
          · rw [if_pos hfull] at heffect
            have hhead : (s.raw.put kind.capacity e).head = s.raw.head :=
              congrArg PushRing.head heffect
            have hdropped : (s.raw.put kind.capacity e).dropped = s.raw.dropped + 1 :=
              congrArg PushRing.dropped heffect
            have haccepted : (ringStep kind s (.enqueue e)).accepted = s.accepted := by
              simp [ringStep, hput, hhead]
            have hrefused : (ringStep kind s (.enqueue e)).refused = s.refused + 1 := by
              simp [ringStep, hlocks, hlen, hfull]
            refine ⟨q, ⟨?_, ?_, ?_⟩, .refuse e _ hlocks hfull haccepted rfl hrefused⟩
            · simp only [ringStep, hput, heffect]
              exact h.holds
            · rw [haccepted]
              exact h.accepted
            · rw [hrefused, UInt64.ofNat_add, ← h.dropped]
              simp only [ringStep, hput]
              exact hdropped
          · rw [if_neg hfull] at heffect
            obtain ⟨hholds, hhead, hdropped⟩ := heffect
            have hmoved : (s.raw.put kind.capacity e).head ≠ s.raw.head := by
              intro hsame
              have hsucc : s.raw.head = s.raw.head + 1 := hsame.symm.trans hhead
              exact head_ne_succ _ hsucc
            have haccepted : (ringStep kind s (.enqueue e)).accepted = s.accepted ++ [e] := by
              simp [ringStep, hput, hmoved]
            have hrefused : (ringStep kind s (.enqueue e)).refused = s.refused := by
              simp [ringStep, hlen, hfull]
            refine ⟨q ++ [e], ⟨?_, ?_, ?_⟩, .accept e _ hlocks (by omega) haccepted rfl hrefused⟩
            · simp only [ringStep, hput]
              exact hholds
            · rw [haccepted, h.accepted, List.append_assoc]
              rfl
            · rw [hrefused, ← h.dropped]
              simp only [ringStep, hput]
              exact hdropped

theorem ringInv_run (kind : RingKind) (ops : List RingOp) :
    ∃ q, RingInv kind (Run.exec (ringStep kind) ringStart ops) q := by
  have hstep : ∀ s op, (∃ q, RingInv kind s q) → ∃ q, RingInv kind (ringStep kind s op) q := by
    intro s op ⟨q, h⟩
    obtain ⟨q', h', -⟩ := ringStep_effect h op
    exact ⟨q', h'⟩
  exact Run.exec_invariant hstep ⟨[], ringInv_start kind⟩ ops

/-- Every enqueue that takes the lock is stored or counted. -/
theorem accepted_add_refused (kind : RingKind) (ops : List RingOp) :
    (Run.exec (ringStep kind) ringStart ops).accepted.length +
        (Run.exec (ringStep kind) ringStart ops).refused =
      (ops.filter RingOp.locks).length := by
  induction ops using List.reverseRecOn with
  | nil => rfl
  | append_singleton ops op ih =>
      obtain ⟨q, h⟩ := ringInv_run kind ops
      obtain ⟨q', -, heffect⟩ := ringStep_effect h op
      rw [Run.exec_append, List.filter_append, List.length_append, ← ih]
      simp only [Run.exec_cons, Run.exec_nil]
      generalize Run.exec (ringStep kind) ringStart ops = s at heffect
      generalize ringStep kind s op = s' at heffect
      cases heffect with
      | invalid e hlocks => simp [hlocks]
      | refuse e s' hlocks hfull haccepted htaken hrefused =>
          simp only [haccepted, hrefused, List.filter_singleton, hlocks, cond_true,
            List.length_singleton]
          omega
      | accept e s' hlocks hroom haccepted htaken hrefused =>
          simp only [haccepted, hrefused, List.filter_singleton, hlocks, cond_true,
            List.length_append, List.length_singleton]
          omega
      | dequeue s' haccepted htaken hrefused =>
          simp [haccepted, hrefused, RingOp.locks]

/-- The readers get a prefix of what was accepted, the counters tell how much is
waiting, and an enqueue is turned away only by exactly 4096 waiting entries; the
count of those is kept in 64 bits. -/
theorem ring_is_fifo (kind : RingKind) (ops : List RingOp) :
    let s := Run.exec (ringStep kind) ringStart ops
    s.taken <+: s.accepted ∧
      (s.raw.head - s.raw.tail).toNat + s.taken.length = s.accepted.length ∧
      (s.raw.head - s.raw.tail).toNat ≤ 4096 ∧
      s.raw.dropped = UInt64.ofNat s.refused ∧
      s.accepted.length + s.refused = (ops.filter RingOp.locks).length := by
  intro s
  obtain ⟨q, h⟩ := ringInv_run kind ops
  have hwaiting : (s.raw.head - s.raw.tail).toNat = q.length :=
    PushRing.Holds.waiting (ring_sized kind) h.holds
  have hlen := h.length
  have hle := h.length_le
  refine ⟨⟨q, h.accepted.symm⟩, ?_, ?_, h.dropped, accepted_add_refused kind ops⟩
  · rw [hwaiting, Nat.add_comm]
    exact hlen.symm
  · rw [hwaiting]
    exact hle

/-- Enqueues alone fill the ring and then go to waste. -/
theorem enqueue_run (kind : RingKind) {e : PushEntry} (hlocks : (RingOp.enqueue e).locks = true)
    (n : Nat) :
    let s := Run.exec (ringStep kind) ringStart (List.replicate n (.enqueue e))
    s.taken = [] ∧ s.accepted.length = min n 4096 := by
  induction n with
  | zero => exact ⟨rfl, rfl⟩
  | succ n ih =>
      obtain ⟨htaken, haccepted⟩ := ih
      obtain ⟨q, h⟩ := ringInv_run kind (List.replicate n (.enqueue e))
      obtain ⟨q', -, heffect⟩ := ringStep_effect h (.enqueue e)
      have hlen := h.length
      rw [htaken, haccepted, List.length_nil, Nat.zero_add] at hlen
      intro s
      have hs : s = ringStep kind (Run.exec (ringStep kind) ringStart
          (List.replicate n (.enqueue e))) (.enqueue e) := by
        simp only [s, List.replicate_succ', Run.exec_append, Run.exec_cons, Run.exec_nil]
      rw [hs]
      generalize Run.exec (ringStep kind) ringStart (List.replicate n (.enqueue e)) = t at *
      generalize ringStep kind t (.enqueue e) = t' at *
      cases heffect with
      | invalid _ hinvalid =>
          rw [hlocks] at hinvalid
          contradiction
      | refuse _ _ _ hfull haccepted' htaken' _ =>
          refine ⟨htaken'.trans htaken, ?_⟩
          rw [haccepted', haccepted]
          omega
      | accept _ _ _ hroom haccepted' htaken' _ =>
          refine ⟨htaken'.trans htaken, ?_⟩
          rw [haccepted', List.length_append, haccepted, List.length_singleton]
          omega

theorem full_ring_refuses (kind : RingKind) {e : PushEntry}
    (hlocks : (RingOp.enqueue e).locks = true) (n : Nat) :
    let s := Run.exec (ringStep kind) ringStart (List.replicate (4096 + n) (.enqueue e))
    s.raw.dropped = UInt64.ofNat n ∧ s.refused = n := by
  intro s
  obtain ⟨q, h⟩ := ringInv_run kind (List.replicate (4096 + n) (.enqueue e))
  have hall := accepted_add_refused kind (List.replicate (4096 + n) (.enqueue e))
  rw [(enqueue_run kind hlocks _).2, List.filter_replicate_of_pos hlocks,
    List.length_replicate] at hall
  have hrefused : s.refused = n := by
    simp only [s]
    omega
  have hdropped : s.raw.dropped = UInt64.ofNat s.refused := h.dropped
  rw [hrefused] at hdropped
  exact ⟨hdropped, hrefused⟩

/-- After 2^64 refused enqueues the counter is back at zero. -/
theorem dropped_counter_wraps :
    let e : PushEntry := ⟨str "1.2.3.4", ngxSentinelCsBan, 100⟩
    let s := Run.exec (ringStep .redisPush) ringStart
      (List.replicate (4096 + 2 ^ 64) (.enqueue e))
    s.raw.dropped = 0 ∧ s.refused = 2 ^ 64 := by
  intro e
  have hlocks : (RingOp.enqueue e).locks = true := by decide
  have hzero : UInt64.ofNat (2 ^ 64) = 0 := by decide
  have hfull := full_ring_refuses .redisPush hlocks (2 ^ 64)
  rw [hzero] at hfull
  exact hfull

end Run
end Sentinel
