import Mathlib.Algebra.Ring.Int.Defs
import Mathlib.Logic.Function.Basic
import Sentinel.Shm

/-!
The error-rate half of `sentinel_shm.c`: the sliding window of event times kept
in the ring behind a node's key, and the three operations on it. The work of each
operation is one critical section under the zone's mutex; only a record reads the
node once more for its return code after the unlock, and nothing comes in between
here. The end of a ban is a sum of `time_t` and wraps.
-/

namespace Sentinel

/-- What a store operation hands back: the return code and its two output
parameters. -/
structure ErrrateReply where
  rc : NgxRc
  count : Nat
  blockedUntil : Int
  deriving DecidableEq, Repr

/-- The slot that step `i` of the pruning loop reads. -/
def sentinelShmPruneIndex (threshold head i : Nat) : Nat := (head + i) % threshold

/-- The slot that a record writes. -/
def sentinelShmRecordIndex (zone : Zone) (n : Node) : Nat :=
  (n.eventHead + n.eventCount) % zone.threshold

/-- The compaction loop, with `left` steps to go from `i`: slots are read and
rewritten in the same ring. -/
def sentinelShmPruneLoop (threshold head : Nat) (cutoff : Int) :
    (left i : Nat) → (Nat → Int) → (keep : Nat) → (Nat → Int) × Nat
  | 0, _, events, keep => (events, keep)
  | left + 1, i, events, keep =>
      let ts := events (sentinelShmPruneIndex threshold head i)
      if ts > cutoff then
        sentinelShmPruneLoop threshold head cutoff left (i + 1)
          (Function.update events keep ts) (keep + 1)
      else sentinelShmPruneLoop threshold head cutoff left (i + 1) events keep

def sentinelShmPrune (zone : Zone) (n : Node) (now : Int) : Node :=
  let r := sentinelShmPruneLoop zone.threshold n.eventHead (now - zone.interval)
    n.eventCount 0 n.events 0
  { n with events := r.1, eventHead := 0, eventCount := r.2 }

/-- A ban that has run out is taken off together with the ring's contents. -/
def sentinelShmUnban (n : Node) : Node :=
  { n with blockedUntil := 0, eventHead := 0, eventCount := 0 }

/-- `sentinel_shm_errrate_lookup` from the found node on. -/
def errrateLookupNode (zone : Zone) (n : Node) (now : Int) : ErrrateReply × Node :=
  if n.blockedUntil > now then (⟨.busy, zone.threshold, n.blockedUntil⟩, n)
  else
    let n := if n.blockedUntil ≠ 0 then sentinelShmUnban n else sentinelShmPrune zone n now
    (⟨.ok, n.eventCount, 0⟩, n)

def sentinelShmErrrateLookup (ngx : NgxCore) (zone : Option Zone) (sh : Shctx) (key : Key)
    (now : Int) : ErrrateReply × Shctx :=
  match zone with
  | none => (⟨.error, 0, 0⟩, sh)
  | some zone =>
      let hash := ngx.crc32Short key.data
      let sh := sentinelShmExpire ngx zone now ngxSentinelExpireBatch sh
      match sentinelShmLookup ngx sh hash key with
      | none => (⟨.ok, 0, 0⟩, sh)
      | some n =>
          let r := errrateLookupNode zone { n with lastSeen := now } now
          (r.1, (sentinelShmTouch sh n).write r.2)

/-- The sum of two `time_t` as the machine forms it. -/
def timeAdd (a b : Int) : Int := (a + b).bmod (2 ^ 64)

theorem timeAdd_eq {a b : Int} (h0 : 0 ≤ a + b) (h63 : a + b < 2 ^ 63) : timeAdd a b = a + b := by
  rw [timeAdd]
  exact Int.bmod_eq_of_le (by omega) (by omega)

/-- Append `now` to the ring, and ban when that fills the window. -/
def errrateRecordEvent (zone : Zone) (n : Node) (now : Int) : Node :=
  let n := { n with
    events := Function.update n.events (sentinelShmRecordIndex zone n) now
    eventCount := n.eventCount + 1 }
  if n.eventCount ≥ zone.threshold then
    { n with blockedUntil := timeAdd now zone.block, eventHead := 0, eventCount := 0 }
  else n

/-- `sentinel_shm_errrate_record` from the found or created node on. -/
def errrateRecordNode (zone : Zone) (n : Node) (now : Int) : ErrrateReply × Node :=
  if n.blockedUntil > now then (⟨.busy, zone.threshold, n.blockedUntil⟩, n)
  else
    let n := if n.blockedUntil ≠ 0 then sentinelShmUnban n else n
    let n := errrateRecordEvent zone (sentinelShmPrune zone n now) now
    (⟨if n.blockedUntil > now then .busy else .ok,
      if n.blockedUntil > now then zone.threshold else n.eventCount, n.blockedUntil⟩, n)

def sentinelShmErrrateRecord (ngx : NgxCore) (zone : Option Zone) (sh : Shctx) (key : Key)
    (now : Int) (slab : Bool) : ErrrateReply × Shctx :=
  match zone with
  | none => (⟨.error, 0, 0⟩, sh)
  | some zone =>
      let hash := ngx.crc32Short key.data
      let sh := sentinelShmExpire ngx zone now ngxSentinelExpireBatch sh
      match sentinelShmLookup ngx sh hash key with
      | none =>
          match sentinelShmCreateNode ngx zone sh hash key now slab with
          | none => (⟨.error, 0, 0⟩, sh)
          | some (sh, n) =>
              let r := errrateRecordNode zone n now
              (r.1, sh.write r.2)
      | some n =>
          let r := errrateRecordNode zone { n with lastSeen := now } now
          (r.1, (sentinelShmTouch sh n).write r.2)

/-- The three stores of `sentinel_shm_softban_set`. -/
def softbanNode (n : Node) (now ttl : Int) : Node :=
  { n with lastSeen := now, blockedUntil := timeAdd now ttl, eventHead := 0, eventCount := 0 }

def sentinelShmSoftbanSet (ngx : NgxCore) (zone : Option Zone) (sh : Shctx) (key : Key)
    (now ttl : Int) (slab : Bool) : NgxRc × Shctx :=
  match zone with
  | none => (.error, sh)
  | some zone =>
      if ttl ≤ 0 then (.error, sh)
      else
        let hash := ngx.crc32Short key.data
        let sh := sentinelShmExpire ngx zone now ngxSentinelExpireBatch sh
        match sentinelShmLookup ngx sh hash key with
        | none =>
            match sentinelShmCreateNode ngx zone sh hash key now slab with
            | none => (.error, sh)
            | some (sh, n) => (.ok, sh.write (softbanNode n now ttl))
        | some n => (.ok, (sentinelShmTouch sh n).write (softbanNode n now ttl))

end Sentinel
