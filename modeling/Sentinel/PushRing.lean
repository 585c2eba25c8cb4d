import Mathlib.Logic.Function.Basic
import Sentinel.ShmCrowdsec

/-!
The two rings in shared memory that the request path puts local bans into, one
for the Redis push and one for the CrowdSec sink. The source has two copies of
the same code, with a capacity each; both counters are 64-bit and wrap.
-/

namespace Sentinel
open Function

def ngxSentinelRedisPushRing : UInt64 := 4096

def ngxSentinelCssinkRing : UInt64 := 4096

/-- `NGX_SOCKADDR_STRLEN`, on Linux with Unix sockets. -/
def ngxSockaddrStrlen : Nat := 113

/-- `ngx_sentinel_redis_push_t`; `ip` is the `ip_len` bytes that are in use. -/
structure PushEntry where
  ip : Bytes
  action : UInt8
  expiry : Int
  deriving DecidableEq, Repr

/-- `ngx_sentinel_redis_shctx_t` and `ngx_sentinel_cssink_shctx_t` -/
structure PushRing where
  head : UInt64
  tail : UInt64
  dropped : UInt64
  ring : Nat → PushEntry

/-- A zeroed segment. -/
def pushRingInit : PushRing := ⟨0, 0, 0, fun _ => ⟨[], 0, 0⟩⟩

/-- What the two enqueues do under the ring's mutex. -/
def PushRing.put (capacity : UInt64) (push : PushRing) (e : PushEntry) : PushRing :=
  if push.head - push.tail ≥ capacity then { push with dropped := push.dropped + 1 }
  else
    { push with
      ring := update push.ring (push.head % capacity).toNat e
      head := push.head + 1 }

/-- What one round of the two drain loops does under the ring's mutex. -/
def PushRing.take (capacity : UInt64) (push : PushRing) : Option PushEntry × PushRing :=
  if push.tail = push.head then (none, push)
  else (some (push.ring (push.tail % capacity).toNat), { push with tail := push.tail + 1 })

/-- `armed` is the ring of the worker's own context, `bound` the one behind the
location's zone. -/
def enqueueBan (capacity : UInt64) (armed bound : Option Nat) (rings : Nat → PushRing)
    (ip : Bytes) (action : UInt8) (expiry : Int) : Nat → PushRing :=
  match armed with
  | none => rings
  | some g =>
      if bound ≠ some g then rings
      else if ip.length = 0 ∨ ip.length ≥ ngxSockaddrStrlen then rings
      else update rings g ((rings g).put capacity ⟨ip, action, expiry⟩)

def sentinelRedisEnqueueBan (armed bound : Option Nat) (rings : Nat → PushRing) (ip : Bytes)
    (action : UInt8) (expiry : Int) : Nat → PushRing :=
  enqueueBan ngxSentinelRedisPushRing armed bound rings ip action expiry

def sentinelCssinkEnqueueBan (armed bound : Option Nat) (rings : Nat → PushRing) (ip : Bytes)
    (action : UInt8) (expiry : Int) : Nat → PushRing :=
  enqueueBan ngxSentinelCssinkRing armed bound rings ip action expiry

section Enqueued
variable {capacity : UInt64} {push push' : PushRing} {rings rings' : Nat → PushRing}
  {ip ip' : Bytes}

/-- One more entry is in the ring, and it is about `ip`. -/
def PushRing.Gained (capacity : UInt64) (push push' : PushRing) (ip : Bytes) : Prop :=
  push'.head = push.head + 1 ∧ (push'.ring (push.head % capacity).toNat).ip = ip

instance decidableGained (capacity : UInt64) (push push' : PushRing) (ip : Bytes) :
    Decidable (push.Gained capacity push' ip) :=
  inferInstanceAs (Decidable (_ ∧ _))

theorem head_ne_succ (n : UInt64) : n ≠ n + 1 := by
  intro h
  have hzero : n + 0 = n + 1 := by rwa [UInt64.add_zero]
  exact absurd ((UInt64.add_right_inj n).mp hzero) (by decide)

/-- An enqueue reaches the ring that the worker has armed, if the location is
bound to that one, and there if the ring has room. -/
theorem gained_enqueueBan_iff {armed bound : Option Nat} {action : UInt8} {expiry : Int} {g : Nat}
    (hip : ip.length ≠ 0 ∧ ip.length < ngxSockaddrStrlen)
    (hroom : (rings g).head - (rings g).tail < capacity) :
    (rings g).Gained capacity (enqueueBan capacity armed bound rings ip action expiry g) ip ↔
      armed = some g ∧ bound = some g := by
  constructor
  · intro h
    simp only [enqueueBan] at h
    split at h
    · exact absurd h.1 (head_ne_succ _)
    next g' =>
      by_cases hg : g = g'
      · subst hg
        split_ifs at h with hbound
        · exact absurd h.1 (head_ne_succ _)
        · exact absurd h.1 (head_ne_succ _)
        · exact ⟨rfl, not_not.mp hbound⟩
      · split_ifs at h
        · exact absurd h.1 (head_ne_succ _)
        · exact absurd h.1 (head_ne_succ _)
        · rw [update_of_ne hg] at h
          exact absurd h.1 (head_ne_succ _)
  · intro hboth
    obtain ⟨harmed, hbound⟩ := hboth
    have hlen : ¬ (ip.length = 0 ∨ ip.length ≥ ngxSockaddrStrlen) := by omega
    simp only [enqueueBan, harmed]
    rw [if_neg (not_not.mpr hbound), if_neg hlen, update_self, PushRing.put,
      if_neg (UInt64.not_le.mpr hroom)]
    refine ⟨rfl, ?_⟩
    dsimp only
    rw [update_self]

/-- A location that is not bound to the armed ring puts nothing into any. -/
theorem enqueueBan_unbound {armed bound : Option Nat} {action : UInt8} {expiry : Int}
    (h : ∀ g, armed = some g → bound ≠ some g) :
    enqueueBan capacity armed bound rings ip action expiry = rings := by
  cases armed with
  | none => rfl
  | some g =>
      simp only [enqueueBan]
      exact if_pos (h g rfl)

end Enqueued
end Sentinel
