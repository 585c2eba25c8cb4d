import Sentinel.Lib.FrontRun
import Sentinel.Lib.Run
import Sentinel.NgxRef
import Sentinel.Reload
import Sentinel.Window

/-!
How far the eviction gets. It walks from the least recently used node and stops at
the first one that it must keep, so a node under a long ban hides the dead nodes
that were used after it. In a store that a steady clock has filled, a ban is the
only thing that can stand in the way.
-/

namespace Sentinel

instance (zone : Zone) (now : Int) (n : Node) : Decidable (Dead zone now n) :=
  inferInstanceAs (Decidable (_ ∧ _))

section Walk
variable {ngx : NgxCore} {sh : Shctx}

/-- The nodes in the order in which the eviction looks at them. -/
def Shctx.lru (sh : Shctx) : List Node := sh.queue.reverse

theorem remove_last_lru (hu : Keyed.Unique Node.key sh.queue) {n : Node} {q : List Node}
    (hq : sh.lru = n :: q) : (sentinelShmRemove ngx sh n).lru = q := by
  have hqueue : sh.queue = q.reverse ++ [n] := by
    rw [← List.reverse_reverse sh.queue, ← Shctx.lru, hq, List.reverse_cons]
  have hother : ∀ m ∈ q.reverse, ¬ decide (m.key = n.key) = true := by
    intro m hm
    rw [Keyed.Unique, hqueue, List.map_append, List.nodup_append] at hu
    have hne := hu.2.2 m.key (List.mem_map_of_mem hm) n.key (by simp)
    simpa using hne
  change (Keyed.erase Node.key sh.queue n.key).reverse = q
  rw [hqueue, Keyed.erase, List.eraseP_append_right _ hother]
  simp

/-- The eviction drops a run of dead nodes from the least recently used one on. -/
theorem expire_lru (zone : Zone) (now : Int) (batch : Nat) (wf : sh.Wf ngx) :
    (sentinelShmExpire ngx zone now batch sh).lru =
      sh.lru.drop (FrontRun.taken (fun n => decide (Dead zone now n)) batch sh.lru) := by
  induction batch generalizing sh with
  | zero => simp [sentinelShmExpire, FrontRun.taken]
  | succ batch ih =>
      rw [sentinelShmExpire]
      have hlast : sh.queue.getLast? = sh.lru.head? := by simp [Shctx.lru]
      rw [hlast]
      cases hlru : sh.lru with
      | nil => simp [hlru]
      | cons n q =>
          have hn : n ∈ sh.queue := by
            have hmem : n ∈ sh.lru := by simp [hlru]
            exact List.mem_reverse.mp hmem
          simp only [List.head?_cons]
          by_cases hdead : Dead zone now n
          · obtain ⟨hban, hage⟩ := id hdead
            rw [if_neg (by omega), if_neg (by omega), ih (wf_remove wf hn),
              remove_last_lru wf.unique hlru]
            simp [FrontRun.taken, hdead, Nat.succ_min_succ]
          · have hkept : (if n.blockedUntil > now then sh
                else if now - n.lastSeen < zone.interval then sh
                else sentinelShmExpire ngx zone now batch (sentinelShmRemove ngx sh n)) = sh := by
              rw [Dead] at hdead
              split
              · rfl
              split
              · rfl
              · omega
            rw [hkept, hlru]
            simp [FrontRun.taken, hdead]

/-- The nodes that the eviction may take. -/
def deadCount (zone : Zone) (now : Int) (sh : Shctx) : Nat :=
  sh.queue.countP fun n => decide (Dead zone now n)

/-- An eviction of `b` nodes frees as many dead nodes as there are, up to `b`, and
nothing else. -/
structure Progress (ngx : NgxCore) (zone : Zone) (now : Int) (b : Nat) (sh : Shctx) : Prop where
  freed : (sentinelShmExpire ngx zone now b sh).queue.length + min b (deadCount zone now sh) =
    sh.queue.length
  only_dead : ∀ k n, sh.get k = some n → (sentinelShmExpire ngx zone now b sh).get k ≠ some n →
    Dead zone now n

/-- The nodes that stand in the way. -/
def firstLooked (zone : Zone) (now : Int) (b : Nat) (sh : Shctx) : List Node :=
  sh.lru.take (min b (deadCount zone now sh))

theorem progress_iff (zone : Zone) (now : Int) (b : Nat) (wf : sh.Wf ngx) :
    Progress ngx zone now b sh ↔ ∀ n ∈ firstLooked zone now b sh, Dead zone now n := by
  have hcount : deadCount zone now sh = sh.lru.countP fun n => decide (Dead zone now n) :=
    List.countP_reverse.symm
  have hlen : (sentinelShmExpire ngx zone now b sh).queue.length =
      sh.queue.length - FrontRun.taken (fun n => decide (Dead zone now n)) b sh.lru := by
    have hl := congrArg List.length (expire_lru zone now b wf)
    simpa [Shctx.lru] using hl
  have htaken : FrontRun.taken (fun n => decide (Dead zone now n)) b sh.lru ≤ sh.queue.length := by
    calc FrontRun.taken (fun n => decide (Dead zone now n)) b sh.lru
        ≤ (sh.lru.takeWhile fun n => decide (Dead zone now n)).length := Nat.min_le_right _ _
      _ ≤ sh.lru.length := (List.takeWhile_prefix _).length_le
      _ = sh.queue.length := List.length_reverse
  have hdead : deadCount zone now sh ≤ sh.queue.length := List.countP_le_length
  have hiff : FrontRun.taken (fun n => decide (Dead zone now n)) b sh.lru =
      min b (sh.lru.countP fun n => decide (Dead zone now n)) ↔
        ∀ n ∈ sh.lru.take (min b (sh.lru.countP fun n => decide (Dead zone now n))),
          decide (Dead zone now n) = true := FrontRun.taken_eq_iff
  rw [← hcount] at hiff
  simp only [decide_eq_true_eq] at hiff
  rw [firstLooked, ← hiff]
  constructor
  · intro h
    have hfreed := h.freed
    omega
  · intro h
    refine ⟨by omega, fun k n hn hgone => ?_⟩
    cases (expire_get zone now b wf).2 k with
    | inl hsame => exact absurd (hsame.trans hn) hgone
    | inr hdead =>
        obtain ⟨-, m, hm, hdead⟩ := hdead
        rwa [Option.some.inj (hn.symm.trans hm)]

end Walk

section Calls
variable {ngx : NgxCore} {sh : Shctx}

/-- The time at which a call reads the clock. -/
def ZoneCall.now : ZoneCall → Option Int
  | .errrateLookup _ now => some now
  | .errrateRecord _ now _ => some now
  | .softbanSet _ now _ _ => some now
  | .crowdsecLookup _ now => some now
  | .crowdsecUpsert _ _ _ _ now _ _ => some now
  | .crowdsecBump => none
  | .crowdsecSweep _ _ => none

/-- An upsert stamps a generation that the store has reached. -/
def ZoneCall.Stamped (sh : Shctx) : ZoneCall → Prop
  | .crowdsecUpsert _ _ _ generation _ _ _ => generation ≤ sh.csGeneration
  | _ => True

/-- What a call does to the queue: it takes nodes out, and may then put one in
front that was seen just now. -/
inductive QueueEffect (now : Option Int) (q : List Node) : List Node → Prop
  | thinned {q' : List Node} : q'.Sublist q → QueueEffect now q q'
  | fronted {q' : List Node} (m : Node) : q'.Sublist q → now = some m.lastSeen →
      QueueEffect now q (m :: q')

theorem expire_sublist (zone : Zone) (now : Int) (batch : Nat) :
    (sentinelShmExpire ngx zone now batch sh).queue.Sublist sh.queue := by
  induction batch generalizing sh with
  | zero => exact List.Sublist.refl _
  | succ batch ih =>
      rw [sentinelShmExpire]
      split
      · exact List.Sublist.refl _
      next n _ =>
        split
        · exact List.Sublist.refl _
        split
        · exact List.Sublist.refl _
        · exact ih.trans (Keyed.erase_sublist _ _ n.key)

theorem sweepLoop_sublist (generation batch : Nat) (q : List Node) (deleted : Nat) :
    (crowdsecSweepLoop ngx generation batch q deleted sh).2.queue.Sublist sh.queue := by
  induction q generalizing deleted sh with
  | nil => exact List.Sublist.refl _
  | cons n q ih =>
      rw [crowdsecSweepLoop]
      split
      · split
        · exact (ih _).trans (Keyed.erase_sublist _ _ n.key)
        · exact ih _
      · exact List.Sublist.refl _

/-- Other nodes are left as they are by a store through the pointer of one that
is not among them. -/
theorem write_of_ne {q : List Node} {m : Node} (h : ∀ n ∈ q, n.key ≠ m.key) :
    Keyed.write Node.key q m = q := by
  rw [Keyed.write]
  conv_rhs => rw [← List.map_id q]
  refine List.map_congr_left fun n hn => ?_
  rw [if_neg (h n hn)]
  rfl

theorem touch_write_queue (wf : sh.Wf ngx) {n m : Node} (hkey : m.key = n.key) :
    ((sentinelShmTouch sh n).write m).queue = m :: Keyed.erase Node.key sh.queue n.key := by
  have hrest : ∀ a ∈ Keyed.erase Node.key sh.queue n.key, a.key ≠ m.key := by
    intro a ha
    rw [hkey]
    exact ((Keyed.mem_erase wf.unique).mp ha).2
  change Keyed.write Node.key (n :: _) m = _
  rw [show Keyed.write Node.key (n :: Keyed.erase Node.key sh.queue n.key) m =
    (if n.key = m.key then m else n) ::
      Keyed.write Node.key (Keyed.erase Node.key sh.queue n.key) m from rfl,
    if_pos hkey.symm, write_of_ne hrest]

theorem link_write_queue {n m : Node} (hkey : m.key = n.key) (habsent : sh.get n.key = none) :
    ((sentinelShmLink ngx sh n).write m).queue = m :: sh.queue := by
  have hrest : ∀ a ∈ sh.queue, a.key ≠ m.key := by
    rw [hkey]
    exact (Keyed.get_eq_none_iff _).mp habsent
  change Keyed.write Node.key (n :: sh.queue) m = _
  rw [show Keyed.write Node.key (n :: sh.queue) m =
    (if n.key = m.key then m else n) :: Keyed.write Node.key sh.queue m from rfl,
    if_pos hkey.symm, write_of_ne hrest]

variable {sh₁ : Shctx} {now : Int} {n m : Node}

theorem found_effect (wf : sh₁.Wf ngx) (hsub : sh₁.queue.Sublist sh.queue) {k : Key}
    (hget : sh₁.get k = some n) (hkey : m.key = n.key) (hhash : m.hash = n.hash)
    (hgen : m.csGeneration ≤ sh₁.csGeneration) (hnow : m.lastSeen = now) :
    ((sentinelShmTouch sh₁ n).write m).Wf ngx ∧
      QueueEffect (some now) sh.queue ((sentinelShmTouch sh₁ n).write m).queue := by
  refine ⟨(touch_write_spec wf hget hkey hhash hgen).1, ?_⟩
  rw [touch_write_queue wf hkey]
  exact .fronted m ((Keyed.erase_sublist _ _ _).trans hsub) (by rw [hnow])

theorem fresh_effect (wf : sh₁.Wf ngx) (hsub : sh₁.queue.Sublist sh.queue)
    (habsent : sh₁.get n.key = none) (hh : n.hash = ngx.crc32Short n.key.data)
    (hg : n.csGeneration = 0) (hkey : m.key = n.key) (hhash : m.hash = n.hash)
    (hgen : m.csGeneration ≤ sh₁.csGeneration) (hnow : m.lastSeen = now) :
    ((sentinelShmLink ngx sh₁ n).write m).Wf ngx ∧
      QueueEffect (some now) sh.queue ((sentinelShmLink ngx sh₁ n).write m).queue := by
  refine ⟨(link_write_spec wf habsent hh hg hkey hhash hgen).1, ?_⟩
  rw [link_write_queue hkey habsent]
  exact .fronted m hsub (by rw [hnow])

theorem lookupNode_lastSeen (zone : Zone) (n : Node) (now : Int) :
    (errrateLookupNode zone n now).2.lastSeen = n.lastSeen := by
  rw [errrateLookupNode]
  split
  · rfl
  · dsimp only
    split <;> rfl

theorem recordEvent_lastSeen (zone : Zone) (n : Node) (now : Int) :
    (errrateRecordEvent zone n now).lastSeen = n.lastSeen := by
  rw [errrateRecordEvent]
  dsimp only
  split <;> rfl

theorem recordNode_lastSeen (zone : Zone) (n : Node) (now : Int) :
    (errrateRecordNode zone n now).2.lastSeen = n.lastSeen := by
  rw [errrateRecordNode]
  split
  · rfl
  · dsimp only
    rw [recordEvent_lastSeen]
    split <;> rfl

/-- The call `op` leaves a store behind, with a queue that may come of the one before. -/
def CallEffect (ngx : NgxCore) (zone : Zone) (sh : Shctx) (op : ZoneCall) : Prop :=
  (op.run ngx zone sh).Wf ngx ∧ QueueEffect op.now sh.queue (op.run ngx zone sh).queue

section Effects
variable (zone : Zone) (wf : sh.Wf ngx) (key : Key) (now : Int)
include wf

theorem expired_wf : (sentinelShmExpire ngx zone now ngxSentinelExpireBatch sh).Wf ngx :=
  (expire_get zone now ngxSentinelExpireBatch wf).1

theorem errrateLookup_effect : CallEffect ngx zone sh (.errrateLookup key now) := by
  have hexp := expired_wf zone wf now
  have hsub := @expire_sublist ngx sh zone now ngxSentinelExpireBatch
  simp only [CallEffect, ZoneCall.run, sentinelShmErrrateLookup, sentinelShmLookup_eq_get hexp]
  split
  next hget => exact ⟨hexp, .thinned hsub⟩
  next n hget =>
    obtain ⟨hkey, hhash, hgen⟩ := lookupNode_sameId zone now { n with lastSeen := now }
    exact found_effect hexp hsub hget hkey hhash
      (hgen.trans_le (hexp.gen_le n (mem_of_get hget))) (lookupNode_lastSeen _ _ _)

theorem errrateRecord_effect (slab : Bool) :
    CallEffect ngx zone sh (.errrateRecord key now slab) := by
  have hexp := expired_wf zone wf now
  have hsub := @expire_sublist ngx sh zone now ngxSentinelExpireBatch
  simp only [CallEffect, ZoneCall.run, sentinelShmErrrateRecord, sentinelShmLookup_eq_get hexp]
  split
  next hget =>
    split
    next => exact ⟨hexp, .thinned hsub⟩
    next sh₂ n hcreate =>
      cases slab with
      | false => simp [sentinelShmCreateNode] at hcreate
      | true =>
          obtain ⟨m, hm, rfl, hhash, hzero, -, -, -, hseen⟩ := createNode_eq ngx zone
            (sentinelShmExpire ngx zone now ngxSentinelExpireBatch sh) now key
          rw [hm] at hcreate
          cases hcreate
          obtain ⟨hkey', hhash', hgen'⟩ := recordNode_sameId zone now n
          refine fresh_effect hexp hsub hget hhash hzero hkey' hhash' ?_ ?_
          · rw [hgen', hzero]
            exact Nat.zero_le _
          · rw [recordNode_lastSeen, hseen]
  next n hget =>
    obtain ⟨hkey, hhash, hgen⟩ := recordNode_sameId zone now { n with lastSeen := now }
    exact found_effect hexp hsub hget hkey hhash
      (hgen.trans_le (hexp.gen_le n (mem_of_get hget))) (recordNode_lastSeen _ _ _)

theorem softbanSet_effect (ttl : Int) (slab : Bool) :
    CallEffect ngx zone sh (.softbanSet key now ttl slab) := by
  have hexp := expired_wf zone wf now
  have hsub := @expire_sublist ngx sh zone now ngxSentinelExpireBatch
  simp only [CallEffect, ZoneCall.run, sentinelShmSoftbanSet, sentinelShmLookup_eq_get hexp]
  split
  next => exact ⟨wf, .thinned (List.Sublist.refl _)⟩
  next =>
    split
    next hget =>
      split
      next => exact ⟨hexp, .thinned hsub⟩
      next sh₂ n hcreate =>
        cases slab with
        | false => simp [sentinelShmCreateNode] at hcreate
        | true =>
            obtain ⟨m, hm, rfl, hhash, hzero, -⟩ := createNode_eq ngx zone
              (sentinelShmExpire ngx zone now ngxSentinelExpireBatch sh) now key
            rw [hm] at hcreate
            cases hcreate
            exact fresh_effect (m := softbanNode n now ttl) hexp hsub hget hhash hzero rfl rfl
              (hzero.trans_le (Nat.zero_le _)) rfl
    next n hget =>
      exact found_effect (m := softbanNode n now ttl) hexp hsub hget rfl rfl
        (hexp.gen_le n (mem_of_get hget)) rfl

theorem crowdsecLookup_effect : CallEffect ngx zone sh (.crowdsecLookup key now) := by
  have hexp := expired_wf zone wf now
  have hsub := @expire_sublist ngx sh zone now ngxSentinelExpireBatch
  simp only [CallEffect, ZoneCall.run, sentinelShmCrowdsecLookup, sentinelShmLookup_eq_get hexp]
  split
  next hget => exact ⟨hexp, .thinned hsub⟩
  next n hget =>
    have heffect := found_effect (m := { n with lastSeen := now }) hexp hsub hget rfl rfl
      (hexp.gen_le n (mem_of_get hget)) rfl
    split
    · exact heffect
    · exact heffect

theorem crowdsecUpsert_effect (expiry : Int) (action : UInt8) {generation : Nat}
    (redisPulled slab : Bool) (hstamped : generation ≤ sh.csGeneration) :
    CallEffect ngx zone sh (.crowdsecUpsert key expiry action generation now redisPulled slab) := by
  simp only [CallEffect, ZoneCall.run, sentinelShmCrowdsecUpsert, sentinelShmLookup_eq_get wf]
  split
  next hget =>
    split
    next => exact ⟨wf, .thinned (List.Sublist.refl _)⟩
    next sh₂ n hcreate =>
      cases slab with
      | false => simp [sentinelShmCrowdsecCreate] at hcreate
      | true =>
          obtain ⟨m, hm, rfl, hhash, hzero⟩ := crowdsecCreate_eq ngx sh key now
          rw [hm] at hcreate
          cases hcreate
          exact fresh_effect (m := crowdsecNode n expiry action generation now redisPulled) wf
            (List.Sublist.refl _) hget hhash hzero rfl rfl hstamped rfl
  next n hget =>
    exact found_effect (m := crowdsecNode n expiry action generation now redisPulled) wf
      (List.Sublist.refl _) hget rfl rfl hstamped rfl

end Effects

/-- What every call does to the store. -/
theorem call_spec (zone : Zone) (wf : sh.Wf ngx) (op : ZoneCall) (hstamped : op.Stamped sh) :
    (op.run ngx zone sh).Wf ngx ∧ QueueEffect op.now sh.queue (op.run ngx zone sh).queue := by
  cases op with
  | errrateLookup key now => exact errrateLookup_effect zone wf key now
  | errrateRecord key now slab => exact errrateRecord_effect zone wf key now slab
  | softbanSet key now ttl slab => exact softbanSet_effect zone wf key now ttl slab
  | crowdsecLookup key now => exact crowdsecLookup_effect zone wf key now
  | crowdsecUpsert key expiry action generation now redisPulled slab =>
      exact crowdsecUpsert_effect zone wf key now expiry action redisPulled slab hstamped
  | crowdsecBump =>
      exact ⟨⟨wf.sorted, wf.perm, wf.hash_eq, fun n hn => (wf.gen_le n hn).trans (Nat.le_succ _)⟩,
        .thinned (List.Sublist.refl _)⟩
  | crowdsecSweep generation batch =>
      exact ⟨(sweep_spec zone wf generation batch).2.1, .thinned (sweepLoop_sublist _ _ _ _)⟩

end Calls

section Runs
variable {ngx : NgxCore} {sh : Shctx}

/-- The stores that calls reach, each with a descriptor of its own. -/
inductive Reached (ngx : NgxCore) : Shctx → Prop
  | init : Reached ngx sentinelShmInitZone
  | call {sh : Shctx} (zone : Zone) (op : ZoneCall) : Reached ngx sh → op.Stamped sh →
      Reached ngx (op.run ngx zone sh)

/-- The stores that calls reach under a clock that has never run back and stands
at `t`. -/
inductive ReachedBy (ngx : NgxCore) : (t : Int) → Shctx → Prop
  | init (t : Int) : ReachedBy ngx t sentinelShmInitZone
  | call {t t' : Int} {sh : Shctx} (zone : Zone) (op : ZoneCall) : ReachedBy ngx t sh →
      t ≤ t' → (∀ now, op.now = some now → now = t') → op.Stamped sh →
      ReachedBy ngx t' (op.run ngx zone sh)

theorem Reached.wf (h : Reached ngx sh) : sh.Wf ngx := by
  induction h with
  | init => exact wf_init
  | call zone op _ hstamped ih => exact (call_spec zone ih op hstamped).1

theorem ReachedBy.reached {t : Int} (h : ReachedBy ngx t sh) : Reached ngx sh := by
  induction h with
  | init t => exact .init
  | call zone op _ _ _ hstamped ih => exact .call zone op ih hstamped

/-- A node further from the front was seen no later. -/
structure SeenInOrder (t : Int) (q : List Node) : Prop where
  order : q.Pairwise fun a b => b.lastSeen ≤ a.lastSeen
  past : ∀ n ∈ q, n.lastSeen ≤ t

theorem SeenInOrder.effect {t t' : Int} {now : Option Int} {q q' : List Node}
    (h : SeenInOrder t q) (ht : t ≤ t') (hnow : ∀ x, now = some x → x = t')
    (heffect : QueueEffect now q q') : SeenInOrder t' q' := by
  cases heffect with
  | thinned hsub => exact ⟨h.order.sublist hsub, fun n hn => (h.past n (hsub.subset hn)).trans ht⟩
  | fronted m hsub hm =>
      have hm' : m.lastSeen = t' := hnow _ hm
      refine ⟨List.pairwise_cons.mpr ⟨fun n hn => ?_, h.order.sublist hsub⟩, fun n hn => ?_⟩
      · rw [hm']
        exact (h.past n (hsub.subset hn)).trans ht
      · cases List.mem_cons.mp hn with
        | inl heq => rw [heq, hm']
        | inr hn => exact (h.past n (hsub.subset hn)).trans ht

theorem ReachedBy.seenInOrder {t : Int} (h : ReachedBy ngx t sh) : SeenInOrder t sh.queue := by
  induction h with
  | init t => exact ⟨List.Pairwise.nil, by simp [sentinelShmInitZone]⟩
  | call zone op hreached ht hnow hstamped ih =>
      exact ih.effect ht hnow (call_spec zone hreached.reached.wf op hstamped).2

/-- With a steady clock the nodes that are old enough are the least recently used. -/
theorem SeenInOrder.aged {t : Int} (h : SeenInOrder t sh.queue) (zone : Zone) (now : Int)
    (b : Nat) : ∀ n ∈ firstLooked zone now b sh, zone.interval ≤ now - n.lastSeen := by
  have hrun : sh.lru.Pairwise fun a b =>
      decide (zone.interval ≤ now - b.lastSeen) = true →
        decide (zone.interval ≤ now - a.lastSeen) = true := by
    rw [Shctx.lru, List.pairwise_reverse]
    refine h.order.imp fun hab hb => ?_
    rw [decide_eq_true_eq] at hb ⊢
    omega
  have hcount := FrontRun.count_eq_run hrun
  have hdead : deadCount zone now sh ≤
      sh.lru.countP fun n => decide (zone.interval ≤ now - n.lastSeen) := by
    rw [deadCount, ← List.countP_reverse, ← Shctx.lru]
    refine List.countP_mono_left fun n _ hn => ?_
    rw [decide_eq_true_eq] at hn ⊢
    exact hn.2
  have hle : min b (deadCount zone now sh) ≤
      (sh.lru.takeWhile fun n => decide (zone.interval ≤ now - n.lastSeen)).length := by
    omega
  have hall := (FrontRun.le_run_iff (hle.trans (List.takeWhile_prefix _).length_le)).mp hle
  intro n hn
  simpa using hall n hn

end Runs

section Full
variable {ngx : NgxCore} {sh : Shctx} {zone : Zone} {now : Int}

/-- The slab of a zone that holds as many nodes as it has room for: there is room
for one more if the eviction has made some. -/
def slabFull (ngx : NgxCore) (zone : Zone) (now : Int) (sh : Shctx) : Bool :=
  (sentinelShmExpire ngx zone now ngxSentinelExpireBatch sh).queue.length < sh.queue.length

/-- A full zone gets room exactly when the first node looked at is dead. -/
theorem slabFull_iff (wf : sh.Wf ngx) :
    (slabFull ngx zone now sh = false → deadCount zone now sh = 0) ↔
      ∀ n ∈ firstLooked zone now 1 sh, Dead zone now n := by
  have hlen : (sentinelShmExpire ngx zone now ngxSentinelExpireBatch sh).queue.length =
      sh.queue.length - FrontRun.taken (fun n => decide (Dead zone now n))
        ngxSentinelExpireBatch sh.lru := by
    have hl := congrArg List.length (expire_lru zone now ngxSentinelExpireBatch wf)
    simpa [Shctx.lru] using hl
  have hcount : deadCount zone now sh = sh.lru.countP fun n => decide (Dead zone now n) :=
    List.countP_reverse.symm
  rw [slabFull, decide_eq_false_iff_not, hlen, firstLooked, hcount,
    show sh.queue.length = sh.lru.length from List.length_reverse.symm]
  cases sh.lru with
  | nil => simp
  | cons n q =>
      by_cases hdead : Dead zone now n
      · have htaken : 0 < FrontRun.taken (fun n => decide (Dead zone now n))
            ngxSentinelExpireBatch (n :: q) := by
          simp [FrontRun.taken, hdead, ngxSentinelExpireBatch]
        simp only [List.length_cons]
        constructor
        · intro _ m hm
          have hmem := (List.take_subset_take_left _ (Nat.min_le_left _ _)) hm
          simp only [List.take_succ_cons, List.take_zero, List.mem_singleton] at hmem
          exact hmem ▸ hdead
        · intro _ hfull
          omega
      · have htaken : FrontRun.taken (fun n => decide (Dead zone now n))
            ngxSentinelExpireBatch (n :: q) = 0 := by
          simp [FrontRun.taken, hdead]
        rw [htaken]
        constructor
        · intro h m hm
          rw [h (by simp)] at hm
          simp at hm
        · intro h _
          by_contra hne
          have hone : min 1 ((n :: q).countP fun n => decide (Dead zone now n)) = 1 := by omega
          rw [hone] at h
          exact hdead (h n (by simp))

theorem recordNode_rc (n : Node) : (errrateRecordNode zone n now).1.rc ≠ .error := by
  rw [errrateRecordNode]
  split
  · simp
  · dsimp only
    generalize errrateRecordEvent zone _ now = m
    by_cases hban : m.blockedUntil > now
    · simp [hban]
    · simp [hban]

theorem record_error_iff (wf : sh.Wf ngx) {key : Key} (habsent : sh.get key = none) (slab : Bool) :
    (sentinelShmErrrateRecord ngx (some zone) sh key now slab).1.rc = .error ↔ slab = false := by
  have hexp := expire_get zone now ngxSentinelExpireBatch wf
  have hnone : (sentinelShmExpire ngx zone now ngxSentinelExpireBatch sh).get key = none := by
    cases hexp.2 key with
    | inl hsame => exact hsame.trans habsent
    | inr hgone => exact hgone.1
  simp only [sentinelShmErrrateRecord, sentinelShmLookup_eq_get hexp.1, hnone]
  cases slab with
  | false => simp [sentinelShmCreateNode]
  | true =>
      obtain ⟨n, hcreate, -⟩ := createNode_eq ngx zone
        (sentinelShmExpire ngx zone now ngxSentinelExpireBatch sh) now key
      simp only [hcreate, Bool.true_eq_false, iff_false]
      exact recordNode_rc n

theorem softban_error_iff (wf : sh.Wf ngx) {key : Key} (habsent : sh.get key = none) {ttl : Int}
    (httl : 0 < ttl) (slab : Bool) :
    (sentinelShmSoftbanSet ngx (some zone) sh key now ttl slab).1 = .error ↔ slab = false := by
  have hexp := expire_get zone now ngxSentinelExpireBatch wf
  have hnone : (sentinelShmExpire ngx zone now ngxSentinelExpireBatch sh).get key = none := by
    cases hexp.2 key with
    | inl hsame => exact hsame.trans habsent
    | inr hgone => exact hgone.1
  simp only [sentinelShmSoftbanSet, sentinelShmLookup_eq_get hexp.1, hnone]
  rw [if_neg (by omega)]
  cases slab with
  | false => simp [sentinelShmCreateNode]
  | true =>
      obtain ⟨n, hcreate, -⟩ := createNode_eq ngx zone
        (sentinelShmExpire ngx zone now ngxSentinelExpireBatch sh) now key
      simp [hcreate]

end Full

/-- The eviction makes the progress it could make exactly when none of the nodes
it would look at must be kept; under a steady clock only a ban can keep one. A
full zone refuses a new key beside a dead node in the same way. -/
theorem eviction_progress_iff {ngx : NgxCore} {sh : Shctx} (hreached : Reached ngx sh)
    (zone : Zone) (now : Int) (b : Nat) :
    (Progress ngx zone now b sh ↔ ∀ n ∈ firstLooked zone now b sh, Dead zone now n) ∧
    (∀ t, ReachedBy ngx t sh →
      (Progress ngx zone now b sh ↔ ∀ n ∈ firstLooked zone now b sh, n.blockedUntil ≤ now)) ∧
    ∀ key, sh.get key = none → ∀ ttl > 0,
      (((sentinelShmErrrateRecord ngx (some zone) sh key now (slabFull ngx zone now sh)).1.rc =
          .error → deadCount zone now sh = 0) ↔
        ∀ n ∈ firstLooked zone now 1 sh, Dead zone now n) ∧
      (((sentinelShmSoftbanSet ngx (some zone) sh key now ttl (slabFull ngx zone now sh)).1 =
          .error → deadCount zone now sh = 0) ↔
        ∀ n ∈ firstLooked zone now 1 sh, Dead zone now n) := by
  have wf := hreached.wf
  refine ⟨progress_iff zone now b wf, fun t ht => ?_, fun key habsent ttl httl => ⟨?_, ?_⟩⟩
  · rw [progress_iff zone now b wf]
    have haged := ht.seenInOrder.aged zone now b
    constructor
    · exact fun h n hn => (h n hn).1
    · exact fun h n hn => ⟨h n hn, haged n hn⟩
  · rw [record_error_iff wf habsent]
    exact slabFull_iff wf
  · rw [softban_error_iff wf habsent httl]
    exact slabFull_iff wf

section Pinned

/-- A ban of 1000 seconds at 0, and an address seen once at 1. -/
def pinnedStore : Shctx :=
  (ZoneCall.errrateRecord ⟨str "B", by decide⟩ 1 true).run Ref.ngx ⟨10, 60, 5⟩
    ((ZoneCall.softbanSet ⟨str "A", by decide⟩ 0 1000 true).run Ref.ngx ⟨10, 60, 5⟩
      sentinelShmInitZone)

theorem pinnedStore_reached : ReachedBy Ref.ngx 1 pinnedStore := by
  have hbanned : ReachedBy Ref.ngx 0 ((ZoneCall.softbanSet ⟨str "A", by decide⟩ 0 1000 true).run
      Ref.ngx ⟨10, 60, 5⟩ sentinelShmInitZone) := by
    apply ReachedBy.call _ _ (.init 0) (Int.le_refl 0)
    · intro now h
      exact (Option.some.inj h).symm
    · trivial
  apply ReachedBy.call _ _ hbanned (by decide)
  · intro now h
    exact (Option.some.inj h).symm
  · trivial

/-- At 100 the second node is dead behind the first, which is not; nothing is
freed, and a third address is refused. -/
theorem ban_pins_dead_node :
    let zone : Zone := ⟨10, 60, 5⟩
    Reached Ref.ngx pinnedStore ∧ (∀ n ∈ pinnedStore.queue, n.lastSeen ≤ 100) ∧
      deadCount zone 100 pinnedStore = 1 ∧ ¬ Progress Ref.ngx zone 100 2 pinnedStore ∧
      (sentinelShmErrrateRecord Ref.ngx (some zone) pinnedStore ⟨str "C", by decide⟩ 100
        (slabFull Ref.ngx zone 100 pinnedStore)).1.rc = .error := by
  intro zone
  refine ⟨pinnedStore_reached.reached, by decide +kernel, by decide +kernel, fun h => ?_,
    by decide +kernel⟩
  exact absurd h.freed (by decide +kernel)

/-- The same store when the ban has run out: both nodes are looked at. -/
theorem eviction_progress_after_ban :
    Progress Ref.ngx ⟨10, 60, 5⟩ 2000 2 pinnedStore ↔
      ∀ n ∈ firstLooked ⟨10, 60, 5⟩ 2000 2 pinnedStore, n.blockedUntil ≤ 2000 :=
  (eviction_progress_iff pinnedStore_reached.reached ⟨10, 60, 5⟩ 2000 2).2.1 1 pinnedStore_reached

end Pinned
end Sentinel
