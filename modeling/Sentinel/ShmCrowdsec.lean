import Sentinel.ShmWf

/-!
The CrowdSec half of `sentinel_shm.c`: the upsert of one decision and the sweep
that drops nodes of other generations. Both run under the caller's lock. Each is
described by what it does to `Shctx.get`.
-/

namespace Sentinel

def ngxSentinelCsNone : UInt8 := 0
def ngxSentinelCsBan : UInt8 := 1
def ngxSentinelCsCaptcha : UInt8 := 2
def ngxSentinelCsThrottle : UInt8 := 3

/-- `sentinel_shm_crowdsec_create`: a node without an event ring. -/
def sentinelShmCrowdsecCreate (ngx : NgxCore) (sh : Shctx) (hash : UInt32) (key : Key)
    (now : Int) (slab : Bool) : Option (Shctx × Node) :=
  if slab then
    let n : Node :=
      { hash, key, blockedUntil := 0, lastSeen := now, eventHead := 0, eventCount := 0,
        csGeneration := 0, csAction := ngxSentinelCsNone, redisPulled := false,
        events := fun _ => 0, slots := 0 }
    some (sentinelShmLink ngx sh n, n)
  else none

/-- The stores that end an upsert. -/
def crowdsecNode (n : Node) (expiry : Int) (action : UInt8) (generation : Nat) (now : Int)
    (redisPulled : Bool) : Node :=
  { n with
    blockedUntil := expiry, csAction := action, csGeneration := generation, redisPulled,
    lastSeen := now }

def sentinelShmCrowdsecUpsert (ngx : NgxCore) (zone : Option Zone) (sh : Shctx) (key : Key)
    (expiry : Int) (action : UInt8) (generation : Nat) (now : Int) (redisPulled slab : Bool) :
    NgxRc × Shctx :=
  match zone with
  | none => (.error, sh)
  | some _ =>
      let hash := ngx.crc32Short key.data
      match sentinelShmLookup ngx sh hash key with
      | none =>
          match sentinelShmCrowdsecCreate ngx sh hash key now slab with
          | none => (.error, sh)
          | some (sh, n) =>
              (.ok, sh.write (crowdsecNode n expiry action generation now redisPulled))
      | some n =>
          (.ok, (sentinelShmTouch sh n).write
            (crowdsecNode n expiry action generation now redisPulled))

/-- `sentinel_shm_crowdsec_lookup`, which the verdict cache reads through as well:
the action of an entry that has not run out. -/
def sentinelShmCrowdsecLookup (ngx : NgxCore) (zone : Option Zone) (sh : Shctx) (key : Key)
    (now : Int) : NgxRc × UInt8 × Shctx :=
  match zone with
  | none => (.error, ngxSentinelCsNone, sh)
  | some zone =>
      let sh := sentinelShmExpire ngx zone now ngxSentinelExpireBatch sh
      match sentinelShmLookup ngx sh (ngx.crc32Short key.data) key with
      | none => (.ok, ngxSentinelCsNone, sh)
      | some n =>
          let sh := (sentinelShmTouch sh n).write { n with lastSeen := now }
          if n.blockedUntil ≤ now then (.ok, ngxSentinelCsNone, sh)
          else (.busy, n.csAction, sh)

/-- The walk of the sweep from the tail; the list is what is left of it. -/
def crowdsecSweepLoop (ngx : NgxCore) (generation batch : Nat) :
    List Node → (deleted : Nat) → Shctx → Nat × Shctx
  | [], deleted, sh => (deleted, sh)
  | n :: q, deleted, sh =>
      if deleted < batch then
        if n.csGeneration ≠ generation then
          crowdsecSweepLoop ngx generation batch q (deleted + 1) (sentinelShmRemove ngx sh n)
        else crowdsecSweepLoop ngx generation batch q deleted sh
      else (deleted, sh)

def sentinelShmCrowdsecSweep (ngx : NgxCore) (zone : Option Zone) (sh : Shctx)
    (generation batch : Nat) : Nat × Shctx :=
  match zone with
  | none => (0, sh)
  | some _ => crowdsecSweepLoop ngx generation batch sh.queue.reverse 0 sh

/-- What a node says about its key: how long, what to do, and which load said so. -/
def Node.entry (n : Node) : Int × UInt8 × Nat := (n.blockedUntil, n.csAction, n.csGeneration)

section Upsert
variable {ngx : NgxCore} {sh : Shctx} {key : Key} {expiry : Int} {action : UInt8}
  {generation : Nat} {now : Int} {redisPulled slab : Bool}

/-- What a successful upsert leaves under its key. -/
def Upserted (n : Node) (key : Key) (expiry : Int) (action : UInt8) (generation : Nat) :
    Prop :=
  n.key = key ∧ n.blockedUntil = expiry ∧ n.csAction = action ∧ n.csGeneration = generation

theorem crowdsecNode_upserted (n : Node) (expiry : Int) (action : UInt8) (generation : Nat)
    (now : Int) (redisPulled : Bool) :
    Upserted (crowdsecNode n expiry action generation now redisPulled) n.key expiry action
      generation :=
  ⟨rfl, rfl, rfl, rfl⟩

theorem crowdsecCreate_eq (ngx : NgxCore) (sh : Shctx) (key : Key) (now : Int) :
    ∃ n, sentinelShmCrowdsecCreate ngx sh (ngx.crc32Short key.data) key now true =
        some (sentinelShmLink ngx sh n, n) ∧
      n.key = key ∧ n.hash = ngx.crc32Short key.data ∧ n.csGeneration = 0 :=
  ⟨_, rfl, rfl, rfl, rfl⟩

theorem upsert_spec (zone : Zone) (expiry : Int) (action : UInt8) (now : Int)
    (redisPulled : Bool) (wf : sh.Wf ngx) (hg : generation ≤ sh.csGeneration)
    (hroom : slab = true ∨ (sh.get key).isSome) :
    let r := sentinelShmCrowdsecUpsert ngx (some zone) sh key expiry action generation now
      redisPulled slab
    r.1 = .ok ∧ r.2.Wf ngx ∧ r.2.csGeneration = sh.csGeneration ∧
      ∃ n, Upserted n key expiry action generation ∧
        ∀ k, r.2.get k = if k = key then some n else sh.get k := by
  rw [sentinelShmCrowdsecUpsert]
  simp only [sentinelShmLookup_eq_get wf]
  cases hget : sh.get key with
  | none =>
      have hslab : slab = true := by simpa [hget] using hroom
      obtain ⟨n, hcreate, rfl, hhash, hzero⟩ := crowdsecCreate_eq ngx sh key now
      obtain ⟨hwf, hafter⟩ := link_write_spec (m := crowdsecNode n expiry action generation now
        redisPulled) wf hget hhash hzero rfl rfl hg
      simp only [hslab, hcreate, true_and]
      exact ⟨hwf, rfl, _, crowdsecNode_upserted n expiry action generation now redisPulled, hafter⟩
  | some n =>
      obtain rfl := get_key hget
      obtain ⟨hwf, hafter⟩ := touch_write_spec (m := crowdsecNode n expiry action generation now
        redisPulled) wf hget rfl rfl hg
      exact ⟨rfl, hwf, rfl, _, crowdsecNode_upserted n expiry action generation now redisPulled,
        hafter⟩

theorem upsert_refused (zone : Zone) (wf : sh.Wf ngx) (hslab : slab = false)
    (hnew : sh.get key = none) :
    sentinelShmCrowdsecUpsert ngx (some zone) sh key expiry action generation now redisPulled
      slab = (.error, sh) := by
  simp [sentinelShmCrowdsecUpsert, sentinelShmLookup_eq_get wf, hnew, hslab,
    sentinelShmCrowdsecCreate]

end Upsert

section Lookup
variable {ngx : NgxCore} {sh : Shctx}

/-- Nodes lose nothing but their place in the queue and the time they were last
seen, and a node that is gone had run out. -/
def Fades (now : Int) (sh sh' : Shctx) : Prop :=
  ∀ k, (sh'.get k).map Node.entry = (sh.get k).map Node.entry ∨
    sh'.get k = none ∧ ∃ n, sh.get k = some n ∧ n.blockedUntil ≤ now

theorem fades_expire (zone : Zone) (wf : sh.Wf ngx) (now : Int) (batch : Nat) :
    Fades now sh (sentinelShmExpire ngx zone now batch sh) := by
  intro k
  cases (expire_get zone now batch wf).2 k with
  | inl hsame =>
      left
      rw [hsame]
  | inr hgone =>
      obtain ⟨hnone, n, hn, hdead⟩ := hgone
      exact .inr ⟨hnone, n, hn, hdead.1⟩

theorem Fades.of_entries {now : Int} {sh₁ sh₂ : Shctx} (h : Fades now sh sh₁)
    (hsame : ∀ k, (sh₂.get k).map Node.entry = (sh₁.get k).map Node.entry) : Fades now sh sh₂ := by
  intro k
  cases h k with
  | inl hkept => exact .inl ((hsame k).trans hkept)
  | inr hgone =>
      refine .inr ⟨?_, hgone.2⟩
      have hk := hsame k
      rwa [hgone.1, Option.map_none, Option.map_eq_none_iff] at hk

/-- What is found after an eviction was there before it. -/
theorem get_of_expire (zone : Zone) (wf : sh.Wf ngx) {now : Int} {batch : Nat} {key : Key}
    {n : Node} (h : (sentinelShmExpire ngx zone now batch sh).get key = some n) :
    sh.get key = some n := by
  cases (expire_get zone now batch wf).2 key with
  | inl hsame => exact hsame.symm.trans h
  | inr hgone =>
      rw [h] at hgone
      exact absurd hgone.1 (by simp)

theorem entries_touch (wf : sh.Wf ngx) {n : Node} (hget : sh.get n.key = some n) (now : Int) :
    let sh' := (sentinelShmTouch sh n).write { n with lastSeen := now }
    sh'.Wf ngx ∧ ∀ k, (sh'.get k).map Node.entry = (sh.get k).map Node.entry := by
  obtain ⟨hwf, hafter⟩ := touch_write_spec (m := { n with lastSeen := now }) wf hget rfl rfl
    (wf.gen_le n (mem_of_get hget))
  refine ⟨hwf, fun k => ?_⟩
  rw [hafter]
  by_cases hk : k = n.key
  · simp [hk, hget, Node.entry]
  · simp [hk]

/-- What a lookup answers, and what it leaves. -/
theorem crowdsecLookup_spec (zone : Zone) (wf : sh.Wf ngx) (key : Key) (now : Int) :
    let r := sentinelShmCrowdsecLookup ngx (some zone) sh key now
    r.2.2.Wf ngx ∧ r.2.2.csGeneration = sh.csGeneration ∧ Fades now sh r.2.2 ∧
      (r.1 = .busy ∧ (∃ n, sh.get key = some n ∧ now < n.blockedUntil ∧ r.2.1 = n.csAction) ∨
        r.1 = .ok ∧ ∀ n, sh.get key = some n → n.blockedUntil ≤ now) := by
  have wf₁ := (expire_get zone now ngxSentinelExpireBatch wf).1
  have hfades := fades_expire zone wf now ngxSentinelExpireBatch
  have hgen : (sentinelShmExpire ngx zone now ngxSentinelExpireBatch sh).csGeneration =
      sh.csGeneration := expire_csGeneration zone now ngxSentinelExpireBatch
  have hfound : ∀ n, (sentinelShmExpire ngx zone now ngxSentinelExpireBatch sh).get key = some n →
      sh.get key = some n := fun n => get_of_expire zone wf
  have hlook := sentinelShmLookup_eq_get wf₁ key
  simp only [sentinelShmCrowdsecLookup]
  generalize sentinelShmExpire ngx zone now ngxSentinelExpireBatch sh = sh₁
    at wf₁ hfades hgen hfound hlook
  cases hget : sh₁.get key with
  | none =>
      rw [hget] at hlook
      simp only [hlook]
      refine ⟨wf₁, hgen, hfades, .inr ⟨trivial, fun n hn => ?_⟩⟩
      cases hfades key with
      | inl hsame =>
          rw [hget, hn] at hsame
          contradiction
      | inr hgone =>
          obtain ⟨-, m, hm, hover⟩ := hgone
          rw [Option.some.inj (hn.symm.trans hm)]
          exact hover
  | some n =>
      rw [hget] at hlook
      simp only [hlook]
      have hsame := hfound n hget
      obtain rfl := get_key hget
      obtain ⟨hwf, hentries⟩ := entries_touch wf₁ hget now
      split
      next hover =>
        refine ⟨hwf, hgen, hfades.of_entries hentries, .inr ⟨rfl, fun m hm => ?_⟩⟩
        rw [← Option.some.inj (hsame.symm.trans hm)]
        exact hover
      next hover =>
        exact ⟨hwf, hgen, hfades.of_entries hentries, .inl ⟨rfl, n, hsame, by omega, rfl⟩⟩

end Lookup

section Sweep
variable {ngx : NgxCore} {sh : Shctx}

/-- The nodes that a sweep call removes: the first `batch` from the tail with
another stamp. -/
def crowdsecVictims (generation batch : Nat) (sh : Shctx) : List Node :=
  (sh.queue.reverse.filter fun n => n.csGeneration ≠ generation).take batch

/-- One invariant carries the walk: what is left of it is still in the queue. -/
theorem sweepLoop_spec (generation batch : Nat) (q : List Node) :
    ∀ (deleted : Nat) (sh : Shctx), sh.Wf ngx → Keyed.Unique Node.key q →
      (∀ n ∈ q, n ∈ sh.queue) →
      let r := crowdsecSweepLoop ngx generation batch q deleted sh
      let v := (q.filter fun n => n.csGeneration ≠ generation).take (batch - deleted)
      r.1 = deleted + v.length ∧ r.2.Wf ngx ∧ r.2.csGeneration = sh.csGeneration ∧
        r.2.queue.length + v.length = sh.queue.length ∧
        ∀ k, r.2.get k = if ∃ n ∈ v, n.key = k then none else sh.get k := by
  induction q with
  | nil =>
      intro deleted sh wf _ _
      simpa [crowdsecSweepLoop] using wf
  | cons n q ih =>
      intro deleted sh wf hu hq
      have hn : n ∈ sh.queue := hq n List.mem_cons_self
      by_cases hd : deleted < batch
      · by_cases hgen : n.csGeneration = generation
        · have hstep := ih deleted sh wf hu.of_cons fun m hm => hq m (List.mem_cons_of_mem _ hm)
          simpa [crowdsecSweepLoop, hd, hgen] using hstep
        · have hmem : ∀ m ∈ q, m ∈ (sentinelShmRemove ngx sh n).queue := by
            intro m hm
            refine (mem_remove wf).mpr ⟨hq m (List.mem_cons_of_mem _ hm), ?_⟩
            intro he
            exact (List.nodup_cons.mp hu).1 (he ▸ List.mem_map_of_mem hm)
          obtain ⟨hcount, hwf, hg, hlen, hget⟩ :=
            ih (deleted + 1) _ (wf_remove wf hn) hu.of_cons hmem
          have hroom : batch - deleted = (batch - (deleted + 1)) + 1 := by omega
          simp only [crowdsecSweepLoop, hd, if_true, ne_eq, hgen, not_false_eq_true,
            decide_true, List.filter_cons_of_pos, hroom, List.take_succ_cons,
            List.length_cons] at hcount hlen hget ⊢
          have herase := length_remove ngx hn
          refine ⟨by omega, hwf, hg, by omega, fun k => ?_⟩
          rw [hget, get_remove wf]
          by_cases hk : k = n.key
          · simp [hk]
          · have hk' : ¬ n.key = k := fun h => hk h.symm
            simp [hk, hk']
      · have hzero : batch - deleted = 0 := by omega
        simpa [crowdsecSweepLoop, hd, hzero] using wf

theorem mem_victims {generation batch : Nat} {n : Node}
    (h : n ∈ crowdsecVictims generation batch sh) :
    n ∈ sh.queue ∧ n.csGeneration ≠ generation := by
  have hn := List.mem_of_mem_take h
  simpa using hn

theorem sweep_spec (zone : Zone) (wf : sh.Wf ngx) (generation batch : Nat) :
    let r := sentinelShmCrowdsecSweep ngx (some zone) sh generation batch
    let v := crowdsecVictims generation batch sh
    r.1 = v.length ∧ r.2.Wf ngx ∧ r.2.csGeneration = sh.csGeneration ∧
      r.2.queue.length + v.length = sh.queue.length ∧
      ∀ k, r.2.get k = if ∃ n ∈ v, n.key = k then none else sh.get k := by
  have hu : Keyed.Unique Node.key sh.queue.reverse := by
    rw [Keyed.Unique, List.map_reverse, List.nodup_reverse]
    exact wf.unique
  simpa [crowdsecVictims, sentinelShmCrowdsecSweep] using
    sweepLoop_spec generation batch sh.queue.reverse 0 sh wf hu fun n hn => by simpa using hn

/-- A sweep call that finds nothing means that every node has the stamp. -/
theorem victims_eq_nil_iff {generation batch : Nat} (hb : 0 < batch) :
    crowdsecVictims generation batch sh = [] ↔ ∀ n ∈ sh.queue, n.csGeneration = generation := by
  have hne : ¬ batch = 0 := by omega
  simp [crowdsecVictims, hne]

end Sweep
end Sentinel
