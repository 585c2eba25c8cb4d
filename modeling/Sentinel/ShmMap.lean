import Mathlib.Data.List.Induction
import Sentinel.Lib.Run
import Sentinel.NgxRef
import Sentinel.ShmWf

/-!
The tree over a whole history of insertions and deletions. What a lookup returns
is read off the history alone: the node of the insertion that no deletion of its
key has followed. The hash is any function of the key, so any keys may collide.
-/

namespace Sentinel

/-- A change of the tree. An insertion fails when the slab has no room; a
deletion unlinks the node of the key that the queue holds, if it holds one. -/
inductive MapOp where
  | insert (k : Key) (now : Int) (slab : Bool)
  | delete (k : Key)
  deriving DecidableEq

section History
variable (ngx : NgxCore) (zone : Zone)

def mapStep (sh : Shctx) : MapOp → Shctx
  | .insert k now slab =>
      match sentinelShmCreateNode ngx zone sh (ngx.crc32Short k.data) k now slab with
      | none => sh
      | some (sh, _) => sh
  | .delete k =>
      match sh.get k with
      | none => sh
      | some n => sentinelShmRemove ngx sh n

/-- The store after a history. -/
def mapRun (ops : List MapOp) : Shctx := Run.exec (mapStep ngx zone) sentinelShmInitZone ops

/-- The node that `sentinel_shm_create_node` fills in. -/
def createdNode (k : Key) (now : Int) : Node :=
  { hash := ngx.crc32Short k.data, key := k, blockedUntil := 0, lastSeen := now, eventHead := 0,
    eventCount := 0, csGeneration := 0, csAction := 0, redisPulled := false, events := fun _ => 0,
    slots := (sentinelNodeSize k.data.length zone.threshold -
      sentinelEventsOffset k.data.length) / 8 }

theorem get_created (sh : Shctx) (k : Key) (now : Int) (k' : Key) :
    (sentinelShmLink ngx sh (createdNode ngx zone k now)).get k' =
      if k = k' then some (createdNode ngx zone k now) else sh.get k' :=
  get_link (createdNode ngx zone k now) k'

theorem createNode_created (sh : Shctx) (k : Key) (now : Int) (slab : Bool) :
    sentinelShmCreateNode ngx zone sh (ngx.crc32Short k.data) k now slab =
      if slab then
        some (sentinelShmLink ngx sh (createdNode ngx zone k now), createdNode ngx zone k now)
      else none := rfl

end History

/-- The key was inserted at `now`, and no deletion of it came later. -/
def Inserted (ops : List MapOp) (k : Key) (now : Int) : Prop :=
  ∃ before after, ops = before ++ .insert k now true :: after ∧ .delete k ∉ after

/-- Each insertion is of a key that the tree does not hold. -/
def InsertsDistinct (ops : List MapOp) : Prop :=
  ∀ before k now slab after, ops = before ++ .insert k now slab :: after →
    ∀ now', ¬ Inserted before k now'

/-- The key that an operation inserts. -/
def MapOp.insertedKey : MapOp → Option Key
  | .insert k _ _ => some k
  | .delete _ => none

section Snoc
variable {ops : List MapOp} {k : Key} {now : Int}

theorem not_inserted_nil : ¬ Inserted [] k now := by
  intro h
  obtain ⟨before, after, hops, -⟩ := h
  simp at hops

/-- One more operation: either it is the insertion, or it is no deletion. -/
theorem inserted_concat {op : MapOp} :
    Inserted (ops ++ [op]) k now ↔
      op = .insert k now true ∨ (Inserted ops k now ∧ op ≠ .delete k) := by
  constructor
  · intro hins
    obtain ⟨before, after, h, hafter⟩ := hins
    cases List.eq_nil_or_concat after with
    | inl hnil =>
        rw [hnil] at h
        exact .inl (List.singleton_inj.mp (List.append_inj' h rfl).2)
    | inr hlast =>
        obtain ⟨after, last, rfl⟩ := hlast
        rw [List.concat_eq_append, ← List.cons_append, ← List.append_assoc] at h
        obtain ⟨hops, hop⟩ := List.append_inj' h rfl
        obtain rfl : op = last := List.singleton_inj.mp hop
        simp only [List.concat_eq_append, List.mem_append, List.mem_singleton, not_or] at hafter
        exact .inr ⟨⟨before, after, hops, hafter.1⟩, fun he => hafter.2 he.symm⟩
  · intro h
    cases h with
    | inl h => exact ⟨ops, [], by rw [h], by simp⟩
    | inr h =>
        obtain ⟨⟨before, after, rfl, hafter⟩, hop⟩ := h
        refine ⟨before, after ++ [op], by simp, ?_⟩
        simp only [List.mem_append, List.mem_singleton, not_or]
        exact ⟨hafter, fun he => hop he.symm⟩

theorem InsertsDistinct.init {op : MapOp} (h : InsertsDistinct (ops ++ [op])) :
    InsertsDistinct ops := by
  intro before k now slab after hops
  exact h before k now slab (after ++ [op]) (by simp [hops])

theorem insertsDistinct_of_nodup (h : (ops.filterMap MapOp.insertedKey).Nodup) :
    InsertsDistinct ops := by
  intro before k now slab after hops now' hins
  obtain ⟨before', after', rfl, -⟩ := hins
  rw [hops] at h
  simp only [List.filterMap_append, List.filterMap_cons, MapOp.insertedKey, List.append_assoc,
    List.cons_append] at h
  have htail := (List.nodup_append.mp h).2.1
  exact (List.nodup_cons.mp htail).1 (by simp)

end Snoc

section Map
variable (ngx : NgxCore) (zone : Zone)

/-- What the store holds after a history. -/
structure MapHolds (ops : List MapOp) (sh : Shctx) : Prop where
  wf : sh.Wf ngx
  get_iff : ∀ k n, sh.get k = some n ↔ ∃ now, Inserted ops k now ∧ n = createdNode ngx zone k now

variable {ngx zone} {ops : List MapOp} {sh : Shctx}

theorem MapHolds.get_none (h : MapHolds ngx zone ops sh) {k : Key}
    (hk : ∀ now, ¬ Inserted ops k now) : sh.get k = none := by
  rw [Option.eq_none_iff_forall_ne_some]
  intro n hn
  obtain ⟨now, hins, -⟩ := (h.get_iff k n).mp hn
  exact hk now hins

theorem mapHolds_init : MapHolds ngx zone [] sentinelShmInitZone where
  wf := wf_init
  get_iff := by
    intro k n
    simp only [not_inserted_nil, false_and, exists_false, iff_false]
    exact fun h => by simp [Shctx.get, Keyed.get, sentinelShmInitZone] at h

/-- A fresh key goes in, and every other key keeps its node. -/
theorem mapHolds_insert (h : MapHolds ngx zone ops sh) {k : Key} {now : Int} {slab : Bool}
    (hfresh : ∀ now', ¬ Inserted ops k now') :
    MapHolds ngx zone (ops ++ [.insert k now slab]) (mapStep ngx zone sh (.insert k now slab)) := by
  have hnone := h.get_none hfresh
  rw [mapStep, createNode_created]
  cases slab with
  | false =>
      refine ⟨h.wf, fun k' n => ?_⟩
      simp only [Bool.false_eq_true, if_false, inserted_concat]
      simpa using h.get_iff k' n
  | true =>
      refine ⟨wf_link h.wf hnone rfl (Nat.zero_le _), fun k' n => ?_⟩
      simp only [if_true, get_created, inserted_concat]
      by_cases hk : k = k'
      · subst hk
        rw [if_pos rfl, Option.some.injEq]
        constructor
        · exact fun he => ⟨now, .inl rfl, he.symm⟩
        · intro hex
          obtain ⟨now', hor, rfl⟩ := hex
          cases hor with
          | inl he =>
              obtain ⟨-, rfl, -⟩ := MapOp.insert.inj he
              rfl
          | inr hins => exact absurd hins.1 (hfresh now')
      · rw [if_neg hk, h.get_iff]
        refine exists_congr fun now' => and_congr_left' ?_
        simp [hk]

/-- A key goes out, and every other key keeps its node. -/
theorem mapHolds_delete (h : MapHolds ngx zone ops sh) (k : Key) :
    MapHolds ngx zone (ops ++ [.delete k]) (mapStep ngx zone sh (.delete k)) := by
  rw [mapStep]
  cases hget : sh.get k with
  | none =>
      refine ⟨h.wf, fun k' n => ?_⟩
      simp only [inserted_concat, reduceCtorEq, false_or, ne_eq, MapOp.delete.injEq]
      by_cases hk : k = k'
      · subst hk
        simp [hget]
      · simpa [hk] using h.get_iff k' n
  | some m =>
      obtain rfl := get_key hget
      refine ⟨wf_remove h.wf (mem_of_get hget), fun k' n => ?_⟩
      simp only [get_remove h.wf, inserted_concat, reduceCtorEq, false_or, ne_eq,
        MapOp.delete.injEq]
      by_cases hk : m.key = k'
      · simp [hk]
      · have hk' : ¬ k' = m.key := fun he => hk he.symm
        simpa [hk, hk'] using h.get_iff k' n

theorem mapHolds_run (hdistinct : InsertsDistinct ops) :
    MapHolds ngx zone ops (mapRun ngx zone ops) := by
  induction ops using List.reverseRecOn with
  | nil => exact mapHolds_init
  | append_singleton ops op ih =>
      have hrun : mapRun ngx zone (ops ++ [op]) = mapStep ngx zone (mapRun ngx zone ops) op :=
        Run.exec_append ..
      rw [hrun]
      cases op with
      | insert k now slab =>
          exact mapHolds_insert (ih hdistinct.init) (hdistinct ops k now slab [] rfl)
      | delete k => exact mapHolds_delete (ih hdistinct.init) k

end Map

/-- A lookup finds the node of the key that was inserted and not deleted, and
nothing for any other key. -/
theorem shm_is_finite_map (ngx : NgxCore) (zone : Zone) (ops : List MapOp)
    (hdistinct : InsertsDistinct ops) (k : Key) :
    let found := sentinelShmLookup ngx (mapRun ngx zone ops) (ngx.crc32Short k.data) k
    (∀ now, Inserted ops k now →
      found = some (createdNode ngx zone k now) ∧ (createdNode ngx zone k now).key = k) ∧
    ((∀ now, ¬ Inserted ops k now) → found = none) := by
  intro found
  have h : MapHolds ngx zone ops (mapRun ngx zone ops) := mapHolds_run hdistinct
  have hfound : found = (mapRun ngx zone ops).get k := sentinelShmLookup_eq_get h.wf k
  rw [hfound]
  refine ⟨fun now hins => ⟨(h.get_iff k _).mpr ⟨now, hins, rfl⟩, rfl⟩, h.get_none⟩

/-- Two names of one CRC-32: deleting the first leaves the second. -/
theorem colliding_keys_found :
    let plumless : Key := ⟨str "plumless", by decide⟩
    let buckeroo : Key := ⟨str "buckeroo", by decide⟩
    let ops : List MapOp := [.insert plumless 5 true, .insert buckeroo 7 true, .delete plumless]
    let found := sentinelShmLookup Ref.ngx (mapRun Ref.ngx ⟨0, 0, 3⟩ ops)
      (Ref.ngx.crc32Short plumless.data)
    Ref.ngx.crc32Short plumless.data = Ref.ngx.crc32Short buckeroo.data ∧
      found buckeroo = some (createdNode Ref.ngx ⟨0, 0, 3⟩ buckeroo 7) ∧ found plumless = none := by
  intro plumless buckeroo ops found
  have hhash : Ref.ngx.crc32Short plumless.data = Ref.ngx.crc32Short buckeroo.data := by
    decide +kernel
  have hdistinct : InsertsDistinct ops := insertsDistinct_of_nodup (by decide +kernel)
  obtain ⟨hfound, -⟩ := shm_is_finite_map Ref.ngx ⟨0, 0, 3⟩ ops hdistinct buckeroo
  obtain ⟨-, hnone⟩ := shm_is_finite_map Ref.ngx ⟨0, 0, 3⟩ ops hdistinct plumless
  refine ⟨hhash, ?_, hnone fun now hins => ?_⟩
  · rw [← hhash] at hfound
    exact (hfound 7 ⟨[.insert plumless 5 true], [.delete plumless], rfl, by decide +kernel⟩).1
  · change Inserted ([.insert plumless 5 true, .insert buckeroo 7 true] ++ [.delete plumless])
      plumless now at hins
    cases inserted_concat.mp hins with
    | inl h => contradiction
    | inr h => exact h.2 rfl

end Sentinel
