import Mathlib.Data.List.Find
import Sentinel.Shm

/-!
The store is a finite map from keys to nodes. `Wf` ties the tree to the queue,
and each primitive is then described once by what it does to `Shctx.get`; the
tree, the order of the queue and nginx's rebalancing do not occur in any later
proof.
-/

namespace Sentinel
open SearchTree

structure Shctx.Wf (ngx : NgxCore) (sh : Shctx) : Prop where
  sorted : Sorted sh.rbtree
  perm : (sh.queue.map Node.treeKey).Perm (inorder sh.rbtree)
  hash_eq : ∀ n ∈ sh.queue, n.hash = ngx.crc32Short n.key.data
  gen_le : ∀ n ∈ sh.queue, n.csGeneration ≤ sh.csGeneration

section Tree
variable (ngx : NgxCore)

theorem compare_treeKey (a b : TreeKey) :
    compare a b = (compare a.hash b.hash).then (compare a.data b.data) := rfl

theorem compare_treeKey_lt {a b : TreeKey} (h : a.hash < b.hash) : compare a b = .lt := by
  rw [compare_treeKey, Std.compare_eq_lt.mpr h]
  rfl

theorem compare_treeKey_gt {a b : TreeKey} (h : b.hash < a.hash) : compare a b = .gt := by
  rw [compare_treeKey, Std.compare_eq_gt.mpr h]
  rfl

theorem compare_treeKey_data {a b : TreeKey} (hl : ¬ a.hash < b.hash)
    (hg : ¬ a.hash > b.hash) : compare a b = compare a.data b.data := by
  have he : a.hash = b.hash := UInt32.le_antisymm (UInt32.not_lt.mp hg) (UInt32.not_lt.mp hl)
  rw [compare_treeKey, he, SearchTree.compare_self]
  rfl

/-- The insertion callback hangs a leaf where the comparison leads. -/
theorem sentinelShmRbtreeInsert_eq (node : TreeKey) (t : BinaryTree TreeKey) :
    sentinelShmRbtreeInsert ngx node t = insertLeaf node t := by
  induction t with
  | nil => rfl
  | node temp l r ihl ihr =>
      simp only [sentinelShmRbtreeInsert, insertLeaf, ihl, ihr]
      split
      next h => simp [compare_treeKey_lt h]
      next h =>
        split
        next h' => simp [compare_treeKey_gt h']
        next h' => simp [compare_treeKey_data h h', memn2cmp_lt_iff]

/-- The separately written lookup follows the same comparison. -/
theorem sentinelShmDescend_eq (hash : UInt32) (key : Bytes) (t : BinaryTree TreeKey) :
    sentinelShmDescend ngx hash key t = search ⟨hash, key⟩ t := by
  induction t with
  | nil => rfl
  | node node l r ihl ihr =>
      simp only [sentinelShmDescend, search, ihl, ihr]
      split
      next h => simp [compare_treeKey_lt (a := ⟨hash, key⟩) h]
      next h =>
        split
        next h' => simp [compare_treeKey_gt (a := ⟨hash, key⟩) h']
        next h' =>
          rw [compare_treeKey_data (a := ⟨hash, key⟩) h h']
          simp only [memn2cmp_lt_iff, memn2cmp_eq_iff]
          cases compare key node.data <;> simp

end Tree

section Map
variable {ngx : NgxCore} {sh : Shctx}

theorem treeKey_eq_iff (h : ∀ n ∈ sh.queue, n.hash = ngx.crc32Short n.key.data)
    {n : Node} (hn : n ∈ sh.queue) (k : Key) :
    n.treeKey = ⟨ngx.crc32Short k.data, k.data⟩ ↔ n.key = k := by
  constructor
  · intro he
    exact Key.ext (congrArg TreeKey.data he)
  · rintro rfl
    simp [Node.treeKey, h n hn]

theorem Shctx.Wf.treeKey_nodup (wf : sh.Wf ngx) : (sh.queue.map Node.treeKey).Nodup :=
  wf.perm.nodup_iff.mpr (sorted_nodup wf.sorted)

theorem Shctx.Wf.unique (wf : sh.Wf ngx) : Keyed.Unique Node.key sh.queue := by
  have hmap : sh.queue.map Node.treeKey =
      (sh.queue.map Node.key).map (fun k => ⟨ngx.crc32Short k.data, k.data⟩) := by
    rw [List.map_map]
    exact List.map_congr_left fun n hn => (treeKey_eq_iff wf.hash_eq hn n.key).mpr rfl
  exact List.Nodup.of_map _ (hmap ▸ wf.treeKey_nodup)

theorem sentinelShmLookup_eq_get (wf : sh.Wf ngx) (k : Key) :
    sentinelShmLookup ngx sh (ngx.crc32Short k.data) k = sh.get k := by
  rw [sentinelShmLookup]
  rw [sentinelShmDescend_eq]
  have hfind : sh.queue.find? (fun n => n.treeKey = ⟨ngx.crc32Short k.data, k.data⟩) =
      sh.get k := by
    apply List.find?_congr
    intro n hn
    simp only [treeKey_eq_iff wf.hash_eq hn k]
  cases hs : search (⟨ngx.crc32Short k.data, k.data⟩ : TreeKey) sh.rbtree with
  | some tk =>
      obtain ⟨rfl, _⟩ := (search_eq_some_iff wf.sorted).mp hs
      exact hfind
  | none =>
      have hm := (search_eq_none_iff wf.sorted).mp hs
      symm
      rw [Option.bind_none, Shctx.get, Keyed.get_eq_none_iff]
      intro n hn he
      apply hm
      rw [← wf.perm.mem_iff, ← (treeKey_eq_iff wf.hash_eq hn k).mpr he]
      exact List.mem_map_of_mem hn

theorem get_key {k : Key} {n : Node} (h : sh.get k = some n) : n.key = k :=
  Keyed.key_of_get _ h

theorem mem_of_get {k : Key} {n : Node} (h : sh.get k = some n) : n ∈ sh.queue :=
  Keyed.mem_of_get _ h

theorem get_of_mem (wf : sh.Wf ngx) {n : Node} (hn : n ∈ sh.queue) : sh.get n.key = some n :=
  Keyed.get_of_mem wf.unique hn

end Map

section Primitives
variable {ngx : NgxCore} {sh : Shctx}

theorem wf_init : sentinelShmInitZone.Wf ngx where
  sorted := List.Pairwise.nil
  perm := .refl _
  hash_eq := by simp [sentinelShmInitZone]
  gen_le := by simp [sentinelShmInitZone]

/-- Reordering the queue and keeping the tree. -/
theorem Shctx.Wf.reorder (wf : sh.Wf ngx) {q : List Node} (h : q.Perm sh.queue) :
    ({ sh with queue := q } : Shctx).Wf ngx where
  sorted := wf.sorted
  perm := (h.map _).trans wf.perm
  hash_eq := fun n hn => wf.hash_eq n (h.mem_iff.mp hn)
  gen_le := fun n hn => wf.gen_le n (h.mem_iff.mp hn)

theorem wf_touch (wf : sh.Wf ngx) {n : Node} (hn : n ∈ sh.queue) :
    (sentinelShmTouch sh n).Wf ngx :=
  wf.reorder (Keyed.perm_cons_erase wf.unique hn)

theorem mem_touch (wf : sh.Wf ngx) {n : Node} (hn : n ∈ sh.queue) (m : Node) :
    m ∈ (sentinelShmTouch sh n).queue ↔ m ∈ sh.queue :=
  (Keyed.perm_cons_erase wf.unique hn).mem_iff

theorem get_touch (wf : sh.Wf ngx) {n : Node} (hn : n ∈ sh.queue) (k : Key) :
    (sentinelShmTouch sh n).get k = sh.get k :=
  Keyed.get_congr (wf_touch wf hn).unique wf.unique (mem_touch wf hn) k

theorem wf_remove (wf : sh.Wf ngx) {n : Node} (hn : n ∈ sh.queue) :
    (sentinelShmRemove ngx sh n).Wf ngx where
  sorted := sorted_of_perm_erase (ngx.rbtreeDelete_inorder _ _) wf.sorted
  perm := by
    have hm : ∀ m, m ∈ Keyed.erase Node.key sh.queue n.key ↔ m ∈ sh.queue ∧ m.key ≠ n.key :=
      fun m => Keyed.mem_erase wf.unique
    have htk : ∀ m ∈ sh.queue, m.treeKey = n.treeKey ↔ m.key = n.key := by
      intro m hmem
      rw [(treeKey_eq_iff wf.hash_eq hn n.key).mpr rfl]
      exact treeKey_eq_iff wf.hash_eq hmem n.key
    have hnd : (inorder sh.rbtree).Nodup := sorted_nodup wf.sorted
    change ((Keyed.erase Node.key sh.queue n.key).map Node.treeKey).Perm
      (inorder (ngx.rbtreeDelete sh.rbtree n.treeKey))
    rw [ngx.rbtreeDelete_inorder, List.perm_ext_iff_of_nodup
      (wf.treeKey_nodup.sublist ((Keyed.erase_sublist _ _ _).map _)) (hnd.erase _)]
    intro tk
    rw [hnd.mem_erase_iff, ← wf.perm.mem_iff, List.mem_map, List.mem_map]
    constructor
    · rintro ⟨m, hmem, rfl⟩
      obtain ⟨hmq, hne⟩ := (hm m).mp hmem
      exact ⟨fun h => hne ((htk m hmq).mp h), m, hmq, rfl⟩
    · rintro ⟨hne, m, hmq, rfl⟩
      exact ⟨m, (hm m).mpr ⟨hmq, fun h => hne ((htk m hmq).mpr h)⟩, rfl⟩
  hash_eq := fun m hm => wf.hash_eq m ((Keyed.mem_erase wf.unique).mp hm).1
  gen_le := fun m hm => wf.gen_le m ((Keyed.mem_erase wf.unique).mp hm).1

theorem mem_remove (wf : sh.Wf ngx) {n m : Node} :
    m ∈ (sentinelShmRemove ngx sh n).queue ↔ m ∈ sh.queue ∧ m.key ≠ n.key :=
  Keyed.mem_erase wf.unique

theorem get_remove (wf : sh.Wf ngx) (n : Node) (k : Key) :
    (sentinelShmRemove ngx sh n).get k = if k = n.key then none else sh.get k :=
  Keyed.get_erase wf.unique n.key k

theorem length_remove (ngx : NgxCore) {n : Node} (hn : n ∈ sh.queue) :
    (sentinelShmRemove ngx sh n).queue.length + 1 = sh.queue.length :=
  Keyed.length_erase hn

theorem wf_link (wf : sh.Wf ngx) {n : Node} (hn : sh.get n.key = none)
    (hh : n.hash = ngx.crc32Short n.key.data) (hg : n.csGeneration ≤ sh.csGeneration) :
    (sentinelShmLink ngx sh n).Wf ngx := by
  have habs : n.treeKey ∉ inorder sh.rbtree := by
    rw [← wf.perm.mem_iff, List.mem_map]
    rintro ⟨m, hm, he⟩
    have hk : n.treeKey = ⟨ngx.crc32Short n.key.data, n.key.data⟩ := by
      simp [Node.treeKey, hh]
    rw [hk] at he
    exact (Keyed.get_eq_none_iff _).mp hn m hm ((treeKey_eq_iff wf.hash_eq hm n.key).mp he)
  have hin : inorder (sentinelShmLink ngx sh n).rbtree =
      inorder (insertLeaf n.treeKey sh.rbtree) := by
    simp only [sentinelShmLink, ngx.rbtreeFixup_inorder, sentinelShmRbtreeInsert_eq]
  refine ⟨(sorted_congr hin).mpr (sorted_insertLeaf wf.sorted habs), ?_, ?_, ?_⟩
  · rw [hin]
    exact (wf.perm.cons _).trans (inorder_insertLeaf_perm _ _).symm
  · intro m hm
    cases List.mem_cons.mp hm with
    | inl heq =>
        obtain rfl := heq
        exact hh
    | inr hm => exact wf.hash_eq m hm
  · intro m hm
    cases List.mem_cons.mp hm with
    | inl heq =>
        obtain rfl := heq
        exact hg
    | inr hm => exact wf.gen_le m hm

theorem get_link (n : Node) (k : Key) :
    (sentinelShmLink ngx sh n).get k = if n.key = k then some n else sh.get k :=
  Keyed.get_cons _ n sh.queue k

theorem wf_write (wf : sh.Wf ngx) {n : Node} (hh : n.hash = ngx.crc32Short n.key.data)
    (hg : n.csGeneration ≤ sh.csGeneration) : (sh.write n).Wf ngx where
  sorted := wf.sorted
  perm := by
    have hmap : (sh.write n).queue.map Node.treeKey = sh.queue.map Node.treeKey := by
      simp only [Shctx.write, Keyed.write, List.map_map]
      apply List.map_congr_left
      intro m hm
      simp only [Function.comp]
      split
      next h =>
        rw [(treeKey_eq_iff wf.hash_eq hm n.key).mpr h]
        simp [Node.treeKey, hh]
      next => rfl
    rw [hmap]
    exact wf.perm
  hash_eq := by
    intro m hm
    cases Keyed.mem_write hm with
    | inl heq =>
        obtain rfl := heq
        exact hh
    | inr hm => exact wf.hash_eq m hm
  gen_le := by
    intro m hm
    cases Keyed.mem_write hm with
    | inl heq =>
        obtain rfl := heq
        exact hg
    | inr hm => exact wf.gen_le m hm

theorem get_write (n : Node) (k : Key) :
    (sh.write n).get k = if k = n.key then (sh.get k).map (fun _ => n) else sh.get k :=
  Keyed.get_write sh.queue n k

/-- A found node is moved to the front and stored to. -/
theorem touch_write_spec (wf : sh.Wf ngx) {k : Key} {n m : Node} (hn : sh.get k = some n)
    (hkey : m.key = n.key) (hhash : m.hash = n.hash) (hgen : m.csGeneration ≤ sh.csGeneration) :
    ((sentinelShmTouch sh n).write m).Wf ngx ∧
      ∀ k', ((sentinelShmTouch sh n).write m).get k' = if k' = k then some m else sh.get k' := by
  have hmem := mem_of_get hn
  obtain rfl := get_key hn
  refine ⟨wf_write (wf_touch wf hmem) ?_ hgen, fun k' => ?_⟩
  · rw [hhash, hkey]
    exact wf.hash_eq n hmem
  · rw [get_write, get_touch wf hmem, hkey]
    by_cases hk : k' = n.key
    · simp [hk, hn]
    · simp [hk]

/-- A node is created and stored to. -/
theorem link_write_spec (wf : sh.Wf ngx) {n m : Node} (hn : sh.get n.key = none)
    (hh : n.hash = ngx.crc32Short n.key.data) (hg : n.csGeneration = 0) (hkey : m.key = n.key)
    (hhash : m.hash = n.hash) (hgen : m.csGeneration ≤ sh.csGeneration) :
    ((sentinelShmLink ngx sh n).write m).Wf ngx ∧
      ∀ k', ((sentinelShmLink ngx sh n).write m).get k' =
        if k' = n.key then some m else sh.get k' := by
  have wf' : (sentinelShmLink ngx sh n).Wf ngx := wf_link wf hn hh (by omega)
  refine ⟨wf_write wf' ?_ hgen, fun k' => ?_⟩
  · rw [hhash, hkey, hh]
  · rw [get_write, get_link, hkey]
    by_cases hk : k' = n.key
    · simp [hk]
    · have hk' : ¬ n.key = k' := fun h => hk h.symm
      simp [hk, hk']

/-- The two tests after which the eviction gives a node up. -/
def Dead (zone : Zone) (now : Int) (n : Node) : Prop :=
  n.blockedUntil ≤ now ∧ zone.interval ≤ now - n.lastSeen

/-- Whatever the eviction removes was dead, and it touches nothing else. -/
theorem expire_get (zone : Zone) (now : Int) (batch : Nat) (wf : sh.Wf ngx) :
    (sentinelShmExpire ngx zone now batch sh).Wf ngx ∧
      ∀ k, (sentinelShmExpire ngx zone now batch sh).get k = sh.get k ∨
        (sentinelShmExpire ngx zone now batch sh).get k = none ∧
          ∃ n, sh.get k = some n ∧ Dead zone now n := by
  induction batch generalizing sh with
  | zero => exact ⟨wf, fun _ => .inl rfl⟩
  | succ batch ih =>
      simp only [sentinelShmExpire]
      cases hlast : sh.queue.getLast? with
      | none => exact ⟨wf, fun _ => .inl rfl⟩
      | some n =>
          have hn : n ∈ sh.queue := List.mem_of_getLast? hlast
          dsimp only
          split
          · exact ⟨wf, fun _ => .inl rfl⟩
          split
          · exact ⟨wf, fun _ => .inl rfl⟩
          next hb hi =>
            obtain ⟨hwf, hget⟩ := ih (wf_remove wf hn)
            refine ⟨hwf, fun k => ?_⟩
            by_cases hk : k = n.key
            · subst hk
              have hnone : (sentinelShmRemove ngx sh n).get n.key = none := by
                simp [get_remove wf]
              refine .inr ⟨?_, n, get_of_mem wf hn, by omega, by omega⟩
              cases hget n.key with
              | inl h => rw [h, hnone]
              | inr h => exact h.1
            · have hsame : (sentinelShmRemove ngx sh n).get k = sh.get k := by
                simp [get_remove wf, hk]
              simpa only [hsame] using hget k

theorem expire_csGeneration (zone : Zone) (now : Int) (batch : Nat) :
    (sentinelShmExpire ngx zone now batch sh).csGeneration = sh.csGeneration := by
  induction batch generalizing sh with
  | zero => rfl
  | succ batch ih =>
      simp only [sentinelShmExpire]
      split
      · rfl
      split
      · rfl
      split
      · rfl
      · exact ih

end Primitives
end Sentinel
