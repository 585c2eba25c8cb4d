import Sentinel.Lib.Keyed
import Sentinel.Ngx

/-!
The shared-memory store of `sentinel_shm.c`: nodes that sit in an rbtree and in
an LRU queue at once. A node is named by its key, since a node is only created
for a key that the lookup did not find; `Wf` makes that an invariant. The
queue holds the nodes and the tree the keys they are found by.
-/

namespace Sentinel

/-- A key whose length the node's `u_short key_len` can hold. -/
@[ext] structure Key where
  data : Bytes
  len_le : data.length ≤ 65535
  deriving DecidableEq

/-- `ngx_sentinel_node_t`. The event ring is the memory that follows the key;
`slots` is how many `time_t` of it were allocated. -/
structure Node where
  hash : UInt32
  key : Key
  blockedUntil : Int
  lastSeen : Int
  eventHead : Nat
  eventCount : Nat
  csGeneration : Nat
  csAction : UInt8
  redisPulled : Bool
  events : Nat → Int
  slots : Nat

/-- `ngx_sentinel_shctx_t`; the head of `queue` is the most recently used node.
A 64-bit `cs_generation` would wrap only after 2^64 loads and is a `Nat` here. -/
structure Shctx where
  rbtree : BinaryTree TreeKey
  queue : List Node
  csGeneration : Nat

/-- The fields of `ngx_sentinel_zone_t` that the store reads. A descriptor that
is `NULL`, or has a `NULL` `sh` or `shpool`, is `none : Option Zone`. -/
structure Zone where
  interval : Int
  block : Int
  threshold : Nat
  deriving DecidableEq, Repr

/-- `NGX_SENTINEL_EXPIRE_BATCH` -/
def ngxSentinelExpireBatch : Nat := 2

def Node.treeKey (n : Node) : TreeKey := ⟨n.hash, n.key.data⟩

namespace Shctx

def get (sh : Shctx) (k : Key) : Option Node := Keyed.get Node.key sh.queue k

/-- A store through a node pointer. -/
def write (sh : Shctx) (n : Node) : Shctx :=
  { sh with queue := Keyed.write Node.key sh.queue n }

end Shctx

/-- What `sentinel_shm_init_zone` sets up in a fresh segment. -/
def sentinelShmInitZone : Shctx := ⟨.nil, [], 0⟩

/-- The descent of `sentinel_shm_rbtree_insert` to the free child slot. -/
def sentinelShmRbtreeInsert (ngx : NgxCore) (node : TreeKey) :
    BinaryTree TreeKey → BinaryTree TreeKey
  | .nil => .node node .nil .nil
  | .node temp l r =>
      if node.hash < temp.hash then .node temp (sentinelShmRbtreeInsert ngx node l) r
      else if node.hash > temp.hash then .node temp l (sentinelShmRbtreeInsert ngx node r)
      else if ngx.memn2cmp node.data temp.data < 0 then
        .node temp (sentinelShmRbtreeInsert ngx node l) r
      else .node temp l (sentinelShmRbtreeInsert ngx node r)

/-- The descent of `sentinel_shm_lookup`. -/
def sentinelShmDescend (ngx : NgxCore) (hash : UInt32) (key : Bytes) :
    BinaryTree TreeKey → Option TreeKey
  | .nil => none
  | .node node l r =>
      if hash < node.hash then sentinelShmDescend ngx hash key l
      else if hash > node.hash then sentinelShmDescend ngx hash key r
      else if ngx.memn2cmp key node.data = 0 then some node
      else if ngx.memn2cmp key node.data < 0 then sentinelShmDescend ngx hash key l
      else sentinelShmDescend ngx hash key r

def sentinelShmLookup (ngx : NgxCore) (sh : Shctx) (hash : UInt32) (key : Key) :
    Option Node :=
  (sentinelShmDescend ngx hash key.data sh.rbtree).bind
    fun tk => sh.queue.find? fun n => n.treeKey = tk

/-- Unlink a node from the queue and the tree and free it. -/
def sentinelShmRemove (ngx : NgxCore) (sh : Shctx) (n : Node) : Shctx :=
  { sh with
    rbtree := ngx.rbtreeDelete sh.rbtree n.treeKey
    queue := Keyed.erase Node.key sh.queue n.key }

def sentinelShmExpire (ngx : NgxCore) (zone : Zone) (now : Int) : Nat → Shctx → Shctx
  | 0, sh => sh
  | batch + 1, sh =>
      match sh.queue.getLast? with
      | none => sh
      | some n =>
          if n.blockedUntil > now then sh
          else if now - n.lastSeen < zone.interval then sh
          else sentinelShmExpire ngx zone now batch (sentinelShmRemove ngx sh n)

def sentinelShmTouch (sh : Shctx) (n : Node) : Shctx :=
  { sh with queue := n :: Keyed.erase Node.key sh.queue n.key }

/-- Link a fresh node into both structures. -/
def sentinelShmLink (ngx : NgxCore) (sh : Shctx) (n : Node) : Shctx :=
  { sh with
    rbtree := ngx.rbtreeFixup (sentinelShmRbtreeInsert ngx n.treeKey sh.rbtree)
    queue := n :: sh.queue }

/-- `ngx_align(offsetof(ngx_sentinel_node_t, data) + key_len, sizeof(time_t))`;
`data` is at offset 100 of the 104-byte node. -/
def sentinelEventsOffset (keyLen : Nat) : Nat := (100 + keyLen + 7) / 8 * 8

/-- `size_t` arithmetic: the product and the sum are modulo 2^64. -/
def sentinelNodeSize (keyLen threshold : Nat) : Nat :=
  (sentinelEventsOffset keyLen + threshold * 8) % 2 ^ 64

/-- `sentinel_shm_create_node`; `slab` is whether the slab allocator has room. -/
def sentinelShmCreateNode (ngx : NgxCore) (zone : Zone) (sh : Shctx) (hash : UInt32)
    (key : Key) (now : Int) (slab : Bool) : Option (Shctx × Node) :=
  if slab then
    let n : Node :=
      { hash, key, blockedUntil := 0, lastSeen := now, eventHead := 0, eventCount := 0,
        csGeneration := 0, csAction := 0, redisPulled := false, events := fun _ => 0,
        slots := (sentinelNodeSize key.data.length zone.threshold -
          sentinelEventsOffset key.data.length) / 8 }
    some (sentinelShmLink ngx sh n, n)
  else none

end Sentinel
