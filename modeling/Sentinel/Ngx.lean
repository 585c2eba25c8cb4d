import Mathlib.Algebra.Group.Nat.Defs
import Mathlib.Data.List.TakeWhile
import Sentinel.Lib.SearchTree

/-!
What the module takes from nginx and from OpenSSL. None of that code is part of
this repository, so it enters as one structure of functions whose fields carry
the behaviour that is relied on; every result holds for any such structure.
-/

namespace Sentinel

abbrev Bytes := List UInt8

def ch (c : Char) : UInt8 := UInt8.ofNat c.toNat

def str (s : String) : Bytes := s.toList.map ch

/-- A byte is one of 256. -/
theorem forall_byte {p : UInt8 → Prop} (h : ∀ n : Fin 256, p (UInt8.ofNat n)) (c : UInt8) :
    p c := by
  simpa using h ⟨c.toNat, c.toNat_lt⟩

/-- To be decided byte by byte; over a type of 256 the quantifier itself would be
decided value by value. -/
theorem forall_mem_of_all {p : UInt8 → Prop} [DecidablePred p] {s : Bytes}
    (h : (s.all fun c => p c) = true) : ∀ c ∈ s, p c :=
  fun c hc => of_decide_eq_true (List.all_eq_true.mp h c hc)

/-- A row of bytes of one kind has none of another kind. -/
theorem not_mem_of_all {p : UInt8 → Bool} {s : Bytes} {c : UInt8} (h : s.all p = true)
    (hc : p c = false) : c ∉ s := by
  intro hm
  have hkind := List.all_eq_true.mp h c hm
  rw [hc] at hkind
  contradiction

/-- The `ngx_int_t` return codes in use here. -/
inductive NgxRc where
  | ok | error | again | busy | done | declined | httpClose
  deriving DecidableEq, Repr

def isDigit (c : UInt8) : Bool := ch '0' ≤ c && c ≤ ch '9'

/-- The number a run of decimal digits spells. -/
def decimal (s : Bytes) : Nat :=
  s.foldl (fun v c => v * 10 + (c.toNat - 48)) 0

/-- What `%s` and `ngx_strlen` see of some memory. -/
def cString (s : Bytes) : Bytes := s.takeWhile (· ≠ 0)

theorem cString_self {s : Bytes} (h : 0 ∉ s) : cString s = s := by
  rw [cString, List.takeWhile_eq_self_iff]
  intro c hc
  rw [decide_eq_true_iff]
  intro hzero
  exact h (hzero ▸ hc)

/-- `NGX_MAX_INT_T_VALUE` on a 64-bit platform. -/
def ngxMaxIntT : Nat := 2 ^ 63 - 1

/-- What a tree node is ordered by: its 32-bit hash, then its key bytes. -/
structure TreeKey where
  hash : UInt32
  data : Bytes
  deriving DecidableEq, Repr

instance : Ord TreeKey where
  compare a b := (compare a.hash b.hash).then (compare a.data b.data)

/-- `NGX_TIMER_LAZY_DELAY` -/
def ngxTimerLazyDelay : Nat := 300

structure NgxCore where
  /-- `ngx_crc32_short` and `ngx_crc32_long` -/
  crc32Short : Bytes → UInt32
  crc32Long : Bytes → UInt32
  /-- `ngx_memn2cmp`: the sign of the bytewise lexicographic comparison. -/
  memn2cmp : Bytes → Bytes → Int
  memn2cmp_sign : ∀ a b, compare (memn2cmp a b) 0 = compare a b
  /-- What `ngx_rbtree_insert` does after the insertion callback: rotations and
  recolouring, which keep the in-order sequence. -/
  rbtreeFixup : BinaryTree TreeKey → BinaryTree TreeKey
  rbtreeFixup_inorder : ∀ t,
    SearchTree.inorder (rbtreeFixup t) = SearchTree.inorder t
  /-- `ngx_rbtree_delete` -/
  rbtreeDelete : BinaryTree TreeKey → TreeKey → BinaryTree TreeKey
  rbtreeDelete_inorder : ∀ t k,
    SearchTree.inorder (rbtreeDelete t k) = (SearchTree.inorder t).erase k
  /-- `ngx_atoi`: a non-empty run of decimal digits within range, else `NGX_ERROR`. -/
  atoi : Bytes → Option Nat
  atoi_eq_some : ∀ s n, atoi s = some n ↔
    s ≠ [] ∧ s.all isDigit = true ∧ decimal s = n ∧ n ≤ ngxMaxIntT
  /-- `ngx_inet_addr` (`none` is `INADDR_NONE`) and `ngx_inet6_addr`. -/
  inetAddr : Bytes → Option UInt32
  inet6Addr : Bytes → Option Bytes
  /-- `ngx_inet_ntop` for `AF_INET` and `ngx_inet6_ntop`; an address always has
  a text. -/
  inetNtop : UInt32 → Bytes
  inetNtop_ne_nil : ∀ a, inetNtop a ≠ []
  inet6Ntop : Bytes → Bytes
  inet6Ntop_ne_nil : ∀ a, inet6Ntop a ≠ []
  /-- `SHA256` -/
  sha256 : Bytes → Bytes
  sha256_length : ∀ m, (sha256 m).length = 32
  /-- `ngx_add_timer` on a timer that is set to fire at some time or not at all: it
  fires after `ms`, or where it is set and that is less than 300 ms off, as before. -/
  addTimer : (timer : Option Nat) → (now ms : Nat) → Option Nat
  addTimer_none : ∀ now ms, addTimer none now ms = some (now + ms)
  addTimer_some : ∀ old now ms, addTimer (some old) now ms = some (now + ms) ∨
    addTimer (some old) now ms = some old ∧ old < now + ms + ngxTimerLazyDelay ∧
      now + ms < old + ngxTimerLazyDelay

section Memn2cmp
variable (ngx : NgxCore)

theorem memn2cmp_lt_iff (a b : Bytes) : ngx.memn2cmp a b < 0 ↔ compare a b = .lt := by
  rw [← ngx.memn2cmp_sign, Int.compare_eq_lt]

theorem memn2cmp_eq_iff (a b : Bytes) : ngx.memn2cmp a b = 0 ↔ compare a b = .eq := by
  rw [← ngx.memn2cmp_sign, Int.compare_eq_eq]

end Memn2cmp

instance : Std.LawfulEqOrd TreeKey where
  compare_self {a} := by
    change (compare a.hash a.hash).then (compare a.data a.data) = .eq
    simp [Std.ReflCmp.compare_self]
  eq_of_compare {a b} h := by
    change (compare a.hash b.hash).then (compare a.data b.data) = .eq at h
    rw [Ordering.then_eq_eq] at h
    obtain ⟨ha, hb⟩ := h
    cases a
    cases b
    congr
    · exact Std.LawfulEqCmp.eq_of_compare ha
    · exact Std.LawfulEqCmp.eq_of_compare hb

instance : Std.TransOrd TreeKey :=
  inferInstanceAs (Std.TransCmp
    (compareLex (compareOn TreeKey.hash) (compareOn TreeKey.data)))

end Sentinel
