import Sentinel.Ngx

/-!
One concrete `NgxCore`, so that runs can be evaluated: the real decimal parser,
CRC-32, IPv4 text form and SHA-256. The tree is left unbalanced, which the
operations of the store cannot tell, and the IPv6 parser takes no address.
-/

namespace Sentinel.Ref
open SearchTree

section Crc32

/-- One byte through the reflected polynomial, bit by bit. -/
def crc32Bits (crc : Nat) : Nat → Nat
  | 0 => crc
  | n + 1 =>
      crc32Bits (if crc % 2 = 1 then (crc / 2) ^^^ 0xEDB88320 else crc / 2) n

def crc32 (s : Bytes) : UInt32 :=
  UInt32.ofNat
    (s.foldl (fun crc c => crc32Bits (crc ^^^ c.toNat) 8) 0xFFFFFFFF ^^^ 0xFFFFFFFF)

end Crc32

section Sha256

def sha256K : List Nat :=
  [0x428a2f98, 0x71374491, 0xb5c0fbcf, 0xe9b5dba5, 0x3956c25b, 0x59f111f1, 0x923f82a4,
   0xab1c5ed5, 0xd807aa98, 0x12835b01, 0x243185be, 0x550c7dc3, 0x72be5d74, 0x80deb1fe,
   0x9bdc06a7, 0xc19bf174, 0xe49b69c1, 0xefbe4786, 0x0fc19dc6, 0x240ca1cc, 0x2de92c6f,
   0x4a7484aa, 0x5cb0a9dc, 0x76f988da, 0x983e5152, 0xa831c66d, 0xb00327c8, 0xbf597fc7,
   0xc6e00bf3, 0xd5a79147, 0x06ca6351, 0x14292967, 0x27b70a85, 0x2e1b2138, 0x4d2c6dfc,
   0x53380d13, 0x650a7354, 0x766a0abb, 0x81c2c92e, 0x92722c85, 0xa2bfe8a1, 0xa81a664b,
   0xc24b8b70, 0xc76c51a3, 0xd192e819, 0xd6990624, 0xf40e3585, 0x106aa070, 0x19a4c116,
   0x1e376c08, 0x2748774c, 0x34b0bcb5, 0x391c0cb3, 0x4ed8aa4a, 0x5b9cca4f, 0x682e6ff3,
   0x748f82ee, 0x78a5636f, 0x84c87814, 0x8cc70208, 0x90befffa, 0xa4506ceb, 0xbef9a3f7,
   0xc67178f2]

structure Sha256State where
  (a b c d e f g h : Nat)

def sha256Init : Sha256State :=
  ⟨0x6a09e667, 0xbb67ae85, 0x3c6ef372, 0xa54ff53a, 0x510e527f, 0x9b05688c, 0x1f83d9ab,
   0x5be0cd19⟩

def rotr (n x : Nat) : Nat := (x >>> n) ||| (x <<< (32 - n)) % 2 ^ 32

def sha256Round (s : Sha256State) (k w : Nat) : Sha256State :=
  let s1 := rotr 6 s.e ^^^ rotr 11 s.e ^^^ rotr 25 s.e
  let choice := (s.e &&& s.f) ^^^ ((s.e ^^^ 0xFFFFFFFF) &&& s.g)
  let t1 := s.h + s1 + choice + k + w
  let s0 := rotr 2 s.a ^^^ rotr 13 s.a ^^^ rotr 22 s.a
  let major := (s.a &&& s.b) ^^^ (s.a &&& s.c) ^^^ (s.b &&& s.c)
  ⟨(t1 + s0 + major) % 2 ^ 32, s.a, s.b, s.c, (s.d + t1) % 2 ^ 32, s.e, s.f, s.g⟩

/-- The next word of the schedule, from the sixteen before it. -/
def sha256Next (w : List Nat) : Nat :=
  let x := w.getD 1 0
  let y := w.getD 14 0
  (w.getD 0 0 + (rotr 7 x ^^^ rotr 18 x ^^^ (x >>> 3)) + w.getD 9 0 +
    (rotr 17 y ^^^ rotr 19 y ^^^ (y >>> 10))) % 2 ^ 32

def sha256Rounds : List Nat → List Nat → Sha256State → Sha256State
  | [], _, s => s
  | k :: ks, w, s => sha256Rounds ks (w.tail ++ [sha256Next w]) (sha256Round s k w.head!)

def sha256Block (s : Sha256State) (w : List Nat) : Sha256State :=
  let r := sha256Rounds sha256K w s
  ⟨(s.a + r.a) % 2 ^ 32, (s.b + r.b) % 2 ^ 32, (s.c + r.c) % 2 ^ 32, (s.d + r.d) % 2 ^ 32,
   (s.e + r.e) % 2 ^ 32, (s.f + r.f) % 2 ^ 32, (s.g + r.g) % 2 ^ 32, (s.h + r.h) % 2 ^ 32⟩

def be32 (x : Nat) : Bytes :=
  [UInt8.ofNat (x >>> 24), UInt8.ofNat (x >>> 16), UInt8.ofNat (x >>> 8), UInt8.ofNat x]

def words : Bytes → List Nat
  | a :: b :: c :: d :: s =>
      (a.toNat * 2 ^ 24 + b.toNat * 2 ^ 16 + c.toNat * 2 ^ 8 + d.toNat) :: words s
  | _ => []

def sha256Pad (m : Bytes) : Bytes :=
  m ++ 0x80 :: List.replicate ((119 - m.length % 64) % 64) 0 ++
    be32 (m.length * 8 / 2 ^ 32) ++ be32 (m.length * 8)

/-- The blocks of a padded message, sixteen words each. -/
def sha256Blocks : Nat → List Nat → Sha256State → Sha256State
  | 0, _, s => s
  | n + 1, w, s => sha256Blocks n (w.drop 16) (sha256Block s (w.take 16))

def sha256 (m : Bytes) : Bytes :=
  let w := words (sha256Pad m)
  let s := sha256Blocks (w.length / 16) w sha256Init
  be32 s.a ++ be32 s.b ++ be32 s.c ++ be32 s.d ++ be32 s.e ++ be32 s.f ++ be32 s.g ++ be32 s.h

end Sha256
section Tree
variable {α : Type}

/-- Two subtrees without the node that held them together. -/
def join : BinaryTree α → BinaryTree α → BinaryTree α
  | .nil, r => r
  | .node a l r', r => .node a l (join r' r)

theorem inorder_join (l r : BinaryTree α) : inorder (join l r) = inorder l ++ inorder r := by
  induction l with
  | nil => rfl
  | node a l r' _ ih => simp [join, ih]

variable [DecidableEq α]

def delete : BinaryTree α → α → BinaryTree α
  | .nil, _ => .nil
  | .node a l r, x =>
      if x ∈ inorder l then .node a (delete l x) r
      else if a = x then join l r
      else .node a l (delete r x)

theorem inorder_delete (t : BinaryTree α) (x : α) :
    inorder (delete t x) = (inorder t).erase x := by
  induction t with
  | nil => rfl
  | node a l r ihl ihr =>
      simp only [delete]
      split
      next h => simp [ihl, List.erase_append_left _ h]
      next h =>
        rw [inorder_node, List.erase_append_right _ h]
        split
        next ha => simp [inorder_join, ha]
        next ha => simp [ihr, ha]

end Tree

section Inet

/-- The loop of `ngx_inet_addr` over the characters that are left. -/
def inetAddrLoop (addr octet n : Nat) : Bytes → Option UInt32
  | [] => if n = 3 then some (UInt32.ofNat (addr * 256 + octet)) else none
  | c :: s =>
      if isDigit c then
        let octet := octet * 10 + (c.toNat - 48)
        if octet > 255 then none else inetAddrLoop addr octet n s
      else if c = ch '.' then inetAddrLoop (addr * 256 + octet) 0 (n + 1) s
      else none

/-- `INADDR_NONE` is also the address of `255.255.255.255`. -/
def inetAddr (s : Bytes) : Option UInt32 :=
  (inetAddrLoop 0 0 0 s).filter fun addr => addr ≠ 0xFFFFFFFF

def decimalText (n : Nat) : Bytes := (Nat.toDigits 10 n).map ch

def inetNtop (addr : UInt32) : Bytes :=
  let a := addr.toNat
  decimalText (a / 2 ^ 24) ++ ch '.' :: decimalText (a / 2 ^ 16 % 256) ++
    ch '.' :: decimalText (a / 2 ^ 8 % 256) ++ ch '.' :: decimalText (a % 256)

end Inet

def memn2cmp (a b : Bytes) : Int :=
  match compare a b with
  | .lt => -1
  | .eq => 0
  | .gt => 1

def atoi (s : Bytes) : Option Nat :=
  if s ≠ [] ∧ s.all isDigit = true ∧ decimal s ≤ ngxMaxIntT then some (decimal s) else none

/-- `ngx_parse_size` -/
def parseSize (s : Bytes) : Option Nat :=
  match s.getLast? with
  | none => none
  | some unit =>
      if unit = ch 'K' ∨ unit = ch 'k' then (atoi s.dropLast).map (· * 1024)
      else if unit = ch 'M' ∨ unit = ch 'm' then (atoi s.dropLast).map (· * 1048576)
      else atoi s

def addTimer (timer : Option Nat) (now ms : Nat) : Option Nat :=
  let key := now + ms
  match timer with
  | none => some key
  | some old =>
      if old < key + ngxTimerLazyDelay ∧ key < old + ngxTimerLazyDelay then some old else some key

def ngx : NgxCore where
  crc32Short := crc32
  crc32Long := crc32
  memn2cmp := memn2cmp
  memn2cmp_sign := by
    intro a b
    rw [memn2cmp]
    cases compare a b <;> rfl
  rbtreeFixup := id
  rbtreeFixup_inorder := fun _ => rfl
  rbtreeDelete := delete
  rbtreeDelete_inorder := inorder_delete
  atoi := atoi
  atoi_eq_some := by
    intro s n
    rw [atoi]
    split
    next h =>
      simp only [Option.some.injEq]
      constructor
      · rintro rfl
        exact ⟨h.1, h.2.1, rfl, h.2.2⟩
      · exact fun h' => h'.2.2.1
    next h =>
      simp only [reduceCtorEq, false_iff]
      rintro ⟨h1, h2, rfl, h3⟩
      exact h ⟨h1, h2, h3⟩
  inetAddr := inetAddr
  inet6Addr := fun _ => none
  inetNtop := inetNtop
  inetNtop_ne_nil := by simp [inetNtop]
  inet6Ntop := fun _ => [ch ':', ch ':']
  inet6Ntop_ne_nil := by simp
  sha256 := sha256
  sha256_length := fun _ => rfl
  addTimer := addTimer
  addTimer_none := fun _ _ => rfl
  addTimer_some := by
    intro old now ms
    simp only [addTimer]
    split
    next hnear => exact .inr ⟨rfl, hnear⟩
    next => exact .inl rfl

end Sentinel.Ref
