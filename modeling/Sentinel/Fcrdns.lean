import Sentinel.Pow
import Sentinel.Preaccess

/-!
`sentinel_fcrdns.c`: the verdict cache, the collector that reads it, and the
chain of resolver callbacks that fills it. The cache is a CrowdSec store whose
actions are verdicts.

The resolver is part of nginx; what it answers comes in as an argument. A carrier
has the fields that the callbacks read; left out are the resolver, the timeout
and the log that it points to.
-/

namespace Sentinel
open Function

def ngxSentinelFcrdnsPending : UInt8 := 0
def ngxSentinelFcrdnsVerified : UInt8 := 1
def ngxSentinelFcrdnsFailed : UInt8 := 2
def ngxSentinelFcrdnsDefaultTtl : Int := 3600

/-- The directives of a location. -/
structure FcrdnsConf where
  fcrdnsZone : Option BoundZone
  fcrdnsTtl : Int
  fcrdnsSuffixes : List Bytes
  deriving DecidableEq, Repr

section Cache
variable (ngx : NgxCore)

def sentinelShmFcrdnsGet (zone : Option Zone) (sh : Shctx) (key : Key) (now : Int) :
    UInt8 × Shctx :=
  let r := sentinelShmCrowdsecLookup ngx zone sh key now
  (if r.1 = .busy then r.2.1 else ngxSentinelFcrdnsPending, r.2.2)

def sentinelShmFcrdnsSet (zone : Option Zone) (sh : Shctx) (key : Key) (verdict : UInt8)
    (now ttl : Int) (slab : Bool) : NgxRc × Shctx :=
  match zone with
  | none => (.error, sh)
  | some zone =>
      sentinelShmCrowdsecUpsert ngx (some zone) sh key (timeAdd now ttl) verdict 0 now false slab

/-- The SHA-256 of `$binary_remote_addr`. -/
def sentinelFcrdnsKey : SockAddr → Option Key
  | .inet addr _ => some (sentinelFeedDigest ngx addr)
  | .inet6 addr _ => some (sentinelFeedDigest ngx addr)
  | .other _ => none

/-- The third component is the key for which a resolve is to be started. -/
def sentinelFcrdnsSignal (lcf : FcrdnsConf) (addrText : Bytes) (sockaddr : SockAddr)
    (now : Int) (inputs : Inputs) (shm : Segments) : Inputs × Segments × Option Key :=
  let inputs := { inputs with fcrdnsVerified := false, fcrdnsSpoofed := false }
  match lcf.fcrdnsZone with
  | none => (inputs, shm, none)
  | some z =>
      if ¬ inputs.knownGoodUa then (inputs, shm, none)
      else if addrText.length = 0 then (inputs, shm, none)
      else
        match sentinelFcrdnsKey ngx sockaddr with
        | none => (inputs, shm, none)
        | some key =>
            let r := sentinelShmFcrdnsGet ngx z.zone (shm z.shm) key now
            let shm := update shm z.shm r.2
            if r.1 = ngxSentinelFcrdnsVerified then
              ({ inputs with fcrdnsVerified := true }, shm, none)
            else if r.1 = ngxSentinelFcrdnsFailed then
              ({ inputs with fcrdnsSpoofed := true }, shm, none)
            else (inputs, shm, some key)

end Cache
section Resolver

/-- `sentinel_fcrdns_carrier_t` -/
structure Carrier where
  zone : BoundZone
  ttl : Int
  suffixes : List Bytes
  key : Key
  ss : SockAddr
  ptrName : Bytes
  deriving DecidableEq

/-- What a resolve meets at its start: a resolver that is configured and can be
used, an address of a usable length, memory, and the query being taken. -/
structure ResolveEnv where
  resolver : Bool
  sockaddr : Bool
  alloc : Bool
  resolveStart : Bool
  resolveAddr : Bool
  deriving DecidableEq, Repr

/-- The state of a query is `NGX_OK` or not; the address lookup answers with a
name, the name lookup with a set of addresses. -/
structure PtrReply where
  ok : Bool
  name : Bytes
  deriving DecidableEq, Repr

structure FwdReply where
  ok : Bool
  addrs : List SockAddr
  deriving DecidableEq, Repr

/-- What the first callback meets on its way to the second query. -/
structure PtrEnv where
  nameAlloc : Bool
  resolveStart : Bool
  resolveName : Bool
  deriving DecidableEq, Repr

def sentinelFcrdnsSuffixOk (c : Carrier) (name : Bytes) : Bool :=
  c.suffixes.length = 0 ∨ c.suffixes.any fun suf =>
    name.length ≥ suf.length ∧
      ngxStrncasecmp (name.drop (name.length - suf.length)) suf suf.length = 0

def sentinelFcrdnsResolveStart (lcf : FcrdnsConf) (z : BoundZone) (key : Key) (ss : SockAddr)
    (env : ResolveEnv) : Option Carrier :=
  if ¬ env.resolver then none
  else if ¬ env.sockaddr then none
  else if ¬ env.alloc then none
  else
    let c : Carrier :=
      { zone := z
        ttl := if lcf.fcrdnsTtl > 0 then lcf.fcrdnsTtl else ngxSentinelFcrdnsDefaultTtl
        suffixes := lcf.fcrdnsSuffixes
        key := key
        ss := ss
        ptrName := [] }
    if ¬ env.resolveStart then none
    else if ¬ env.resolveAddr then none
    else some c

variable (ngx : NgxCore)

/-- The carrier is released in any case. -/
def sentinelFcrdnsFinish (c : Carrier) (verdict : UInt8) (now : Int) (slab : Bool)
    (shm : Segments) : Segments :=
  if verdict ≠ ngxSentinelFcrdnsPending then
    update shm c.zone.shm
      (sentinelShmFcrdnsSet ngx c.zone.zone (shm c.zone.shm) c.key verdict now c.ttl slab).2
  else shm

/-- The carrier goes on to the second query, or it is finished. -/
def sentinelFcrdnsPtrHandler (c : Carrier) (reply : PtrReply) (env : PtrEnv) (now : Int)
    (slab : Bool) (shm : Segments) : Option Carrier × Segments :=
  if ¬ reply.ok ∨ reply.name.length = 0 then
    (none, sentinelFcrdnsFinish ngx c ngxSentinelFcrdnsPending now slab shm)
  else if ¬ sentinelFcrdnsSuffixOk c reply.name then
    (none, sentinelFcrdnsFinish ngx c ngxSentinelFcrdnsFailed now slab shm)
  else if ¬ env.nameAlloc then
    (none, sentinelFcrdnsFinish ngx c ngxSentinelFcrdnsPending now slab shm)
  else
    let c := { c with ptrName := reply.name }
    if ¬ env.resolveStart then
      (none, sentinelFcrdnsFinish ngx c ngxSentinelFcrdnsPending now slab shm)
    else if ¬ env.resolveName then
      (none, sentinelFcrdnsFinish ngx c ngxSentinelFcrdnsPending now slab shm)
    else (some c, shm)

/-- The loop over the set: the same family and the same bytes. -/
def fcrdnsMatch (orig : SockAddr) : (addrs : List SockAddr) → Bool
  | [] => false
  | .inet a _ :: addrs =>
      match orig with
      | .inet o _ => if a = o then true else fcrdnsMatch orig addrs
      | _ => fcrdnsMatch orig addrs
  | .inet6 a _ :: addrs =>
      match orig with
      | .inet6 o _ => if a = o then true else fcrdnsMatch orig addrs
      | _ => fcrdnsMatch orig addrs
  | .other _ :: addrs => fcrdnsMatch orig addrs

def sentinelFcrdnsFwdHandler (c : Carrier) (reply : FwdReply) (now : Int) (slab : Bool)
    (shm : Segments) : Segments :=
  if ¬ reply.ok ∨ reply.addrs.length = 0 then
    sentinelFcrdnsFinish ngx c ngxSentinelFcrdnsPending now slab shm
  else
    sentinelFcrdnsFinish ngx c
      (if fcrdnsMatch c.ss reply.addrs then ngxSentinelFcrdnsVerified
        else ngxSentinelFcrdnsFailed) now slab shm

end Resolver
section Lookup
variable {ngx : NgxCore} {sh : Shctx}

/-- What the cache says about a key, as long as it has not run out. -/
def Fresh (sh : Shctx) (key : Key) (verdict : UInt8) (now : Int) : Prop :=
  ∃ n, sh.get key = some n ∧ now < n.blockedUntil ∧ n.csAction = verdict

theorem fcrdnsGet_fresh (zone : Zone) (wf : sh.Wf ngx) {key : Key} {verdict : UInt8} {now : Int}
    (h : Fresh sh key verdict now) :
    (sentinelShmFcrdnsGet ngx (some zone) sh key now).1 = verdict := by
  obtain ⟨n, hn, hactive, haction⟩ := h
  obtain ⟨-, -, -, hreply⟩ := crowdsecLookup_spec zone wf key now
  cases hreply with
  | inl hbusy =>
      obtain ⟨hrc, m, hm, -, hverdict⟩ := hbusy
      rw [sentinelShmFcrdnsGet, if_pos hrc, hverdict, ← haction,
        Option.some.inj (hm.symm.trans hn)]
  | inr hok =>
      have := hok.2 n hn
      omega

/-- A lookup answers the same on a store that has only faded since. -/
theorem crowdsecLookup_fades (zone : Option Zone) {sh' : Shctx} {now : Int} (wf : sh.Wf ngx)
    (wf' : sh'.Wf ngx) (h : Fades now sh sh') (key : Key) :
    let r := sentinelShmCrowdsecLookup ngx zone sh key now
    let r' := sentinelShmCrowdsecLookup ngx zone sh' key now
    r'.1 = r.1 ∧ (r.1 = .busy → r'.2.1 = r.2.1) := by
  cases zone with
  | none => exact ⟨rfl, fun _ => rfl⟩
  | some zone =>
      intro r r'
      obtain ⟨-, -, -, hr⟩ := crowdsecLookup_spec zone wf key now
      obtain ⟨-, -, -, hr'⟩ := crowdsecLookup_spec zone wf' key now
      have hsame : ∀ n, sh.get key = some n → now < n.blockedUntil →
          ∃ n', sh'.get key = some n' ∧ n'.entry = n.entry := by
        intro n hn hactive
        cases h key with
        | inl hkept =>
            rw [hn, Option.map_some] at hkept
            exact Option.map_eq_some_iff.mp hkept
        | inr hgone =>
            obtain ⟨-, m, hm, hover⟩ := hgone
            rw [Option.some.inj (hm.symm.trans hn)] at hover
            omega
      cases hr with
      | inl hbusy =>
          obtain ⟨hrc, n, hn, hactive, haction⟩ := hbusy
          obtain ⟨n', hn', hentry⟩ := hsame n hn hactive
          obtain ⟨hend, hact, -⟩ : n'.blockedUntil = n.blockedUntil ∧ n'.csAction = n.csAction ∧
              n'.csGeneration = n.csGeneration := by
            simpa [Node.entry] using hentry
          cases hr' with
          | inl hbusy' =>
              obtain ⟨hrc', m, hm, -, haction'⟩ := hbusy'
              refine ⟨hrc'.trans hrc.symm, fun _ => ?_⟩
              rw [haction', haction, ← hact, Option.some.inj (hm.symm.trans hn')]
          | inr hok' =>
              have := hok'.2 n' hn'
              omega
      | inr hok =>
          have hnot : ¬ r.1 = .busy := by
            rw [hok.1]
            decide
          cases hr' with
          | inl hbusy' =>
              obtain ⟨-, n', hn', hactive, -⟩ := hbusy'
              cases h key with
              | inl hkept =>
                  rw [hn', Option.map_some] at hkept
                  obtain ⟨n, hn, hentry⟩ := Option.map_eq_some_iff.mp hkept.symm
                  have hover := hok.2 n hn
                  have hend : n.blockedUntil = n'.blockedUntil := congrArg Prod.fst hentry
                  omega
              | inr hgone =>
                  rw [hn'] at hgone
                  exact absurd hgone.1 (by simp)
          | inr hok' => exact ⟨hok'.1.trans hok.1.symm, fun hbusy => absurd hbusy hnot⟩

end Lookup
section Store
variable {ngx : NgxCore} {sh : Shctx}

/-- A verdict that is set is under its key, and nothing else has changed; without
memory for a new node nothing has. -/
theorem fcrdnsSet_spec (zone : Zone) (wf : sh.Wf ngx) (key : Key) (verdict : UInt8)
    (now ttl : Int) (slab : Bool) :
    let sh' := (sentinelShmFcrdnsSet ngx (some zone) sh key verdict now ttl slab).2
    sh'.Wf ngx ∧
      (slab = false ∧ sh.get key = none ∧ sh' = sh ∨
        (slab = true ∨ (sh.get key).isSome) ∧ ∃ n, Upserted n key (timeAdd now ttl) verdict 0 ∧
          ∀ k, sh'.get k = if k = key then some n else sh.get k) := by
  intro sh'
  by_cases hroom : slab = true ∨ (sh.get key).isSome
  · obtain ⟨-, hwf, -, hget⟩ := upsert_spec zone (timeAdd now ttl) verdict now false wf
      (Nat.zero_le sh.csGeneration) hroom
    exact ⟨hwf, .inr ⟨hroom, hget⟩⟩
  · have hslab : slab = false := by simpa using fun h => hroom (.inl h)
    have hnone : sh.get key = none := by
      rw [← Option.not_isSome_iff_eq_none]
      exact fun h => hroom (.inr h)
    have hsame : sh' = sh := congrArg Prod.snd (upsert_refused zone wf hslab hnone)
    refine ⟨?_, .inl ⟨hslab, hnone, hsame⟩⟩
    rw [hsame]
    exact wf

end Store
end Sentinel
