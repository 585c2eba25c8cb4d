import Sentinel.BanEnd
import Sentinel.PowGate
import Sentinel.Preaccess
import Sentinel.ScoreSum

/-!
The soft-ban as the clients see it. A location that blocks a client writes a ban
into the errrate zone, and the next request of the client finds it there: the
handlers reach the zone only through the store's calls, none of which shortens a
running ban below the length that the locations agree on.
-/

namespace Sentinel
open Function

section Group

/-- Locations that share one errrate zone, which nothing else uses, and the
length of the soft-bans in it. -/
structure BanGroup where
  shm : Nat
  zone : Zone
  ttl : Int
  ttl_pos : 0 < ttl

def Avoids (zone : Option BoundZone) (shm : Nat) : Prop := zone.map BoundZone.shm ≠ some shm

instance decidableAvoids (zone : Option BoundZone) (shm : Nat) : Decidable (Avoids zone shm) :=
  inferInstanceAs (Decidable (_ ≠ _))

namespace BanGroup
variable (g : BanGroup)

/-- A location of the group: a ban in the zone alone reaches its block threshold. -/
structure Member (lcf : RequestConf) : Prop where
  enabled : lcf.enabled = true
  enforce : lcf.shadow = false
  zone : lcf.zone = some ⟨g.shm, some g.zone⟩
  velZone : Avoids lcf.velZone g.shm
  csZone : Avoids lcf.csZone g.shm
  blockTtl : lcf.blockTtl = g.ttl
  blocked : lcf.threshold.block ≤ lcf.weights.blocked
  threshold : lcf.threshold.block ≤ ngxSentinelScoreMax

structure Outside (lcf : RequestConf) : Prop where
  zone : Avoids lcf.zone g.shm
  velZone : Avoids lcf.velZone g.shm
  csZone : Avoids lcf.csZone g.shm

def Uses (lcf : RequestConf) : Prop := g.Member lcf ∨ g.Outside lcf

end BanGroup

/-- What the requests do to the shared memory, handler by handler. A variable
that is read gathers the signals; preaccess takes what the request's own
variables have left in its slot. `elsewhere` is anything that happens to another
segment. -/
inductive VisitEvent where
  | read (gather : Gather) (addrText : Bytes)
  | preaccess (lcf : RequestConf) (r : Request) (io : RequestIo) (slot : Option SentinelCtx)
  | respond (lcf : RequestConf) (addrText : Bytes) (io : LogIo)
  | elsewhere (shm : Nat) (sh : Shctx)

namespace VisitEvent

/-- The event takes place from `lo` to `hi`. -/
def Between (lo hi : Nat) : VisitEvent → Prop
  | .read gather _ => lo ≤ gather.now ∧ gather.now ≤ hi
  | .preaccess _ _ io _ => lo ≤ io.now ∧ io.now ≤ hi
  | .respond _ _ io => lo ≤ io.now ∧ io.now ≤ hi
  | .elsewhere _ _ => True

/-- Nothing but the group uses its zone, and no allocation fails. -/
def Admitted (g : BanGroup) : VisitEvent → Prop
  | .read gather _ => g.Uses gather.lcf
  | .preaccess lcf _ io _ => g.Uses lcf ∧ io.ctxAlloc = true ∧ io.slab = true
  | .respond lcf _ io => g.Uses lcf ∧ io.slab = true
  | .elsewhere shm _ => shm ≠ g.shm

end VisitEvent

/-- One request. A variable may be read before preaccess, at another time and
with other handlers running in between. -/
structure Visit where
  lcf : RequestConf
  r : Request
  io : RequestIo
  early : Option (Gather × List VisitEvent)

end Group
section Calls
variable {ngx : NgxCore} {g : BanGroup}

/-- A run of calls on the zone of the group. -/
def storeRun (ngx : NgxCore) (zone : Zone) : Shctx → List StoreCall → Shctx :=
  Run.exec fun sh c => (storeStep ngx zone sh c).2

theorem update_avoids {zone : Option BoundZone} {z : BoundZone} {shm : Nat} (hz : zone = some z)
    (h : Avoids zone shm) (segments : Segments) (sh : Shctx) :
    update segments z.shm sh shm = segments shm := by
  apply update_of_ne
  intro heq
  apply h
  rw [hz, heq]
  rfl

theorem zoneLookup_avoids {zone : Option BoundZone} {addrText : Bytes} {now shm : Nat}
    {segments : Segments} {l : ErrrateReply × Segments} (h : Avoids zone shm)
    (hl : zoneLookup ngx zone addrText now segments = some l) : l.2 shm = segments shm := by
  obtain ⟨z, hz, hl⟩ := zoneLookup_eq_some hl
  rw [hl]
  exact update_avoids hz h segments _

theorem velocity_avoids {lcf : RequestConf} {addrText : Bytes} {now shm : Nat} {inputs : Inputs}
    {segments : Segments} (h : Avoids lcf.velZone shm) :
    (sentinelVelocitySignal ngx lcf addrText now inputs segments).2 shm = segments shm := by
  simp only [sentinelVelocitySignal]
  cases hl : zoneLookup ngx lcf.velZone addrText now segments with
  | none => rfl
  | some l =>
      have := zoneLookup_avoids h hl
      dsimp only
      split
      · exact this
      · exact this

theorem crowdsec_avoids {lcf : RequestConf} {addrText : Bytes} {now shm : Nat} {inputs : Inputs}
    {segments : Segments} (h : Avoids lcf.csZone shm) :
    (sentinelCrowdsecSignal ngx lcf addrText now inputs segments).2 shm = segments shm := by
  simp only [sentinelCrowdsecSignal]
  cases hz : lcf.csZone with
  | none => rfl
  | some z =>
      by_cases haddr : addrText.length = 0
      · simp only [crowdsecLookup, haddr, if_true]
      · have hkeep := update_avoids hz h segments
        simp only [crowdsecLookup, haddr, if_false]
        split
        · exact hkeep _
        · split
          · exact hkeep _
          · exact hkeep _

/-- A call that the group makes from `lo` to `hi`. -/
structure BanGroup.Fits (g : BanGroup) (lo hi : Nat) (c : StoreCall) : Prop where
  lo : lo ≤ c.now
  hi : c.now ≤ hi
  softban : ∀ ttl, c.op = .softban ttl → ttl = g.ttl

/-- `sh'` is what some calls of the group make of `sh`. -/
def BanGroup.Evolves (g : BanGroup) (ngx : NgxCore) (lo hi : Nat) (sh sh' : Shctx) : Prop :=
  ∃ calls, (∀ c ∈ calls, g.Fits lo hi c) ∧ sh' = storeRun ngx g.zone sh calls

variable {lo hi : Nat} {sh sh₁ sh₂ : Shctx}

theorem BanGroup.Evolves.trans (h₁ : g.Evolves ngx lo hi sh sh₁)
    (h₂ : g.Evolves ngx lo hi sh₁ sh₂) : g.Evolves ngx lo hi sh sh₂ := by
  obtain ⟨calls₁, hfits₁, rfl⟩ := h₁
  obtain ⟨calls₂, hfits₂, rfl⟩ := h₂
  refine ⟨calls₁ ++ calls₂, List.forall_mem_append.mpr ⟨hfits₁, hfits₂⟩, ?_⟩
  exact (Run.exec_append _ sh calls₁ calls₂).symm

theorem BanGroup.Evolves.wf (h : g.Evolves ngx lo hi sh sh₁) (wf : sh.Wf ngx) : sh₁.Wf ngx := by
  obtain ⟨calls, -, rfl⟩ := h
  have hstep : ∀ sh c, sh.Wf ngx → (storeStep ngx g.zone sh c).2.Wf ngx :=
    fun _ c wf => (storeStep_cases g.zone wf c).1
  exact Run.exec_invariant hstep wf calls

end Calls
section Handlers
variable {pow : PowCore} {g : BanGroup} {lcf : RequestConf} {lo hi : Nat} {s : Shared}

end Handlers
section Banned
variable {ngx : NgxCore} {g : BanGroup} {k : Key} {lo hi : Nat} {sh sh' : Shctx}

/-- `k` has a ban whose end is one that the group has set from `lo` to `hi`. -/
def BanGroup.Bans (g : BanGroup) (sh : Shctx) (k : Key) (lo hi : Nat) : Prop :=
  ∃ n, sh.get k = some n ∧ lo + g.ttl ≤ n.blockedUntil ∧ n.blockedUntil ≤ hi + g.ttl

theorem bans_step (wf : sh.Wf ngx) (h : g.Bans sh k lo hi) {c : StoreCall} (hc : g.Fits lo hi c)
    (ht : hi < lo + g.ttl) (hfits : hi + g.ttl < 2 ^ 63) :
    g.Bans (storeStep ngx g.zone sh c).2 k lo hi := by
  obtain ⟨n, hn, hlo, hhi⟩ := h
  have := hc.hi
  have := hc.lo
  obtain ⟨n', hn', hend⟩ := ban_step g.zone wf hn c (by omega)
  refine ⟨n', hn', ?_⟩
  cases hend with
  | inl hsame => omega
  | inr hmoved =>
      obtain ⟨ttl, -, hop, hpos, hend⟩ := hmoved
      rw [hc.softban ttl hop] at hend hpos
      rw [timeAdd_eq (by omega) (by omega)] at hend
      omega

theorem BanGroup.Evolves.bans (h : g.Evolves ngx lo hi sh sh') (wf : sh.Wf ngx)
    (hbans : g.Bans sh k lo hi) (ht : hi < lo + g.ttl) (hfits : hi + g.ttl < 2 ^ 63) :
    g.Bans sh' k lo hi := by
  obtain ⟨calls, hcalls, rfl⟩ := h
  have hstep : ∀ sh c, g.Fits lo hi c → sh.Wf ngx ∧ g.Bans sh k lo hi →
      (storeStep ngx g.zone sh c).2.Wf ngx ∧ g.Bans (storeStep ngx g.zone sh c).2 k lo hi := by
    intro sh c hc h
    exact ⟨(storeStep_cases g.zone h.1 c).1, bans_step h.1 h.2 hc ht hfits⟩
  exact (Run.exec_invariant_along hstep (Run.along_of_forall _ sh hcalls) ⟨wf, hbans⟩).2

end Banned
section Verdict
variable {g : BanGroup} {lcf : RequestConf} {lo hi : Nat}

end Verdict
section Persists

/-- The request has received BLOCK. -/
def PreaccessReply.Blocked (reply : PreaccessReply) : Prop :=
  reply.ctx.map SentinelCtx.verdict = some .block

instance PreaccessReply.decidableBlocked (reply : PreaccessReply) : Decidable reply.Blocked :=
  inferInstanceAs (Decidable (_ = _))

/-- The visit is one to the group, by the client `addrText`, from `lo` on. -/
structure Visit.Follows (v : Visit) (g : BanGroup) (addrText : Bytes) (lo : Nat) : Prop where
  member : g.Member v.lcf
  client : v.r.addrText = addrText
  ctxAlloc : v.io.ctxAlloc = true
  slab : v.io.slab = true
  since : lo ≤ v.io.now
  early : ∀ gather between, v.early = some (gather, between) → g.Member gather.lcf ∧
    (lo ≤ gather.now ∧ gather.now ≤ v.io.now) ∧
      ∀ e ∈ between, e.Admitted g ∧ e.Between lo v.io.now

variable (pow : PowCore) (g : BanGroup)

variable {pow g}

theorem BanGroup.Bans.mono {sh : Shctx} {k : Key} {lo hi hi' : Nat} (h : g.Bans sh k lo hi)
    (hle : hi ≤ hi') : g.Bans sh k lo hi' := by
  obtain ⟨n, hn, hlo, hhi⟩ := h
  exact ⟨n, hn, hlo, by omega⟩

end Persists
end Sentinel
