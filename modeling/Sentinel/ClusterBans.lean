import Sentinel.Cluster
import Sentinel.RingFifo

/-!
Where the bans come from that a host has from Redis. Whatever the interleaving,
whichever connections fail and whatever the server forgets, each of them was made
by a request that was blocked at some host, which knew of nothing against the
client from outside; it is about that client, for as long as that host said.
Deployments with different prefixes on one server do not meet.
-/

namespace Sentinel
open Function

section Zone
variable {ngx : NgxCore} {S : Key → Int → UInt8 → Prop} {sh sh' : Shctx}

/-- The bans of a zone that are from Redis are as `S` has it. -/
def PulledSound (S : Key → Int → UInt8 → Prop) (sh : Shctx) : Prop :=
  ∀ k n, sh.get k = some n → n.redisPulled = true → S k n.blockedUntil n.csAction

/-- What a node says of its ban, and whether it has that from Redis. -/
def Node.pulledBan (n : Node) : Int × UInt8 × Bool := (n.blockedUntil, n.csAction, n.redisPulled)

theorem PulledSound.of_get (h : PulledSound S sh)
    (hget : ∀ k n', sh'.get k = some n' → n'.redisPulled = false ∨
      ∃ n, sh.get k = some n ∧ n.pulledBan = n'.pulledBan) : PulledSound S sh' := by
  intro k n' hn' hpulled
  cases hget k n' hn' with
  | inl hlocal => exact absurd (hpulled.symm.trans hlocal) (by simp)
  | inr hsame =>
      obtain ⟨n, hn, hban⟩ := hsame
      simp only [Node.pulledBan, Prod.mk.injEq] at hban
      rw [← hban.1, ← hban.2.1]
      exact h k n hn (hban.2.2.trans hpulled)

/-- The uses of a CrowdSec zone that have nothing to do with Redis: lookups, and
the loader's critical sections. -/
def ZoneCall.ownUse : ZoneCall → Bool
  | .errrateLookup _ _ => false
  | .errrateRecord _ _ _ => false
  | .softbanSet _ _ _ _ => false
  | .crowdsecLookup _ _ => true
  | .crowdsecUpsert _ _ _ _ _ redisPulled _ => !redisPulled
  | .crowdsecBump => true
  | .crowdsecSweep _ _ => true

theorem pulledSound_lookup (h : PulledSound S sh) (wf : sh.Wf ngx) (zone : Zone) (key : Key)
    (now : Int) : PulledSound S (sentinelShmCrowdsecLookup ngx (some zone) sh key now).2.2 := by
  have wf₁ := (expire_get zone now ngxSentinelExpireBatch wf).1
  have hfound : ∀ k n, (sentinelShmExpire ngx zone now ngxSentinelExpireBatch sh).get k = some n →
      sh.get k = some n := fun k n => get_of_expire zone wf
  have hlook := sentinelShmLookup_eq_get wf₁ key
  simp only [sentinelShmCrowdsecLookup]
  generalize sentinelShmExpire ngx zone now ngxSentinelExpireBatch sh = sh₁ at wf₁ hfound hlook
  cases hget : sh₁.get key with
  | none =>
      simp only [hlook, hget]
      exact h.of_get fun k n hn => .inr ⟨n, hfound k n hn, rfl⟩
  | some n =>
      simp only [hlook, hget]
      obtain rfl := get_key hget
      obtain ⟨-, hafter⟩ := touch_write_spec (m := { n with lastSeen := now }) wf₁ hget rfl rfl
        (wf₁.gen_le n (mem_of_get hget))
      have hsound : PulledSound S
          ((sentinelShmTouch sh₁ n).write { n with lastSeen := now }) := by
        refine h.of_get fun k n' hn' => .inr ?_
        rw [hafter] at hn'
        split at hn'
        next hk => exact ⟨n, hk ▸ hfound _ _ hget, Option.some.inj hn' ▸ rfl⟩
        next hk => exact ⟨n', hfound k n' hn', rfl⟩
      split
      · exact hsound
      · exact hsound

theorem pulledSound_call (h : PulledSound S sh) (wf : sh.Wf ngx) (zone : Zone) {op : ZoneCall}
    (hop : op.ownUse = true) (hstamped : op.Stamped sh) :
    PulledSound S (op.run ngx zone sh) := by
  cases op with
  | errrateLookup key now => contradiction
  | errrateRecord key now slab => contradiction
  | softbanSet key now ttl slab => contradiction
  | crowdsecLookup key now => exact pulledSound_lookup h wf zone key now
  | crowdsecBump => exact h
  | crowdsecSweep generation batch =>
      obtain ⟨-, -, -, -, hget⟩ := sweep_spec zone wf generation batch
      refine h.of_get fun k n hn => .inr ⟨n, ?_, rfl⟩
      simp only [ZoneCall.run, hget] at hn
      split at hn
      · contradiction
      · exact hn
  | crowdsecUpsert key expiry action generation now redisPulled slab =>
      have hlocal : redisPulled = false := by simpa [ZoneCall.ownUse] using hop
      subst hlocal
      simp only [ZoneCall.run, sentinelShmCrowdsecUpsert, sentinelShmLookup_eq_get wf]
      cases hget : sh.get key with
      | none =>
          dsimp only
          cases slab with
          | false => exact h
          | true =>
              obtain ⟨m, hcreate, rfl, hhash, hzero⟩ := crowdsecCreate_eq ngx sh key now
              obtain ⟨-, hafter⟩ := link_write_spec
                (m := crowdsecNode m expiry action generation now false) wf hget hhash hzero rfl rfl
                hstamped
              simp only [hcreate]
              refine h.of_get fun k n' hn' => ?_
              rw [hafter] at hn'
              split at hn'
              · exact .inl (Option.some.inj hn' ▸ rfl)
              · exact .inr ⟨n', hn', rfl⟩
      | some n =>
          obtain rfl := get_key hget
          obtain ⟨-, hafter⟩ := touch_write_spec
            (m := crowdsecNode n expiry action generation now false) wf hget rfl rfl hstamped
          refine h.of_get fun k n' hn' => ?_
          simp only [hafter] at hn'
          split at hn'
          · exact .inl (Option.some.inj hn' ▸ rfl)
          · exact .inr ⟨n', hn', rfl⟩

theorem pulledSound_getReply (h : PulledSound S sh) (wf : sh.Wf ngx) (csZone : Option Zone)
    (ip : Bytes) (reply : Option Bytes) (now : Int) (slab : Bool)
    (hS : ∀ d, redisDecision ngx ip reply now = some d → S d.key d.expiry d.action) :
    let sh' := (sentinelRedisGetReply ngx csZone sh ip reply now slab).getD sh
    PulledSound S sh' ∧ sh'.Wf ngx := by
  cases csZone with
  | none =>
      simp only [sentinelRedisGetReply]
      split
      · exact ⟨h, wf⟩
      · exact ⟨h, wf⟩
  | some z =>
      simp only [sentinelRedisGetReply, Option.getD_some]
      cases redisStore_spec z wf ip reply now slab with
      | inl hsame =>
          rw [hsame]
          exact ⟨h, wf⟩
      | inr hwrite =>
          obtain ⟨hwf, -, d, n, hd, ⟨-, hexpiry, haction, -⟩, hget⟩ := hwrite
          refine ⟨fun k m hm hpulled => ?_, hwf⟩
          rw [hget] at hm
          split at hm
          next hk =>
            rw [← Option.some.inj hm, hexpiry, haction, hk]
            exact hS d hd
          next => exact h k m hm hpulled

/-- A value that node A has written is read for what it says, or not at all. -/
theorem redisDecision_written {action : UInt8} {n now : Nat} {ip : Bytes} {d : Decision}
    (hn : n ≤ ngxMaxIntT) (haction : action ∈ csTiers)
    (hd : redisDecision ngx ip (some (redisValue action n)) now = some d) :
    d = ⟨sentinelFeedDigest ngx ip, n, action⟩ := by
  by_cases hnow : now < n
  · rw [redisDecision_value ngx action ip hn hnow] at hd
    rw [← Option.some.inj hd, (sentinelRedisAction_str action).2 haction]
  · have hatoi : ngx.atoi (ngxPrint n) = some n :=
      (ngx.atoi_eq_some _ n).mpr ⟨Numeral.write_ne_nil n,
        allDigits_iff.mpr (Numeral.write_digits n), decimal_print n, hn⟩
    have hover : (n : Int) ≤ now := by omega
    rw [redisValue_eq hn, redisDecision, if_neg (by simp),
      Lines.field_append _ (sentinelRedisActionStr_space action)] at hd
    simp [hatoi, hover] at hd

end Zone
section Frame
variable (w : RedisWorld)

/-! The zone is written by the reply to a `GET` and by nothing else. -/

@[simp] theorem redisAsyncCommand_sh (ok : Bool) (fn : RedisCallback) (command : RedisCommand) :
    (redisAsyncCommand w ok fn command).2.sh = w.sh := by
  cases redisAsyncCommand_cases w ok fn command with
  | inl hrefused => rw [hrefused]
  | inr hissued =>
      obtain ⟨c, -, -, -, hissued⟩ := hissued
      rw [hissued]

@[simp] theorem sentinelRedisTeardown_sh : (sentinelRedisTeardown w).sh = w.sh := by
  simp only [sentinelRedisTeardown]
  cases w.rc.ac with
  | some id => rfl
  | none =>
      dsimp only
      split
      · rfl
      · rfl

@[simp] theorem sentinelRedisPullStep_sh (io : RedisIo) :
    (sentinelRedisPullStep w io).sh = w.sh := by
  simp only [sentinelRedisPullStep]
  split
  · rfl
  · split
    · simp
    · simp

@[simp] theorem scanKeys_sh (plen : Nat) (io : RedisIo) (i : Nat) (keys : List RedisReply) :
    (scanKeys plen io w i keys).sh = w.sh := by
  refine scanKeys_keeps (P := fun w' => w'.sh = w.sh) ?_ plen io keys rfl
  intro w₁ ok ipcopy key h
  rw [redisAsyncCommand_sh, h]

@[simp] theorem sentinelRedisScanReply_sh (reply : Option RedisReply) (io : RedisIo) :
    (sentinelRedisScanReply w reply io).sh = w.sh := by
  simp only [sentinelRedisScanReply]
  split
  · split
    · simp
    · simp
  · rfl

theorem flushLoop_sh (now : Nat) (command : Nat → Bool) (entries : List PushEntry) :
    ∀ (w : RedisWorld) (i : Nat), (flushLoop now command w i entries).sh = w.sh := by
  induction entries with
  | nil => exact fun _ _ => rfl
  | cons e entries ih =>
      intro w i
      simp only [flushLoop]
      split
      · exact ih w i
      · split
        · exact redisAsyncCommand_sh ..
        · exact (ih _ (i + 1)).trans (redisAsyncCommand_sh ..)

@[simp] theorem sentinelRedisConnect_sh (io : RedisIo) : (sentinelRedisConnect w io).sh = w.sh := by
  simp only [sentinelRedisConnect]
  split
  · rfl
  · split
    · rfl
    · split
      · rfl
      · simp only [redisAuth]
        split
        · split
          · simp [redisAsyncConnect]
          · simp [sentinelRedisScheduleReconnect, redisAsyncConnect]
        · rfl

@[simp] theorem sentinelRedisTimerHandler_sh (now : Nat) (io : RedisIo) :
    (sentinelRedisTimerHandler w now io).sh = w.sh := by
  have htick : ∀ w : RedisWorld, (redisTick w now io).sh = w.sh := by
    intro w
    have hflush : (sentinelRedisFlushPush w now io).sh = w.sh := by
      simp only [sentinelRedisFlushPush]
      split
      · rfl
      · exact flushLoop_sh ..
    simp only [redisTick]
    cases w.rc.state with
    | down => simp
    | connecting => rfl
    | up =>
        dsimp only
        split
        · rfl
        · split
          · exact hflush
          · rw [sentinelRedisPullStep_sh]
            exact hflush
  simp only [sentinelRedisTimerHandler]
  split
  · exact htick _
  · exact htick _

/-- What a callback does to the zone. -/
theorem runCallback_sh (ngx : NgxCore) (fn : RedisCallback) (reply : Option RedisReply) (now : Nat)
    (io : RedisIo) :
    (runCallback ngx w fn reply now io).sh =
      match fn with
      | .get ipcopy => (sentinelRedisGetReply ngx w.rc.csZone w.sh (cString ipcopy)
          (RedisReply.text reply) now io.slab).getD w.sh
      | _ => w.sh := by
  cases fn with
  | auth =>
      simp only [runCallback, sentinelRedisAuthReply]
      split
      · simp [sentinelRedisScheduleReconnect]
      · rfl
  | scan => simp [runCallback]
  | get ipcopy =>
      simp only [runCallback]
      split
      next hstored => rw [hstored, Option.getD_some]
      next hdied =>
        rw [hdied]
        rfl
  | set => rfl

theorem redisStep_sh (ngx : NgxCore) (e : RedisEvent) (hreply : ∀ r now io, e ≠ .reply r now io) :
    (redisStep ngx w e).sh = w.sh := by
  cases e with
  | reply r now io => exact absurd rfl (hreply r now io)
  | timer now io => exact sentinelRedisTimerHandler_sh w now io
  | connect ok =>
      cases hc : w.context with
      | none => cases ok <;> simp [redisStep, hc]
      | some c =>
          cases ok with
          | true => simp [redisStep, hc, sentinelRedisOnConnect]
          | false =>
              simp [redisStep, hc, sentinelRedisOnConnect, redisAsyncFree,
                sentinelRedisScheduleReconnect]
  | close =>
      cases hc : w.context with
      | none => simp [redisStep, hc]
      | some c => simp [redisStep, hc, redisAsyncFree, sentinelRedisEvCleanup]
  | destroy now io =>
      cases hc : w.context with
      | none => simp [redisStep, hc]
      | some c =>
          simp only [redisStep, hc]
          cases hreplies : c.replies with
          | cons fn rest =>
              rw [runCallback_sh]
              cases fn with
              | get ipcopy =>
                  dsimp only
                  cases w.rc.csZone with
                  | none => rfl
                  | some z => rfl
              | auth => rfl
              | scan => rfl
              | set => rfl
          | nil =>
              dsimp only
              split
              · simp [sentinelRedisOnDisconnect, sentinelRedisScheduleReconnect,
                  sentinelRedisEvCleanup]
              · rfl

end Frame
section Request
variable {pow : PowCore} {lcf : RequestConf} {r : Request} {io : RequestIo} {early : Option Gather}
  {s : Shared} {S : Key → Int → UInt8 → Prop} {segment : Nat}

/-- The errrate and velocity zones of a location are other zones. -/
def Apart (lcf : RequestConf) (segment : Nat) : Prop :=
  Avoids lcf.zone segment ∧ Avoids lcf.velZone segment

instance decidableApart (lcf : RequestConf) (segment : Nat) : Decidable (Apart lcf segment) :=
  inferInstanceAs (Decidable ((_ ≠ _) ∧ (_ ≠ _)))

theorem errrate_avoids {ngx : NgxCore} {addrText uri : Bytes} {now : Nat} {inputs : Inputs}
    {segments : Segments} (h : Avoids lcf.zone segment) :
    (sentinelErrrateSignal ngx lcf addrText uri now inputs segments).2 segment =
      segments segment := by
  simp only [sentinelErrrateSignal]
  cases hl : zoneLookup ngx lcf.zone addrText now segments with
  | none => rfl
  | some l =>
      have := zoneLookup_avoids h hl
      dsimp only
      split
      · exact this
      · exact this

theorem crowdsecSignal_pulledSound {ngx : NgxCore} {addrText : Bytes} {now : Nat}
    {inputs : Inputs} {segments : Segments} (h : PulledSound S (segments segment))
    (wf : (segments segment).Wf ngx) :
    let segments' := (sentinelCrowdsecSignal ngx lcf addrText now inputs segments).2
    PulledSound S (segments' segment) ∧ (segments' segment).Wf ngx := by
  by_cases hcs : Avoids lcf.csZone segment
  · dsimp only
    rw [crowdsec_avoids hcs]
    exact ⟨h, wf⟩
  · simp only [Avoids, ne_eq, Classical.not_not, Option.map_eq_some_iff] at hcs
    obtain ⟨z, hz, rfl⟩ := hcs
    have hlookup : PulledSound S (sentinelShmCrowdsecLookup ngx z.zone (segments z.shm)
          (sentinelFeedDigest ngx addrText) now).2.2 ∧
        (sentinelShmCrowdsecLookup ngx z.zone (segments z.shm)
          (sentinelFeedDigest ngx addrText) now).2.2.Wf ngx := by
      cases z.zone with
      | none => exact ⟨h, wf⟩
      | some zone =>
          exact ⟨pulledSound_lookup h wf zone _ now, (crowdsecLookup_spec zone wf _ now).1⟩
    have hupdated : ∀ sh, PulledSound S sh ∧ sh.Wf ngx →
        PulledSound S (update segments z.shm sh z.shm) ∧
          (update segments z.shm sh z.shm).Wf ngx := by
      intro sh hsh
      rw [update_self]
      exact hsh
    simp only [sentinelCrowdsecSignal, crowdsecLookup, hz]
    by_cases haddr : addrText.length = 0
    · simp only [haddr, if_true]
      exact ⟨h, wf⟩
    · simp only [haddr, if_false]
      split
      · exact hupdated _ hlookup
      · split
        · exact hupdated _ hlookup
        · exact hupdated _ hlookup

theorem gather_pulledSound {ngx : NgxCore} {g : Gather} (hapart : Apart g.lcf segment)
    (addrText : Bytes) {segments : Segments} (h : PulledSound S (segments segment))
    (wf : (segments segment).Wf ngx) :
    let segments' := (gatherInputs ngx g addrText segments).2
    PulledSound S (segments' segment) ∧ (segments' segment).Wf ngx := by
  apply crowdsecSignal_pulledSound
  · rw [velocity_avoids hapart.2, errrate_avoids hapart.1]
    exact h
  · rw [velocity_avoids hapart.2, errrate_avoids hapart.1]
    exact wf

/-- A request does not invent bans from Redis. -/
theorem request_pulledSound (hlcf : Avoids lcf.zone segment)
    (hgather : Apart (passGather lcf r io early).lcf segment)
    (h : PulledSound S (s.shm segment)) (wf : (s.shm segment).Wf pow.toNgxCore) :
    let s' := (requestPass pow lcf r io early s).2
    PulledSound S (s'.shm segment) ∧ (s'.shm segment).Wf pow.toNgxCore := by
  have hshared := requestPass_shared pow lcf r io early s
  dsimp only at hshared ⊢
  have hgathered := gather_pulledSound hgather r.addrText h wf
  have hs₁ : ∀ s₁ : Shared, s₁ = (if Gathers lcf io early then { s with
      shm := (gatherInputs pow.toNgxCore (passGather lcf r io early) r.addrText s.shm).2 } else s) →
      PulledSound S (s₁.shm segment) ∧ (s₁.shm segment).Wf pow.toNgxCore := by
    intro s₁ hs₁
    rw [hs₁]
    split
    · exact hgathered
    · exact ⟨h, wf⟩
  rw [hshared]
  split
  · simp only [preaccessBlock, blockSoftban]
    cases hz : lcf.zone with
    | none => exact hs₁ _ rfl
    | some z =>
        dsimp only
        split
        · rw [update_avoids hz hlcf]
          exact hs₁ _ rfl
        · exact hs₁ _ rfl
  · exact hs₁ _ rfl

/-- A request adds an entry to a ring if it is blocked and CrowdSec has nothing
against the client, and then one for that client. -/
theorem request_ring (pow : PowCore) (lcf : RequestConf) (r : Request) (io : RequestIo)
    (early : Option Gather) (s : Shared) (g : Nat) :
    let s' := (requestPass pow lcf r io early s).2
    s'.redisPush g = s.redisPush g ∨
      Blocks pow.toNgxCore lcf r io early s.shm ∧
        (gatherInputs pow.toNgxCore (passGather lcf r io early) r.addrText s.shm).1.crowdsecHit =
          false ∧
        lcf.redisHost ≠ [] ∧
        ¬ (r.addrText.length = 0 ∨ r.addrText.length ≥ ngxSockaddrStrlen) ∧
        s'.redisPush g = (s.redisPush g).put ngxSentinelRedisPushRing
          ⟨r.addrText, ngxSentinelCsBan, io.now + lcf.redisTtl⟩ := by
  have hshared := requestPass_shared pow lcf r io early s
  dsimp only at hshared ⊢
  have hs₁ : ∀ s₁ : Shared, s₁ = (if Gathers lcf io early then { s with
      shm := (gatherInputs pow.toNgxCore (passGather lcf r io early) r.addrText s.shm).2 } else s) →
      s₁.redisPush = s.redisPush := by
    intro s₁ hs₁
    rw [hs₁]
    split
    · rfl
    · rfl
  rw [hshared]
  split
  next hblocks =>
    simp only [preaccessBlock, hs₁ _ rfl]
    split
    next hguard =>
      simp only [sentinelRedisEnqueueBan, enqueueBan]
      cases io.redisPush with
      | none => exact .inl rfl
      | some g' =>
          dsimp only
          split
          · exact .inl rfl
          · split
            · exact .inl rfl
            next hlen =>
              by_cases hg : g = g'
              · subst hg
                refine .inr ⟨hblocks, ?_, ?_, hlen, update_self ..⟩
                · simpa [scoredCtx] using hguard.2.1
                · exact List.ne_nil_of_length_pos hguard.1
              · exact .inl (update_of_ne hg ..)
    next => exact .inl rfl
  next => exact .inl (congrFun (hs₁ _ rfl) g)

end Request
section Keys

def banLabel : Bytes := str ":ban:"

/-- What nginx writes for an address has no NUL in it, and no `ban`. -/
structure ClientText (ip : Bytes) : Prop where
  nonul : 0 ∉ ip
  noban : ¬ str "ban" <:+: ip

theorem ClientText.cString {ip : Bytes} (h : ClientText ip) : cString ip = ip := by
  rw [Sentinel.cString, List.takeWhile_eq_self_iff]
  intro c hc
  rw [decide_eq_true_iff]
  exact fun hzero => h.nonul (hzero ▸ hc)

/-- A key tells its prefix from its address. -/
theorem label_split_of_le {p q ip ip' : Bytes} (h : p ++ banLabel ++ ip = q ++ banLabel ++ ip')
    (hle : p.length ≤ q.length) (hip : ¬ str "ban" <:+: ip) : p = q ∧ ip = ip' := by
  obtain ⟨t, rfl⟩ : p <+: q := by
    have hq : q <+: q ++ banLabel ++ ip' := by
      rw [List.append_assoc]
      exact List.prefix_append _ _
    refine List.prefix_of_prefix_length_le ?_ hq hle
    rw [← h, List.append_assoc]
    exact List.prefix_append _ _
  simp only [List.append_assoc, List.append_cancel_left_eq] at h
  have hban : str "ban" = [98, 97, 110] := by decide
  have hlabel : banLabel = [58, 98, 97, 110, 58] := by decide
  rw [hlabel] at h
  rw [hban] at hip
  match t, h with
  | [], h => exact ⟨(List.append_nil p).symm, by simpa using h⟩
  | [_], h => simp at h
  | [_, _], h => simp at h
  | [_, _, _], h => simp at h
  | [_, _, _, _], h =>
      simp only [List.cons_append, List.nil_append, List.cons.injEq] at h
      refine absurd ?_ hip
      rw [h.2.2.2.2.2]
      exact ⟨[], _, rfl⟩
  | _ :: _ :: _ :: _ :: _ :: t, h =>
      simp only [List.cons_append, List.nil_append, List.cons.injEq] at h
      refine absurd ?_ hip
      rw [h.2.2.2.2.2]
      exact ⟨t ++ [58], 58 :: ip', by simp⟩

theorem label_split {p q ip ip' : Bytes} (h : p ++ banLabel ++ ip = q ++ banLabel ++ ip')
    (hip : ClientText ip) (hip' : ClientText ip') : p = q ∧ ip = ip' := by
  cases Nat.le_total p.length q.length with
  | inl hle => exact label_split_of_le h hle hip.noban
  | inr hle =>
      obtain ⟨hp, hi⟩ := label_split_of_le h.symm hle hip'.noban
      exact ⟨hp.symm, hi.symm⟩

/-- The address of a key is what comes behind its prefix. -/
theorem redisKeyIp_start {start k ipcopy : Bytes} {plen : Nat} (hplen : plen = start.length)
    (hk : start <+: k) (hip : redisKeyIp plen k = some ipcopy) : k = start ++ ipcopy := by
  obtain ⟨t, rfl⟩ := hk
  rw [redisKeyIp, hplen] at hip
  split at hip
  · contradiction
  · dsimp only at hip
    split at hip
    · contradiction
    · rw [← Option.some.inj hip, List.drop_left]

end Keys
section Origin
variable {ι : Type} (pow : PowCore) (glob : RedisGlob) (conf : ClusterConf ι)
  (E : Nat → PushEntry → Prop)

/-- What the keys of a worker's deployment begin with. -/
def ClusterConf.keyStart (x : ι) : Bytes := (conf.lcf x).keyPrefix ++ banLabel

/-- Prefixes are plain text, and leave room for any address. -/
structure ClusterConf.Plain : Prop where
  plain : ∀ x, ∀ c ∈ (conf.lcf x).keyPrefix, redisSigns.Plain c ∧ c ≠ 0
  fits : ∀ x, redisPlen (conf.lcf x).keyPrefix + ngxSockaddrStrlen ≤ sentinelRedisKeyLen + 1

/-- The event is a request that is blocked at `h` although CrowdSec has nothing
against the client, and the entry is about it. -/
def Originates (s : Cluster ι) (e : ClusterEvent ι) (h : Nat) (entry : PushEntry) : Prop :=
  ∃ lcf r io early, e = .request h lcf r io early ∧
    Blocks pow.toNgxCore lcf r io early (s.shared h).shm ∧
    (gatherInputs pow.toNgxCore (passGather lcf r io early) r.addrText
      (s.shared h).shm).1.crowdsecHit = false ∧
    lcf.redisHost ≠ [] ∧ 0 < r.addrText.length ∧ r.addrText.length < ngxSockaddrStrlen ∧
    entry = ⟨r.addrText, ngxSentinelCsBan, io.now + lcf.redisTtl⟩

/-- What can happen. Requests are in accepted locations whose other zones are not
the one that Redis writes, and the clock does not overflow; the server filters by
the pattern; and other clients of the server leave the deployments' keys alone. -/
def ClusterAllowed (s : Cluster ι) : ClusterEvent ι → Prop
  | .request h lcf r io early =>
      lcf.Accepted ∧ Avoids lcf.zone (conf.segment h) ∧
        Apart (passGather lcf r io early).lcf (conf.segment h) ∧ ClientText r.addrText ∧
        io.now + lcf.redisTtl ≤ ngxMaxIntT
  | .call h _ op => op.ownUse = true ∧ op.Stamped ((s.shared h).shm (conf.segment h))
  | .take _ => True
  | .tick x now io => Deliverable (s.world conf x) (.timer now io)
  | .connect x ok => Deliverable (s.world conf x) (.connect ok)
  | .deliver x now io => Deliverable (s.world conf x) (.reply .other now io)
  | .close x => Deliverable (s.world conf x) .close
  | .destroy x now io => Deliverable (s.world conf x) (.destroy now io)
  | .respawn _ => True
  | .serve x id answer => ∀ cursor keys c pattern count, answer = .run cursor keys →
      s.next x id = some (.scan c pattern count) → ∀ k ∈ keys, glob.matching pattern k = true
  | .vanish _ => True
  | .foreign key _ => ∀ x, ¬ conf.keyStart x <+: key

/-- The value is what a host publishes for an entry of its own. -/
def Genuine (key value : Bytes) : Prop :=
  ∃ y e, E (conf.host y) e ∧ key = conf.keyStart y ++ e.ip ∧
    value = redisValue e.action e.expiry.toNat

def clusterAsks (x : ι) : RedisCallback → RedisCommand → Prop
  | .auth, .auth _ => True
  | .scan, .scan _ pattern _ => pattern = conf.keyStart x ++ [redisSigns.star]
  | .get ipcopy, .get key => key = conf.keyStart x ++ cString ipcopy
  | .set, .set _ _ _ => True
  | _, _ => False

def clusterAnswers (x : ι) : RedisCallback → RedisReply → Prop
  | .scan, r => ∀ k, .string k ∈ r.keys → conf.keyStart x <+: k
  | .get ipcopy, r => r.keys = [] ∧ ∀ value, RedisReply.text (some r) = some value →
      Genuine conf E (conf.keyStart x ++ cString ipcopy) value
  | _, r => r.keys = []

def clusterSent : RedisCommand → Prop
  | .set key value _ => Genuine conf E key value
  | _ => True

/-- A ban at a host is one that some host has published, under a key that comes
to the same text. -/
def BanOrigin (h : Nat) (k : Key) (expiry : Int) (action : UInt8) : Prop :=
  ∃ x y text e, conf.host x = h ∧ k = sentinelFeedDigest pow.toNgxCore text ∧
    E (conf.host y) e ∧ expiry = e.expiry ∧ action = e.action ∧
    conf.keyStart x ++ text = conf.keyStart y ++ e.ip

/-- What the entries of the rings are. -/
structure EntryOk (e : PushEntry) : Prop where
  text : ClientText e.ip
  pos : 0 < e.ip.length
  len : e.ip.length < ngxSockaddrStrlen
  tier : e.action ∈ csTiers
  nonneg : 0 ≤ e.expiry
  range : e.expiry ≤ ngxMaxIntT

structure ClusterInv (s : Cluster ι) : Prop where
  wired : ∀ x, Wired (clusterAsks conf x) (clusterAnswers conf E x) (clusterSent conf E)
    (conf.lcf x) (conf.csZone x) (s.worker x) (s.served x) (s.inbox x)
  ring : ∀ h, ∃ q, ((s.shared h).redisPush (conf.ring h)).Holds ngxSentinelRedisPushRing q ∧
    ∀ e ∈ q, E h e
  taken : ∀ x, ∀ e ∈ s.taken x, E (conf.host x) e
  store : ∀ key value, s.store key = some value → (∃ x, conf.keyStart x <+: key) →
    Genuine conf E key value
  zone : ∀ h, PulledSound (BanOrigin pow conf E h) ((s.shared h).shm (conf.segment h)) ∧
    ((s.shared h).shm (conf.segment h)).Wf pow.toNgxCore

variable {pow glob conf E} {s : Cluster ι}

theorem redisPattern_plain (hconf : conf.Plain) (x : ι) (stack : Bytes) :
    redisPattern (conf.lcf x).keyPrefix stack = conf.keyStart x ++ [redisSigns.star] := by
  have hnul : 0 ∉ (conf.lcf x).keyPrefix := fun hmem => (hconf.plain x 0 hmem).2 rfl
  have hfits := hconf.fits x
  have hplen : redisPlen (conf.lcf x).keyPrefix = (conf.lcf x).keyPrefix.length + 5 := rfl
  have hstar : (str ":ban:*").length = 6 := rfl
  have haddr : ngxSockaddrStrlen = 113 := rfl
  exact redisPattern_eq hnul (by omega) stack

theorem keyStart_length (x : ι) : (conf.keyStart x).length = redisPlen (conf.lcf x).keyPrefix :=
  (redisPlen_eq _).symm

/-- A key goes out as it is, up to a NUL in its address. -/
theorem cString_key (hconf : conf.Plain) (x : ι) (ip : Bytes) :
    cString (conf.keyStart x ++ ip) = conf.keyStart x ++ cString ip := by
  have hall : ∀ c ∈ conf.keyStart x, decide (c ≠ 0) = true := by
    intro c hc
    rw [decide_eq_true_iff]
    cases List.mem_append.mp hc with
    | inl hmem => exact (hconf.plain x c hmem).2
    | inr hlabel =>
        intro hzero
        exact absurd (hzero ▸ hlabel) (by decide)
  rw [cString, cString, List.takeWhile_append_of_pos hall]

/-- What a worker asks for and sends, under a plain prefix. -/
theorem cluster_licensed (hconf : conf.Plain) (x : ι) :
    Licensed (clusterAsks conf x) (clusterAnswers conf E x) (clusterSent conf E) (conf.lcf x)
      (E (conf.host x)) := by
  refine ⟨fun _ => ⟨trivial, trivial⟩, fun _ stack _ => ⟨redisPattern_plain hconf x stack, trivial⟩,
    ?_, ?_⟩
  · intro r k ipcopy hkeys hk hip
    refine ⟨?_, trivial⟩
    have hk' := redisKeyIp_start (keyStart_length x).symm (hkeys k hk) hip
    rw [hk', clusterAsks, cString_key hconf]
  · intro e ttl he hpos hlen
    have hfits := hconf.fits x
    have haddr : ngxSockaddrStrlen = 113 := rfl
    refine ⟨trivial, x, e, he, ?_, rfl⟩
    rw [redisKey_eq e.ip (by omega), List.take_of_length_le (by omega)]
    rfl

theorem setZone_redisPush (conf : ClusterConf ι) (s : Cluster ι) (h h' : Nat) (sh : Shctx) :
    ((s.setZone conf h sh).shared h').redisPush = (s.shared h').redisPush := by
  by_cases hh : h' = h
  · subst hh
    simp [Cluster.setZone]
  · simp [Cluster.setZone, update_of_ne hh]

/-- What holds of the zones and of the new one holds of the zones afterwards. -/
theorem setZone_zone {P : Nat → Shctx → Prop} {h : Nat} {sh : Shctx}
    (hzone : ∀ h, P h ((s.shared h).shm (conf.segment h))) (hsh : P h sh) (h' : Nat) :
    P h' (((s.setZone conf h sh).shared h').shm (conf.segment h')) := by
  by_cases hh : h' = h
  · subst hh
    simpa [Cluster.setZone] using hsh
  · simpa [Cluster.setZone, update_of_ne hh] using hzone h'

theorem world_wired (hinv : ClusterInv pow conf E s) (x : ι) :
    Wired (clusterAsks conf x) (clusterAnswers conf E x) (clusterSent conf E) (conf.lcf x)
      (conf.csZone x) (s.world conf x) (s.served x) (s.inbox x) :=
  (hinv.wired x).congr ⟨rfl, rfl⟩ rfl rfl rfl

/-- A server that filters by a worker's pattern returns keys of its deployment. -/
theorem scanned_keys (hconf : conf.Plain) (x : ι) {answer : ServerAnswer} {c pattern : Bytes}
    {count : Nat} (hpattern : pattern = conf.keyStart x ++ [redisSigns.star])
    (hscan : ∀ cursor keys, answer = .run cursor keys → ∀ k ∈ keys, glob.matching pattern k = true)
    {k : Bytes}
    (hk : .string k ∈ (conf.server.run s.store answer (.scan c pattern count)).1.keys) :
    conf.keyStart x <+: k := by
  cases answer with
  | refuse e =>
      rw [conf.server.run_refuse] at hk
      exact absurd hk List.not_mem_nil
  | run cursor keys =>
      have hmem : k ∈ keys := by
        rw [conf.server.run_scan] at hk
        simpa [RedisReply.keys, RedisReply.elements] using hk
      have hmatch := hscan cursor keys rfl k hmem
      have hplain : ∀ c ∈ conf.keyStart x, redisSigns.Plain c :=
        plain_label fun c hc => (hconf.plain x c hc).1
      rw [hpattern] at hmatch
      exact (Glob.match_plain glob.law hplain k).mp hmatch

/-- What the server has under a key of a deployment is what a host published. -/
theorem got_genuine (hinv : ClusterInv pow conf E s) (x : ι) {answer : ServerAnswer}
    {ip value : Bytes}
    (hvalue : RedisReply.text
      (some (conf.server.run s.store answer (.get (conf.keyStart x ++ ip))).1) = some value) :
    Genuine conf E (conf.keyStart x ++ ip) value := by
  cases answer with
  | refuse e =>
      rw [conf.server.run_refuse] at hvalue
      contradiction
  | run cursor keys =>
      exact hinv.store _ value (serverRun_get.mp hvalue) ⟨x, List.prefix_append _ _⟩

/-- What the server answers is what the calls may get. -/
theorem serverRun_answers (hconf : conf.Plain) (hinv : ClusterInv pow conf E s) (x : ι) {id : Nat}
    {answer : ServerAnswer} {command : RedisCommand} (hnext : s.next x id = some command)
    (hscan : ∀ cursor keys c pattern count, answer = .run cursor keys →
      s.next x id = some (.scan c pattern count) → ∀ k ∈ keys, glob.matching pattern k = true)
    {fn : RedisCallback} (hask : clusterAsks conf x fn command) :
    clusterAnswers conf E x fn (conf.server.run s.store answer command).1 := by
  cases fn with
  | auth =>
      cases command with
      | auth password => exact serverRun_keys (by simp)
      | scan c pattern count => contradiction
      | get key => contradiction
      | set key value ttl => contradiction
  | set =>
      cases command with
      | set key value ttl => exact serverRun_keys (by simp)
      | auth password => contradiction
      | scan c pattern count => contradiction
      | get key => contradiction
  | scan =>
      cases command with
      | scan c pattern count =>
          exact fun k => scanned_keys hconf x hask fun cursor keys hrun =>
            hscan cursor keys c pattern count hrun hnext
      | auth password => contradiction
      | get key => contradiction
      | set key value ttl => contradiction
  | get ipcopy =>
      cases command with
      | get key =>
          obtain rfl : key = conf.keyStart x ++ cString ipcopy := hask
          exact ⟨serverRun_keys (by simp), fun value => got_genuine hinv x⟩
      | auth password => contradiction
      | scan c pattern count => contradiction
      | set key value ttl => contradiction

/-- A command changes the keys only by what a host publishes. -/
theorem serverRun_genuine (hinv : ClusterInv pow conf E s) {answer : ServerAnswer}
    {command : RedisCommand} (hsent : clusterSent conf E command) {key value : Bytes}
    (hvalue : (conf.server.run s.store answer command).2 key = some value)
    (hours : ∃ x, conf.keyStart x <+: key) : Genuine conf E key value := by
  cases serverRun_store conf.server s.store answer command with
  | inl hsame =>
      rw [hsame] at hvalue
      exact hinv.store key value hvalue hours
  | inr hset =>
      obtain ⟨key', value', ttl, rfl, hset⟩ := hset
      rw [hset] at hvalue
      by_cases hkey : key = key'
      · subst hkey
        rw [update_self] at hvalue
        exact Option.some.inj hvalue ▸ hsent
      · rw [update_of_ne hkey] at hvalue
        exact hinv.store key value hvalue hours

theorem clusterInv_start : ClusterInv pow conf E (clusterStart conf : Cluster ι) := by
  refine ⟨fun x => ?_, fun h => ⟨[], Ring.holds_init (by decide) _, List.forall_mem_nil _⟩,
    fun x => List.forall_mem_nil _, nofun, fun h => ⟨nofun, wf_init⟩⟩
  exact ⟨⟨rfl, rfl⟩, fun _ _ hmem => absurd hmem List.not_mem_nil, nofun,
    fun _ _ hmem => absurd hmem List.not_mem_nil, fun id => ⟨Nat.le_refl _, Nat.le_refl _⟩, nofun⟩

/-- What originates in an allowed event is fit for publication. -/
theorem entryOk_of_originates {e : ClusterEvent ι} (hallowed : ClusterAllowed glob conf s e)
    {h : Nat} {entry : PushEntry} (horigin : Originates pow s e h entry) : EntryOk entry := by
  obtain ⟨lcf, r, io, early, rfl, -, -, hhost, hpos, hlen, rfl⟩ := horigin
  obtain ⟨haccepted, -, -, htext, hrange⟩ := hallowed
  have hnonneg := (haccepted.redisTtl hhost).1
  exact ⟨htext, hpos, hlen, List.mem_cons_self, by dsimp only; omega, hrange⟩

variable [DecidableEq ι]

/-- A handler's run. The worker's wires are those of `Wired`; `inbox` is what is
left on them. -/
theorem clusterInv_handle (hinv : ClusterInv pow conf E s) (x : ι) {e : RedisEvent}
    {inbox : Nat → List RedisReply}
    (hwired : Wired (clusterAsks conf x) (clusterAnswers conf E x) (clusterSent conf E)
      (conf.lcf x) (conf.csZone x) (redisStep pow.toNgxCore (s.world conf x) e) (s.served x) inbox)
    (hzone : let sh := (redisStep pow.toNgxCore (s.world conf x) e).sh
      PulledSound (BanOrigin pow conf E (conf.host x)) sh ∧ sh.Wf pow.toNgxCore) :
    ClusterInv pow conf E { s.handle pow conf x e with inbox := update s.inbox x inbox } := by
  refine ⟨?_, ?_, hinv.taken, hinv.store, ?_⟩
  · intro x'
    by_cases hx : x' = x
    · subst hx
      simpa [Cluster.handle, Cluster.setZone] using hwired
    · simpa [Cluster.handle, Cluster.setZone, update_of_ne hx] using hinv.wired x'
  · intro h
    have hsame := setZone_redisPush conf s (conf.host x) h
      (redisStep pow.toNgxCore (s.world conf x) e).sh
    obtain ⟨q, hq, hall⟩ := hinv.ring h
    exact ⟨q, (congrFun hsame (conf.ring h)).symm ▸ hq, hall⟩
  · exact setZone_zone (P := fun h sh => PulledSound (BanOrigin pow conf E h) sh ∧
      sh.Wf pow.toNgxCore) hinv.zone hzone

/-- Every event of a worker but a reply. -/
theorem clusterInv_event (hconf : conf.Plain) (hinv : ClusterInv pow conf E s) (x : ι)
    {e : RedisEvent} (he : Deliverable (s.world conf x) e)
    (hreply : ∀ r now io, e ≠ .reply r now io)
    (hdrained : ∀ now io, e = .timer now io → ∀ d ∈ io.drained, E (conf.host x) d) :
    ClusterInv pow conf E (s.handle pow conf x e) := by
  have hwired := wired_step pow.toNgxCore (world_wired hinv x) (cluster_licensed hconf x) he hreply
    hdrained
  have hsh := redisStep_sh (s.world conf x) pow.toNgxCore e hreply
  have hafter := clusterInv_handle hinv x hwired (hsh ▸ hinv.zone (conf.host x))
  rwa [update_eq_self] at hafter

/-- A reply. Only a value that some host has published comes into a zone. -/
theorem clusterInv_reply (hconf : conf.Plain) (hE : ∀ h e, E h e → EntryOk e)
    (hinv : ClusterInv pow conf E s) (x : ι) {c : RedisAsyncContext}
    (hc : (s.worker x).context = some c) (hopen : c.closing = false) {r : RedisReply}
    {rest : List RedisReply} (hinbox : s.inbox x c.id = r :: rest) (now : Nat) (io : RedisIo) :
    ClusterInv pow conf E { s.handle pow conf x (.reply r now io) with
      inbox := update s.inbox x (update (s.inbox x) c.id rest) } := by
  have hworld := world_wired hinv x
  have hzone := hinv.zone (conf.host x)
  have hcontext : (s.world conf x).context = some c := hc
  refine clusterInv_handle hinv x (wired_reply pow.toNgxCore hworld (cluster_licensed hconf x)
    hcontext hopen hinbox now io) ?_
  have hmatched := hworld.matched c hcontext hopen
  rw [hinbox] at hmatched
  obtain ⟨fn, calls, hreplies, hanswer, -⟩ := hmatched.deliver
  simp only [redisStep, hcontext, hreplies, runCallback_sh]
  cases fn with
  | auth => exact hzone
  | scan => exact hzone
  | set => exact hzone
  | get ipcopy =>
      refine pulledSound_getReply hzone.1 hzone.2 _ _ _ _ _ fun d hd => ?_
      cases htext : RedisReply.text (some r) with
      | none =>
          rw [htext] at hd
          contradiction
      | some value =>
          obtain ⟨y, e, he, hkey, rfl⟩ := hanswer.2 value htext
          obtain ⟨-, -, -, htier, hnonneg, hrange⟩ := hE _ e he
          have hn : (e.expiry.toNat : Int) = e.expiry := Int.toNat_of_nonneg hnonneg
          rw [htext] at hd
          obtain rfl := redisDecision_written (by omega) htier hd
          exact ⟨x, y, cString ipcopy, e, rfl, rfl, he, hn, rfl, hkey⟩

theorem clusterInv_serve (hconf : conf.Plain) (hinv : ClusterInv pow conf E s) (x : ι) (id : Nat)
    (answer : ServerAnswer) (hscan : ∀ cursor keys c pattern count, answer = .run cursor keys →
      s.next x id = some (.scan c pattern count) → ∀ k ∈ keys, glob.matching pattern k = true) :
    ClusterInv pow conf E (clusterStep pow conf s (.serve x id answer)) := by
  simp only [clusterStep]
  cases hnext : s.next x id with
  | none => exact hinv
  | some command =>
      have hwired := hinv.wired x
      have hget : (issuedOn id (s.worker x).log)[s.served x id]? = some command := hnext
      obtain ⟨hlt, hcommand⟩ := List.getElem?_eq_some_iff.mp hget
      have hissued : .issued id command ∈ (s.worker x).log := by
        rw [← mem_issuedOn, ← hcommand]
        exact List.getElem_mem hlt
      refine ⟨?_, hinv.ring, hinv.taken, ?_, hinv.zone⟩
      swap
      · exact fun key value => serverRun_genuine hinv (hwired.sent id command hissued)
      intro x'
      by_cases hx : x' = x
      · subst hx
        simp only [update_self]
        refine ⟨hwired.conf, hwired.opened, hwired.context, hwired.sent, ?_, ?_⟩
        · intro id'
          have hcounted := hwired.counted id'
          by_cases hid : id' = id
          · subst hid
            simp only [update_self, List.length_append, List.length_singleton]
            omega
          · simp only [update_of_ne hid]
            exact hcounted
        · intro c hc hopen
          have hmatched := hwired.matched c hc hopen
          by_cases hid : c.id = id
          · subst hid
            simp only [update_self]
            rw [List.drop_eq_getElem_cons hlt, hcommand] at hmatched
            exact hmatched.serve fun fn hask =>
              serverRun_answers hconf hinv x' hnext hscan hask
          · simp only [update_of_ne hid]
            exact hmatched
      · simp only [update_of_ne hx]
        exact hinv.wired x'

/-- Whether or not there is room, nothing else comes into the ring. -/
theorem put_holds {push : PushRing} {q : List PushEntry} {P : PushEntry → Prop} {e : PushEntry}
    (hq : push.Holds ngxSentinelRedisPushRing q) (hall : ∀ e ∈ q, P e) (he : P e) :
    ∃ q', (push.put ngxSentinelRedisPushRing e).Holds ngxSentinelRedisPushRing q' ∧
      ∀ e ∈ q', P e := by
  have heffect := PushRing.Holds.put (ring_sized .redisPush) hq e
  split at heffect
  next hfull =>
    refine ⟨q, ?_, hall⟩
    have hsame : push.put ngxSentinelRedisPushRing e = { push with dropped := push.dropped + 1 } :=
      heffect
    rw [hsame]
    exact hq
  next hroom =>
    refine ⟨q ++ [e], heffect.1, ?_⟩
    intro e' he'
    cases List.mem_append.mp he' with
    | inl hbefore => exact hall e' hbefore
    | inr hlast => exact List.mem_singleton.mp hlast ▸ he

/-- An event that is a request of the host adds what originates in it. -/
theorem clusterInv_request (hinv : ClusterInv pow conf E s) {h : Nat} {lcf : RequestConf}
    {r : Request} {io : RequestIo} {early : Option Gather}
    (hallowed : ClusterAllowed glob conf s (.request h lcf r io early))
    (horigin : ∀ entry, Originates pow s (.request h lcf r io early : ClusterEvent ι) h entry →
      E h entry) :
    ClusterInv pow conf E (clusterStep pow conf s (.request h lcf r io early)) := by
  obtain ⟨-, hzone, hgather, -, -⟩ := hallowed
  refine ⟨hinv.wired, ?_, hinv.taken, hinv.store, ?_⟩
  · intro h'
    simp only [clusterStep]
    by_cases hh : h' = h
    · subst hh
      rw [update_self]
      obtain ⟨q, hq, hall⟩ := hinv.ring h'
      have hring := request_ring pow lcf r io early (s.shared h') (conf.ring h')
      cases hring with
      | inl hsame =>
          rw [hsame]
          exact ⟨q, hq, hall⟩
      | inr hput =>
          obtain ⟨hblocks, hhit, hhost, hlen, hput⟩ := hput
          have hE := horigin _ ⟨lcf, r, io, early, rfl, hblocks, hhit, hhost, by omega, by omega,
            rfl⟩
          rw [hput]
          exact put_holds hq hall hE
    · rw [update_of_ne hh]
      exact hinv.ring h'
  · intro h'
    simp only [clusterStep]
    by_cases hh : h' = h
    · subst hh
      rw [update_self]
      exact request_pulledSound hzone hgather (hinv.zone h').1 (hinv.zone h').2
    · rw [update_of_ne hh]
      exact hinv.zone h'

theorem clusterInv_take (hinv : ClusterInv pow conf E s) (x : ι) :
    ClusterInv pow conf E (clusterStep pow conf s (.take x)) := by
  obtain ⟨q, hq, hall⟩ := hinv.ring (conf.host x)
  obtain ⟨hentry, hholds, -⟩ := PushRing.Holds.take (ring_sized .redisPush) hq
  have hentry' : (((s.shared (conf.host x)).redisPush (conf.ring (conf.host x))).take
      ngxSentinelRedisPushRing).1 = q.head? := hentry
  refine ⟨hinv.wired, ?_, ?_, hinv.store, ?_⟩
  · intro h
    simp only [clusterStep]
    by_cases hh : h = conf.host x
    · subst hh
      simp only [update_self]
      exact ⟨q.tail, hholds, fun e he => hall e (List.mem_of_mem_tail he)⟩
    · rw [update_of_ne hh]
      exact hinv.ring h
  · intro x' e he
    simp only [clusterStep] at he
    by_cases hx : x' = x
    · subst hx
      rw [update_self, hentry'] at he
      cases List.mem_append.mp he with
      | inl hbefore => exact hinv.taken x' e hbefore
      | inr hlast => exact hall e (List.mem_of_head? (Option.mem_toList.mp hlast))
    · rw [update_of_ne hx] at he
      exact hinv.taken x' e he
  · intro h
    simp only [clusterStep]
    by_cases hh : h = conf.host x
    · subst hh
      rw [update_self]
      exact hinv.zone _
    · rw [update_of_ne hh]
      exact hinv.zone h

theorem clusterInv_respawn (hinv : ClusterInv pow conf E s) (x : ι) :
    ClusterInv pow conf E (clusterStep pow conf s (.respawn x)) := by
  refine ⟨?_, hinv.ring, ?_, hinv.store, hinv.zone⟩
  · intro x'
    simp only [clusterStep]
    by_cases hx : x' = x
    · subst hx
      rw [update_self]
      have hwired := world_wired hinv x'
      exact ⟨⟨rfl, rfl⟩, hwired.opened, nofun, hwired.sent, hwired.counted, nofun⟩
    · rw [update_of_ne hx]
      exact hinv.wired x'
  · intro x' e he
    simp only [clusterStep] at he
    by_cases hx : x' = x
    · subst hx
      rw [update_self] at he
      exact absurd he (List.not_mem_nil)
    · rw [update_of_ne hx] at he
      exact hinv.taken x' e he

theorem clusterInv_step (hconf : conf.Plain) (hE : ∀ h e, E h e → EntryOk e)
    (e : ClusterEvent ι) (hallowed : ClusterAllowed glob conf s e)
    (horigin : ∀ h entry, Originates pow s e h entry → E h entry)
    (hinv : ClusterInv pow conf E s) : ClusterInv pow conf E (clusterStep pow conf s e) := by
  cases e with
  | request h lcf r io early => exact clusterInv_request hinv hallowed (horigin h)
  | take x => exact clusterInv_take hinv x
  | respawn x => exact clusterInv_respawn hinv x
  | serve x id answer => exact clusterInv_serve hconf hinv x id answer hallowed
  | connect x ok => exact clusterInv_event hconf hinv x hallowed nofun nofun
  | close x => exact clusterInv_event hconf hinv x hallowed nofun nofun
  | destroy x now io => exact clusterInv_event hconf hinv x hallowed nofun nofun
  | call h zone op =>
      have hzone := hinv.zone h
      refine ⟨hinv.wired, ?_, hinv.taken, hinv.store, ?_⟩
      · intro h'
        have hsame := setZone_redisPush conf s h h'
          (op.run pow.toNgxCore zone ((s.shared h).shm (conf.segment h)))
        obtain ⟨q, hq, hall⟩ := hinv.ring h'
        exact ⟨q, (congrFun hsame (conf.ring h')).symm ▸ hq, hall⟩
      · exact setZone_zone (P := fun h sh => PulledSound (BanOrigin pow conf E h) sh ∧
          sh.Wf pow.toNgxCore) hinv.zone
          ⟨pulledSound_call hzone.1 hzone.2 zone hallowed.1 hallowed.2,
            (call_spec zone hzone.2 op hallowed.2).1⟩
  | tick x now io =>
      have hafter := clusterInv_event hconf hinv x
        (e := .timer now { io with drained := s.taken x }) hallowed nofun
        (fun now' io' he d hd => ?_)
      · refine ⟨hafter.wired, hafter.ring, ?_, hafter.store, hafter.zone⟩
        intro x' d hd
        simp only [clusterStep] at hd
        by_cases hx : x' = x
        · subst hx
          rw [update_self] at hd
          exact absurd hd (List.not_mem_nil)
        · rw [update_of_ne hx] at hd
          exact hinv.taken x' d hd
      · cases he
        exact hinv.taken x d hd
  | deliver x now io =>
      obtain ⟨c, hc, hopen, -⟩ := hallowed
      have hcontext : (s.worker x).context = some c := hc
      simp only [clusterStep, hcontext]
      cases hinbox : s.inbox x c.id with
      | nil => exact hinv
      | cons r rest => exact clusterInv_reply hconf hE hinv x hcontext hopen hinbox now io
  | vanish key =>
      refine ⟨hinv.wired, hinv.ring, hinv.taken, fun key' value hvalue hours => ?_, hinv.zone⟩
      simp only [clusterStep] at hvalue
      by_cases hkey : key' = key
      · subst hkey
        rw [update_self] at hvalue
        contradiction
      · rw [update_of_ne hkey] at hvalue
        exact hinv.store key' value hvalue hours
  | foreign key value =>
      refine ⟨hinv.wired, hinv.ring, hinv.taken, fun key' value' hvalue hours => ?_, hinv.zone⟩
      simp only [clusterStep] at hvalue
      by_cases hkey : key' = key
      · subst hkey
        obtain ⟨x, hx⟩ := hours
        exact absurd hx (hallowed x)
      · rw [update_of_ne hkey] at hvalue
        exact hinv.store key' value' hvalue hours

end Origin
section Run
variable {ι : Type} [DecidableEq ι] (pow : PowCore) (glob : RedisGlob) {conf : ClusterConf ι}
  {events : List (ClusterEvent ι)}

/-- An event of the run is a request that the entry originates in. -/
def OriginatesIn (conf : ClusterConf ι) (events : List (ClusterEvent ι)) (h : Nat)
    (entry : PushEntry) : Prop :=
  ∃ before e after, events = before ++ e :: after ∧
    Originates pow (Run.exec (clusterStep pow conf) (clusterStart conf) before) e h entry

theorem clusterInv_run (hconf : conf.Plain)
    (hrun : Run.Along (ClusterAllowed glob conf) (clusterStep pow conf) (clusterStart conf)
      events) :
    (∀ h entry, OriginatesIn pow conf events h entry → EntryOk entry) ∧
      ClusterInv pow conf (OriginatesIn pow conf events)
        (Run.exec (clusterStep pow conf) (clusterStart conf) events) := by
  have hsplit := Run.along_iff_split.mp hrun
  have hE : ∀ h entry, OriginatesIn pow conf events h entry → EntryOk entry := by
    intro h entry ⟨before, e, after, hevents, horigin⟩
    exact entryOk_of_originates (hsplit before e after hevents) horigin
  have hboth : Run.Along (fun s e => ClusterAllowed glob conf s e ∧
      ∀ h entry, Originates pow s e h entry → OriginatesIn pow conf events h entry)
      (clusterStep pow conf) (clusterStart conf) events := by
    rw [Run.along_iff_split]
    intro before e after hevents
    exact ⟨hsplit before e after hevents,
      fun h entry horigin => ⟨before, e, after, hevents, horigin⟩⟩
  exact ⟨hE, Run.exec_invariant_along
    (fun s e hallowed hinv => clusterInv_step hconf hE e hallowed.1 hallowed.2 hinv) hboth
    clusterInv_start⟩

/-- In every run, every ban that a host has from Redis was made before by a
request that was blocked at some host without CrowdSec's having had a hand in
it: the ban is about that client, or about a text that is no client's, and ends
when that host said. -/
theorem cluster_bans_originate (hconf : conf.Plain)
    (hrun : Run.Along (ClusterAllowed glob conf) (clusterStep pow conf) (clusterStart conf)
      events) {h : Nat} {k : Key} {n : Node}
    (hget : (((Run.exec (clusterStep pow conf) (clusterStart conf) events).shared h).shm
      (conf.segment h)).get k = some n) (hpulled : n.redisPulled = true) :
    ∃ x y text entry, conf.host x = h ∧ OriginatesIn pow conf events (conf.host y) entry ∧
      k = sentinelFeedDigest pow.toNgxCore text ∧ n.blockedUntil = entry.expiry ∧
      n.csAction = entry.action ∧
      (ClientText text → (conf.lcf x).keyPrefix = (conf.lcf y).keyPrefix ∧ text = entry.ip) := by
  obtain ⟨hE, hinv⟩ := clusterInv_run pow glob hconf hrun
  obtain ⟨x, y, text, entry, hx, hk, horigin, hexpiry, haction, hkey⟩ :=
    (hinv.zone h).1 k n hget hpulled
  refine ⟨x, y, text, entry, hx, horigin, hk, hexpiry, haction, ?_⟩
  intro htext
  exact label_split hkey htext (hE _ entry horigin).text

/-- It takes a `SET` whose key is to last. -/
def Ref.server : RedisServer where
  run := fun store answer command =>
    match answer, command with
    | .refuse e, _ => (.error e, store)
    | .run _ _, .auth _ => (.other, store)
    | .run cursor keys, .scan _ _ _ =>
        (.array [.string cursor, .array (keys.map .string)], store)
    | .run _ _, .get key => ((store key).elim .other .string, store)
    | .run _ _, .set key value ttl =>
        if 0 < ttl then (.other, update store key (some value)) else (.error [], store)
  run_refuse := fun _ _ _ => rfl
  run_auth := fun _ _ _ _ => ⟨rfl, rfl⟩
  run_scan := fun _ _ _ _ _ _ => rfl
  run_get := fun _ _ _ _ => rfl
  run_set := by
    intro store cursor keys key value ttl
    dsimp only
    split
    · exact ⟨rfl, .inr rfl⟩
    · exact ⟨rfl, .inl rfl⟩

/-- Two hosts with a worker each. -/
def clusterPair : ClusterConf Bool where
  server := Ref.server
  host := Bool.toNat
  lcf := fun _ => ⟨[], str "sentinel", 10⟩
  csZone := fun _ => some ⟨60, 60, 10⟩
  push := fun _ => true
  segment := fun _ => 1
  ring := fun _ => 0

theorem decoyAddr_length : ([1, 2, 3, 4] : Bytes).length = 4 := rfl

/-- A client asks the first host for a decoy URL; its ban goes to the server and
from there to the second host. -/
def clusterDecoy : List (ClusterEvent Bool) :=
  [.request 0 (sharingConf none 0)
      (plainRequest (str "1.2.3.4") (str "/trap") (.inet [1, 2, 3, 4] decoyAddr_length))
      (plainIo 80 { noInputs with honeypot := true }) none,
    .tick false 90 (fineIo []), .connect false true, .take false, .tick false 100 (fineIo []),
    .tick true 90 (fineIo []), .connect true true, .tick true 110 (fineIo []),
    .serve false 0 (.run [] []),
    .serve true 0 (.run (str "0") [str "sentinel:ban:1.2.3.4"]), .deliver true 110 (fineIo []),
    .serve true 0 (.run [] []), .deliver true 110 (fineIo [])]

theorem clusterPair_plain : clusterPair.Plain := by
  have hplain : ∀ c ∈ str "sentinel", redisSigns.Plain c ∧ c ≠ 0 :=
    forall_mem_of_all (by decide +kernel)
  exact ⟨fun _ => hplain, fun _ => Nat.le_of_ble_eq_true rfl⟩

theorem clusterDecoy_allowed :
    Run.Along (ClusterAllowed redisGlob clusterPair) (clusterStep Ref.pow clusterPair)
      (clusterStart clusterPair) clusterDecoy := by
  refine ⟨⟨by decide +kernel, by decide, by decide, ⟨by decide, by decide⟩, by decide⟩, ⟨rfl, rfl⟩,
    ⟨_, rfl, rfl, rfl⟩, trivial, ⟨rfl, rfl⟩, ⟨rfl, rfl⟩, ⟨_, rfl, rfl, rfl⟩, ⟨rfl, rfl⟩, ?_, ?_,
    ⟨_, rfl, rfl, rfl, nofun⟩, ?_, ⟨_, rfl, rfl, rfl, nofun⟩, trivial⟩
  · intro cursor keys c pattern count hrun _
    cases hrun
    exact List.forall_mem_nil _
  · intro cursor keys c pattern count hrun hnext
    cases hrun
    have hscan : some (RedisCommand.scan (str "0") (str "sentinel:ban:*") 256) =
      some (.scan c pattern count) := hnext
    simp only [Option.some.injEq, RedisCommand.scan.injEq] at hscan
    rw [← hscan.2.1]
    decide +kernel
  · intro cursor keys c pattern count hrun _
    cases hrun
    exact List.forall_mem_nil _

theorem cluster_bans_originate_decoy :
    let s := Run.exec (clusterStep Ref.pow clusterPair) (clusterStart clusterPair) clusterDecoy
    let k := sentinelFeedDigest Ref.ngx (str "1.2.3.4")
    ∃ n, ((s.shared 1).shm 1).get k = some n ∧ n.redisPulled = true ∧
      ∃ x y text entry, clusterPair.host x = 1 ∧
        OriginatesIn Ref.pow clusterPair clusterDecoy (clusterPair.host y) entry ∧
        k = sentinelFeedDigest Ref.ngx text ∧ n.blockedUntil = entry.expiry ∧
        n.csAction = entry.action ∧
        (ClientText text →
          (clusterPair.lcf x).keyPrefix = (clusterPair.lcf y).keyPrefix ∧ text = entry.ip) := by
  intro s k
  have hany : (((s.shared 1).shm 1).get k).any Node.redisPulled = true := by
    decide +kernel
  obtain ⟨n, hget, hpulled⟩ := (Option.any_eq_true _ _).mp hany
  exact ⟨n, hget, hpulled, cluster_bans_originate Ref.pow redisGlob clusterPair_plain
    clusterDecoy_allowed hget hpulled⟩

end Run
end Sentinel
