import Sentinel.Lib.Glob
import Sentinel.NgxRef
import Sentinel.PowGate
import Sentinel.RedisSync

/-!
What one node publishes and what another makes of it. A key is the prefix, a
label and the text of the address, cut at the end of its buffer; the pattern of
the `SCAN` has the prefix in it as it stands, so the prefix can hold signs of
Redis' glob language; and the address is what is left of a key without as many
bytes as the prefix and the label have.
-/

namespace Sentinel

section RoundTrip

def redisSigns : Glob.Signs UInt8 := ⟨ch '*', ch '?', ch '\\', ch '[', by decide⟩

/-- The patterns of Redis' `MATCH`, as documented; brackets are left open. -/
structure RedisGlob where
  matching : Bytes → Bytes → Bool
  law : Glob.Matcher redisSigns fun p k => matching p k = true

/-- The text that nginx has of a client's address. -/
structure AddrText (ip : Bytes) : Prop where
  long : 2 ≤ ip.length
  nonul : 0 ∉ ip

/-- Node A: the flush that drains `e` after the entries `before` issues `SET key
value` for it. -/
def Publishes (w : RedisWorld) (now : Nat) (io : RedisIo) (before : List PushEntry) (e : PushEntry)
    (key value : Bytes) : Prop :=
  ∃ id ttl, (sentinelRedisFlushPush w now { io with drained := before ++ [e] }).log =
    (sentinelRedisFlushPush w now { io with drained := before }).log ++
      [.issued id (.set key value ttl)]

/-- From `now` on a lookup of the address finds the action, until the expiry. -/
def BannedUntil (ngx : NgxCore) (z : Zone) (sh : Shctx) (ip : Bytes) (action : UInt8)
    (expiry : Int) (now : Nat) : Prop :=
  ∀ t : Int, now ≤ t →
    let r := sentinelShmCrowdsecLookup ngx (some z) sh (sentinelFeedDigest ngx ip) t
    (r.1 = .busy ↔ t < expiry) ∧ (r.1 = .busy → r.2.1 = action)

/-- Node B, which has the key from its `SCAN` and the value from its `GET`: the
address is banned as it was at node A, no other is, and a key that node B takes
for a ban is one of the prefix. -/
structure RoundTrip (ngx : NgxCore) (glob : RedisGlob) (z : Zone) (w : RedisWorld) (now : Nat)
    (io : RedisIo) (e : PushEntry) (key value : Bytes) : Prop where
  back : glob.matching (redisPattern w.rc.lcf.keyPrefix io.stack) key = true →
    ∃ ipcopy, redisKeyIp (redisPlen w.rc.lcf.keyPrefix) key = some ipcopy ∧ cString key = key ∧
      let sh' := (runCallback ngx w (.get ipcopy) (some (.string value)) now io).sh
      BannedUntil ngx z sh' e.ip e.action e.expiry now ∧
        ∀ ip, sentinelFeedDigest ngx ip ≠ sentinelFeedDigest ngx e.ip →
          sh'.get (sentinelFeedDigest ngx ip) = w.sh.get (sentinelFeedDigest ngx ip)
  own : ∀ k ipcopy, glob.matching (redisPattern w.rc.lcf.keyPrefix io.stack) k = true →
    redisKeyIp (redisPlen w.rc.lcf.keyPrefix) k = some ipcopy →
      w.rc.lcf.keyPrefix ++ str ":ban:" <+: k

def csTiers : List UInt8 := [ngxSentinelCsBan, ngxSentinelCsCaptcha, ngxSentinelCsThrottle]

/-- The prefix is plain text, the key fits its buffer, the action is one of the
three, and node B has room for the ban. -/
structure RoundTripCond (ngx : NgxCore) (w : RedisWorld) (io : RedisIo) (e : PushEntry) : Prop where
  plain : ∀ c ∈ w.rc.lcf.keyPrefix, redisSigns.Plain c ∧ c ≠ 0
  fits : redisPlen w.rc.lcf.keyPrefix + e.ip.length ≤ sentinelRedisKeyLen
  tier : e.action ∈ csTiers
  room : io.slab = true ∨ (w.sh.get (sentinelFeedDigest ngx e.ip)).isSome

/-- Where the round trip can hold without the condition: a bracket or a NUL in
the prefix, a pattern that is not terminated, the ban at node B already, or a
beginning of the address with the same digest. -/
def RoundTripOpen (ngx : NgxCore) (w : RedisWorld) (e : PushEntry) : Prop :=
  redisSigns.bracket ∈ w.rc.lcf.keyPrefix ∨ 0 ∈ w.rc.lcf.keyPrefix ∨
    sentinelRedisKeyLen < w.rc.lcf.keyPrefix.length + (str ":ban:*").length + 1 ∨
    (∃ n, w.sh.get (sentinelFeedDigest ngx e.ip) = some n ∧ n.blockedUntil = e.expiry ∧
      n.csAction = e.action) ∨
    ∃ n < e.ip.length, sentinelFeedDigest ngx (e.ip.take n) = sentinelFeedDigest ngx e.ip

end RoundTrip
section Publish
variable {now : Nat} {e : PushEntry} {key value : Bytes}

/-- What the loop appends for its last entry. -/
theorem flushLoop_last {command : Nat → Bool} (before : List PushEntry) :
    ∀ (w : RedisWorld) (i : Nat) {id : Nat} {ttl : Int},
      (flushLoop now command w i (before ++ [e])).log =
        (flushLoop now command w i before).log ++ [.issued id (.set key value ttl)] →
      0 < e.ip.length ∧ e.ip.length < ngxSockaddrStrlen ∧ (now : Int) < e.expiry ∧
        key = redisKey w.rc.lcf.keyPrefix e.ip ∧ value = redisValue e.action e.expiry.toNat := by
  induction before with
  | nil =>
      intro w i id ttl h
      simp only [List.nil_append, flushLoop] at h
      split at h
      · exact absurd (List.self_eq_append_right.mp h) (by simp)
      next hvalid =>
        simp only [not_or] at hvalid
        generalize (e.expiry - now).bmod (2 ^ 32) = ex at h
        cases redisAsyncCommand_cases w (command i) .set (.set (redisKey w.rc.lcf.keyPrefix e.ip)
            (redisValue e.action e.expiry.toNat) ex) with
        | inl hrefused =>
            rw [hrefused] at h
            simp only [true_or, if_true] at h
            exact absurd (List.self_eq_append_right.mp h) (by simp)
        | inr hissued =>
            obtain ⟨c, -, -, -, hissued⟩ := hissued
            rw [hissued] at h
            -- there is nothing after the entry, so it does not matter whether the loop goes on
            have hlog : w.log ++ [.issued c.id (.set (redisKey w.rc.lcf.keyPrefix e.ip)
                (redisValue e.action e.expiry.toNat) ex)] =
                w.log ++ [.issued id (.set key value ttl)] := by
              split at h
              · exact h
              · exact h
            have hentry := List.append_cancel_left hlog
            simp only [List.cons.injEq, RedisLog.issued.injEq, RedisCommand.set.injEq] at hentry
            obtain ⟨⟨-, hkey, hvalue, -⟩, -⟩ := hentry
            refine ⟨by omega, by omega, by omega, hkey.symm, hvalue.symm⟩
  | cons e' before ih =>
      intro w i id ttl h
      simp only [List.cons_append, flushLoop] at h
      split at h
      · exact ih w i h
      · split at h
        · exact absurd (List.self_eq_append_right.mp h) (by simp)
        · have hlast := ih _ (i + 1) h
          rw [redisAsyncCommand_rc] at hlast
          exact hlast

theorem publishes_spec {w : RedisWorld} {io : RedisIo} {before : List PushEntry}
    (h : Publishes w now io before e key value) :
    0 < e.ip.length ∧ e.ip.length < ngxSockaddrStrlen ∧ (now : Int) < e.expiry ∧
      key = redisKey w.rc.lcf.keyPrefix e.ip ∧ value = redisValue e.action e.expiry.toNat := by
  obtain ⟨id, ttl, hlog⟩ := h
  simp only [sentinelRedisFlushPush] at hlog
  split at hlog
  · exact absurd (List.self_eq_append_right.mp hlog) (by simp)
  · exact flushLoop_last before w 0 hlog

end Publish
section Text
variable {keyPrefix ip k stack : Bytes}

theorem cString_of_nonul {s : Bytes} (h : 0 ∉ s) (rest : Bytes) : cString (s ++ 0 :: rest) = s := by
  have hs : ∀ c ∈ s, decide (c ≠ 0) = true := by
    intro c hc
    rw [decide_eq_true_iff]
    intro hzero
    exact h (hzero ▸ hc)
  rw [cString, List.takeWhile_append_of_pos hs]
  simp

theorem redisPlen_eq (keyPrefix : Bytes) :
    redisPlen keyPrefix = (keyPrefix ++ str ":ban:").length := by
  rw [redisPlen, List.length_append]

/-- A pattern that fits its buffer is terminated there. -/
theorem redisPattern_eq (hnul : 0 ∉ keyPrefix)
    (hfits : keyPrefix.length + (str ":ban:*").length + 1 ≤ sentinelRedisKeyLen) (stack : Bytes) :
    redisPattern keyPrefix stack = keyPrefix ++ str ":ban:" ++ [redisSigns.star] := by
  have hlen : (keyPrefix ++ str ":ban:*" ++ [0]).length ≤ sentinelRedisKeyLen := by
    simpa [List.length_append, Nat.add_assoc] using hfits
  have hlabel : str ":ban:*" = str ":ban:" ++ [redisSigns.star] := rfl
  have hnul' : 0 ∉ keyPrefix ++ str ":ban:*" := by
    rw [List.mem_append, not_or]
    exact ⟨hnul, by decide⟩
  rw [redisPattern, List.take_of_length_le hlen, List.append_assoc _ [0] stack,
    List.singleton_append, cString_of_nonul hnul', hlabel, List.append_assoc]

theorem redisKeyIp_prefixed (hpos : 0 < ip.length) (hlen : ip.length < ngxSockaddrStrlen) :
    redisKeyIp (redisPlen keyPrefix) (keyPrefix ++ str ":ban:" ++ ip) = some ip := by
  have hk : (keyPrefix ++ str ":ban:" ++ ip).length = redisPlen keyPrefix + ip.length := by
    rw [List.length_append, ← redisPlen_eq]
  have hlong : ¬ redisPlen keyPrefix + ip.length ≤ redisPlen keyPrefix := by omega
  have hip : ¬ (redisPlen keyPrefix + ip.length - redisPlen keyPrefix = 0 ∨
      redisPlen keyPrefix + ip.length - redisPlen keyPrefix ≥ ngxSockaddrStrlen) := by omega
  rw [redisKeyIp, hk, if_neg hlong]
  dsimp only
  rw [if_neg hip, redisPlen_eq, List.drop_left]

/-- A key as node A writes it: what fits of the address. -/
theorem redisKey_eq (ip : Bytes) (hplen : redisPlen keyPrefix ≤ sentinelRedisKeyLen) :
    redisKey keyPrefix ip = keyPrefix ++ str ":ban:" ++
      ip.take (sentinelRedisKeyLen - redisPlen keyPrefix) := by
  rw [redisPlen_eq] at hplen ⊢
  rw [redisKey, List.take_append, List.take_of_length_le hplen]

theorem plain_label (h : ∀ c ∈ keyPrefix, redisSigns.Plain c) :
    ∀ c ∈ keyPrefix ++ str ":ban:", redisSigns.Plain c := by
  intro c hc
  cases List.mem_append.mp hc with
  | inl hmem => exact h c hmem
  | inr hlabel =>
      have hall : ∀ c ∈ str ":ban:", c ≠ ch '*' ∧ c ≠ ch '?' ∧ c ≠ ch '\\' ∧ c ≠ ch '[' := by
        decide +kernel
      exact hall c hlabel

theorem formed_label (h : redisSigns.bracket ∉ keyPrefix) :
    Glob.Formed redisSigns (keyPrefix ++ str ":ban:") := by
  refine Glob.formed ?_ ?_
  · rw [List.mem_append, not_or]
    exact ⟨h, by decide⟩
  · rw [List.getLast?_append]
    exact (by decide : some (ch ':') ≠ some redisSigns.escape)

end Text
section Value
variable {ngx : NgxCore} {action : UInt8} {n : Nat}

theorem sentinelRedisActionStr_length (action : UInt8) :
    (sentinelRedisActionStr action).length ≤ 8 := by
  rw [sentinelRedisActionStr]
  split
  · decide
  · split
    · decide
    · decide

theorem sentinelRedisActionStr_space (action : UInt8) : ch ' ' ∉ sentinelRedisActionStr action := by
  rw [sentinelRedisActionStr]
  split
  · decide
  · split
    · decide
    · decide

/-- The two translations of an action are inverse on the three tiers. -/
theorem sentinelRedisAction_str (action : UInt8) :
    sentinelRedisAction (sentinelRedisActionStr action) ∈ csTiers ∧
      (action ∈ csTiers → sentinelRedisAction (sentinelRedisActionStr action) = action) := by
  rw [sentinelRedisActionStr]
  split
  next hcaptcha => exact ⟨by decide, fun _ => hcaptcha ▸ by decide⟩
  next hcaptcha =>
    split
    next hthrottle => exact ⟨by decide, fun _ => hthrottle ▸ by decide⟩
    next hthrottle =>
      refine ⟨by decide, fun htier => ?_⟩
      simp only [csTiers, List.mem_cons, hcaptcha, hthrottle, List.not_mem_nil, or_false] at htier
      exact htier ▸ by decide

/-- The value fits its buffer. -/
theorem redisValue_eq (hn : n ≤ ngxMaxIntT) :
    redisValue action n = sentinelRedisActionStr action ++ ch ' ' :: ngxPrint n := by
  have haction := sentinelRedisActionStr_length action
  have hdigits : (ngxPrint n).length ≤ 19 := by
    rw [ngxPrint, Numeral.write, List.length_map, Nat.length_toDigits_le_iff (by omega) (by omega)]
    rw [ngxMaxIntT] at hn
    omega
  refine List.take_of_length_le ?_
  rw [List.length_append, List.length_cons]
  omega

/-- Node B reads what node A has written. -/
theorem redisDecision_value (ngx : NgxCore) (action : UInt8) (ip : Bytes) {now : Nat}
    (hn : n ≤ ngxMaxIntT) (hnow : now < n) :
    redisDecision ngx ip (some (redisValue action n)) now =
      some ⟨sentinelFeedDigest ngx ip, n, sentinelRedisAction (sentinelRedisActionStr action)⟩ := by
  have hatoi : ngx.atoi (ngxPrint n) = some n :=
    (ngx.atoi_eq_some _ n).mpr ⟨Numeral.write_ne_nil n,
      allDigits_iff.mpr (Numeral.write_digits n), decimal_print n, hn⟩
  have hlater : ¬ (n : Int) ≤ now := by omega
  rw [redisValue_eq hn, redisDecision, if_neg (by simp),
    Lines.field_append _ (sentinelRedisActionStr_space action)]
  simp only [hatoi, if_neg hlater]

end Value
section Store
variable {ngx : NgxCore} {sh : Shctx} {z : Zone} {ip : Bytes} {action : UInt8} {expiry : Int}
  {now : Nat}

/-- What the lookups find is what the node of the address says. -/
theorem bannedUntil_iff (wf : sh.Wf ngx) (hnow : now < expiry) :
    BannedUntil ngx z sh ip action expiry now ↔
      ∃ n, sh.get (sentinelFeedDigest ngx ip) = some n ∧ n.blockedUntil = expiry ∧
        n.csAction = action := by
  have hspec := crowdsecLookup_spec z wf (sentinelFeedDigest ngx ip)
  constructor
  · intro h
    -- just before the expiry, and at it
    obtain ⟨hbusy, haction⟩ := h (expiry - 1) (by omega)
    obtain ⟨hover, -⟩ := h expiry (by omega)
    have hbusy' := hbusy.mpr (by omega)
    obtain ⟨-, -, -, hbefore⟩ := hspec (expiry - 1)
    obtain ⟨-, -, -, hat⟩ := hspec expiry
    cases hbefore with
    | inr hok => exact absurd (hbusy'.symm.trans hok.1) (by simp)
    | inl hfound =>
        obtain ⟨-, n, hn, hlater, hsame⟩ := hfound
        refine ⟨n, hn, ?_, hsame.symm.trans (haction hbusy')⟩
        cases hat with
        | inl hfound => exact absurd (hover.mp hfound.1) (by omega)
        | inr hok =>
            have := hok.2 n hn
            omega
  · intro h t _
    obtain ⟨n, hn, hexpiry, haction⟩ := h
    obtain ⟨-, -, -, hcases⟩ := hspec t
    cases hcases with
    | inl hfound =>
        obtain ⟨hbusy, n', hn', hlater, hsame⟩ := hfound
        rw [Option.some.inj (hn'.symm.trans hn)] at hlater hsame
        refine ⟨⟨fun _ => by omega, fun _ => hbusy⟩, fun _ => hsame.trans haction⟩
    | inr hok =>
        obtain ⟨hnot, hover⟩ := hok
        have := hover n hn
        refine ⟨⟨fun hbusy => absurd (hnot.symm.trans hbusy) (by simp), fun hlt => ?_⟩,
          fun hbusy => absurd (hnot.symm.trans hbusy) (by simp)⟩
        omega

/-- What node B has after the reply: the ban, if there was room for it. -/
theorem getReply_value {w : RedisWorld} (wf : w.sh.Wf ngx) (hzone : w.rc.csZone = some z)
    (action : UInt8) {n now : Nat} (hn : n ≤ ngxMaxIntT) (hnow : now < n) (ipcopy : Bytes)
    (io : RedisIo) :
    let sh' := (runCallback ngx w (.get ipcopy) (some (.string (redisValue action n))) now io).sh
    let k := sentinelFeedDigest ngx (cString ipcopy)
    sh'.Wf ngx ∧ (io.slab = true ∨ (w.sh.get k).isSome →
        ∃ m : Node, m.blockedUntil = n ∧
          m.csAction = sentinelRedisAction (sentinelRedisActionStr action) ∧
          ∀ k', sh'.get k' = if k' = k then some m else w.sh.get k') ∧
      (¬ (io.slab = true ∨ (w.sh.get k).isSome) → sh' = w.sh) := by
  intro sh' k
  have hsh : sh' = (sentinelShmCrowdsecUpsert ngx (some z) w.sh k n
      (sentinelRedisAction (sentinelRedisActionStr action)) w.sh.csGeneration now true
      io.slab).2 := by
    have hdecision := redisDecision_value ngx action (cString ipcopy) hn hnow
    simp only [sh', k, runCallback, RedisReply.text, hzone, sentinelRedisGetReply, redisStore,
      hdecision]
  by_cases hroom : io.slab = true ∨ (w.sh.get k).isSome
  · obtain ⟨-, hwf, -, m, hm, hget⟩ := upsert_spec z n
      (sentinelRedisAction (sentinelRedisActionStr action)) now true wf (Nat.le_refl _) hroom
    rw [hsh]
    exact ⟨hwf, fun _ => ⟨m, hm.2.1, hm.2.2.1, hget⟩, fun hnot => absurd hroom hnot⟩
  · have hsame : sh' = w.sh := by
      simp only [not_or, Bool.not_eq_true, Option.isSome_eq_false_iff, Option.isNone_iff_eq_none]
        at hroom
      rw [hsh, upsert_refused z wf hroom.1 hroom.2]
    rw [hsame]
    exact ⟨wf, fun hyes => absurd hyes hroom, fun _ => rfl⟩

end Store
section Correct
variable {ngx : NgxCore} {glob : RedisGlob} {z : Zone} {w : RedisWorld} {now : Nat} {io : RedisIo}
  {e : PushEntry}

/-- What node A has written and node B has, apart from the text of the key. -/
structure Pulled (ngx : NgxCore) (z : Zone) (w : RedisWorld) (now : Nat) (e : PushEntry) :
    Prop where
  pos : 0 < e.ip.length
  len : e.ip.length < ngxSockaddrStrlen
  text : AddrText e.ip
  wf : w.sh.Wf ngx
  zone : w.rc.csZone = some z
  later : (now : Int) < e.expiry
  range : e.expiry ≤ ngxMaxIntT

theorem roundTrip_of_cond (h : Pulled ngx z w now e) (hcond : RoundTripCond ngx w io e) :
    RoundTrip ngx glob z w now io e (redisKey w.rc.lcf.keyPrefix e.ip)
      (redisValue e.action e.expiry.toNat) := by
  have hplain : ∀ c ∈ w.rc.lcf.keyPrefix, redisSigns.Plain c := fun c hc => (hcond.plain c hc).1
  have hnul : 0 ∉ w.rc.lcf.keyPrefix := fun hmem => (hcond.plain 0 hmem).2 rfl
  have hfits := hcond.fits
  have hlong := h.text.long
  have hplen : redisPlen w.rc.lcf.keyPrefix = w.rc.lcf.keyPrefix.length + 5 := rfl
  have hstar : (str ":ban:*").length = 6 := rfl
  have hpattern := redisPattern_eq hnul (by omega) io.stack
  have hfinds := Glob.match_plain glob.law (plain_label hplain)
  have hkey : redisKey w.rc.lcf.keyPrefix e.ip = w.rc.lcf.keyPrefix ++ str ":ban:" ++ e.ip := by
    have hwhole : redisPlen w.rc.lcf.keyPrefix ≤ sentinelRedisKeyLen := by omega
    rw [redisKey_eq e.ip hwhole, List.take_of_length_le (by omega)]
  have hn : (e.expiry.toNat : Int) = e.expiry := Int.toNat_of_nonneg (by have := h.later; omega)
  have hrange := h.range
  have hlater := h.later
  have hmax : e.expiry.toNat ≤ ngxMaxIntT := by omega
  have hafter : now < e.expiry.toNat := by omega
  obtain ⟨hwf, hstored, -⟩ := getReply_value h.wf h.zone e.action hmax hafter e.ip io
  rw [cString_self h.text.nonul] at hstored
  have hroom := hcond.room
  refine ⟨fun _ => ⟨e.ip, ?_, ?_, ?_, ?_⟩, ?_⟩
  · rw [hkey]
    exact redisKeyIp_prefixed h.pos h.len
  · rw [hkey]
    refine cString_self ?_
    simp only [List.mem_append, not_or]
    exact ⟨⟨hnul, by decide⟩, h.text.nonul⟩
  · refine (bannedUntil_iff hwf h.later).mpr ?_
    obtain ⟨m, hexpiry, haction, hget⟩ := hstored hroom
    refine ⟨m, (hget _).trans (if_pos rfl), hexpiry.trans hn, ?_⟩
    exact haction.trans ((sentinelRedisAction_str e.action).2 hcond.tier)
  · intro ip hne
    obtain ⟨m, -, -, hget⟩ := hstored hroom
    exact (hget _).trans (if_neg hne)
  · intro k ipcopy hmatch _
    rw [hpattern] at hmatch
    exact (hfinds k).mp hmatch

/-- The pattern finds keys of other prefixes as soon as the prefix has a sign in it. -/
theorem plain_of_own (hbracket : redisSigns.bracket ∉ w.rc.lcf.keyPrefix)
    (hnul : 0 ∉ w.rc.lcf.keyPrefix)
    (hfits : w.rc.lcf.keyPrefix.length + (str ":ban:*").length + 1 ≤ sentinelRedisKeyLen)
    (hown : ∀ k ipcopy, glob.matching (redisPattern w.rc.lcf.keyPrefix io.stack) k = true →
      redisKeyIp (redisPlen w.rc.lcf.keyPrefix) k = some ipcopy →
        w.rc.lcf.keyPrefix ++ str ":ban:" <+: k) :
    ∀ c ∈ w.rc.lcf.keyPrefix, redisSigns.Plain c := by
  by_contra hsign
  have hsign' : ¬ ∀ c ∈ w.rc.lcf.keyPrefix ++ str ":ban:", redisSigns.Plain c :=
    fun hplain => hsign fun c hc => hplain c (List.mem_append_left _ hc)
  obtain ⟨k, hlen, hmatch, hforeign⟩ :=
    Glob.exists_foreign glob.law (formed_label hbracket) hsign'
  rw [← redisPattern_eq hnul hfits io.stack] at hmatch
  rw [← redisPlen_eq] at hlen
  refine hforeign (hown k (k.drop (redisPlen w.rc.lcf.keyPrefix)) hmatch ?_)
  have hone : ngxSockaddrStrlen = 113 := rfl
  rw [redisKeyIp, if_neg (by omega)]
  exact if_neg (by omega)

theorem cond_of_roundTrip (h : Pulled ngx z w now e) (hopen : ¬ RoundTripOpen ngx w e)
    (hround : RoundTrip ngx glob z w now io e (redisKey w.rc.lcf.keyPrefix e.ip)
      (redisValue e.action e.expiry.toNat)) : RoundTripCond ngx w io e := by
  simp only [RoundTripOpen, not_or, not_exists, not_and] at hopen
  obtain ⟨hbracket, hnul, hterminated, hnew, hcollision⟩ := hopen
  have hfits := Nat.not_lt.mp hterminated
  have hplain := plain_of_own hbracket hnul hfits hround.own
  have hstar : (str ":ban:*").length = 6 := rfl
  have hplen : redisPlen w.rc.lcf.keyPrefix = w.rc.lcf.keyPrefix.length + 5 := rfl
  have hbuffer : sentinelRedisKeyLen = 177 := rfl
  have haddr : ngxSockaddrStrlen = 113 := rfl
  have hn : (e.expiry.toNat : Int) = e.expiry := Int.toNat_of_nonneg (by have := h.later; omega)
  have hrange := h.range
  have hlater := h.later
  have hpos := h.pos
  have hlen := h.len
  have hwhole : redisPlen w.rc.lcf.keyPrefix ≤ sentinelRedisKeyLen := by omega
  -- node B finds the key and takes what is left of the address
  have hkey := redisKey_eq e.ip hwhole
  have hmatch : glob.matching (redisPattern w.rc.lcf.keyPrefix io.stack)
      (redisKey w.rc.lcf.keyPrefix e.ip) = true := by
    rw [redisPattern_eq hnul hfits io.stack, hkey]
    exact (Glob.match_plain glob.law (plain_label hplain) _).mpr (List.prefix_append _ _)
  obtain ⟨ipcopy, hcopy, -, hbanned, -⟩ := hround.back hmatch
  have htake : ipcopy = e.ip.take (sentinelRedisKeyLen - redisPlen w.rc.lcf.keyPrefix) := by
    rw [hkey] at hcopy
    refine Option.some.inj (hcopy.symm.trans (redisKeyIp_prefixed ?_ ?_))
    · rw [List.length_take]
      omega
    · rw [List.length_take]
      omega
  have hcstring : cString ipcopy = ipcopy := by
    rw [htake]
    exact cString_self fun hmem => h.text.nonul (List.mem_of_mem_take hmem)
  have hmax : e.expiry.toNat ≤ ngxMaxIntT := by omega
  have hafter : now < e.expiry.toNat := by omega
  obtain ⟨hwf, hstored, hrefused⟩ := getReply_value h.wf h.zone e.action hmax hafter ipcopy io
  rw [hcstring] at hstored hrefused
  obtain ⟨n, hget, hexpiry, haction⟩ := (bannedUntil_iff hwf hlater).mp hbanned
  -- a ban that was not there before has been stored, and under this very address
  have hroom : io.slab = true ∨ (w.sh.get (sentinelFeedDigest ngx ipcopy)).isSome := by
    by_contra hfull
    rw [hrefused hfull] at hget
    exact hnew n hget hexpiry haction
  obtain ⟨m, -, htier, hkept⟩ := hstored hroom
  have hsame : sentinelFeedDigest ngx e.ip = sentinelFeedDigest ngx ipcopy := by
    by_contra hother
    rw [hkept, if_neg hother] at hget
    exact hnew n hget hexpiry haction
  have hfitsKey : redisPlen w.rc.lcf.keyPrefix + e.ip.length ≤ sentinelRedisKeyLen := by
    by_contra hlong
    refine hcollision (sentinelRedisKeyLen - redisPlen w.rc.lcf.keyPrefix) (by omega) ?_
    rw [← htake]
    exact hsame.symm
  refine ⟨fun c hc => ⟨hplain c hc, fun hzero => hnul (hzero ▸ hc)⟩, hfitsKey, ?_, ?_⟩
  · rw [hkept, if_pos hsame] at hget
    rw [← haction, ← Option.some.inj hget, htier]
    exact (sentinelRedisAction_str e.action).1
  · rw [hsame]
    exact hroom

/-- The round trip holds under the condition, and, where it is not open, only then. -/
theorem redis_round_trip_iff (ngx : NgxCore) (glob : RedisGlob) (z : Zone) {wA w : RedisWorld}
    {nowA now : Nat} {ioA io : RedisIo} {before : List PushEntry} {e : PushEntry}
    {key value : Bytes} (hpublished : Publishes wA nowA ioA before e key value)
    (hsame : w.rc.lcf.keyPrefix = wA.rc.lcf.keyPrefix) (hzone : w.rc.csZone = some z)
    (wf : w.sh.Wf ngx) (htext : AddrText e.ip) (hlater : (now : Int) < e.expiry)
    (hrange : e.expiry ≤ ngxMaxIntT) :
    (RoundTripCond ngx w io e → RoundTrip ngx glob z w now io e key value) ∧
      (¬ RoundTripOpen ngx w e → RoundTrip ngx glob z w now io e key value →
        RoundTripCond ngx w io e) := by
  obtain ⟨hpos, hlen, -, hkey, hvalue⟩ := publishes_spec hpublished
  rw [hkey, hvalue, ← hsame]
  have h : Pulled ngx z w now e := ⟨hpos, hlen, htext, wf, hzone, hlater, hrange⟩
  exact ⟨roundTrip_of_cond h, cond_of_roundTrip h⟩

/-- A matcher as documented. -/
def redisGlob : RedisGlob := ⟨Glob.search redisSigns, Glob.search_matcher redisSigns⟩

/-- A node that is connected and knows of no ban. -/
def redisNode (keyPrefix : Bytes) : RedisWorld :=
  [RedisEvent.timer 90 (fineIo []), .connect true].foldl (redisStep Ref.ngx)
    (sentinelRedisInitProcess ⟨[], keyPrefix, 10⟩ (some ⟨60, 60, 10⟩) true sentinelShmInitZone)

theorem redis_round_trip_plain :
    RoundTrip Ref.ngx redisGlob ⟨60, 60, 10⟩ (redisNode (str "sentinel")) 110 (fineIo [])
      ⟨str "1.2.3.4", ngxSentinelCsThrottle, 500⟩ (str "sentinel:ban:1.2.3.4")
      (str "throttle 500") := by
  have hpublished : Publishes (redisNode (str "sentinel")) 100 (fineIo []) []
      ⟨str "1.2.3.4", ngxSentinelCsThrottle, 500⟩ (str "sentinel:ban:1.2.3.4")
      (str "throttle 500") := ⟨0, 400, by decide⟩
  refine (redis_round_trip_iff Ref.ngx redisGlob _ hpublished rfl rfl wf_init
    ⟨by decide, by decide⟩ (by decide) (by decide)).1 ?_
  exact ⟨by decide +kernel, by decide, by decide, .inl rfl⟩

/-- A prefix of 164 bytes leaves no room for the last byte of 10.0.0.12, and node
B bans 10.0.0.1. -/
theorem truncated_key_bans_another :
    let w := redisNode (List.replicate 164 (ch 'p'))
    let e : PushEntry := ⟨str "10.0.0.12", ngxSentinelCsBan, 500⟩
    let key := redisKey w.rc.lcf.keyPrefix e.ip
    let value := redisValue e.action 500
    Publishes w 100 (fineIo []) [] e key value ∧
      ¬ RoundTrip Ref.ngx redisGlob ⟨60, 60, 10⟩ w 110 (fineIo []) e key value := by
  intro w e key value
  refine ⟨⟨0, 400, by decide +kernel⟩, fun hround => ?_⟩
  have hpulled : Pulled Ref.ngx ⟨60, 60, 10⟩ w 110 e :=
    ⟨by decide, by decide, ⟨by decide, by decide⟩, wf_init, rfl, by decide, by decide⟩
  have hclosed : ¬ RoundTripOpen Ref.ngx w e := by
    have hdigests : ∀ n < e.ip.length,
        sentinelFeedDigest Ref.ngx (e.ip.take n) ≠ sentinelFeedDigest Ref.ngx e.ip := by
      decide +kernel
    simp only [RoundTripOpen, not_or, not_exists, not_and]
    refine ⟨by decide +kernel, by decide +kernel, by decide +kernel, ?_, hdigests⟩
    exact fun n hn => nomatch hn
  have hfits := (cond_of_roundTrip hpulled hclosed hround).fits
  exact absurd hfits (by decide +kernel)

end Correct
end Sentinel
