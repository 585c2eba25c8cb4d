import Sentinel.Lib.Run
import Sentinel.NgxRef
import Sentinel.RedisSync

/-!
The connection's state over whole runs: it is down exactly while the worker has
no context, the timer is always set, the delay stays in its bounds, there is one
`SCAN` at most, and nothing but `AUTH` goes over a connection before the server
has accepted the password.
-/

namespace Sentinel

section Invariant

/-- Commands other than `AUTH` come after the acceptance of the connection's own. -/
def AuthFirst (log : List RedisLog) : Prop :=
  ∀ before id command after, log = before ++ .issued id command :: after →
    (∃ password, command = .auth password) ∨ .authenticated id ∈ before

/-- The `SCAN` commands that have had no reply. -/
def RedisWorld.scans (w : RedisWorld) : Nat :=
  match w.context with
  | some c => c.replies.count .scan
  | none => 0

/-- What is to hold whenever a handler has returned. -/
structure RedisSafe (lcf : RedisConf) (w : RedisWorld) : Prop where
  down : w.rc.state = .down ↔ w.rc.ac = none
  timer : w.rc.timer.isSome
  backoff : ngxSentinelRedisBackoffMinMs ≤ w.rc.backoff ∧
    w.rc.backoff ≤ ngxSentinelRedisBackoffMaxMs
  chain : w.scans ≤ 1
  first : lcf.password ≠ [] → AuthFirst w.log

structure RedisBase (lcf : RedisConf) (w : RedisWorld) : Prop where
  conf : w.rc.lcf = lcf
  backoff : ngxSentinelRedisBackoffMinMs ≤ w.rc.backoff ∧
    w.rc.backoff ≤ ngxSentinelRedisBackoffMaxMs
  chain : w.scans ≤ 1
  first : lcf.password ≠ [] → AuthFirst w.log

/-- The worker's context is the one that hiredis has, unless that is closing; and
a context that may be used has its `AUTH` outstanding or accepted. -/
structure RedisInv (lcf : RedisConf) (w : RedisWorld) : Prop extends RedisBase lcf w where
  down : w.rc.state = .down ↔ w.rc.ac = none
  owner : ∀ id, w.rc.ac = some id → ∃ c, w.context = some c ∧ c.id = id
  closing : ∀ c, w.context = some c → w.rc.ac = none → c.closing = true
  failed : ∀ c, w.context = some c → c.closing = true → c.connected = false → w.rc.ac = none
  idle : w.rc.ac ≠ none → w.rc.pullInflight = false → w.scans = 0
  pending : w.rc.authPending = true → w.scans = 0
  authed : lcf.password ≠ [] → ∀ c, w.context = some c → c.closing = false →
    w.rc.authPending = false → .authenticated c.id ∈ w.log

end Invariant
section Log
variable {log : List RedisLog} {id : Nat} {command : RedisCommand}

theorem snoc_eq_split {α : Type} {l before after : List α} {x y : α}
    (h : l ++ [x] = before ++ y :: after) :
    l = before ∧ x = y ∨ ∃ after', l = before ++ y :: after' := by
  cases after using List.reverseRecOn with
  | nil =>
      obtain ⟨hl, hxy⟩ := List.append_inj' h rfl
      exact .inl ⟨hl, (List.cons.inj hxy).1⟩
  | append_singleton after z =>
      rw [← List.cons_append, ← List.append_assoc] at h
      exact .inr ⟨after, (List.append_inj' h rfl).1⟩

theorem authFirst_nil : AuthFirst [] := by
  intro before id command after h
  exact absurd h (by simp)

theorem authFirst_authenticated (h : AuthFirst log) (id : Nat) :
    AuthFirst (log ++ [.authenticated id]) := by
  intro before id' command after hsplit
  cases snoc_eq_split hsplit with
  | inl hlast => exact absurd hlast.2 (by simp)
  | inr hearlier =>
      obtain ⟨after', hlog⟩ := hearlier
      exact h before id' command after' hlog

theorem authFirst_issued (h : AuthFirst log)
    (hready : (∃ password, command = .auth password) ∨ .authenticated id ∈ log) :
    AuthFirst (log ++ [.issued id command]) := by
  intro before id' command' after hsplit
  cases snoc_eq_split hsplit with
  | inl hlast =>
      obtain ⟨hlog, hentry⟩ := hlast
      cases hentry
      exact hlog ▸ hready
  | inr hearlier =>
      obtain ⟨after', hlog⟩ := hearlier
      exact h before id' command' after' hlog

end Log
section Command
variable {lcf : RedisConf} {w : RedisWorld}

/-- What a command keeps up, as long as its connection may issue it. -/
theorem inv_command (h : RedisInv lcf w) (ok : Bool) (fn : RedisCallback) (command : RedisCommand)
    (hready : w.rc.authPending = false ∨ ∃ password, command = .auth password)
    (hscan : fn = .scan → w.scans = 0 ∧ w.rc.pullInflight = true ∧ w.rc.authPending = false) :
    RedisInv lcf (redisAsyncCommand w ok fn command).2 := by
  cases redisAsyncCommand_cases w ok fn command with
  | inl hrefused =>
      rw [hrefused]
      exact h
  | inr hissued =>
      obtain ⟨c, hcontext, hac, hopen, hissued⟩ := hissued
      rw [hissued]
      have hscans : w.scans = c.replies.count .scan := by
        rw [RedisWorld.scans, hcontext]
      have hcount : (c.replies ++ [fn]).count .scan =
          w.scans + if fn = .scan then 1 else 0 := by
        rw [List.count_append, hscans, List.count_singleton]
        simp
      refine ⟨⟨h.conf, h.backoff, ?_, ?_⟩, h.down, ?_, ?_, ?_, ?_, ?_, ?_⟩
      · refine hcount.trans_le ?_
        split
        · rw [(hscan ‹_›).1]
        · exact h.chain
      · intro hpassword
        refine authFirst_issued (h.first hpassword) ?_
        cases hready with
        | inl hsettled => exact .inr (h.authed hpassword c hcontext hopen hsettled)
        | inr hauth => exact .inl hauth
      · intro id hid
        have hsame := Option.some.inj (hac.symm.trans hid)
        exact ⟨_, rfl, hsame⟩
      · intro c' _ hnone
        exact absurd (hac.symm.trans hnone) (by simp)
      · intro c' hc' hclosing _
        rw [← Option.some.inj hc'] at hclosing
        exact absurd (hopen.symm.trans hclosing) (by simp)
      · intro hsome hidle
        refine hcount.trans ?_
        split
        · exact absurd ((hscan ‹_›).2.1.symm.trans hidle) (by simp)
        · exact h.idle hsome hidle
      · intro hpending
        refine hcount.trans ?_
        split
        · exact absurd ((hscan ‹_›).2.2.symm.trans hpending) (by simp)
        · exact h.pending hpending
      · intro hpassword c' hc' _ hsettled
        have hsame := Option.some.inj hc'
        rw [← hsame]
        exact List.mem_append_left _ (h.authed hpassword c hcontext hopen hsettled)

end Command
section Lifecycle
variable {lcf : RedisConf} {w : RedisWorld}

/-- The timer, the nginx connection and the zone are not spoken of. -/
theorem inv_frame (h : RedisInv lcf w) (timer : Option Nat) (conn : Bool) (sh : Shctx) :
    RedisInv lcf { w with rc := { w.rc with timer, conn }, sh } :=
  ⟨⟨h.conf, h.backoff, h.chain, h.first⟩, h.down, h.owner, h.closing, h.failed, h.idle, h.pending,
    h.authed⟩

theorem inv_of_down (h : RedisBase lcf w) (hdown : w.rc.state = .down) (hac : w.rc.ac = none)
    (hpending : w.rc.authPending = true → w.scans = 0)
    (hclosing : ∀ c, w.context = some c → c.closing = true) : RedisInv lcf w := by
  refine ⟨h, ⟨fun _ => hac, fun _ => hdown⟩, ?_, ?_, fun _ _ _ _ => hac, ?_, hpending, ?_⟩
  · intro id hid
    exact absurd (hac.symm.trans hid) (by simp)
  · intro c hc _
    exact hclosing c hc
  · intro hsome
    exact absurd hac hsome
  · intro _ c hc hopen
    exact absurd ((hclosing c hc).symm.trans hopen) (by simp)

/-- Freeing a context marks it and does nothing else. -/
theorem redisAsyncFree_context (w : RedisWorld) (id : Nat) {c : RedisAsyncContext}
    (h : (redisAsyncFree w id).context = some c) :
    ∃ c', w.context = some c' ∧ c.id = c'.id ∧ c.connected = c'.connected ∧
      c.replies = c'.replies ∧ (c.closing = true ↔ c'.closing = true ∨ c'.id = id) := by
  obtain ⟨c', hc', hmark⟩ := Option.map_eq_some_iff.mp h
  refine ⟨c', hc', ?_⟩
  rw [← hmark]
  split
  next hid => exact ⟨rfl, rfl, rfl, by simp [hid]⟩
  next hid => exact ⟨rfl, rfl, rfl, by simp [hid]⟩

@[simp] theorem redisAsyncFree_scans (w : RedisWorld) (id : Nat) :
    (redisAsyncFree w id).scans = w.scans := by
  cases hcontext : w.context with
  | none => simp [RedisWorld.scans, redisAsyncFree, hcontext]
  | some c =>
      simp only [RedisWorld.scans, redisAsyncFree, hcontext, Option.map_some]
      split
      · rfl
      · rfl

/-- After a teardown the worker has no context, and hiredis none that goes on. -/
theorem inv_teardown (h : RedisBase lcf w)
    (hcontext : ∀ c, w.context = some c → c.closing = true ∨ w.rc.ac = some c.id) :
    RedisInv lcf (sentinelRedisTeardown w) := by
  simp only [sentinelRedisTeardown]
  cases hac : w.rc.ac with
  | some id =>
      refine inv_of_down ⟨h.conf, h.backoff, ?_, h.first⟩ rfl rfl nofun ?_
      · rw [redisAsyncFree_scans]
        exact h.chain
      · intro c hc
        obtain ⟨c', hc', -, -, -, hclosing⟩ := redisAsyncFree_context _ id hc
        rw [hclosing]
        refine (hcontext c' hc').imp_right fun hown => ?_
        exact (Option.some.inj (hac.symm.trans hown)).symm
  | none =>
      have hclosing : ∀ c, w.context = some c → c.closing = true := by
        intro c hc
        refine (hcontext c hc).resolve_right fun hown => ?_
        exact absurd (hac.symm.trans hown) (by simp)
      dsimp only
      split
      · exact inv_of_down ⟨h.conf, h.backoff, h.chain, h.first⟩ rfl rfl nofun hclosing
      · exact inv_of_down ⟨h.conf, h.backoff, h.chain, h.first⟩ rfl rfl nofun hclosing

theorem backoff_min_le_max : ngxSentinelRedisBackoffMinMs ≤ ngxSentinelRedisBackoffMaxMs := by
  decide

/-- The timer is set with the delay, and the next delay is longer, within bounds. -/
theorem inv_schedule (h : RedisInv lcf w) :
    RedisInv lcf (sentinelRedisScheduleReconnect w) ∧
      (sentinelRedisScheduleReconnect w).rc.timer.isSome := by
  refine ⟨⟨⟨h.conf, ?_, h.chain, h.first⟩, h.down, h.owner, h.closing, h.failed, h.idle, h.pending,
    h.authed⟩, rfl⟩
  have hle := backoff_min_le_max
  have hdelay : ngxSentinelRedisBackoffMinMs ≤
      if w.rc.backoff < ngxSentinelRedisBackoffMinMs then ngxSentinelRedisBackoffMinMs
      else w.rc.backoff := by
    split
    · omega
    · omega
  simp only [sentinelRedisScheduleReconnect]
  generalize (if w.rc.backoff < ngxSentinelRedisBackoffMinMs then ngxSentinelRedisBackoffMinMs
    else w.rc.backoff) = delay at hdelay
  split
  · omega
  · omega

/-- Giving up a context: the worker's own, or one that is closing already. -/
theorem inv_giveUp (h : RedisBase lcf w)
    (hcontext : ∀ c, w.context = some c → c.closing = true ∨ w.rc.ac = some c.id) :
    let w' := sentinelRedisScheduleReconnect (sentinelRedisTeardown w)
    RedisInv lcf w' ∧ w'.rc.timer.isSome :=
  inv_schedule (inv_teardown h hcontext)

/-- The worker's context is the one that hiredis has. -/
theorem RedisInv.context (h : RedisInv lcf w) {c : RedisAsyncContext} (hc : w.context = some c) :
    c.closing = true ∨ w.rc.ac = some c.id := by
  cases hac : w.rc.ac with
  | none => exact .inl (h.closing c hc hac)
  | some id =>
      obtain ⟨c', hc', hid⟩ := h.owner id hac
      rw [Option.some.inj (hc.symm.trans hc'), hid]
      exact .inr rfl

theorem inv_onDisconnect (h : RedisInv lcf w) (hclosing : w.closing = true) :
    RedisInv lcf (sentinelRedisOnDisconnect w) ∧
      (sentinelRedisOnDisconnect w).rc.timer.isSome := by
  refine inv_giveUp ⟨h.conf, h.backoff, h.chain, h.first⟩ fun c hc => .inl ?_
  rw [RedisWorld.closing, show w.context = some c from hc] at hclosing
  exact hclosing

theorem inv_authReply (h : RedisInv lcf w) (htimer : w.rc.timer.isSome) (reply : Option RedisReply)
    (hlog : RedisReply.refuses reply = false →
      ∀ c, w.context = some c → .authenticated c.id ∈ w.log) :
    RedisInv lcf (sentinelRedisAuthReply w reply) ∧
      (sentinelRedisAuthReply w reply).rc.timer.isSome := by
  simp only [sentinelRedisAuthReply]
  cases hrefuses : RedisReply.refuses reply with
  | true => exact inv_giveUp ⟨h.conf, h.backoff, h.chain, h.first⟩ fun c hc => h.context hc
  | false =>
      refine ⟨⟨⟨h.conf, h.backoff, h.chain, h.first⟩, h.down, h.owner, h.closing, h.failed, h.idle,
        nofun, ?_⟩, htimer⟩
      intro _ c hc _ _
      exact hlog hrefuses c hc

/-- A context that goes on from here has its `AUTH` outstanding, if there is one. -/
theorem inv_auth (h : RedisBase lcf w) (hstate : w.rc.state = .connecting) {id : Nat}
    (hac : w.rc.ac = some id) (hcontext : w.context = some ⟨id, false, false, []⟩)
    (io : RedisIo) :
    RedisInv lcf (redisAuth w io) ∧
      ((redisAuth w io).rc.state = .connecting ∨ (redisAuth w io).rc.timer.isSome) := by
  have hscans : w.scans = 0 := by
    rw [RedisWorld.scans, hcontext]
    rfl
  have hown : ∀ id', w.rc.ac = some id' → ∃ c, w.context = some c ∧ c.id = id' := by
    intro id' hid
    exact ⟨_, hcontext, Option.some.inj (hac.symm.trans hid)⟩
  have hsome : w.rc.ac ≠ none := by simp [hac]
  have hclosing : ∀ c, w.context = some c → w.rc.ac = none → c.closing = true :=
    fun _ _ hnone => absurd hnone hsome
  have hfailed : ∀ c, w.context = some c → c.closing = true → c.connected = false →
      w.rc.ac = none := by
    intro c hc hclosed
    rw [← Option.some.inj (hcontext.symm.trans hc)] at hclosed
    contradiction
  have hup : w.rc.state ≠ .down := by simp [hstate]
  simp only [redisAuth]
  split
  next hpassword =>
    -- the context is opened, and its `AUTH` is about to be issued
    have hinv : RedisInv lcf { w with rc := { w.rc with authPending := true } } := by
      refine ⟨⟨h.conf, h.backoff, h.chain, h.first⟩, ?_, hown, hclosing, hfailed, fun _ _ => hscans,
        fun _ => hscans, nofun⟩
      exact ⟨fun hdown => absurd hdown hup, fun hnone => absurd hnone hsome⟩
    have hcommand := inv_command hinv io.auth .auth (.auth w.rc.lcf.password) (.inr ⟨_, rfl⟩) nofun
    split
    · exact ⟨hcommand, .inl (by rw [redisAsyncCommand_rc]; exact hstate)⟩
    · exact And.imp_right .inr (inv_giveUp hcommand.toRedisBase fun c hc => hcommand.context hc)
  next hpassword =>
    have hempty : lcf.password = [] := by
      rw [← h.conf]
      exact List.length_eq_zero_iff.mp (by omega)
    refine ⟨⟨h, ?_, hown, hclosing, hfailed, fun _ _ => hscans, fun _ => hscans, ?_⟩, .inl hstate⟩
    · exact ⟨fun hdown => absurd hdown hup, fun hnone => absurd hnone hsome⟩
    · exact fun hpassword' => absurd hempty hpassword'

/-- An attempt ends in a context, or in the timer's being set for the next one. -/
theorem inv_connect (h : RedisInv lcf w) (hdown : w.rc.state = .down) (io : RedisIo) :
    let w' := sentinelRedisConnect w io
    RedisInv lcf w' ∧ (w'.rc.state = .connecting ∨ w'.rc.timer.isSome) := by
  simp only [sentinelRedisConnect, hdown, ne_eq, not_true, if_false]
  split
  · exact (inv_schedule h).imp_right .inr
  · split
    · refine And.imp_right .inr (inv_schedule ?_)
      refine inv_of_down ⟨h.conf, h.backoff, ?_, h.first⟩ rfl rfl ?_ ?_
      · exact (redisAsyncFree_scans (redisAsyncConnect w) w.opened).trans_le (Nat.zero_le 1)
      · exact fun _ => redisAsyncFree_scans (redisAsyncConnect w) w.opened
      · intro c hc
        obtain ⟨c', hc', -, -, -, hclosing⟩ :=
          redisAsyncFree_context (redisAsyncConnect w) w.opened hc
        refine hclosing.mpr (.inr ?_)
        exact Option.some.inj hc' ▸ rfl
    · refine inv_auth (w := { redisAsyncConnect w with
        rc := { (redisAsyncConnect w).rc with conn := true } })
        ⟨h.conf, h.backoff, ?_, h.first⟩ rfl rfl rfl io
      exact Nat.zero_le 1

end Lifecycle
section Work
variable {lcf : RedisConf} {w : RedisWorld}

/-- A `GET` or a `SET` leaves the worker's own record as it was. -/
theorem inv_request (h : RedisInv lcf w) (hready : w.rc.authPending = false) (ok : Bool)
    (fn : RedisCallback) (command : RedisCommand) (hfn : fn ≠ .scan) :
    let w' := (redisAsyncCommand w ok fn command).2
    RedisInv lcf w' ∧ w'.rc = w.rc ∧ w'.scans = w.scans := by
  refine ⟨inv_command h ok fn command (.inl hready) (fun hscan => absurd hscan hfn),
    redisAsyncCommand_rc w ok fn command, ?_⟩
  cases redisAsyncCommand_cases w ok fn command with
  | inl hrefused => rw [hrefused]
  | inr hissued =>
      obtain ⟨c, hcontext, -, -, hissued⟩ := hissued
      simp [hissued, RedisWorld.scans, hcontext, hfn]

/-- With no `SCAN` outstanding the chain may be marked either way. -/
theorem inv_pull (h : RedisInv lcf w) (hidle : w.scans = 0) (flight : Bool) (cursor : UInt64) :
    RedisInv lcf { w with
      rc := { w.rc with pullInflight := flight, scanCursor := cursor } } :=
  ⟨⟨h.conf, h.backoff, h.chain, h.first⟩, h.down, h.owner, h.closing, h.failed, fun _ _ => hidle,
    h.pending, h.authed⟩

theorem inv_pullStep (h : RedisInv lcf w) (hidle : w.scans = 0) (hready : w.rc.authPending = false)
    (hflight : w.rc.ac ≠ none → w.rc.pullInflight = true) (io : RedisIo) :
    let w' := sentinelRedisPullStep w io
    RedisInv lcf w' ∧ w'.rc.timer = w.rc.timer ∧ w'.rc.state = w.rc.state := by
  simp only [sentinelRedisPullStep]
  split
  · exact ⟨inv_pull h hidle false w.rc.scanCursor, rfl, rfl⟩
  next hup =>
    have hsome : w.rc.ac ≠ none := fun hnone => hup (.inl hnone)
    generalize RedisCommand.scan (ngxPrint w.rc.scanCursor.toNat)
      (redisPattern w.rc.lcf.keyPrefix io.stack) ngxSentinelRedisScanCount = command
    have hcommand := inv_command h io.scan .scan command (.inl hready)
      (fun _ => ⟨hidle, hflight hsome, hready⟩)
    cases redisAsyncCommand_cases w io.scan .scan command with
    | inl hrefused =>
        rw [hrefused]
        exact ⟨inv_pull h hidle false w.rc.scanCursor, rfl, rfl⟩
    | inr hissued =>
        obtain ⟨c, -, -, -, hissued⟩ := hissued
        rw [hissued] at hcommand ⊢
        exact ⟨hcommand, rfl, rfl⟩

theorem inv_scanKeys (plen : Nat) (io : RedisIo) (keys : List RedisReply) (i : Nat)
    (h : RedisInv lcf w) (hready : w.rc.authPending = false) :
    let w' := scanKeys plen io w i keys
    RedisInv lcf w' ∧ w'.rc = w.rc ∧ w'.scans = w.scans := by
  refine scanKeys_keeps (P := fun w' => RedisInv lcf w' ∧ w'.rc = w.rc ∧ w'.scans = w.scans) ?_
    plen io keys ⟨h, rfl, rfl⟩
  intro w₁ ok ipcopy key hkept
  obtain ⟨hinv, hrc, hscans⟩ := hkept
  have hready₁ : w₁.rc.authPending = false := by
    rw [hrc]
    exact hready
  obtain ⟨hinv', hrc', hscans'⟩ := inv_request hinv hready₁ ok (.get ipcopy) (.get key) nofun
  exact ⟨hinv', hrc'.trans hrc, hscans'.trans hscans⟩

/-- A reply to `SCAN` ends the chain, or its next `SCAN` is the only one. -/
theorem inv_scanReply (h : RedisInv lcf w) (hidle : w.scans = 0)
    (hready : w.rc.authPending = false) (hflight : w.rc.ac ≠ none → w.rc.pullInflight = true)
    (reply : Option RedisReply) (io : RedisIo) :
    let w' := sentinelRedisScanReply w reply io
    RedisInv lcf w' ∧ w'.rc.timer = w.rc.timer := by
  simp only [sentinelRedisScanReply]
  split
  next cur keys =>
    have hcursor := inv_pull h hidle w.rc.pullInflight cur.cursor
    obtain ⟨hinv, hrc, hscans⟩ := inv_scanKeys (redisPlen w.rc.lcf.keyPrefix) io keys.elements 0
      hcursor hready
    generalize scanKeys (redisPlen w.rc.lcf.keyPrefix) io
      { w with rc := { w.rc with scanCursor := cur.cursor } } 0 keys.elements = w'
      at hinv hrc hscans ⊢
    have htimer : w'.rc.timer = w.rc.timer := by rw [hrc]
    split
    · have hready' : w'.rc.authPending = false := by
        rw [hrc]
        exact hready
      have hflight' : w'.rc.ac ≠ none → w'.rc.pullInflight = true := by
        rw [hrc]
        exact hflight
      obtain ⟨hpull, htimer', -⟩ := inv_pullStep hinv (hscans.trans hidle) hready' hflight' io
      exact ⟨hpull, htimer'.trans htimer⟩
    · exact ⟨inv_pull hinv (hscans.trans hidle) false w'.rc.scanCursor, htimer⟩
  next => exact ⟨inv_pull h hidle false w.rc.scanCursor, rfl⟩

theorem inv_flushLoop (now : Nat) (command : Nat → Bool) (entries : List PushEntry) :
    ∀ (w : RedisWorld) (i : Nat), RedisInv lcf w → w.rc.authPending = false →
      let w' := flushLoop now command w i entries
      RedisInv lcf w' ∧ w'.rc = w.rc ∧ w'.scans = w.scans := by
  induction entries with
  | nil =>
      intro w i h _
      exact ⟨h, rfl, rfl⟩
  | cons e entries ih =>
      intro w i h hready
      simp only [flushLoop]
      split
      · exact ih w i h hready
      · obtain ⟨hset, hrc, hscans⟩ := inv_request h hready (command i) .set
          (.set (redisKey w.rc.lcf.keyPrefix e.ip) (redisValue e.action e.expiry.toNat)
            ((e.expiry - now).bmod (2 ^ 32))) nofun
        split
        · exact ⟨hset, hrc, hscans⟩
        · obtain ⟨hinv, hrc', hscans'⟩ := ih _ (i + 1) hset (by rw [hrc]; exact hready)
          exact ⟨hinv, hrc'.trans hrc, hscans'.trans hscans⟩

theorem inv_flushPush (h : RedisInv lcf w) (hready : w.rc.authPending = false) (now : Nat)
    (io : RedisIo) :
    let w' := sentinelRedisFlushPush w now io
    RedisInv lcf w' ∧ w'.rc = w.rc ∧ w'.scans = w.scans := by
  simp only [sentinelRedisFlushPush]
  split
  · exact ⟨h, rfl, rfl⟩
  · exact inv_flushLoop now io.command io.drained w 0 h hready

/-- A tick leaves a context, or the timer set for the next attempt. -/
theorem inv_tick (h : RedisInv lcf w) (now : Nat) (io : RedisIo) :
    let w' := redisTick w now io
    RedisInv lcf w' ∧ (w'.rc.state = .up ∨ w'.rc.state = .connecting ∨ w'.rc.timer.isSome) := by
  simp only [redisTick]
  cases hstate : w.rc.state with
  | down => exact And.imp_right .inr (inv_connect h hstate io)
  | connecting => exact ⟨h, .inr (.inl hstate)⟩
  | up =>
      dsimp only
      split
      · exact ⟨h, .inl hstate⟩
      next hauth =>
        have hready : w.rc.authPending = false := by simpa using hauth
        obtain ⟨hflush, hrc, -⟩ := inv_flushPush h hready now io
        generalize sentinelRedisFlushPush w now io = w' at hflush hrc ⊢
        have hup : w'.rc.state = .up := by
          rw [hrc]
          exact hstate
        split
        · exact ⟨hflush, .inl hup⟩
        next hflight =>
          have hsome : w'.rc.ac ≠ none := by
            intro hnone
            exact absurd (hup.symm.trans (hflush.down.mpr hnone)) (by simp)
          have hidle := hflush.idle hsome (by simpa using hflight)
          have hready' : w'.rc.authPending = false := by
            rw [hrc]
            exact hready
          obtain ⟨hpull, -, hstate'⟩ := inv_pullStep (inv_pull hflush hidle true 0) hidle hready'
            (fun _ => rfl) io
          exact ⟨hpull, .inl (hstate'.trans hup)⟩

theorem inv_timerHandler (h : RedisInv lcf w) (now : Nat) (io : RedisIo) :
    let w' := sentinelRedisTimerHandler w now io
    RedisInv lcf w' ∧ w'.rc.timer.isSome := by
  simp only [sentinelRedisTimerHandler]
  obtain ⟨htick, hset⟩ := inv_tick (inv_frame h none w.rc.conn w.sh) now io
  generalize redisTick { w with rc := { w.rc with timer := none } } now io = w' at htick hset ⊢
  split
  · exact ⟨inv_frame htick _ w'.rc.conn w'.sh, rfl⟩
  next hdown =>
    rw [not_or] at hdown
    exact ⟨htick, (hset.resolve_left hdown.1).resolve_left hdown.2⟩

end Work
section Step
variable {lcf : RedisConf} {w : RedisWorld}

/-- The oldest callback is taken off the list. -/
theorem inv_pop (h : RedisInv lcf w) {c : RedisAsyncContext} (hc : w.context = some c)
    {fn : RedisCallback} {rest : List RedisCallback} (hreplies : c.replies = fn :: rest) :
    let w' := { w with context := some { c with replies := rest } }
    RedisInv lcf w' ∧ (fn = .scan → w'.scans = 0 ∧ w.rc.authPending = false ∧
      (w.rc.ac ≠ none → w.rc.pullInflight = true)) := by
  intro w'
  have hscans : w.scans = w'.scans + if fn = .scan then 1 else 0 := by
    rw [RedisWorld.scans, hc]
    dsimp only
    rw [hreplies, List.count_cons]
    simp [RedisWorld.scans, w']
  have hchain := h.chain
  have hfield : ∀ {c₁}, w'.context = some c₁ → c₁.id = c.id ∧ c₁.closing = c.closing ∧
      c₁.connected = c.connected := by
    intro c₁ hc₁
    rw [← Option.some.inj hc₁]
    exact ⟨rfl, rfl, rfl⟩
  refine ⟨⟨⟨h.conf, h.backoff, by omega, h.first⟩, h.down, ?_, ?_, ?_, ?_, ?_, ?_⟩, ?_⟩
  · intro id hid
    obtain ⟨c', hc', hsame⟩ := h.owner id hid
    rw [← Option.some.inj (hc.symm.trans hc')] at hsame
    exact ⟨_, rfl, hsame⟩
  · intro c₁ hc₁ hnone
    rw [(hfield hc₁).2.1]
    exact h.closing c hc hnone
  · intro c₁ hc₁ hclosing hconnected
    rw [(hfield hc₁).2.1] at hclosing
    rw [(hfield hc₁).2.2] at hconnected
    exact h.failed c hc hclosing hconnected
  · intro hsome hflight
    have := h.idle hsome hflight
    omega
  · intro hpending
    have := h.pending hpending
    omega
  · intro hpassword c₁ hc₁ hopen hready
    rw [(hfield hc₁).2.1] at hopen
    rw [(hfield hc₁).1]
    exact h.authed hpassword c hc hopen hready
  · intro hfn
    rw [if_pos hfn] at hscans
    refine ⟨by omega, ?_, ?_⟩
    · cases hpending : w.rc.authPending with
      | false => rfl
      | true =>
          have := h.pending hpending
          omega
    · intro hsome
      cases hflight : w.rc.pullInflight with
      | true => rfl
      | false =>
          have := h.idle hsome hflight
          omega

theorem inv_authenticated (h : RedisInv lcf w) (id : Nat) :
    RedisInv lcf { w with log := w.log ++ [.authenticated id] } := by
  refine ⟨⟨h.conf, h.backoff, h.chain, ?_⟩, h.down, h.owner, h.closing, h.failed, h.idle, h.pending,
    ?_⟩
  · exact fun hpassword => authFirst_authenticated (h.first hpassword) id
  · intro hpassword c hc hopen hready
    exact List.mem_append_left _ (h.authed hpassword c hc hopen hready)

/-- A worker in the place of one that has died. -/
theorem inv_respawn (h : RedisInv lcf w) : RedisInv lcf w.respawn ∧ w.respawn.rc.timer.isSome :=
  ⟨inv_of_down ⟨h.conf, ⟨Nat.le_refl _, backoff_min_le_max⟩, Nat.zero_le 1, h.first⟩ rfl rfl
    (fun _ => rfl) nofun, rfl⟩

theorem inv_callback (ngx : NgxCore) (h : RedisInv lcf w) (htimer : w.rc.timer.isSome)
    {fn : RedisCallback} {reply : Option RedisReply}
    (hscan : fn = .scan → w.scans = 0 ∧ w.rc.authPending = false ∧
      (w.rc.ac ≠ none → w.rc.pullInflight = true))
    (hlog : fn = .auth → RedisReply.refuses reply = false →
      ∀ c, w.context = some c → .authenticated c.id ∈ w.log) (now : Nat) (io : RedisIo) :
    let w' := runCallback ngx w fn reply now io
    RedisInv lcf w' ∧ w'.rc.timer.isSome := by
  cases fn with
  | auth => exact inv_authReply h htimer reply (hlog rfl)
  | scan =>
      obtain ⟨hidle, hready, hflight⟩ := hscan rfl
      obtain ⟨hinv, hsame⟩ := inv_scanReply h hidle hready hflight reply io
      exact ⟨hinv, hsame ▸ htimer⟩
  | get ipcopy =>
      dsimp only
      cases runCallback_get ngx w ipcopy reply now io with
      | inl hstored =>
          obtain ⟨sh, hstored⟩ := hstored
          rw [hstored]
          exact ⟨inv_frame h w.rc.timer w.rc.conn sh, htimer⟩
      | inr hdied =>
          rw [hdied]
          exact inv_respawn h
  | set => exact ⟨h, htimer⟩

/-- hiredis marks the context of a connection that has failed. -/
theorem inv_close (h : RedisInv lcf w) {c : RedisAsyncContext} (hc : w.context = some c)
    (hconnected : c.connected = true) : RedisInv lcf (redisAsyncFree w c.id) := by
  have hback : ∀ {c₁}, (redisAsyncFree w c.id).context = some c₁ →
      c₁.id = c.id ∧ c₁.connected = true ∧ c₁.closing = true := by
    intro c₁ hc₁
    obtain ⟨c₂, hc₂, hid, hconnected', -, hclosing⟩ := redisAsyncFree_context w c.id hc₁
    rw [← Option.some.inj (hc.symm.trans hc₂)] at hid hconnected' hclosing
    exact ⟨hid, hconnected'.trans hconnected, hclosing.mpr (.inr rfl)⟩
  refine ⟨⟨h.conf, h.backoff, ?_, h.first⟩, h.down, ?_, ?_, ?_, ?_, ?_, ?_⟩
  · rw [redisAsyncFree_scans]
    exact h.chain
  · intro id hid
    obtain ⟨c', hc', hsame⟩ := h.owner id hid
    refine ⟨_, congrArg (Option.map _) hc', ?_⟩
    dsimp only
    split
    · exact hsame
    · exact hsame
  · exact fun c₁ hc₁ _ => (hback hc₁).2.2
  · intro c₁ hc₁ _ hnot
    exact absurd ((hback hc₁).2.1.symm.trans hnot) (by simp)
  · intro hsome hflight
    rw [redisAsyncFree_scans]
    exact h.idle hsome hflight
  · intro hpending
    rw [redisAsyncFree_scans]
    exact h.pending hpending
  · intro _ c₁ hc₁ hopen
    exact absurd ((hback hc₁).2.2.symm.trans hopen) (by simp)

theorem inv_connected (h : RedisInv lcf w) {c : RedisAsyncContext} (hc : w.context = some c)
    (hopen : c.closing = false) :
    RedisInv lcf (sentinelRedisOnConnect { w with context := some { c with connected := true } }
      true) := by
  have hac : w.rc.ac = some c.id := by
    refine (h.context hc).resolve_left fun hclosing => ?_
    exact absurd (hopen.symm.trans hclosing) (by simp)
  have hsome : w.rc.ac ≠ none := by simp [hac]
  have hscans : ∀ w' : RedisWorld, w'.context = some { c with connected := true } →
      w'.scans = w.scans := by
    intro w' hw'
    rw [RedisWorld.scans, RedisWorld.scans, hw', hc]
  rw [sentinelRedisOnConnect, if_pos rfl]
  refine ⟨⟨h.conf, ⟨Nat.le_refl _, backoff_min_le_max⟩, ?_, h.first⟩, ?_, ?_, ?_, ?_, ?_, ?_, ?_⟩
  · exact (hscans _ rfl).trans_le h.chain
  · exact ⟨nofun, fun hnone => absurd hnone hsome⟩
  · intro id hid
    exact ⟨_, rfl, Option.some.inj (hac.symm.trans hid)⟩
  · exact fun _ _ hnone => absurd hnone hsome
  · intro c₁ hc₁ hclosing
    rw [← Option.some.inj hc₁] at hclosing
    exact absurd (hopen.symm.trans hclosing) (by simp)
  · intro _ hflight
    exact (hscans _ rfl).trans (h.idle hsome hflight)
  · intro hpending
    exact (hscans _ rfl).trans (h.pending hpending)
  · intro hpassword c₁ hc₁ _ hready
    rw [← Option.some.inj hc₁]
    exact h.authed hpassword c hc hopen hready

theorem inv_refused (h : RedisInv lcf w) {c : RedisAsyncContext} (hc : w.context = some c) :
    let w' := redisAsyncFree (sentinelRedisOnConnect w false) c.id
    RedisInv lcf w' ∧ w'.rc.timer.isSome := by
  -- the handler has nothing to do with the context, so the mark may come before it
  have hbefore : redisAsyncFree (sentinelRedisOnConnect w false) c.id =
      sentinelRedisOnConnect (redisAsyncFree w c.id) false := by
    simp only [sentinelRedisOnConnect, sentinelRedisTeardown]
    cases hconn : w.rc.conn with
    | true => simp [redisAsyncFree, hconn, sentinelRedisScheduleReconnect, sentinelRedisEvCleanup]
    | false => simp [redisAsyncFree, hconn, sentinelRedisScheduleReconnect]
  dsimp only
  rw [hbefore]
  refine inv_giveUp ⟨h.conf, h.backoff, ?_, h.first⟩ fun c₁ hc₁ => .inl ?_
  · exact (redisAsyncFree_scans w c.id).trans_le h.chain
  · obtain ⟨c₂, hc₂, -, -, -, hclosing⟩ := redisAsyncFree_context w c.id hc₁
    rw [← Option.some.inj (hc.symm.trans hc₂)] at hclosing
    exact hclosing.mpr (.inr rfl)

theorem inv_step (ngx : NgxCore) (h : RedisInv lcf w) (htimer : w.rc.timer.isSome) {e : RedisEvent}
    (he : Deliverable w e) :
    let w' := redisStep ngx w e
    RedisInv lcf w' ∧ w'.rc.timer.isSome := by
  cases e with
  | timer now io => exact inv_timerHandler h now io
  | connect ok =>
      obtain ⟨c, hc, hopen, -⟩ := he
      cases ok with
      | true =>
          simp only [redisStep, hc]
          exact ⟨inv_connected h hc hopen, htimer⟩
      | false =>
          simp only [redisStep, hc]
          exact inv_refused h hc
  | reply r now io =>
      obtain ⟨c, hc, hopen, -, hne⟩ := he
      simp only [redisStep, hc]
      cases hreplies : c.replies with
      | nil => exact absurd hreplies hne
      | cons fn rest =>
          obtain ⟨hpop, hscan⟩ := inv_pop h hc hreplies
          dsimp only
          split
          · exact inv_callback ngx (inv_authenticated hpop c.id) htimer hscan (fun _ _ c₁ hc₁ => by
              rw [← Option.some.inj hc₁]
              exact List.mem_append_right _ List.mem_cons_self) now io
          next hnot =>
            exact inv_callback ngx hpop htimer hscan (fun hfn hanswer => absurd ⟨hfn, hanswer⟩ hnot)
              now io
  | close =>
      obtain ⟨c, hc, -, hconnected⟩ := he
      simp only [redisStep, hc]
      exact ⟨inv_close (inv_frame h w.rc.timer false w.sh) hc hconnected, htimer⟩
  | destroy now io =>
      cases hc : w.context with
      | none => simp [Deliverable, RedisWorld.closing, hc] at he
      | some c =>
          have hclosing : c.closing = true := by
            simpa [Deliverable, RedisWorld.closing, hc] using he
          simp only [redisStep, hc]
          cases hreplies : c.replies with
          | cons fn rest =>
              obtain ⟨hpop, hscan⟩ := inv_pop h hc hreplies
              exact inv_callback ngx hpop htimer hscan (fun _ hanswer => by contradiction) now io
          | nil =>
              -- nothing of the context is left but the disconnect callback
              have hdown := inv_frame h w.rc.timer false w.sh
              cases hconnected : c.connected with
              | false =>
                  have hac := h.failed c hc hclosing hconnected
                  exact ⟨inv_of_down ⟨h.conf, h.backoff, Nat.zero_le 1, h.first⟩ (h.down.mpr hac)
                    hac (fun _ => rfl) nofun, htimer⟩
              | true =>
                  obtain ⟨hinv, hset⟩ := inv_onDisconnect hdown he
                  exact ⟨inv_of_down ⟨hinv.conf, hinv.backoff, Nat.zero_le 1, hinv.first⟩ rfl rfl
                    (fun _ => rfl) nofun, hset⟩

end Step
section Run

theorem inv_init (lcf : RedisConf) (csZone : Option Zone) (push : Bool) (sh : Shctx) :
    RedisInv lcf (sentinelRedisInitProcess lcf csZone push sh) :=
  inv_of_down ⟨rfl, ⟨Nat.le_refl _, backoff_min_le_max⟩, Nat.zero_le 1, fun _ => authFirst_nil⟩ rfl
    rfl (fun _ => rfl) nofun

/-- Whatever hiredis delivers, the state is in step with the context, the timer is
set with a delay in bounds, one `SCAN` is outstanding at most, and nothing but
`AUTH` goes over a connection without the password's having been accepted. -/
theorem redis_connection_safe (ngx : NgxCore) (lcf : RedisConf) (csZone : Option Zone) (push : Bool)
    (sh : Shctx) (events : List RedisEvent)
    (h : Run.Along Deliverable (redisStep ngx) (sentinelRedisInitProcess lcf csZone push sh)
      events) :
    RedisSafe lcf
      (Run.exec (redisStep ngx) (sentinelRedisInitProcess lcf csZone push sh) events) := by
  obtain ⟨hinv, htimer⟩ :=
    Run.exec_invariant_along (I := fun w => RedisInv lcf w ∧ w.rc.timer.isSome)
      (fun _ _ he hw => inv_step ngx hw.1 hw.2 he) h ⟨inv_init lcf csZone push sh, rfl⟩
  exact ⟨hinv.down, htimer, hinv.backoff, hinv.chain, hinv.first⟩

/-- A ban goes out and one comes in, and the server closes the connection before
it has answered the `GET`. -/
def redisSession : List RedisEvent :=
  [.timer 100 (fineIo []), .connect true, .reply .other 100 (fineIo []),
    .timer 110 (fineIo [⟨str "1.2.3.4", 1, 500⟩]), .reply .other 110 (fineIo []),
    .reply (.array [.string (str "0"), .array [.string (str "sentinel:ban:5.6.7.8")]]) 110
      (fineIo []),
    .close, .destroy 110 (fineIo []), .destroy 110 (fineIo [])]

theorem redis_connection_safe_session :
    let lcf : RedisConf := ⟨str "secret", str "sentinel", 10⟩
    RedisSafe lcf (Run.exec (redisStep Ref.ngx)
      (sentinelRedisInitProcess lcf (some ⟨60, 60, 10⟩) true sentinelShmInitZone) redisSession) :=
  redis_connection_safe Ref.ngx _ _ true sentinelShmInitZone redisSession
    ⟨⟨rfl, rfl⟩, ⟨_, rfl, rfl, rfl⟩, ⟨_, rfl, rfl, rfl, nofun⟩, ⟨rfl, rfl⟩,
      ⟨_, rfl, rfl, rfl, nofun⟩, ⟨_, rfl, rfl, rfl, nofun⟩, ⟨_, rfl, rfl, rfl⟩, rfl, rfl, trivial⟩

end Run
end Sentinel
