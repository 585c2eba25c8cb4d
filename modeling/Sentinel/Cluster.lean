import Sentinel.BanLoop
import Sentinel.Lib.Pipeline
import Sentinel.RedisKeys
import Sentinel.RedisState
import Sentinel.ShmEvict
import Sentinel.SoftBan

/-!
Hosts that share their bans through one Redis server. A host has its zones and
its push ring, and some workers; a worker has a connection, over which commands
go out in order and replies come back in order. The server runs a connection's
commands at any later time, also after the connection is gone, and may refuse
them or lose keys; others may write keys of their own.

A worker takes entries from the ring one at a time, under the ring's mutex, and
issues them at its next tick. The source takes them within that tick; what may
come in between here is more than what can come in between there.
-/

namespace Sentinel
open Function

section Model
variable {ι : Type}

/-- The keys of a reply to `SCAN`. -/
def RedisReply.keys : RedisReply → List RedisReply
  | .array [_, keys] => keys.elements
  | _ => []

/-- The cursor and the keys are the server's choice when it runs a `SCAN`. -/
inductive ServerAnswer where
  | refuse (e : Bytes)
  | run (cursor : Bytes) (keys : List Bytes)

/-- The server, and what its documentation says of the commands: what it replies,
and what becomes of the keys. A key that is not there is answered with no string,
and a `SET` may come to nothing. -/
structure RedisServer where
  run : (Bytes → Option Bytes) → ServerAnswer → RedisCommand → RedisReply × (Bytes → Option Bytes)
  run_refuse : ∀ store e command, run store (.refuse e) command = (.error e, store)
  run_auth : ∀ store cursor keys password,
    (run store (.run cursor keys) (.auth password)).1.keys = [] ∧
      (run store (.run cursor keys) (.auth password)).2 = store
  run_scan : ∀ store cursor keys c pattern count,
    run store (.run cursor keys) (.scan c pattern count) =
      (.array [.string cursor, .array (keys.map .string)], store)
  run_get : ∀ store cursor keys key,
    run store (.run cursor keys) (.get key) = ((store key).elim .other .string, store)
  run_set : ∀ store cursor keys key value ttl,
    (run store (.run cursor keys) (.set key value ttl)).1.keys = [] ∧
      ((run store (.run cursor keys) (.set key value ttl)).2 = store ∨
        (run store (.run cursor keys) (.set key value ttl)).2 = update store key (some value))

section Server
variable {server : RedisServer} {store : Bytes → Option Bytes}

/-- Nothing but a `SCAN` gets keys for an answer. -/
theorem serverRun_keys {answer : ServerAnswer} {command : RedisCommand}
    (hscan : ∀ c pattern count, command ≠ .scan c pattern count) :
    (server.run store answer command).1.keys = [] := by
  cases answer with
  | refuse e =>
      rw [server.run_refuse]
      rfl
  | run cursor keys =>
      cases command with
      | auth password => exact (server.run_auth store cursor keys password).1
      | scan c pattern count => exact absurd rfl (hscan c pattern count)
      | get key =>
          rw [server.run_get]
          cases store key with
          | none => rfl
          | some value => rfl
      | set key value ttl => exact (server.run_set store cursor keys key value ttl).1

/-- Nothing but a `SET` that is run changes the keys. -/
theorem serverRun_store (server : RedisServer) (store : Bytes → Option Bytes)
    (answer : ServerAnswer) (command : RedisCommand) :
    (server.run store answer command).2 = store ∨
      ∃ key value ttl, command = .set key value ttl ∧
        (server.run store answer command).2 = update store key (some value) := by
  cases answer with
  | refuse e =>
      left
      rw [server.run_refuse]
  | run cursor keys =>
      cases command with
      | auth password => exact .inl (server.run_auth store cursor keys password).2
      | scan c pattern count =>
          left
          rw [server.run_scan]
      | get key =>
          left
          rw [server.run_get]
      | set key value ttl =>
          cases (server.run_set store cursor keys key value ttl).2 with
          | inl hsame => exact .inl hsame
          | inr hset => exact .inr ⟨key, value, ttl, rfl, hset⟩

/-- A key that is there comes back as a string. -/
theorem serverRun_get {cursor : Bytes} {keys : List Bytes} {key value : Bytes} :
    RedisReply.text (some (server.run store (.run cursor keys) (.get key)).1) = some value ↔
      store key = some value := by
  rw [server.run_get]
  cases store key with
  | none => exact iff_of_false nofun nofun
  | some value' => rfl

end Server

/-- Who runs where and under which directives; on a host, the segment of the
CrowdSec zone that Redis is bound to, and the number of the push ring. -/
structure ClusterConf (ι : Type) where
  server : RedisServer
  host : ι → Nat
  lcf : ι → RedisConf
  csZone : ι → Option Zone
  push : ι → Bool
  segment : Nat → Nat
  ring : Nat → Nat

/-- For each worker: its connection, what it has taken from the ring and not
issued, and for each of its connections how many commands the server has run and
which replies are on their way. For each host, its shared memory. And the keys of
the server. -/
structure Cluster (ι : Type) where
  worker : ι → RedisWorld
  taken : ι → List PushEntry
  served : ι → Nat → Nat
  inbox : ι → Nat → List RedisReply
  shared : Nat → Shared
  store : Bytes → Option Bytes

inductive ClusterEvent (ι : Type) where
  /-- A request passes through the phases up to preaccess on a host. -/
  | request (h : Nat) (lcf : RequestConf) (r : Request) (io : RequestIo) (early : Option Gather)
  /-- Another use of a host's CrowdSec zone. -/
  | call (h : Nat) (zone : Zone) (op : ZoneCall)
  | take (x : ι)
  | tick (x : ι) (now : Nat) (io : RedisIo)
  | connect (x : ι) (ok : Bool)
  | deliver (x : ι) (now : Nat) (io : RedisIo)
  | close (x : ι)
  | destroy (x : ι) (now : Nat) (io : RedisIo)
  /-- The worker dies, and another one takes its place. -/
  | respawn (x : ι)
  | serve (x : ι) (id : Nat) (answer : ServerAnswer)
  /-- A key runs out, is evicted or deleted. -/
  | vanish (key : Bytes)
  | foreign (key value : Bytes)

/-- The commands that have gone over a connection. -/
def issuedOn (id : Nat) (log : List RedisLog) : List RedisCommand :=
  log.filterMap fun
    | .issued i command => if i = id then some command else none
    | .authenticated _ => none

section Step
variable [DecidableEq ι] (pow : PowCore) (conf : ClusterConf ι) (s : Cluster ι)

/-- A worker as it finds the zone of its host. -/
def Cluster.world (x : ι) : RedisWorld :=
  { s.worker x with sh := (s.shared (conf.host x)).shm (conf.segment (conf.host x)) }

def Cluster.setZone (h : Nat) (sh : Shctx) : Cluster ι :=
  { s with
    shared := update s.shared h
      { s.shared h with shm := update (s.shared h).shm (conf.segment h) sh } }

/-- A worker's handler runs. -/
def Cluster.handle (x : ι) (e : RedisEvent) : Cluster ι :=
  let w := redisStep pow.toNgxCore (s.world conf x) e
  { s.setZone conf (conf.host x) w.sh with worker := update s.worker x w }

/-- The command that the server runs next on a connection. -/
def Cluster.next (x : ι) (id : Nat) : Option RedisCommand :=
  (issuedOn id (s.worker x).log)[s.served x id]?

def clusterStep : ClusterEvent ι → Cluster ι
  | .request h lcf r io early =>
      { s with shared := update s.shared h (requestPass pow lcf r io early (s.shared h)).2 }
  | .call h zone op =>
      s.setZone conf h (op.run pow.toNgxCore zone ((s.shared h).shm (conf.segment h)))
  | .take x =>
      let h := conf.host x
      let r := ((s.shared h).redisPush (conf.ring h)).take ngxSentinelRedisPushRing
      { s with
        taken := update s.taken x (s.taken x ++ r.1.toList)
        shared := update s.shared h
          { s.shared h with redisPush := update (s.shared h).redisPush (conf.ring h) r.2 } }
  | .tick x now io =>
      { s.handle pow conf x (.timer now { io with drained := s.taken x }) with
        taken := update s.taken x [] }
  | .connect x ok => s.handle pow conf x (.connect ok)
  | .deliver x now io =>
      match (s.worker x).context with
      | none => s
      | some c =>
          match s.inbox x c.id with
          | [] => s
          | r :: rest =>
              { s.handle pow conf x (.reply r now io) with
                inbox := update s.inbox x (update (s.inbox x) c.id rest) }
  | .close x => s.handle pow conf x .close
  | .destroy x now io => s.handle pow conf x (.destroy now io)
  | .respawn x =>
      let w := s.world conf x
      { s with
        worker := update s.worker x
          { sentinelRedisInitProcess (conf.lcf x) (conf.csZone x) (conf.push x) w.sh with
            opened := w.opened
            log := w.log }
        taken := update s.taken x [] }
  | .serve x id answer =>
      match s.next x id with
      | none => s
      | some command =>
          let r := conf.server.run s.store answer command
          { s with
            store := r.2
            served := update s.served x (update (s.served x) id (s.served x id + 1))
            inbox := update s.inbox x (update (s.inbox x) id (s.inbox x id ++ [r.1])) }
  | .vanish key => { s with store := update s.store key none }
  | .foreign key value => { s with store := update s.store key (some value) }

end Step

/-- Fresh hosts, workers that have just been started, and no keys. -/
def clusterStart (conf : ClusterConf ι) : Cluster ι where
  worker := fun x =>
    sentinelRedisInitProcess (conf.lcf x) (conf.csZone x) (conf.push x) sentinelShmInitZone
  taken := fun _ => []
  served := fun _ _ => 0
  inbox := fun _ _ => []
  shared := fun _ => freshShared
  store := fun _ => none

end Model
section Wire

theorem issuedOn_issued (id i : Nat) (log : List RedisLog) (command : RedisCommand) :
    issuedOn id (log ++ [.issued i command]) =
      issuedOn id log ++ if i = id then [command] else [] := by
  rw [issuedOn, List.filterMap_append]
  split
  next h => simp [issuedOn, h]
  next h => simp [issuedOn, h]

theorem issuedOn_authenticated (id i : Nat) (log : List RedisLog) :
    issuedOn id (log ++ [.authenticated i]) = issuedOn id log := by
  simp [issuedOn]

theorem mem_issuedOn {id : Nat} {log : List RedisLog} {command : RedisCommand} :
    command ∈ issuedOn id log ↔ .issued id command ∈ log := by
  simp only [issuedOn, List.mem_filterMap]
  constructor
  · intro ⟨entry, hentry, hcommand⟩
    cases entry with
    | authenticated i => contradiction
    | issued i command' =>
        simp only [Option.ite_none_right_eq_some, Option.some.injEq] at hcommand
        obtain ⟨rfl, rfl⟩ := hcommand
        exact hentry
  · intro hissued
    exact ⟨_, hissued, by simp⟩

/-- A worker's side of its connections is in step with the server's: what the
calls of the open context wait for is on its way in one direction or the other. -/
structure Wired (asks : RedisCallback → RedisCommand → Prop)
    (answers : RedisCallback → RedisReply → Prop) (Sent : RedisCommand → Prop) (lcf : RedisConf)
    (csZone : Option Zone) (w : RedisWorld) (served : Nat → Nat) (inbox : Nat → List RedisReply) :
    Prop where
  conf : w.rc.lcf = lcf ∧ w.rc.csZone = csZone
  opened : ∀ id command, .issued id command ∈ w.log → id < w.opened
  context : ∀ c, w.context = some c → c.id < w.opened
  sent : ∀ id command, .issued id command ∈ w.log → Sent command
  counted : ∀ id, (inbox id).length ≤ served id ∧ served id ≤ (issuedOn id w.log).length
  matched : ∀ c, w.context = some c → c.closing = false →
    Pipeline.Matched asks answers c.replies (inbox c.id)
      ((issuedOn c.id w.log).drop (served c.id))

/-- What a worker under `lcf` issues is what its calls ask for, and may be sent;
`Holds` is what is known of the entries that it has taken. -/
structure Licensed (asks : RedisCallback → RedisCommand → Prop)
    (answers : RedisCallback → RedisReply → Prop) (Sent : RedisCommand → Prop) (lcf : RedisConf)
    (Holds : PushEntry → Prop) : Prop where
  auth : ∀ password, asks .auth (.auth password) ∧ Sent (.auth password)
  scan : ∀ cursor stack count,
    let command := RedisCommand.scan cursor (redisPattern lcf.keyPrefix stack) count
    asks .scan command ∧ Sent command
  get : ∀ r k ipcopy, answers .scan r → .string k ∈ r.keys →
    redisKeyIp (redisPlen lcf.keyPrefix) k = some ipcopy →
      asks (.get ipcopy) (.get (cString k)) ∧ Sent (.get (cString k))
  set : ∀ e ttl, Holds e → 0 < e.ip.length → e.ip.length < ngxSockaddrStrlen →
    let command := RedisCommand.set (redisKey lcf.keyPrefix e.ip)
      (redisValue e.action e.expiry.toNat) ttl
    asks .set command ∧ Sent command

section Handlers
variable {asks : RedisCallback → RedisCommand → Prop}
  {answers : RedisCallback → RedisReply → Prop} {Sent : RedisCommand → Prop} {lcf : RedisConf}
  {csZone : Option Zone} {w w' : RedisWorld} {served : Nat → Nat}
  {inbox : Nat → List RedisReply} {Holds : PushEntry → Prop}

/-- Nothing is said of the worker's own record but its configuration. -/
theorem Wired.congr (h : Wired asks answers Sent lcf csZone w served inbox)
    (hconf : w'.rc.lcf = w.rc.lcf ∧ w'.rc.csZone = w.rc.csZone) (hlog : w'.log = w.log)
    (hcontext : w'.context = w.context) (hopened : w'.opened = w.opened) :
    Wired asks answers Sent lcf csZone w' served inbox := by
  refine ⟨⟨hconf.1.trans h.conf.1, hconf.2.trans h.conf.2⟩, ?_, ?_, ?_, ?_, ?_⟩
  · rw [hlog, hopened]
    exact h.opened
  · rw [hcontext, hopened]
    exact h.context
  · rw [hlog]
    exact h.sent
  · rw [hlog]
    exact h.counted
  · rw [hlog, hcontext]
    exact h.matched

theorem wired_command (h : Wired asks answers Sent lcf csZone w served inbox) (ok : Bool)
    {fn : RedisCallback} {command : RedisCommand} (hmay : asks fn command ∧ Sent command) :
    Wired asks answers Sent lcf csZone (redisAsyncCommand w ok fn command).2 served inbox := by
  cases redisAsyncCommand_cases w ok fn command with
  | inl hrefused =>
      rw [hrefused]
      exact h
  | inr hissued =>
      obtain ⟨c, hcontext, -, hopen, hissued⟩ := hissued
      rw [hissued]
      refine ⟨h.conf, ?_, ?_, ?_, ?_, ?_⟩
      · intro id command' hmem
        cases List.mem_append.mp hmem with
        | inl hbefore => exact h.opened id command' hbefore
        | inr hlast =>
            simp only [List.mem_singleton, RedisLog.issued.injEq] at hlast
            rw [hlast.1]
            exact h.context c hcontext
      · intro c' hc'
        rw [← Option.some.inj hc']
        exact h.context c hcontext
      · intro id command' hmem
        cases List.mem_append.mp hmem with
        | inl hbefore => exact h.sent id command' hbefore
        | inr hlast =>
            simp only [List.mem_singleton, RedisLog.issued.injEq] at hlast
            rw [hlast.2]
            exact hmay.2
      · intro id
        rw [issuedOn_issued, List.length_append]
        have := h.counted id
        omega
      · intro c' hc' _
        rw [← Option.some.inj hc']
        simp only [issuedOn_issued, if_true]
        rw [List.drop_append_of_le_length (h.counted c.id).2]
        exact (h.matched c hcontext hopen).issue hmay.1

theorem wired_free (h : Wired asks answers Sent lcf csZone w served inbox) (id : Nat) :
    Wired asks answers Sent lcf csZone (redisAsyncFree w id) served inbox := by
  refine ⟨h.conf, h.opened, ?_, h.sent, h.counted, ?_⟩
  · intro c hc
    obtain ⟨c', hc', hid, -⟩ := redisAsyncFree_context w id hc
    rw [hid]
    exact h.context c' hc'
  · intro c hc hopen
    obtain ⟨c', hc', hid, -, hreplies, hclosing⟩ := redisAsyncFree_context w id hc
    have hopen' : c'.closing = false := by
      cases hc'closing : c'.closing with
      | false => rfl
      | true => exact absurd (hopen.symm.trans (hclosing.mpr (.inl hc'closing))) (by simp)
    rw [hid, hreplies]
    exact h.matched c' hc' hopen'

theorem Wired.gone (h : Wired asks answers Sent lcf csZone w served inbox) :
    Wired asks answers Sent lcf csZone { w with context := none } served inbox :=
  ⟨h.conf, h.opened, fun c hc => absurd hc (by simp), h.sent, h.counted,
    fun c hc => absurd hc (by simp)⟩

/-- Of a connection that has not been there nothing has come. -/
theorem Wired.fresh (h : Wired asks answers Sent lcf csZone w served inbox) :
    issuedOn w.opened w.log = [] ∧ inbox w.opened = [] := by
  have hnone : issuedOn w.opened w.log = [] := by
    rw [List.eq_nil_iff_forall_not_mem]
    intro command hmem
    exact Nat.lt_irrefl _ (h.opened _ _ (mem_issuedOn.mp hmem))
  have hserved := h.counted w.opened
  rw [hnone, List.length_nil] at hserved
  exact ⟨hnone, List.length_eq_zero_iff.mp (by omega)⟩

theorem wired_asyncConnect (h : Wired asks answers Sent lcf csZone w served inbox) :
    Wired asks answers Sent lcf csZone (redisAsyncConnect w) served inbox := by
  refine ⟨h.conf, ?_, ?_, h.sent, h.counted, ?_⟩
  · exact fun id command hmem => Nat.lt_succ_of_lt (h.opened id command hmem)
  · intro c hc
    rw [← Option.some.inj hc]
    exact Nat.lt_succ_self _
  · intro c hc _
    rw [← Option.some.inj hc]
    simp only [redisAsyncConnect, h.fresh.1, h.fresh.2, List.drop_nil]
    exact Pipeline.matched_nil asks answers

theorem wired_teardown (h : Wired asks answers Sent lcf csZone w served inbox) :
    Wired asks answers Sent lcf csZone (sentinelRedisTeardown w) served inbox := by
  simp only [sentinelRedisTeardown]
  cases w.rc.ac with
  | some id =>
      apply wired_free
      exact h.congr ⟨rfl, rfl⟩ rfl rfl rfl
  | none =>
      dsimp only
      split
      · exact h.congr ⟨rfl, rfl⟩ rfl rfl rfl
      · exact h.congr ⟨rfl, rfl⟩ rfl rfl rfl

theorem wired_giveUp (h : Wired asks answers Sent lcf csZone w served inbox) :
    Wired asks answers Sent lcf csZone
      (sentinelRedisScheduleReconnect (sentinelRedisTeardown w)) served inbox :=
  (wired_teardown h).congr ⟨rfl, rfl⟩ rfl rfl rfl

theorem wired_redisConnect (h : Wired asks answers Sent lcf csZone w served inbox)
    (hlicensed : Licensed asks answers Sent lcf Holds) (io : RedisIo) :
    Wired asks answers Sent lcf csZone (sentinelRedisConnect w io) served inbox := by
  have hconnect := wired_asyncConnect h
  simp only [sentinelRedisConnect]
  split
  · exact h
  · split
    · exact h.congr ⟨rfl, rfl⟩ rfl rfl rfl
    · split
      · exact (wired_free hconnect w.opened).congr ⟨rfl, rfl⟩ rfl rfl rfl
      · simp only [redisAuth]
        split
        · have hcommand := wired_command (w := { redisAsyncConnect w with
              rc := { (redisAsyncConnect w).rc with conn := true, authPending := true } })
            (hconnect.congr ⟨rfl, rfl⟩ rfl rfl rfl) io.auth
            (hlicensed.auth (redisAsyncConnect w).rc.lcf.password)
          split
          · exact hcommand
          · exact wired_giveUp hcommand
        · exact hconnect.congr ⟨rfl, rfl⟩ rfl rfl rfl

theorem wired_pullStep (h : Wired asks answers Sent lcf csZone w served inbox)
    (hlicensed : Licensed asks answers Sent lcf Holds) (io : RedisIo) :
    Wired asks answers Sent lcf csZone (sentinelRedisPullStep w io) served inbox := by
  have hcommand := wired_command h io.scan (h.conf.1 ▸ hlicensed.scan
    (ngxPrint w.rc.scanCursor.toNat) io.stack ngxSentinelRedisScanCount)
  simp only [sentinelRedisPullStep]
  split
  · exact h.congr ⟨rfl, rfl⟩ rfl rfl rfl
  · split
    · exact hcommand
    · exact hcommand.congr ⟨rfl, rfl⟩ rfl rfl rfl

theorem wired_scanKeys (plen : Nat) (io : RedisIo) (keys : List RedisReply) :
    ∀ {w : RedisWorld} (i : Nat), Wired asks answers Sent lcf csZone w served inbox →
      (∀ k ipcopy, .string k ∈ keys → redisKeyIp plen k = some ipcopy →
        asks (.get ipcopy) (.get (cString k)) ∧ Sent (.get (cString k))) →
      Wired asks answers Sent lcf csZone (scanKeys plen io w i keys) served inbox := by
  induction keys with
  | nil => exact fun _ h _ => h
  | cons k keys ih =>
      intro w i h hget
      have hrest := fun k' ipcopy (hk' : .string k' ∈ keys) =>
        hget k' ipcopy (List.mem_cons_of_mem k hk')
      cases k with
      | string k =>
          simp only [scanKeys]
          cases hip : redisKeyIp plen k with
          | none => exact ih (i + 1) h hrest
          | some ipcopy =>
              dsimp only
              split
              · exact ih (i + 1) h hrest
              · apply ih (i + 1) _ hrest
                exact wired_command h (io.command i) (hget k ipcopy List.mem_cons_self hip)
      | error e => exact ih (i + 1) h hrest
      | array elements => exact ih (i + 1) h hrest
      | other => exact ih (i + 1) h hrest

theorem wired_scanReply (h : Wired asks answers Sent lcf csZone w served inbox)
    (hlicensed : Licensed asks answers Sent lcf Holds) (reply : Option RedisReply)
    (hreply : ∀ r, reply = some r → answers .scan r) (io : RedisIo) :
    Wired asks answers Sent lcf csZone (sentinelRedisScanReply w reply io) served inbox := by
  simp only [sentinelRedisScanReply]
  split
  next cur keys =>
    have hasked := wired_scanKeys (w := { w with rc := { w.rc with scanCursor := cur.cursor } })
      (redisPlen w.rc.lcf.keyPrefix) io keys.elements 0 (h.congr ⟨rfl, rfl⟩ rfl rfl rfl)
      (fun k ipcopy hk hip => hlicensed.get _ k ipcopy (hreply _ rfl) hk (h.conf.1 ▸ hip))
    split
    · exact wired_pullStep hasked hlicensed io
    · exact hasked.congr ⟨rfl, rfl⟩ rfl rfl rfl
  next => exact h.congr ⟨rfl, rfl⟩ rfl rfl rfl

theorem wired_flushLoop (hlicensed : Licensed asks answers Sent lcf Holds) (now : Nat)
    (command : Nat → Bool) (entries : List PushEntry) (hentries : ∀ e ∈ entries, Holds e) :
    ∀ {w : RedisWorld} (i : Nat), Wired asks answers Sent lcf csZone w served inbox →
      Wired asks answers Sent lcf csZone (flushLoop now command w i entries) served inbox := by
  induction entries with
  | nil => exact fun _ h => h
  | cons e entries ih =>
      intro w i h
      have hheld := fun e' he' => hentries e' (List.mem_cons_of_mem e he')
      simp only [flushLoop]
      split
      · exact ih hheld i h
      next hvalid =>
        simp only [not_or] at hvalid
        have hset := wired_command h (command i) (h.conf.1 ▸ hlicensed.set e
          ((e.expiry - now).bmod (2 ^ 32)) (hentries e List.mem_cons_self) (by omega) (by omega))
        split
        · exact hset
        · exact ih hheld (i + 1) hset

theorem wired_timerHandler (h : Wired asks answers Sent lcf csZone w served inbox)
    (hlicensed : Licensed asks answers Sent lcf Holds) (now : Nat) (io : RedisIo)
    (hdrained : ∀ e ∈ io.drained, Holds e) :
    Wired asks answers Sent lcf csZone (sentinelRedisTimerHandler w now io) served inbox := by
  have hset : Wired asks answers Sent lcf csZone { w with rc := { w.rc with timer := none } }
      served inbox := h.congr ⟨rfl, rfl⟩ rfl rfl rfl
  have htick : Wired asks answers Sent lcf csZone
      (redisTick { w with rc := { w.rc with timer := none } } now io) served inbox := by
    generalize { w with rc := { w.rc with timer := none } } = w₁ at hset
    simp only [redisTick]
    cases w₁.rc.state with
    | down => exact wired_redisConnect hset hlicensed io
    | connecting => exact hset
    | up =>
        have hflush : Wired asks answers Sent lcf csZone (sentinelRedisFlushPush w₁ now io) served
            inbox := by
          simp only [sentinelRedisFlushPush]
          split
          · exact hset
          · exact wired_flushLoop hlicensed now io.command io.drained hdrained 0 hset
        dsimp only
        split
        · exact hset
        · split
          · exact hflush
          · apply wired_pullStep _ hlicensed io
            exact hflush.congr ⟨rfl, rfl⟩ rfl rfl rfl
  simp only [sentinelRedisTimerHandler]
  split
  · exact htick.congr ⟨rfl, rfl⟩ rfl rfl rfl
  · exact htick

theorem wired_callback (ngx : NgxCore) (h : Wired asks answers Sent lcf csZone w served inbox)
    (hlicensed : Licensed asks answers Sent lcf Holds) {fn : RedisCallback}
    {reply : Option RedisReply} (hreply : ∀ r, reply = some r → answers fn r) (now : Nat)
    (io : RedisIo) :
    Wired asks answers Sent lcf csZone (runCallback ngx w fn reply now io) served inbox := by
  cases fn with
  | auth =>
      simp only [runCallback, sentinelRedisAuthReply]
      have hpending : Wired asks answers Sent lcf csZone
          { w with rc := { w.rc with authPending := false } } served inbox :=
        h.congr ⟨rfl, rfl⟩ rfl rfl rfl
      split
      · exact wired_giveUp hpending
      · exact hpending
  | scan => exact wired_scanReply h hlicensed reply hreply io
  | get ipcopy =>
      cases runCallback_get ngx w ipcopy reply now io with
      | inl hstored =>
          obtain ⟨sh, hstored⟩ := hstored
          rw [hstored]
          exact h.congr ⟨rfl, rfl⟩ rfl rfl rfl
      | inr hdied =>
          rw [hdied]
          exact h.gone.congr ⟨rfl, rfl⟩ rfl rfl rfl
  | set => exact h

/-- The oldest call of a context that is open gets its reply. -/
theorem wired_reply (ngx : NgxCore) (h : Wired asks answers Sent lcf csZone w served inbox)
    (hlicensed : Licensed asks answers Sent lcf Holds) {c : RedisAsyncContext}
    (hc : w.context = some c) (hopen : c.closing = false) {r : RedisReply}
    {rest : List RedisReply} (hinbox : inbox c.id = r :: rest) (now : Nat) (io : RedisIo) :
    Wired asks answers Sent lcf csZone (redisStep ngx w (.reply r now io)) served
      (update inbox c.id rest) := by
  have hmatched := h.matched c hc hopen
  rw [hinbox] at hmatched
  obtain ⟨fn, calls, hreplies, hanswer, hrest⟩ := hmatched.deliver
  simp only [redisStep, hc, hreplies]
  have hcounted : ∀ id, (update inbox c.id rest id).length ≤ served id ∧
      served id ≤ (issuedOn id w.log).length := by
    intro id
    have hbefore := h.counted id
    by_cases hid : id = c.id
    · subst hid
      rw [hinbox, List.length_cons] at hbefore
      rw [update_self]
      omega
    · rw [update_of_ne hid]
      exact hbefore
  have hpopped : Wired asks answers Sent lcf csZone
      { w with context := some { c with replies := calls } } served (update inbox c.id rest) := by
    refine ⟨h.conf, h.opened, ?_, h.sent, hcounted, ?_⟩
    · intro c' hc'
      rw [← Option.some.inj hc']
      exact h.context c hc
    · intro c' hc' _
      rw [← Option.some.inj hc']
      dsimp only
      rw [update_self]
      exact hrest
  refine wired_callback ngx ?_ hlicensed (fun r' hr' => Option.some.inj hr' ▸ hanswer) now io
  split
  · refine ⟨hpopped.conf, ?_, hpopped.context, ?_, ?_, ?_⟩
    · intro id command hmem
      exact hpopped.opened id command (by simpa using hmem)
    · intro id command hmem
      exact hpopped.sent id command (by simpa using hmem)
    · intro id
      rw [issuedOn_authenticated]
      exact hcounted id
    · intro c' hc' hopen'
      rw [issuedOn_authenticated]
      exact hpopped.matched c' hc' hopen'
  · exact hpopped

/-- Whatever else happens to a worker. -/
theorem wired_step (ngx : NgxCore) (h : Wired asks answers Sent lcf csZone w served inbox)
    (hlicensed : Licensed asks answers Sent lcf Holds) {e : RedisEvent} (he : Deliverable w e)
    (hreply : ∀ r now io, e ≠ .reply r now io)
    (hdrained : ∀ now io, e = .timer now io → ∀ d ∈ io.drained, Holds d) :
    Wired asks answers Sent lcf csZone (redisStep ngx w e) served inbox := by
  cases e with
  | reply r now io => exact absurd rfl (hreply r now io)
  | timer now io => exact wired_timerHandler h hlicensed now io (hdrained now io rfl)
  | connect ok =>
      obtain ⟨c, hc, hopen, -⟩ := he
      cases ok with
      | true =>
          simp only [redisStep, hc, sentinelRedisOnConnect, if_true]
          refine ⟨h.conf, h.opened, ?_, h.sent, h.counted, ?_⟩
          · intro c' hc'
            rw [← Option.some.inj hc']
            exact h.context c hc
          · intro c' hc' _
            rw [← Option.some.inj hc']
            exact h.matched c hc hopen
      | false =>
          simp only [redisStep, hc, sentinelRedisOnConnect, Bool.false_eq_true, if_false]
          apply wired_free
          exact wired_giveUp (h.congr ⟨rfl, rfl⟩ rfl hc.symm rfl)
  | close =>
      obtain ⟨c, hc, -⟩ := he
      simp only [redisStep, hc]
      apply wired_free
      exact h.congr ⟨rfl, rfl⟩ rfl rfl rfl
  | destroy now io =>
      cases hc : w.context with
      | none => simp [Deliverable, RedisWorld.closing, hc] at he
      | some c =>
          have hclosing : c.closing = true := by
            simpa [Deliverable, RedisWorld.closing, hc] using he
          simp only [redisStep, hc]
          cases hreplies : c.replies with
          | cons fn rest =>
              refine wired_callback ngx ?_ hlicensed (fun r hr => absurd hr (by simp)) now io
              refine ⟨h.conf, h.opened, ?_, h.sent, h.counted, ?_⟩
              · intro c' hc'
                rw [← Option.some.inj hc']
                exact h.context c hc
              · intro c' hc' hopen
                rw [← Option.some.inj hc'] at hopen
                exact absurd (hclosing.symm.trans hopen) (by simp)
          | nil =>
              apply Wired.gone
              have hcleanup : Wired asks answers Sent lcf csZone (sentinelRedisEvCleanup w) served
                  inbox := h.congr ⟨rfl, rfl⟩ rfl rfl rfl
              split
              · exact wired_giveUp (hcleanup.congr ⟨rfl, rfl⟩ rfl rfl rfl)
              · exact hcleanup

end Handlers
end Wire
end Sentinel
