import Sentinel.PushRing
import Sentinel.Pow
import Sentinel.Sources

/-!
One worker's connection to Redis, `sentinel_redis.c`, and what hiredis does with
it. What hiredis decides is given: whether it takes a command, which reply comes
and when, whether and when the connection fails. The rest is documented: it runs
a callback per reply, in the order of the commands. A context that fails, or that
a callback frees, is destroyed when the callback is over: its outstanding
callbacks get no reply, the event hooks are taken down, and the disconnect
callback runs if the context was connected. Nothing else of the worker runs in
between.

Left out: shutdown, the log lines, and the read and write events, which only
hand on to hiredis.
-/

namespace Sentinel

section Types

/-- `redisReply`. An array's element that is `NULL` is of an other type. -/
inductive RedisReply where
  | string (s : Bytes)
  | error (s : Bytes)
  | array (elements : List RedisReply)
  | other

inductive RedisCommand where
  | auth (password : Bytes)
  | scan (cursor pattern : Bytes) (count : Nat)
  | get (key : Bytes)
  | set (key value : Bytes) (ttl : Int)
  deriving DecidableEq, Repr

/-- A callback with its `privdata`. -/
inductive RedisCallback where
  | auth
  | scan
  | get (ipcopy : Bytes)
  | set
  deriving DecidableEq, Repr

inductive SentinelRedisState where
  | down | connecting | up
  deriving DecidableEq, Repr

structure RedisConf where
  password : Bytes
  keyPrefix : Bytes
  interval : Nat
  deriving DecidableEq, Repr

/-- `sentinel_redis_ctx_t`. The timer is the delay it is armed with, the
connection is whether there is one, and a context goes by a number. The zone is
`none` where no segment is attached to it. -/
structure SentinelRedisCtx where
  timer : Option Nat
  lcf : RedisConf
  csZone : Option Zone
  push : Bool
  ac : Option Nat
  conn : Bool
  state : SentinelRedisState
  backoff : Nat
  scanCursor : UInt64
  pullInflight : Bool
  authPending : Bool
  deriving DecidableEq, Repr

/-- `redisAsyncContext`: `closing` is `REDIS_DISCONNECTING` or `REDIS_FREEING`. -/
structure RedisAsyncContext where
  id : Nat
  connected : Bool
  closing : Bool
  replies : List RedisCallback
  deriving DecidableEq, Repr

/-- What has gone over the connections. -/
inductive RedisLog where
  | issued (id : Nat) (command : RedisCommand)
  | authenticated (id : Nat)
  deriving DecidableEq, Repr

/-- The worker, the context that hiredis has, and the CrowdSec zone. -/
structure RedisWorld where
  rc : SentinelRedisCtx
  context : Option RedisAsyncContext
  opened : Nat
  sh : Shctx
  log : List RedisLog

/-- What the handlers ask of hiredis, of the allocators and of the ring. Calls
that a handler makes in a loop are numbered; `stack` is the memory behind the
buffer of the pattern. -/
structure RedisIo where
  opens : Bool
  attaches : Bool
  auth : Bool
  scan : Bool
  command : Nat → Bool
  alloc : Nat → Bool
  slab : Bool
  drained : List PushEntry
  stack : Bytes

/-- Everything works. -/
def fineIo (drained : List PushEntry) : RedisIo :=
  ⟨true, true, true, true, fun _ => true, fun _ => true, true, drained, []⟩

def ngxSentinelRedisBackoffMinMs : Nat := 500
def ngxSentinelRedisBackoffMaxMs : Nat := 30000
def ngxSentinelRedisScanCount : Nat := 256

/-- The buffers of the pattern and of a key. -/
def sentinelRedisKeyLen : Nat := ngxSockaddrStrlen + 64

end Types
section Hiredis

/-- `redisAsyncCommand` on `rc->ac`, which a context that is closing refuses; of one
that is open, `ok` is the answer. -/
def redisAsyncCommand (w : RedisWorld) (ok : Bool) (fn : RedisCallback) (command : RedisCommand) :
    Bool × RedisWorld :=
  match w.context with
  | none => (false, w)
  | some c =>
      if w.rc.ac = some c.id ∧ c.closing = false ∧ ok then
        (true, { w with
          context := some { c with replies := c.replies ++ [fn] }
          log := w.log ++ [.issued c.id command] })
      else (false, w)

/-- A command is refused, or it is the last one of the worker's own context. -/
theorem redisAsyncCommand_cases (w : RedisWorld) (ok : Bool) (fn : RedisCallback)
    (command : RedisCommand) :
    redisAsyncCommand w ok fn command = (false, w) ∨
      ∃ c, w.context = some c ∧ w.rc.ac = some c.id ∧ c.closing = false ∧
        redisAsyncCommand w ok fn command = (true, { w with
          context := some { c with replies := c.replies ++ [fn] }
          log := w.log ++ [.issued c.id command] }) := by
  rw [redisAsyncCommand]
  cases hcontext : w.context with
  | none => exact .inl rfl
  | some c =>
      dsimp only
      by_cases hopen : w.rc.ac = some c.id ∧ c.closing = false ∧ ok = true
      · rw [if_pos hopen]
        exact .inr ⟨c, rfl, hopen.1, hopen.2.1, rfl⟩
      · rw [if_neg hopen]
        exact .inl rfl

@[simp] theorem redisAsyncCommand_rc (w : RedisWorld) (ok : Bool) (fn : RedisCallback)
    (command : RedisCommand) : (redisAsyncCommand w ok fn command).2.rc = w.rc := by
  cases redisAsyncCommand_cases w ok fn command with
  | inl hrefused => rw [hrefused]
  | inr hissued =>
      obtain ⟨c, -, -, -, hissued⟩ := hissued
      rw [hissued]

/-- The context is destroyed when the handler is over. Where no callback is
running hiredis does it at once; the only contexts that are freed so have
neither outstanding callbacks nor a connection. A context that fails gets a mark
of the same effect. -/
def redisAsyncFree (w : RedisWorld) (id : Nat) : RedisWorld :=
  { w with context := w.context.map fun c => if c.id = id then { c with closing := true } else c }

end Hiredis
section Lifecycle

def sentinelRedisEvCleanup (w : RedisWorld) : RedisWorld :=
  { w with rc := { w.rc with conn := false } }

def sentinelRedisTeardown (w : RedisWorld) : RedisWorld :=
  let rc := { w.rc with
    state := .down, pullInflight := false, authPending := false, scanCursor := 0 }
  match rc.ac with
  | some id => redisAsyncFree { w with rc := { rc with ac := none } } id
  | none => if rc.conn then sentinelRedisEvCleanup { w with rc } else { w with rc }

def sentinelRedisScheduleReconnect (w : RedisWorld) : RedisWorld :=
  let backoff := if w.rc.backoff < ngxSentinelRedisBackoffMinMs then ngxSentinelRedisBackoffMinMs
    else w.rc.backoff
  { w with
    rc := { w.rc with
      timer := some backoff
      backoff := if backoff * 2 > ngxSentinelRedisBackoffMaxMs then ngxSentinelRedisBackoffMaxMs
        else backoff * 2 } }

def sentinelRedisOnConnect (w : RedisWorld) (ok : Bool) : RedisWorld :=
  if ok then { w with rc := { w.rc with state := .up, backoff := ngxSentinelRedisBackoffMinMs } }
  else
    sentinelRedisScheduleReconnect (sentinelRedisTeardown { w with rc := { w.rc with ac := none } })

def sentinelRedisOnDisconnect (w : RedisWorld) : RedisWorld :=
  sentinelRedisScheduleReconnect (sentinelRedisTeardown { w with rc := { w.rc with ac := none } })

/-- A reply of no text, or an error. -/
def RedisReply.refuses : Option RedisReply → Bool
  | none => true
  | some (.error _) => true
  | some _ => false

def sentinelRedisAuthReply (w : RedisWorld) (reply : Option RedisReply) : RedisWorld :=
  let w := { w with rc := { w.rc with authPending := false } }
  if RedisReply.refuses reply then
    sentinelRedisScheduleReconnect (sentinelRedisTeardown w)
  else w

/-- A fresh context; nothing has been asked of it. -/
def redisAsyncConnect (w : RedisWorld) : RedisWorld :=
  { w with
    rc := { w.rc with ac := some w.opened, state := .connecting }
    context := some ⟨w.opened, false, false, []⟩
    opened := w.opened + 1 }

/-- `AUTH` waits in the context until the socket is connected. -/
def redisAuth (w : RedisWorld) (io : RedisIo) : RedisWorld :=
  if w.rc.lcf.password.length > 0 then
    let w := { w with rc := { w.rc with authPending := true } }
    let r := redisAsyncCommand w io.auth .auth (.auth w.rc.lcf.password)
    if r.1 then r.2 else sentinelRedisScheduleReconnect (sentinelRedisTeardown r.2)
  else w

def sentinelRedisConnect (w : RedisWorld) (io : RedisIo) : RedisWorld :=
  if w.rc.state ≠ .down then w
  else if io.opens = false then sentinelRedisScheduleReconnect w
  else
    let id := w.opened
    let w := redisAsyncConnect w
    if io.attaches = false then
      let w := redisAsyncFree w id
      sentinelRedisScheduleReconnect { w with rc := { w.rc with ac := none, state := .down } }
    else redisAuth { w with rc := { w.rc with conn := true } } io

end Lifecycle
section Pull

/-- The loop of `sentinel_redis_parse_cursor`, in 64 bits. -/
def parseCursorLoop (v : UInt64) : Bytes → UInt64
  | [] => v
  | c :: s =>
      if c < ch '0' ∨ c > ch '9' then v
      else if v > (0 - 1) / 10 then 0
      else parseCursorLoop (v * 10 + (c - ch '0').toUInt64) s

def sentinelRedisParseCursor (s : Bytes) : UInt64 := parseCursorLoop 0 s

/-- `"%V:ban:*%Z"`, cut at the end of its buffer, and what `%s` makes of it. -/
def redisPattern (keyPrefix stack : Bytes) : Bytes :=
  cString ((keyPrefix ++ str ":ban:*" ++ [0]).take sentinelRedisKeyLen ++ stack)

def sentinelRedisPullStep (w : RedisWorld) (io : RedisIo) : RedisWorld :=
  if w.rc.ac = none ∨ w.rc.state ≠ .up then { w with rc := { w.rc with pullInflight := false } }
  else
    let r := redisAsyncCommand w io.scan .scan
      (.scan (ngxPrint w.rc.scanCursor.toNat) (redisPattern w.rc.lcf.keyPrefix io.stack)
        ngxSentinelRedisScanCount)
    if r.1 then r.2 else { r.2 with rc := { r.2.rc with pullInflight := false } }

/-- The length of what a key has in front of its address. -/
def redisPlen (keyPrefix : Bytes) : Nat := keyPrefix.length + (str ":ban:").length

/-- The address of a key: what comes after the prefix, if it can be one. -/
def redisKeyIp (plen : Nat) (k : Bytes) : Option Bytes :=
  if k.length ≤ plen then none
  else
    let iplen := k.length - plen
    if iplen = 0 ∨ iplen ≥ ngxSockaddrStrlen then none else some (k.drop plen)

def scanKeys (plen : Nat) (io : RedisIo) (w : RedisWorld) : (i : Nat) → List RedisReply → RedisWorld
  | _, [] => w
  | i, .string k :: keys =>
      match redisKeyIp plen k with
      | none => scanKeys plen io w (i + 1) keys
      | some ipcopy =>
          if io.alloc i = false then scanKeys plen io w (i + 1) keys
          else
            let r := redisAsyncCommand w (io.command i) (.get ipcopy) (.get (cString k))
            scanKeys plen io r.2 (i + 1) keys
  | i, _ :: keys => scanKeys plen io w (i + 1) keys

/-- What holds before the loop and is kept by the requests for keys holds behind it. -/
theorem scanKeys_keeps {P : RedisWorld → Prop}
    (hget : ∀ w ok ipcopy key, P w → P (redisAsyncCommand w ok (.get ipcopy) (.get key)).2)
    (plen : Nat) (io : RedisIo) (keys : List RedisReply) :
    ∀ {w : RedisWorld} {i : Nat}, P w → P (scanKeys plen io w i keys) := by
  induction keys with
  | nil => exact fun h => h
  | cons k keys ih =>
      intro w i h
      cases k with
      | string k =>
          simp only [scanKeys]
          cases redisKeyIp plen k with
          | none => exact ih h
          | some ipcopy =>
              dsimp only
              split
              · exact ih h
              · exact ih (hget w (io.command i) ipcopy (cString k) h)
      | error s => exact ih h
      | array elements => exact ih h
      | other => exact ih h

def RedisReply.cursor : RedisReply → UInt64
  | .string s => sentinelRedisParseCursor s
  | _ => 0

def RedisReply.elements : RedisReply → List RedisReply
  | .array elements => elements
  | _ => []

def sentinelRedisScanReply (w : RedisWorld) (reply : Option RedisReply) (io : RedisIo) :
    RedisWorld :=
  match reply with
  | some (.array [cur, keys]) =>
      let w := { w with rc := { w.rc with scanCursor := cur.cursor } }
      let w := scanKeys (redisPlen w.rc.lcf.keyPrefix) io w 0 keys.elements
      if w.rc.scanCursor ≠ 0 then sentinelRedisPullStep w io
      else { w with rc := { w.rc with pullInflight := false } }
  | _ => { w with rc := { w.rc with pullInflight := false } }

/-- The text of a string reply. -/
def RedisReply.text : Option RedisReply → Option Bytes
  | some (.string s) => some s
  | _ => none

end Pull
section Push

def sentinelRedisActionStr (action : UInt8) : Bytes :=
  if action = ngxSentinelCsCaptcha then str "captcha"
  else if action = ngxSentinelCsThrottle then str "throttle"
  else str "ban"

/-- `"%V:ban:%*s"` and `"%s %T"`, cut at the ends of their buffers. -/
def redisKey (keyPrefix ip : Bytes) : Bytes :=
  (keyPrefix ++ str ":ban:" ++ ip).take sentinelRedisKeyLen

def redisValue (action : UInt8) (expiry : Nat) : Bytes :=
  (sentinelRedisActionStr action ++ ch ' ' :: ngxPrint expiry).take 64

/-- The loop over what is in the ring; `i` numbers the `SET`s so far. -/
def flushLoop (now : Nat) (command : Nat → Bool) (w : RedisWorld) :
    (i : Nat) → List PushEntry → RedisWorld
  | _, [] => w
  | i, e :: entries =>
      let ttl := e.expiry - now
      if e.ip.length = 0 ∨ e.ip.length ≥ ngxSockaddrStrlen ∨ ttl ≤ 0 then
        flushLoop now command w i entries
      else
        let r := redisAsyncCommand w (command i) .set
          (.set (redisKey w.rc.lcf.keyPrefix e.ip) (redisValue e.action e.expiry.toNat)
            (ttl.bmod (2 ^ 32)))
        if r.1 = false ∨ i + 1 ≥ ngxSentinelRedisPushRing.toNat then r.2
        else flushLoop now command r.2 (i + 1) entries

def sentinelRedisFlushPush (w : RedisWorld) (now : Nat) (io : RedisIo) : RedisWorld :=
  if w.rc.push = false ∨ w.rc.ac = none ∨ w.rc.state ≠ .up then w
  else flushLoop now io.command w 0 io.drained

end Push
section Events

/-- What a tick does in each of the states. -/
def redisTick (w : RedisWorld) (now : Nat) (io : RedisIo) : RedisWorld :=
  match w.rc.state with
  | .down => sentinelRedisConnect w io
  | .connecting => w
  | .up =>
      if w.rc.authPending then w
      else
        let w := sentinelRedisFlushPush w now io
        if w.rc.pullInflight then w
        else sentinelRedisPullStep
          { w with rc := { w.rc with pullInflight := true, scanCursor := 0 } } io

/-- The timer is no longer set when its handler runs. -/
def sentinelRedisTimerHandler (w : RedisWorld) (now : Nat) (io : RedisIo) : RedisWorld :=
  let w := redisTick { w with rc := { w.rc with timer := none } } now io
  if w.rc.state = .up ∨ w.rc.state = .connecting then
    { w with rc := { w.rc with timer := some (w.rc.lcf.interval * 1000) } }
  else w

/-- `sentinel_redis_init_process`, for the location that it has found, whose
`cs_zone` is not `NULL`. -/
def sentinelRedisInitProcess (lcf : RedisConf) (csZone : Option Zone) (push : Bool) (sh : Shctx) :
    RedisWorld where
  rc :=
    { timer := some 1000, lcf, csZone, push, ac := none, conn := false, state := .down
      backoff := ngxSentinelRedisBackoffMinMs, scanCursor := 0, pullInflight := false
      authPending := false }
  context := none
  opened := 0
  sh := sh
  log := []

/-- The process has died, and the master has started another one in its place. -/
def RedisWorld.respawn (w : RedisWorld) : RedisWorld :=
  { sentinelRedisInitProcess w.rc.lcf w.rc.csZone w.rc.push w.sh with
    opened := w.opened
    log := w.log }

def runCallback (ngx : NgxCore) (w : RedisWorld) (fn : RedisCallback) (reply : Option RedisReply)
    (now : Nat) (io : RedisIo) : RedisWorld :=
  match fn with
  | .auth => sentinelRedisAuthReply w reply
  | .scan => sentinelRedisScanReply w reply io
  | .get ipcopy =>
      match sentinelRedisGetReply ngx w.rc.csZone w.sh (cString ipcopy) (RedisReply.text reply) now
        io.slab with
      | some sh => { w with sh }
      | none => w.respawn
  | .set => w

inductive RedisEvent where
  | timer (now : Nat) (io : RedisIo)
  | connect (ok : Bool)
  | reply (r : RedisReply) (now : Nat) (io : RedisIo)
  /-- The peer closes the connection, or hiredis finds an error in it. -/
  | close
  /-- The next callback of a context that is being destroyed. -/
  | destroy (now : Nat) (io : RedisIo)

def RedisWorld.closing (w : RedisWorld) : Bool :=
  match w.context with
  | some c => c.closing
  | none => false

def redisStep (ngx : NgxCore) (w : RedisWorld) (e : RedisEvent) : RedisWorld :=
  match e, w.context with
  | .timer now io, _ => sentinelRedisTimerHandler w now io
  | .connect true, some c =>
      sentinelRedisOnConnect { w with context := some { c with connected := true } } true
  | .connect false, some c => redisAsyncFree (sentinelRedisOnConnect w false) c.id
  | .reply r now io, some c =>
      match c.replies with
      | [] => w
      | fn :: rest =>
          let log := if fn = .auth ∧ RedisReply.refuses (some r) = false
            then w.log ++ [.authenticated c.id] else w.log
          runCallback ngx { w with context := some { c with replies := rest }, log } fn (some r) now
            io
  | .close, some c => redisAsyncFree (sentinelRedisEvCleanup w) c.id
  | .destroy now io, some c =>
      match c.replies with
      | fn :: rest =>
          runCallback ngx { w with context := some { c with replies := rest } } fn none now io
      | [] =>
          let w := sentinelRedisEvCleanup w
          let w := if c.connected then sentinelRedisOnDisconnect w else w
          { w with context := none }
  | _, none => w

/-- What can come next: the timer when it is set, the outcome of an attempt, the
reply to the oldest command, a failure; and the callbacks of a context that is
being destroyed before anything else. -/
def Deliverable (w : RedisWorld) (e : RedisEvent) : Prop :=
  match e with
  | .timer _ _ => w.closing = false ∧ w.rc.timer.isSome
  | .connect _ => ∃ c, w.context = some c ∧ c.closing = false ∧ c.connected = false
  | .reply _ _ _ =>
      ∃ c, w.context = some c ∧ c.closing = false ∧ c.connected = true ∧ c.replies ≠ []
  | .close => ∃ c, w.context = some c ∧ c.closing = false ∧ c.connected = true
  | .destroy _ _ => w.closing = true

/-- What the reply to a `GET` does: to the zone, or, without one, to the process. -/
theorem runCallback_get (ngx : NgxCore) (w : RedisWorld) (ipcopy : Bytes)
    (reply : Option RedisReply) (now : Nat) (io : RedisIo) :
    (∃ sh, runCallback ngx w (.get ipcopy) reply now io = { w with sh }) ∨
      runCallback ngx w (.get ipcopy) reply now io = w.respawn := by
  simp only [runCallback]
  split
  next sh _ => exact .inl ⟨sh, rfl⟩
  next => exact .inr rfl

end Events
end Sentinel
