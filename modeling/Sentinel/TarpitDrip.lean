import Mathlib.Algebra.GroupWithZero.Nat
import Sentinel.Lib.Run
import Sentinel.NgxRef

/-!
One tarpitted connection of `sentinel_tarpit.c`: how it is set up, and what its
write handler does at every timer and every write event, with whatever results
of the output filter. `ngx_current_msec` is nginx's cached clock, which stands
still while a handler runs.

The reservation is taken here as one read of the sum of the counters; what other
workers do meanwhile is the subject of `Tarpit.lean`.
-/

namespace Sentinel

def ngxSentinelTarpitMaxMsec : Nat := 600000

def ngxSentinelTarpitTickMax : Nat := 65536

def ngxSentinelTarpitTickBytes : Nat := 32

/-- The tarpit directives of a location. -/
structure TarpitConf where
  tarpitMaxConns : Nat
  tarpitDelay : Nat
  tarpitBytes : Nat
  tarpitMaxLifetime : Nat
  tarpitMaze : Bool
  deriving DecidableEq, Repr

/-- The bounds that `ngx_sentinel_merge_loc_conf` checks. -/
def TarpitConf.Accepted (conf : TarpitConf) : Prop :=
  conf.tarpitMaxConns ≤ 65536 ∧
    (100 ≤ conf.tarpitDelay ∧ conf.tarpitDelay ≤ 60000) ∧
    (1 ≤ conf.tarpitBytes ∧ conf.tarpitBytes ≤ 65536) ∧
    1000 ≤ conf.tarpitMaxLifetime ∧ conf.tarpitMaxLifetime ≤ ngxSentinelTarpitMaxMsec

instance TarpitConf.decidableAccepted (conf : TarpitConf) : Decidable conf.Accepted :=
  inferInstanceAs (Decidable (_ ∧ _))

/-- `ngx_sentinel_tarpit_ctx_t`. `buf` is what lies between its `pos` and `last`. -/
structure TarpitCtx where
  deadline : Nat
  bytesSent : Nat
  bytesTotal : Nat
  delayMs : Nat
  buf : Bytes
  rng : UInt32
  maze : Bool
  deriving DecidableEq, Repr

section Fill

def ngxSentinelDripBuf : Bytes :=
  List.replicate (ngxSentinelTarpitTickMax - 1) (ch ' ') ++ [ch '\n']

def mazeHex : Bytes := str "0123456789abcdef"

def mazeLoop : (i : Nat) → UInt32 → (p : Bytes) → Bytes × UInt32
  | 0, rng, p => (p, rng)
  | i + 1, rng, p =>
      let rng := rng * 1664525 + 1013904223
      mazeLoop i rng (p ++ [mazeHex.getD ((rng >>> 24) &&& 0x0f).toNat 0])

/-- One decoy link, and the generator's next state. -/
def sentinelTarpitMazeFragment (rng : UInt32) : Bytes × UInt32 :=
  let r := mazeLoop 16 rng (str "<a href=\"/")
  (r.1 ++ str "/\">x</a>\n", r.2)

/-- Step 3 of the write handler: the number of bytes of this tick, and the
context with its buffer filled anew. -/
def dripFill (tctx : TarpitCtx) : Nat × TarpitCtx :=
  let tickBytes := tctx.bytesTotal - tctx.bytesSent
  if tctx.maze then
    let frag := sentinelTarpitMazeFragment tctx.rng
    let tickBytes := if tickBytes > frag.1.length then frag.1.length else tickBytes
    (tickBytes, { tctx with rng := frag.2, buf := frag.1.take tickBytes })
  else
    let tickBytes :=
      if tickBytes > ngxSentinelTarpitTickBytes then ngxSentinelTarpitTickBytes else tickBytes
    (tickBytes, { tctx with buf := ngxSentinelDripBuf.take tickBytes })

end Fill

/-- What `ngx_http_output_filter` returns. -/
inductive FilterRc where
  | ok | again | error
  deriving DecidableEq, Repr

/-- A buffer handed to the output filter: its bytes, the result, and whether an
earlier submission of it was still queued when it was filled. -/
structure Submission where
  bytes : Bytes
  rc : FilterRc
  overwrites : Bool
  deriving DecidableEq, Repr

/-- A held connection. `timer` is the key of its write timer, `finalized` the
code that the request was finalized with. -/
structure DripConn where
  now : Nat
  tctx : TarpitCtx
  timer : Option Nat
  finalized : Option NgxRc
  /-- The context's buffer is still in nginx's output chain. -/
  queued : Bool
  /-- All buffers handed over so far. -/
  submissions : List Submission
  deriving DecidableEq, Repr

/-- What a run of the write handler meets: an error mark on the connection, the
result of the output filter, whether `ngx_handle_write_event` succeeds. -/
structure DripIo where
  dead : Bool
  filter : FilterRc
  writeEvent : Bool
  deriving DecidableEq, Repr

/-- `ngx_http_finalize_request` on the last reference. -/
def DripConn.finalize (s : DripConn) (rc : NgxRc) : DripConn :=
  { s with timer := none, finalized := some rc }

def dripWait (tctx : TarpitCtx) (now : Nat) : Nat :=
  if now ≥ tctx.deadline then tctx.delayMs
  else
    let wait := tctx.deadline - now
    if wait > tctx.delayMs then tctx.delayMs else wait

def sentinelTarpitWriteHandler (ngx : NgxCore) (s : DripConn) (io : DripIo) : DripConn :=
  if s.now ≥ s.tctx.deadline ∨ s.tctx.bytesSent ≥ s.tctx.bytesTotal then s.finalize .httpClose
  else if io.dead then s.finalize .httpClose
  else
    let (tickBytes, tctx) := dripFill s.tctx
    let s : DripConn := { s with
      tctx := tctx
      queued := decide (io.filter ≠ FilterRc.ok)
      submissions := s.submissions ++ [⟨tctx.buf, io.filter, s.queued⟩] }
    match io.filter with
    | .error => s.finalize .error
    | .again =>
        if ¬ io.writeEvent then s.finalize .error
        else { s with timer := ngx.addTimer s.timer s.now (dripWait tctx s.now) }
    | .ok =>
        let tctx := { tctx with bytesSent := tctx.bytesSent + tickBytes }
        let s := { s with tctx := tctx }
        if tctx.bytesSent ≥ tctx.bytesTotal ∨ s.now ≥ tctx.deadline then s.finalize .httpClose
        else { s with timer := ngx.addTimer s.timer s.now (dripWait tctx s.now) }

/-- What happens to a held connection, `ms` after what happened before: its
timer fires, its socket becomes writable, or nginx sends what is queued. -/
inductive DripEvent where
  | timer (ms : Nat) (io : DripIo)
  | write (ms : Nat) (io : DripIo)
  | sent
  deriving DecidableEq, Repr

/-- The run of the write handler that an event leads to: the connection as the
handler finds it, and what it meets. -/
def dripCall (s : DripConn) : DripEvent → Option (DripConn × DripIo)
  | .timer ms io =>
      match s.timer with
      | none => none
      | some key =>
          if key ≤ s.now + ms then some ({ s with now := s.now + ms, timer := none }, io)
          else none
  | .write ms io => some ({ s with now := s.now + ms }, io)
  | .sent => none

def dripStep (ngx : NgxCore) (s : DripConn) (e : DripEvent) : DripConn :=
  if s.finalized.isSome then s
  else
    match dripCall s e with
    | some (s, io) => sentinelTarpitWriteHandler ngx s io
    | none => if e = .sent then { s with queued := false } else s

section Start

/-- What `sentinel_tarpit_start` meets: the main configuration, the sum of the
counters if their zone is there, allocations, and the result of
`ngx_http_send_header`. -/
structure TarpitEnv where
  mcf : Bool
  conns : Option Nat
  ctxAlloc : Bool
  cleanupAlloc : Bool
  headerRc : Int
  seed : UInt32
  deriving DecidableEq, Repr

def sentinelTarpitReserve (env : TarpitEnv) (maxConns : Nat) : NgxRc :=
  match env.conns with
  | none => .error
  | some sum =>
      if maxConns = 0 then .error
      else if sum ≥ maxConns then .httpClose
      else .ok

/-- The return code, and the connection if it is held. -/
structure TarpitReply where
  rc : NgxRc
  conn : Option DripConn
  deriving DecidableEq, Repr

/-- `sentinel_tarpit_start` at time `now`, with no write timer set. -/
def sentinelTarpitStart (ngx : NgxCore) (env : TarpitEnv) (lcf : TarpitConf) (now : Nat) :
    TarpitReply :=
  if ¬ env.mcf then ⟨.declined, none⟩
  else
    match sentinelTarpitReserve env lcf.tarpitMaxConns with
    | .httpClose => ⟨.httpClose, none⟩
    | .error => ⟨.declined, none⟩
    | _ =>
        if ¬ env.ctxAlloc then ⟨.declined, none⟩
        else
          let tctx : TarpitCtx :=
            { deadline := now + lcf.tarpitMaxLifetime
              bytesSent := 0
              bytesTotal := lcf.tarpitBytes
              delayMs := lcf.tarpitDelay
              buf := []
              rng := env.seed
              maze := lcf.tarpitMaze }
          if ¬ env.cleanupAlloc then ⟨.declined, none⟩
          else if env.headerRc = -1 then ⟨.done, none⟩
          else if env.headerRc > 0 then ⟨.done, none⟩
          else ⟨.done, some ⟨now, tctx, ngx.addTimer none now tctx.delayMs, none, false, []⟩⟩

end Start

section Write
variable (ngx : NgxCore) {s : DripConn}

theorem mazeLoop_length (i : Nat) (rng : UInt32) (p : Bytes) :
    (mazeLoop i rng p).1.length = p.length + i := by
  induction i generalizing rng p with
  | zero => rfl
  | succ i ih =>
      rw [mazeLoop, ih, List.length_append, List.length_singleton]
      omega

theorem mazeFragment_length (rng : UInt32) : (sentinelTarpitMazeFragment rng).1.length = 35 := by
  rw [sentinelTarpitMazeFragment, List.length_append, mazeLoop_length]
  rfl

/-- The most that one tick hands over. -/
def tickMax (maze : Bool) : Nat := if maze then 35 else ngxSentinelTarpitTickBytes

/-- A tick's buffer has the bytes that the tick counts, and the rest of the
context is left as it is. -/
theorem dripFill_spec (tctx : TarpitCtx) :
    let n := min (tickMax tctx.maze) (tctx.bytesTotal - tctx.bytesSent)
    ∃ buf rng, dripFill tctx = (n, { tctx with buf := buf, rng := rng }) ∧ buf.length = n := by
  intro n
  have hstatic : ngxSentinelDripBuf.length = ngxSentinelTarpitTickMax := by
    rw [ngxSentinelDripBuf, List.length_append, List.length_replicate, List.length_singleton]
    exact Nat.sub_add_cancel (by decide)
  cases hmaze : tctx.maze with
  | false =>
      have hn : (if tctx.bytesTotal - tctx.bytesSent > ngxSentinelTarpitTickBytes
          then ngxSentinelTarpitTickBytes else tctx.bytesTotal - tctx.bytesSent) = n := by
        simp only [n, tickMax, hmaze]
        grind
      refine ⟨ngxSentinelDripBuf.take n, tctx.rng, by simp [dripFill, hmaze, hn], ?_⟩
      rw [List.length_take, hstatic]
      simp only [n, tickMax, hmaze, ngxSentinelTarpitTickBytes, ngxSentinelTarpitTickMax]
      grind
  | true =>
      have hn : (if tctx.bytesTotal - tctx.bytesSent > 35 then 35
          else tctx.bytesTotal - tctx.bytesSent) = n := by
        simp only [n, tickMax, hmaze]
        grind
      refine ⟨(sentinelTarpitMazeFragment tctx.rng).1.take n,
        (sentinelTarpitMazeFragment tctx.rng).2, ?_, ?_⟩
      · simp [dripFill, hmaze, mazeFragment_length, hn]
      · rw [List.length_take, mazeFragment_length]
        simp only [n, tickMax, hmaze]
        grind

theorem dripWait_eq {tctx : TarpitCtx} {now : Nat} (h : now < tctx.deadline) :
    dripWait tctx now = min tctx.delayMs (tctx.deadline - now) := by
  rw [dripWait, if_neg (by omega)]
  grind

/-- The handler gets past its two checks. -/
def Drips (s : DripConn) (io : DripIo) : Prop :=
  s.now < s.tctx.deadline ∧ s.tctx.bytesSent < s.tctx.bytesTotal ∧ io.dead = false

instance decidableDrips (s : DripConn) (io : DripIo) : Decidable (Drips s io) :=
  inferInstanceAs (Decidable (_ ∧ _))

/-- What the write handler does to a connection that is held. -/
theorem writeHandler_spec (hheld : s.finalized = none) (io : DripIo) :
    let s' := sentinelTarpitWriteHandler ngx s io
    (¬ Drips s io ∧ s' = s.finalize .httpClose) ∨
      (Drips s io ∧ ∃ buf rng sent,
        buf.length = min (tickMax s.tctx.maze) (s.tctx.bytesTotal - s.tctx.bytesSent) ∧
        sent = s.tctx.bytesSent + (if io.filter = .ok then buf.length else 0) ∧
        s'.now = s.now ∧ s'.submissions = s.submissions ++ [⟨buf, io.filter, s.queued⟩] ∧
        s'.tctx = { s.tctx with buf := buf, rng := rng, bytesSent := sent } ∧
        (s'.finalized.isSome ∨ (s'.finalized = none ∧ io.filter ≠ .error ∧
          s'.timer = ngx.addTimer s.timer s.now
            (min s.tctx.delayMs (s.tctx.deadline - s.now))))) := by
  intro s'
  obtain ⟨buf, rng, hfill, hbuf⟩ := dripFill_spec s.tctx
  by_cases hdrips : Drips s io
  · obtain ⟨hnow, hsent, hdead⟩ := id hdrips
    have hs' : s' = sentinelTarpitWriteHandler ngx s io := rfl
    rw [sentinelTarpitWriteHandler, if_neg (by omega), if_neg (by simp [hdead]), hfill] at hs'
    refine Or.inr ⟨hdrips, buf, rng, _, hbuf, rfl, ?_⟩
    cases hrc : io.filter with
    | error =>
        simp only [hrc] at hs'
        rw [hs']
        simp [DripConn.finalize]
    | again =>
        simp only [hrc] at hs'
        split at hs'
        · rw [hs']
          simp [DripConn.finalize]
        · rw [hs']
          simp [hheld, dripWait_eq, hnow]
    | ok =>
        simp only [hrc] at hs'
        split at hs'
        · rw [hs']
          simp [DripConn.finalize, hbuf]
        · rw [hs']
          simp [hheld, hbuf, dripWait_eq, hnow]
  · refine Or.inl ⟨hdrips, ?_⟩
    simp only [s', sentinelTarpitWriteHandler]
    split
    · rfl
    next hgo =>
      have hdead : io.dead = true := by
        by_contra h
        exact hdrips ⟨by omega, by omega, by simpa using h⟩
      rw [if_pos hdead]

end Write

section Budget
variable (ngx : NgxCore) {conf : TarpitConf} {s : DripConn}

/-- The body bytes ever handed to the output filter. -/
def DripConn.handed (s : DripConn) : Nat := (s.submissions.map fun sub => sub.bytes.length).sum

structure DripSafe (conf : TarpitConf) (s : DripConn) : Prop where
  budget : s.handed ≤ conf.tarpitBytes
  kept : ∀ sub ∈ s.submissions, sub.overwrites = false

def AgainBefore (s : DripConn) : Prop := ∃ sub ∈ s.submissions, sub.rc = .again

instance decidableAgainBefore (s : DripConn) : Decidable (AgainBefore s) :=
  inferInstanceAs (Decidable (∃ sub ∈ s.submissions, _))

/-- A run of the handler that fills the buffer finds nothing queued, and after an
`NGX_AGAIN` it finds room for one more tick in a count that takes every tick so
far as a whole one. -/
def DripFits (conf : TarpitConf) (s : DripConn) (e : DripEvent) : Prop :=
  s.finalized = none → ∀ c ∈ dripCall s e, Drips c.1 c.2 →
    s.queued = false ∧
      (AgainBefore s → (s.submissions.length + 1) * tickMax conf.tarpitMaze ≤ conf.tarpitBytes)

/-- How the bytes accounted and the bytes handed over are related. -/
structure DripAccount (conf : TarpitConf) (s : DripConn) : Prop where
  total : s.tctx.bytesTotal = conf.tarpitBytes
  maze : s.tctx.maze = conf.tarpitMaze
  sent_le : s.tctx.bytesSent ≤ s.handed
  sent_lt : AgainBefore s → s.tctx.bytesSent < s.handed
  sent_eq : s.finalized = none → ¬ AgainBefore s → s.handed = s.tctx.bytesSent
  le : s.handed ≤ s.submissions.length * tickMax conf.tarpitMaze
  whole : s.finalized = none → conf.tarpitBytes ≤ s.handed ∨
    s.handed = s.submissions.length * tickMax conf.tarpitMaze

theorem dripCall_frame {e : DripEvent} {c : DripConn × DripIo} (h : dripCall s e = some c) :
    c.1.tctx = s.tctx ∧ c.1.submissions = s.submissions ∧ c.1.queued = s.queued ∧
      c.1.finalized = s.finalized ∧ s.now ≤ c.1.now ∧ (c.1.timer = s.timer ∨ c.1.timer = none) := by
  cases e with
  | timer ms io =>
      simp only [dripCall] at h
      split at h
      · contradiction
      · simp only [Option.ite_none_right_eq_some, Option.some.injEq] at h
        obtain ⟨-, rfl⟩ := h
        simp
  | write ms io =>
      obtain rfl := Option.some.inj h
      simp
  | sent => contradiction

/-- The ways of a step: nothing is handed over, or one tick is. -/
theorem dripStep_cases (e : DripEvent) :
    ((s.finalized = none → ∀ c ∈ dripCall s e, ¬ Drips c.1 c.2) ∧
      (dripStep ngx s e).tctx = s.tctx ∧ (dripStep ngx s e).submissions = s.submissions ∧
      (s.finalized.isSome → (dripStep ngx s e).finalized.isSome)) ∨
    (s.finalized = none ∧ (∃ c, dripCall s e = some c ∧ Drips c.1 c.2) ∧
      s.tctx.bytesSent < s.tctx.bytesTotal ∧
      ∃ buf rng sent rc,
        buf.length = min (tickMax s.tctx.maze) (s.tctx.bytesTotal - s.tctx.bytesSent) ∧
        sent = s.tctx.bytesSent + (if rc = FilterRc.ok then buf.length else 0) ∧
        (dripStep ngx s e).submissions = s.submissions ++ [⟨buf, rc, s.queued⟩] ∧
        (dripStep ngx s e).tctx = { s.tctx with buf := buf, rng := rng, bytesSent := sent } ∧
        ((dripStep ngx s e).finalized = none → rc ≠ .error)) := by
  cases hheld : s.finalized with
  | some rc =>
      left
      simp [dripStep, hheld]
  | none =>
      simp only [dripStep, hheld, Option.isSome_none, Bool.false_eq_true, if_false]
      cases hcall : dripCall s e with
      | none =>
          left
          simp only [Option.mem_def, reduceCtorEq, false_imp_iff, implies_true, true_and]
          split <;> simp
      | some c =>
          obtain ⟨htctx, hsubs, hqueued, hfin, -⟩ := dripCall_frame hcall
          rcases writeHandler_spec ngx (hfin.trans hheld) c.2 with
            ⟨hno, hs'⟩ | ⟨hdrips, buf, rng, sent, hbuf, hsent, -, hs', ht', hend⟩
          · left
            simp only [hs', DripConn.finalize]
            exact ⟨fun _ c' hc' => Option.some.inj hc' ▸ hno, htctx, hsubs, by simp⟩
          · right
            rw [htctx] at hbuf hsent ht'
            rw [hsubs, hqueued] at hs'
            refine ⟨trivial, ⟨c, rfl, hdrips⟩, htctx ▸ hdrips.2.1, buf, rng, sent, c.2.filter, hbuf,
              hsent, hs', ht', fun hnone => ?_⟩
            rcases hend with hsome | ⟨-, hrc, -⟩
            · rw [hnone] at hsome
              contradiction
            · exact hrc

theorem tickMax_pos (maze : Bool) : 0 < tickMax maze := by
  cases maze
  · decide
  · decide

theorem handed_append {s' : DripConn} {buf : Bytes} {rc : FilterRc} {overwrites : Bool}
    (h : s'.submissions = s.submissions ++ [⟨buf, rc, overwrites⟩]) :
    s'.handed = s.handed + buf.length := by
  simp [DripConn.handed, h]

/-- One more tick in a count that takes each as a whole one. -/
theorem ticks_succ (conf : TarpitConf) (n : Nat) :
    (n + 1) * tickMax conf.tarpitMaze = n * tickMax conf.tarpitMaze + tickMax conf.tarpitMaze :=
  Nat.succ_mul _ _

/-- The account goes by the context and what has been handed over. -/
theorem DripAccount.congr {s' : DripConn} (h : DripAccount conf s) (htctx : s'.tctx = s.tctx)
    (hsubs : s'.submissions = s.submissions)
    (hopen : s'.finalized = none → s.finalized = none) : DripAccount conf s' := by
  have hhanded : s'.handed = s.handed := by
    rw [DripConn.handed, hsubs, DripConn.handed]
  have hagain : AgainBefore s' ↔ AgainBefore s := by
    rw [AgainBefore, hsubs, AgainBefore]
  constructor
  · rw [htctx]
    exact h.total
  · rw [htctx]
    exact h.maze
  · rw [htctx, hhanded]
    exact h.sent_le
  · rw [htctx, hhanded, hagain]
    exact h.sent_lt
  · rw [htctx, hhanded, hagain]
    exact fun hnone => h.sent_eq (hopen hnone)
  · rw [hhanded, hsubs]
    exact h.le
  · rw [hhanded, hsubs]
    exact fun hnone => h.whole (hopen hnone)

theorem dripAccount_step (h : DripAccount conf s) (e : DripEvent) :
    DripAccount conf (dripStep ngx s e) := by
  rcases dripStep_cases ngx (s := s) e with
    ⟨-, htctx, hsubs, hfin⟩ | ⟨hheld, -, hroom, buf, rng, sent, rc, hbuf, hsent, hsubs, htctx, hrc⟩
  · refine h.congr htctx hsubs fun hnone => ?_
    by_contra hsome
    have := hfin (Option.isSome_iff_ne_none.mpr hsome)
    rw [hnone] at this
    contradiction
  · have hhanded := handed_append hsubs
    have hlen : (dripStep ngx s e).submissions.length = s.submissions.length + 1 := by
      simp [hsubs]
    have hagain : AgainBefore (dripStep ngx s e) ↔ AgainBefore s ∨ rc = .again := by
      simp [AgainBefore, hsubs, or_and_right, exists_or]
    have hsent' : (dripStep ngx s e).tctx.bytesSent = sent := by
      rw [htctx]
    have hpos := tickMax_pos conf.tarpitMaze
    have htotal := h.total
    have hsum := ticks_succ conf s.submissions.length
    have hle := h.le
    have hsent_le := h.sent_le
    rw [h.maze] at hbuf
    constructor
    · rw [htctx]
      exact h.total
    · rw [htctx]
      exact h.maze
    · rw [hsent', hhanded, hsent]
      split <;> omega
    · rw [hsent', hhanded, hagain, hsent]
      rintro (hbefore | rfl)
      · have := h.sent_lt hbefore
        split <;> omega
      · rw [if_neg (by decide)]
        omega
    · rw [hsent', hhanded, hagain, hsent]
      intro hnone hno
      rw [not_or] at hno
      have hok : rc = .ok := by
        cases rc with
        | ok => rfl
        | again => exact absurd rfl hno.2
        | error => exact absurd rfl (hrc hnone)
      rw [if_pos hok, h.sent_eq hheld hno.1]
    · rw [hhanded, hlen, hsum]
      omega
    · rw [hhanded, hlen, hsum]
      intro _
      cases h.whole hheld with
      | inl hfull => omega
      | inr hwhole => omega

/-- A step that fits keeps what is safe. -/
theorem dripSafe_step (h : DripAccount conf s) (hsafe : DripSafe conf s) {e : DripEvent}
    (hfits : DripFits conf s e) : DripSafe conf (dripStep ngx s e) := by
  rcases dripStep_cases ngx (s := s) e with
    ⟨-, -, hsubs, -⟩ | ⟨hheld, ⟨c, hc, hdrips⟩, hroom, buf, rng, sent, rc, hbuf, -, hsubs, -⟩
  · constructor
    · rw [DripConn.handed, hsubs]
      exact hsafe.budget
    · rw [hsubs]
      exact hsafe.kept
  · obtain ⟨hqueued, hagain⟩ := hfits hheld c hc hdrips
    have hsum := ticks_succ conf s.submissions.length
    have htotal := h.total
    have hle := h.le
    rw [h.maze] at hbuf
    constructor
    · have hhanded := handed_append hsubs
      rw [hhanded]
      by_cases hbefore : AgainBefore s
      · have := hagain hbefore
        omega
      · have := h.sent_eq hheld hbefore
        omega
    · rw [hsubs]
      intro sub hsub
      cases List.mem_append.mp hsub with
      | inl hold => exact hsafe.kept sub hold
      | inr hnew =>
          rw [List.mem_singleton.mp hnew]
          exact hqueued

/-- A step that does not fit breaks one of the two guarantees. -/
theorem not_dripSafe_step (h : DripAccount conf s) {e : DripEvent}
    (hfits : ¬ DripFits conf s e) : ¬ DripSafe conf (dripStep ngx s e) := by
  rcases dripStep_cases ngx (s := s) e with
    ⟨hno, -⟩ | ⟨hheld, -, hroom, buf, rng, sent, rc, hbuf, -, hsubs, -⟩
  · exact absurd (fun hheld c hc hdrips => absurd hdrips (hno hheld c hc)) hfits
  · intro hsafe
    apply hfits
    intro _ c _ _
    refine ⟨hsafe.kept ⟨buf, rc, s.queued⟩ (by simp [hsubs]), fun hbefore => ?_⟩
    have hhanded := handed_append hsubs
    have hbudget := hsafe.budget
    have hsum := ticks_succ conf s.submissions.length
    have hpos := tickMax_pos conf.tarpitMaze
    have htotal := h.total
    have hlt := h.sent_lt hbefore
    rw [h.maze] at hbuf
    cases h.whole hheld with
    | inl hfull => omega
    | inr hwhole => omega

theorem not_dripSafe_mono (e : DripEvent) (hbad : ¬ DripSafe conf s) :
    ¬ DripSafe conf (dripStep ngx s e) := by
  intro hsafe
  apply hbad
  obtain ⟨more, hmore⟩ : ∃ more, (dripStep ngx s e).submissions = s.submissions ++ more := by
    rcases dripStep_cases ngx (s := s) e with
      ⟨-, -, hsubs, -⟩ | ⟨-, -, -, buf, rng, sent, rc, -, -, hsubs, -⟩
    · exact ⟨[], by simp [hsubs]⟩
    · exact ⟨_, hsubs⟩
  constructor
  · have hbudget := hsafe.budget
    simp only [DripConn.handed, hmore, List.map_append, List.sum_append] at hbudget
    exact Nat.le_trans (Nat.le_add_right _ _) hbudget
  · intro sub hsub
    exact hsafe.kept sub (by simp [hmore, hsub])

theorem tarpitStart_conn {env : TarpitEnv} {now : Nat} {conn : DripConn}
    (h : (sentinelTarpitStart ngx env conf now).conn = some conn) :
    conn = ⟨now, ⟨now + conf.tarpitMaxLifetime, 0, conf.tarpitBytes, conf.tarpitDelay, [],
      env.seed, conf.tarpitMaze⟩, some (now + conf.tarpitDelay), none, false, []⟩ := by
  rw [sentinelTarpitStart] at h
  split at h
  · contradiction
  · split at h
    · contradiction
    · contradiction
    · split_ifs at h
      simp only [ngx.addTimer_none] at h
      exact (Option.some.inj h).symm

theorem dripAccount_start {env : TarpitEnv} {now : Nat} {conn : DripConn}
    (h : (sentinelTarpitStart ngx env conf now).conn = some conn) : DripAccount conf conn := by
  rw [tarpitStart_conn ngx h]
  constructor <;> simp [AgainBefore, DripConn.handed]

/-- The budget holds and no queued buffer is overwritten, in every state of a
run, exactly when every run of the handler that fills the buffer fits. -/
theorem drip_safe_iff (ngx : NgxCore) (env : TarpitEnv) (conf : TarpitConf) (now : Nat)
    (events : List DripEvent) {conn : DripConn}
    (hstart : (sentinelTarpitStart ngx env conf now).conn = some conn) :
    (∀ before, before <+: events → DripSafe conf (Run.exec (dripStep ngx) conn before)) ↔
      Run.Along (DripFits conf) (dripStep ngx) conn events := by
  have hacc := dripAccount_start ngx hstart
  constructor
  · intro h
    refine Run.along_of_undamaged (I := DripAccount conf) (D := fun s => ¬ DripSafe conf s)
      (fun s e h => dripAccount_step ngx h e) (fun s e h => not_dripSafe_step ngx h)
      (fun s e _ => not_dripSafe_mono ngx e) hacc ?_
    exact not_not.mpr (h events (List.prefix_refl events))
  · intro halong before hprefix
    obtain ⟨after, rfl⟩ := hprefix
    have hsafe : DripSafe conf conn := by
      rw [tarpitStart_conn ngx hstart]
      constructor <;> simp [DripConn.handed]
    have hboth := Run.exec_invariant_along (I := fun s => DripAccount conf s ∧ DripSafe conf s)
      (fun s e hfits h => ⟨dripAccount_step ngx h.1 e, dripSafe_step ngx h.1 h.2 hfits⟩)
      ((Run.along_append.mp halong).1) ⟨hacc, hsafe⟩
    exact hboth.2

/-- A slow client whose buffer is sent before the next tick. -/
theorem drip_safe_slow_client :
    let conf : TarpitConf := ⟨256, 5000, 100, 30000, false⟩
    let events : List DripEvent :=
      [.timer 5000 ⟨false, .again, true⟩, .sent, .timer 5000 ⟨false, .ok, true⟩]
    let conn : DripConn := ⟨10, ⟨30010, 0, 100, 5000, [], 7, false⟩, some 5010, none, false, []⟩
    (∀ before, before <+: events → DripSafe conf (Run.exec (dripStep Ref.ngx) conn before)) ↔
      Run.Along (DripFits conf) (dripStep Ref.ngx) conn events :=
  drip_safe_iff Ref.ngx ⟨true, some 0, true, true, 0, 7⟩ _ 10 _ rfl

/-- A client that takes nothing: the second tick fills the buffer that is still
queued, and goes over the budget. -/
theorem drip_overruns_budget :
    let conf : TarpitConf := ⟨256, 5000, 40, 30000, false⟩
    let conn : DripConn := ⟨10, ⟨30010, 0, 40, 5000, [], 7, false⟩, some 5010, none, false, []⟩
    let s := Run.exec (dripStep Ref.ngx) conn
      [.timer 5000 ⟨false, .again, true⟩, .timer 5000 ⟨false, .again, true⟩]
    conf.Accepted ∧
      (sentinelTarpitStart Ref.ngx ⟨true, some 0, true, true, 0, 7⟩ conf 10).conn = some conn ∧
      conf.tarpitBytes < s.handed ∧ ∃ sub ∈ s.submissions, sub.overwrites = true := by
  decide

end Budget

section Lifetime
variable (ngx : NgxCore) {conf : TarpitConf} {s : DripConn} {deadline : Nat}

/-- A held connection has a write timer, which fires by the deadline, and the
first run of the handler from the deadline on ends the request. -/
structure TimerKept (deadline : Nat) (s : DripConn) : Prop where
  armed : s.finalized = none → ∃ key, s.timer = some key ∧ key ≤ deadline
  closes : ∀ e c, s.finalized = none → dripCall s e = some c → deadline ≤ c.1.now →
    (dripStep ngx s e).finalized.isSome

theorem addTimer_le {timer : Option Nat} {now ms : Nat} (hold : ∀ key ∈ timer, key ≤ deadline)
    (hnew : now + ms ≤ deadline) :
    ∃ key, ngx.addTimer timer now ms = some key ∧ key ≤ deadline := by
  cases timer with
  | none => exact ⟨_, ngx.addTimer_none now ms, hnew⟩
  | some old =>
      cases ngx.addTimer_some old now ms with
      | inl hmoved => exact ⟨_, hmoved, hnew⟩
      | inr hleft => exact ⟨old, hleft.1, hold old rfl⟩

theorem dripStep_deadline (e : DripEvent) :
    (dripStep ngx s e).tctx.deadline = s.tctx.deadline := by
  rcases dripStep_cases ngx (s := s) e with
    ⟨-, htctx, -, -⟩ | ⟨-, -, -, buf, rng, sent, rc, -, -, -, htctx, -⟩
  · rw [htctx]
  · rw [htctx]

theorem closes_at_deadline (hdeadline : s.tctx.deadline = deadline) (e : DripEvent)
    {c : DripConn × DripIo} (hheld : s.finalized = none) (hcall : dripCall s e = some c)
    (hnow : deadline ≤ c.1.now) : (dripStep ngx s e).finalized.isSome := by
  obtain ⟨htctx, -, -, hfin, -⟩ := dripCall_frame hcall
  simp only [dripStep, hheld, hcall, Option.isSome_none, Bool.false_eq_true, if_false]
  rcases writeHandler_spec ngx (hfin.trans hheld) c.2 with ⟨-, hs'⟩ | ⟨hdrips, -⟩
  · rw [hs']
    rfl
  · have := hdrips.1
    rw [htctx] at this
    omega

structure TimerInv (deadline : Nat) (s : DripConn) : Prop where
  deadline_eq : s.tctx.deadline = deadline
  armed : s.finalized = none → ∃ key, s.timer = some key ∧ key ≤ deadline

/-- Once the write timer is in time, every later one is. -/
theorem timerInv_step (h : TimerInv deadline s) (e : DripEvent) :
    TimerInv deadline (dripStep ngx s e) := by
  refine ⟨(dripStep_deadline ngx e).trans h.deadline_eq, fun hopen => ?_⟩
  cases hheld : s.finalized with
  | some rc => simp [dripStep, hheld] at hopen
  | none =>
      obtain ⟨key, hkey, hle⟩ := h.armed hheld
      cases hcall : dripCall s e with
      | none =>
          simp only [dripStep, hheld, hcall, Option.isSome_none, Bool.false_eq_true, if_false]
          split
          · exact ⟨key, hkey, hle⟩
          · exact ⟨key, hkey, hle⟩
      | some c =>
          obtain ⟨htctx, -, -, hfin, -, htimer⟩ := dripCall_frame hcall
          simp only [dripStep, hheld, hcall, Option.isSome_none, Bool.false_eq_true, if_false]
            at hopen ⊢
          rcases writeHandler_spec ngx (hfin.trans hheld) c.2 with
            ⟨-, hs'⟩ | ⟨hdrips, buf, rng, sent, -, -, -, -, -, hsome | ⟨-, -, hset⟩⟩
          · rw [hs'] at hopen
            contradiction
          · rw [hopen] at hsome
            contradiction
          · rw [hset]
            have hlt := hdrips.1
            have hdeadline := h.deadline_eq
            rw [htctx] at hlt ⊢
            apply addTimer_le ngx
            · intro k hk
              cases htimer with
              | inl hsame =>
                  rw [hsame, hkey] at hk
                  obtain rfl := Option.some.inj hk
                  exact hle
              | inr hnone =>
                  rw [hnone] at hk
                  contradiction
            · omega

/-- The lifetime is enforced, in every state of a run, exactly when the delay of
the first tick does not exceed it. -/
theorem tarpit_lifetime_iff (ngx : NgxCore) (env : TarpitEnv) (conf : TarpitConf) (now : Nat)
    (events : List DripEvent) {conn : DripConn}
    (hstart : (sentinelTarpitStart ngx env conf now).conn = some conn) :
    (∀ before, before <+: events →
        TimerKept ngx (now + conf.tarpitMaxLifetime) (Run.exec (dripStep ngx) conn before)) ↔
      conf.tarpitDelay ≤ conf.tarpitMaxLifetime := by
  have hconn := tarpitStart_conn ngx hstart
  constructor
  · intro h
    obtain ⟨key, hkey, hle⟩ := (h [] (List.nil_prefix)).armed (by rw [hconn]; rfl)
    rw [hconn] at hkey
    obtain rfl := Option.some.inj hkey
    omega
  · intro hdelay before _
    have hstart : TimerInv (now + conf.tarpitMaxLifetime) conn := by
      rw [hconn]
      exact ⟨rfl, fun _ => ⟨_, rfl, by omega⟩⟩
    have hinv := Run.exec_invariant (I := TimerInv (now + conf.tarpitMaxLifetime))
      (fun s e h => timerInv_step ngx h e) hstart before
    exact ⟨hinv.armed, fun e c => closes_at_deadline ngx hinv.deadline_eq e⟩

/-- The default delay and lifetime. -/
theorem tarpit_lifetime_default :
    let conf : TarpitConf := ⟨256, 5000, 1024, 30000, false⟩
    let conn : DripConn := ⟨10, ⟨30010, 0, 1024, 5000, [], 7, false⟩, some 5010, none, false, []⟩
    let events : List DripEvent := [.timer 5000 ⟨false, .again, true⟩, .write 9 ⟨false, .ok, true⟩]
    (∀ before, before <+: events →
        TimerKept Ref.ngx (10 + conf.tarpitMaxLifetime) (Run.exec (dripStep Ref.ngx) conn before)) ↔
      conf.tarpitDelay ≤ conf.tarpitMaxLifetime :=
  tarpit_lifetime_iff Ref.ngx ⟨true, some 0, true, true, 0, 7⟩ _ 10 _ rfl

/-- An accepted configuration whose first tick comes 59 s after the deadline. -/
theorem tarpit_first_timer_late :
    let conf : TarpitConf := ⟨256, 60000, 1024, 1000, false⟩
    let conn : DripConn := ⟨10, ⟨1010, 0, 1024, 60000, [], 7, false⟩, some 60010, none, false, []⟩
    conf.Accepted ∧
      (sentinelTarpitStart Ref.ngx ⟨true, some 0, true, true, 0, 7⟩ conf 10).conn = some conn ∧
      ¬ TimerKept Ref.ngx (10 + conf.tarpitMaxLifetime) conn := by
  refine ⟨by decide, by decide, fun h => ?_⟩
  obtain ⟨key, hkey, hle⟩ := h.armed rfl
  obtain rfl := Option.some.inj hkey
  exact absurd hle (by decide)

end Lifetime
end Sentinel
