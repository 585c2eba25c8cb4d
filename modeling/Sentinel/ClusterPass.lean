import Mathlib.Data.List.ReduceOption
import Sentinel.ClusterBans
import Sentinel.RedisCursor

/-!
What a pass of `SCAN` brings. Redis promises that a full iteration, from cursor 0
to cursor 0 with each cursor handed back, returns every key that is there all the
while. A worker's pass is such an iteration, however the events of other workers
and its own ticks fall in between; each key that it returns is asked for; and so
a ban that stays with the server throughout gets into the host's zone, if the
connection lasts and the worker's resources do.
-/

namespace Sentinel
open Function

section Iteration

/-- A `SCAN` that was run: the cursor it came with, the one it was answered with,
and the keys. -/
structure ScanExchange where
  asked : Bytes
  next : Bytes
  keys : List Bytes

/-- Each exchange begins where the one before it ended. -/
def Iterates : Bytes → List ScanExchange → Bytes → Prop
  | a, [], b => a = b
  | a, e :: l, b => e.asked = a ∧ Iterates e.next l b

def FullIteration (l : List ScanExchange) : Prop := l ≠ [] ∧ Iterates (str "0") l (str "0")

theorem iterates_snoc {a : Bytes} {l : List ScanExchange} {e : ScanExchange}
    (h : Iterates a l e.asked) : Iterates a (l ++ [e]) e.next := by
  induction l generalizing a with
  | nil => exact ⟨h.symm, rfl⟩
  | cons e' l ih => exact ⟨h.1, ih h.2⟩

/-- A cursor as Redis writes one: a number of 64 bits in plain digits. -/
def CursorText (s : Bytes) : Prop := Numeral.Canonical ch s ∧ decimal s < 2 ^ 64

/-- Such a cursor goes back to the server as it came, and ends the pass if it is
that of the end. -/
theorem cursorText_parse {s : Bytes} (h : CursorText s) :
    ngxPrint (sentinelRedisParseCursor s).toNat = s ∧
      (sentinelRedisParseCursor s = 0 → s = str "0") := by
  have hall : s.takeWhile isDigit = s := by
    rw [List.takeWhile_eq_self_iff]
    exact List.all_eq_true.mp (allDigits_iff.mpr h.1.digits)
  have hslips : ¬ CursorSlips (s.takeWhile isDigit) := by
    intro hslip
    have hbig := hslip.1
    rw [hall] at hbig
    exact absurd h.2 (Nat.not_lt.mpr hbig)
  have hvalue := (parseCursor_toNat_iff s).mpr hslips
  have hecho : ngxPrint (sentinelRedisParseCursor s).toNat = s := by
    rw [hvalue]
    exact cursor_echoed h.1 h.2
  refine ⟨hecho, fun hzero => ?_⟩
  rw [← hecho, hzero]
  decide

end Iteration
section Exchanges
variable {ι : Type} [DecidableEq ι]

/-- The exchange on a worker's connection that an event makes, if it makes one. -/
def scanExchange (x : ι) (id : Nat) (s : Cluster ι) : ClusterEvent ι → Option ScanExchange
  | .serve y i (.run cursor keys) =>
      if y = x ∧ i = id then
        match s.next x id with
        | some (.scan asked _ _) => some ⟨asked, cursor, keys⟩
        | _ => none
      else none
  | _ => none

/-- The exchanges of a run, in their order. -/
def scanExchanges (pow : PowCore) (conf : ClusterConf ι) (x : ι) (id : Nat) (s : Cluster ι)
    (events : List (ClusterEvent ι)) : List ScanExchange :=
  (Run.outputs (fun s e => (scanExchange x id s e, clusterStep pow conf s e)) s events).reduceOption

end Exchanges
section Connection
variable {ι : Type} [DecidableEq ι] {pow : PowCore} {glob : RedisGlob} {conf : ClusterConf ι}
  {s : Cluster ι}

/-- Every worker's connection is as it is when the worker is alone. -/
def Connected (conf : ClusterConf ι) (s : Cluster ι) : Prop :=
  ∀ x, RedisInv (conf.lcf x) (s.worker x) ∧ (s.worker x).rc.timer.isSome

theorem connected_handle (pow : PowCore) (h : Connected conf s) (x : ι) {e : RedisEvent}
    (he : Deliverable (s.world conf x) e) : Connected conf (s.handle pow conf x e) := by
  intro x'
  by_cases hx : x' = x
  · subst hx
    have hworld : RedisInv (conf.lcf x') (s.world conf x') :=
      inv_frame (h x').1 (s.worker x').rc.timer (s.worker x').rc.conn _
    simp only [Cluster.handle, update_self]
    exact inv_step pow.toNgxCore hworld (h x').2 he
  · simp only [Cluster.handle, update_of_ne hx]
    exact h x'

theorem connected_step (e : ClusterEvent ι) (hallowed : ClusterAllowed glob conf s e)
    (h : Connected conf s) : Connected conf (clusterStep pow conf s e) := by
  cases e with
  | request h' lcf r io early => exact h
  | call h' zone op => exact h
  | take x => exact h
  | tick x now io => exact connected_handle pow h x (e := .timer now _) hallowed
  | connect x ok => exact connected_handle pow h x hallowed
  | close x => exact connected_handle pow h x hallowed
  | destroy x now io => exact connected_handle pow h x hallowed
  | vanish key => exact h
  | foreign key value => exact h
  | serve x id answer =>
      simp only [clusterStep]
      split
      · exact h
      · exact h
  | deliver x now io =>
      obtain ⟨c, hc, hcan⟩ := hallowed
      have hcontext : (s.worker x).context = some c := hc
      simp only [clusterStep, hcontext]
      split
      · exact h
      next r rest _ =>
        exact connected_handle pow h x (e := .reply r now io) ⟨c, hc, hcan⟩
  | respawn x =>
      intro x'
      simp only [clusterStep]
      by_cases hx : x' = x
      · subst hx
        rw [update_self]
        have hfirst := (h x').1.first
        exact ⟨inv_of_down ⟨rfl, ⟨Nat.le_refl _, backoff_min_le_max⟩, Nat.zero_le 1, hfirst⟩ rfl rfl
          (fun _ => rfl) (fun c hc => absurd hc (by simp [sentinelRedisInitProcess])), rfl⟩
      · rw [update_of_ne hx]
        exact h x'

theorem connected_run {events : List (ClusterEvent ι)}
    (hrun : Run.Along (ClusterAllowed glob conf) (clusterStep pow conf) (clusterStart conf)
      events) :
    Connected conf (Run.exec (clusterStep pow conf) (clusterStart conf) events) :=
  Run.exec_invariant_along (fun _ e hallowed h => connected_step e hallowed h) hrun
    fun _ => ⟨inv_init _ _ _ _, rfl⟩

end Connection
section Linked
variable {asks : Bool × RedisCallback → RedisCommand → Prop}
  {answers : Bool × RedisCallback → RedisReply → Prop} {lcf : RedisConf} {csZone : Option Zone}
  {id served : Nat} {w w' : RedisWorld} {inbox rest : List RedisReply}
  {calls : List (Bool × RedisCallback)} {u : Bool × RedisCallback} {command : RedisCommand}

/-- The worker's connection `id` is open and in use, and the calls that it waits
for, each with a mark, are matched with what is on the wire. -/
structure Linked (asks : Bool × RedisCallback → RedisCommand → Prop)
    (answers : Bool × RedisCallback → RedisReply → Prop) (lcf : RedisConf) (csZone : Option Zone)
    (id : Nat) (w : RedisWorld) (served : Nat) (inbox : List RedisReply)
    (calls : List (Bool × RedisCallback)) : Prop where
  conf : w.rc.lcf = lcf ∧ w.rc.csZone = csZone
  context : ∃ c, w.context = some c ∧ c.id = id ∧ c.closing = false ∧
    c.replies = calls.map Prod.snd
  ready : w.rc.ac = some id ∧ w.rc.state = .up ∧ w.rc.authPending = false
  counted : served ≤ (issuedOn id w.log).length
  matched : Pipeline.Matched asks answers calls inbox ((issuedOn id w.log).drop served)

theorem redisAsyncCommand_refused (w : RedisWorld) (fn : RedisCallback) (command : RedisCommand) :
    redisAsyncCommand w false fn command = (false, w) := by
  cases hc : w.context with
  | none => simp [redisAsyncCommand, hc]
  | some c => simp [redisAsyncCommand, hc]

/-- An open connection takes a command, if there is memory for it. -/
theorem linked_command (h : Linked asks answers lcf csZone id w served inbox calls)
    (hask : asks u command) :
    let r := redisAsyncCommand w true u.2 command
    r.1 = true ∧ r.2.rc = w.rc ∧
      Linked asks answers lcf csZone id r.2 served inbox (calls ++ [u]) := by
  obtain ⟨c, hc, rfl, hopen, hreplies⟩ := h.context
  have hissued : redisAsyncCommand w true u.2 command = (true, { w with
      context := some { c with replies := c.replies ++ [u.2] }
      log := w.log ++ [.issued c.id command] }) := by
    rw [redisAsyncCommand, hc]
    exact if_pos ⟨h.ready.1, hopen, rfl⟩
  rw [hissued]
  refine ⟨rfl, rfl, h.conf, ⟨_, rfl, rfl, hopen, ?_⟩, h.ready, ?_, ?_⟩
  · rw [List.map_append, hreplies]
    rfl
  · dsimp only
    rw [issuedOn_issued, List.length_append]
    exact Nat.le_add_right_of_le h.counted
  · dsimp only
    rw [issuedOn_issued, if_pos rfl, List.drop_append_of_le_length h.counted]
    exact h.matched.issue hask

/-- The next reply is for the oldest call, whose callback runs. -/
theorem linked_reply (ngx : NgxCore) {r : RedisReply} (now : Nat) (io : RedisIo)
    (h : Linked asks answers lcf csZone id w served (r :: rest) calls) :
    ∃ v calls' w₁, calls = v :: calls' ∧ answers v r ∧ w₁.rc = w.rc ∧ w₁.sh = w.sh ∧
      Linked asks answers lcf csZone id w₁ served rest calls' ∧
      redisStep ngx w (.reply r now io) = runCallback ngx w₁ v.2 (some r) now io := by
  obtain ⟨c, hc, rfl, hopen, hreplies⟩ := h.context
  obtain ⟨v, calls', rfl, hanswer, hrest⟩ := h.matched.deliver
  have hstep : ∀ log, issuedOn c.id log = issuedOn c.id w.log →
      Linked asks answers lcf csZone c.id
        { w with context := some { c with replies := calls'.map Prod.snd }, log } served rest
        calls' := by
    intro log hlog
    refine ⟨h.conf, ⟨_, rfl, rfl, hopen, rfl⟩, h.ready, ?_, ?_⟩
    · dsimp only
      rw [hlog]
      exact h.counted
    · dsimp only
      rw [hlog]
      exact hrest
  rw [List.map_cons] at hreplies
  simp only [redisStep, hc, hreplies]
  refine ⟨v, calls', _, rfl, hanswer, ?_, ?_, hstep _ ?_, rfl⟩
  · rfl
  · rfl
  · split
    · exact issuedOn_authenticated c.id c.id w.log
    · rfl

/-- The server runs the next command of the connection. -/
theorem linked_serve (h : Linked asks answers lcf csZone id w served inbox calls)
    (hnext : (issuedOn id w.log)[served]? = some command) :
    ∃ a v b, calls = a ++ v :: b ∧ asks v command ∧
      ∀ (asks' : Bool × RedisCallback → RedisCommand → Prop)
        (answers' : Bool × RedisCallback → RedisReply → Prop) (r : RedisReply),
        (∀ u ∈ a, ∀ r', answers u r' → answers' u r') →
        (∀ u ∈ b, ∀ c, asks u c → asks' u c) → answers' v r →
        Linked asks' answers' lcf csZone id w (served + 1) (inbox ++ [r]) calls := by
  obtain ⟨hlt, hcommand⟩ := List.getElem?_eq_some_iff.mp hnext
  have hmatched := h.matched
  rw [List.drop_eq_getElem_cons hlt, hcommand] at hmatched
  obtain ⟨a, v, b, hcalls, hask, hserve⟩ := hmatched.serve_cases
  refine ⟨a, v, b, hcalls, hask, ?_⟩
  intro asks' answers' r hbefore hafter hanswer
  exact ⟨h.conf, h.context, h.ready, hlt, hserve asks' answers' r hbefore hafter hanswer⟩

/-- A flush makes `SET` calls and nothing else. -/
theorem linked_flushLoop (hset : ∀ key value ttl, asks (false, .set) (.set key value ttl))
    (now : Nat) (command : Nat → Bool) (entries : List PushEntry) :
    ∀ {w : RedisWorld} {calls : List (Bool × RedisCallback)} (i : Nat),
      Linked asks answers lcf csZone id w served inbox calls →
      ∃ n, (flushLoop now command w i entries).rc = w.rc ∧
        Linked asks answers lcf csZone id (flushLoop now command w i entries) served inbox
          (calls ++ List.replicate n (false, .set)) := by
  induction entries with
  | nil =>
      intro w calls i h
      exact ⟨0, rfl, (List.append_nil calls).symm ▸ h⟩
  | cons e entries ih =>
      intro w calls i h
      simp only [flushLoop]
      split
      · exact ih i h
      · cases command i with
        | false =>
            rw [redisAsyncCommand_refused]
            exact ⟨0, rfl, (List.append_nil calls).symm ▸ h⟩
        | true =>
            obtain ⟨-, hrc, hlinked⟩ := linked_command h (u := (false, .set)) (hset
              (redisKey w.rc.lcf.keyPrefix e.ip) (redisValue e.action e.expiry.toNat)
              ((e.expiry - now).bmod (2 ^ 32)))
            split
            · exact ⟨1, hrc, hlinked⟩
            · obtain ⟨n, hrc', hrest⟩ := ih (i + 1) hlinked
              refine ⟨n + 1, hrc'.trans hrc, ?_⟩
              rwa [List.append_assoc] at hrest

theorem linked_flushPush (h : Linked asks answers lcf csZone id w served inbox calls)
    (hset : ∀ key value ttl, asks (false, .set) (.set key value ttl)) (now : Nat) (io : RedisIo) :
    ∃ n, (sentinelRedisFlushPush w now io).rc = w.rc ∧
      Linked asks answers lcf csZone id (sentinelRedisFlushPush w now io) served inbox
        (calls ++ List.replicate n (false, .set)) := by
  simp only [sentinelRedisFlushPush]
  split
  · exact ⟨0, rfl, (List.append_nil calls).symm ▸ h⟩
  · exact linked_flushLoop hset now io.command io.drained 0 h

end Linked
section Steps
variable {ι : Type} [DecidableEq ι] {pow : PowCore} {glob : RedisGlob} {conf : ClusterConf ι}
  {x : ι} {id : Nat} {s : Cluster ι} {e : ClusterEvent ι}

/-- The worker uses its connection `id`, which is not being closed. -/
def Opened (x : ι) (id : Nat) (s : Cluster ι) : Prop :=
  (s.worker x).rc.ac = some id ∧
    ∃ c, (s.worker x).context = some c ∧ c.id = id ∧ c.closing = false

/-- What a worker knows of its connection is as it was. -/
structure SameLink (w w' : RedisWorld) : Prop where
  conf : w'.rc.lcf = w.rc.lcf ∧ w'.rc.csZone = w.rc.csZone
  ready : w'.rc.ac = w.rc.ac ∧ w'.rc.state = w.rc.state ∧ w'.rc.authPending = w.rc.authPending
  flight : w'.rc.pullInflight = w.rc.pullInflight
  log : w'.log = w.log
  context : ∀ c, w.context = some c →
    ∃ c', w'.context = some c' ∧ c'.id = c.id ∧ c'.closing = c.closing ∧ c'.replies = c.replies

theorem SameLink.linked {asks : Bool × RedisCallback → RedisCommand → Prop}
    {answers : Bool × RedisCallback → RedisReply → Prop} {lcf : RedisConf} {csZone : Option Zone}
    {w w' : RedisWorld} {served : Nat} {inbox : List RedisReply}
    {calls : List (Bool × RedisCallback)} (hsame : SameLink w w')
    (h : Linked asks answers lcf csZone id w served inbox calls) :
    Linked asks answers lcf csZone id w' served inbox calls := by
  obtain ⟨c, hc, hid, hopen, hreplies⟩ := h.context
  obtain ⟨c', hc', hid', hopen', hreplies'⟩ := hsame.context c hc
  refine ⟨⟨hsame.conf.1.trans h.conf.1, hsame.conf.2.trans h.conf.2⟩,
    ⟨c', hc', hid'.trans hid, hopen'.trans hopen, hreplies'.trans hreplies⟩,
    ⟨hsame.ready.1.trans h.ready.1, hsame.ready.2.1.trans h.ready.2.1,
      hsame.ready.2.2.trans h.ready.2.2⟩, ?_, ?_⟩
  · rw [hsame.log]
    exact h.counted
  · rw [hsame.log]
    exact h.matched

theorem SameLink.of_eq {w w' : RedisWorld} (hrc : w'.rc = w.rc) (hlog : w'.log = w.log)
    (hcontext : w'.context = w.context) : SameLink w w' := by
  refine ⟨?_, ?_, ?_, hlog, ?_⟩
  · rw [hrc]
    exact ⟨rfl, rfl⟩
  · rw [hrc]
    exact ⟨rfl, rfl, rfl⟩
  · rw [hrc]
  · intro c hc
    exact ⟨c, hcontext.trans hc, rfl, rfl, rfl⟩

/-- What a step can be to a connection that is open before it and after it. -/
inductive LinkStep (pow : PowCore) (conf : ClusterConf ι) (x : ι) (id : Nat) (s : Cluster ι) :
    ClusterEvent ι → Prop where
  | quiet (e : ClusterEvent ι) (hsame : SameLink (s.worker x) ((clusterStep pow conf s e).worker x))
      (hserved : (clusterStep pow conf s e).served x id = s.served x id)
      (hinbox : (clusterStep pow conf s e).inbox x id = s.inbox x id)
      (hscan : scanExchange x id s e = none) : LinkStep pow conf x id s e
  | tick (now : Nat) (io : RedisIo) : LinkStep pow conf x id s (.tick x now io)
  | reply (now : Nat) (io : RedisIo) (r : RedisReply) (rest : List RedisReply)
      (hbox : s.inbox x id = r :: rest)
      (hstep : clusterStep pow conf s (.deliver x now io) =
        { s.handle pow conf x (.reply r now io) with
          inbox := update s.inbox x (update (s.inbox x) id rest) }) :
      LinkStep pow conf x id s (.deliver x now io)
  | serve (answer : ServerAnswer) (command : RedisCommand) (hnext : s.next x id = some command) :
      LinkStep pow conf x id s (.serve x id answer)

theorem giveUp_ac (w : RedisWorld) :
    (sentinelRedisScheduleReconnect (sentinelRedisTeardown w)).rc.ac = none := by
  simp only [sentinelRedisScheduleReconnect, sentinelRedisTeardown]
  cases w.rc.ac with
  | some id => rfl
  | none =>
      dsimp only
      split
      · rfl
      · rfl

theorem linkStep_cases (hopen : Opened x id s) (hup : (s.worker x).rc.state = .up)
    (hallowed : ClusterAllowed glob conf s e) (hafter : Opened x id (clusterStep pow conf s e)) :
    LinkStep pow conf x id s e := by
  obtain ⟨hac, c, hc, hid, hclosing⟩ := hopen
  have hother : ∀ y e', y ≠ x → SameLink (s.worker x) ((s.handle pow conf y e').worker x) := by
    intro y e' hy
    simp only [Cluster.handle, update_of_ne (Ne.symm hy)]
    exact .of_eq rfl rfl rfl
  cases e with
  | request h lcf r io early => exact .quiet _ (.of_eq rfl rfl rfl) rfl rfl rfl
  | call h zone op => exact .quiet _ (.of_eq rfl rfl rfl) rfl rfl rfl
  | take y => exact .quiet _ (.of_eq rfl rfl rfl) rfl rfl rfl
  | vanish key => exact .quiet _ (.of_eq rfl rfl rfl) rfl rfl rfl
  | foreign key value => exact .quiet _ (.of_eq rfl rfl rfl) rfl rfl rfl
  | tick y now io =>
      by_cases hy : y = x
      · subst hy
        exact .tick now io
      · exact .quiet _ (hother y _ hy) rfl rfl rfl
  | connect y ok =>
      by_cases hy : y = x
      · subst hy
        have hworld : (s.world conf y).context = some c := hc
        cases ok with
        | true =>
            refine .quiet _ ?_ rfl rfl rfl
            simp only [clusterStep, Cluster.handle, update_self, redisStep, hworld,
              sentinelRedisOnConnect, if_true]
            refine ⟨⟨rfl, rfl⟩, ⟨rfl, hup.symm, rfl⟩, rfl, rfl, ?_⟩
            intro c' hc'
            rw [← Option.some.inj (hc.symm.trans hc')]
            exact ⟨_, rfl, rfl, rfl, rfl⟩
        | false =>
            have hnone : ((clusterStep pow conf s (.connect y false)).worker y).rc.ac = none := by
              simp only [clusterStep, Cluster.handle, update_self, redisStep, hworld,
                sentinelRedisOnConnect, Bool.false_eq_true, if_false]
              exact giveUp_ac _
            exact absurd (hafter.1.symm.trans hnone) (by simp)
      · exact .quiet _ (hother y _ hy) rfl rfl rfl
  | deliver y now io =>
      by_cases hy : y = x
      · subst hy
        cases hbox : s.inbox y id with
        | nil =>
            have hstep : clusterStep pow conf s (.deliver y now io) = s := by
              simp only [clusterStep, hc, hid, hbox]
            refine .quiet _ ?_ ?_ ?_ rfl
            · rw [hstep]
              exact .of_eq rfl rfl rfl
            · rw [hstep]
            · rw [hstep]
        | cons r rest =>
            refine .reply now io r rest hbox ?_
            simp only [clusterStep, hc, hid, hbox]
      · have hstep : SameLink (s.worker x) ((clusterStep pow conf s (.deliver y now io)).worker x) ∧
            (clusterStep pow conf s (.deliver y now io)).served x id = s.served x id ∧
            (clusterStep pow conf s (.deliver y now io)).inbox x id = s.inbox x id := by
          simp only [clusterStep]
          split
          · exact ⟨.of_eq rfl rfl rfl, rfl, rfl⟩
          · split
            · exact ⟨.of_eq rfl rfl rfl, rfl, rfl⟩
            · refine ⟨hother y _ hy, rfl, ?_⟩
              dsimp only
              rw [update_of_ne (Ne.symm hy)]
        exact .quiet _ hstep.1 hstep.2.1 hstep.2.2 rfl
  | close y =>
      by_cases hy : y = x
      · subst hy
        have hworld : (s.world conf y).context = some c := hc
        obtain ⟨-, c', hc', hid', hopen'⟩ := hafter
        simp only [clusterStep, Cluster.handle, update_self, redisStep, hworld] at hc'
        obtain ⟨c'', hc'', -, -, -, hclosed⟩ := redisAsyncFree_context _ c.id hc'
        have hsame : c'' = c := Option.some.inj (hc''.symm.trans hworld)
        exact absurd ((hclosed.mpr (.inr (by rw [hsame]))).symm.trans hopen') (by simp)
      · exact .quiet _ (hother y _ hy) rfl rfl rfl
  | destroy y now io =>
      by_cases hy : y = x
      · subst hy
        have hclosed : (s.world conf y).closing = true := hallowed
        rw [RedisWorld.closing, show (s.world conf y).context = some c from hc] at hclosed
        exact absurd (hclosing.symm.trans hclosed) (by simp)
      · exact .quiet _ (hother y _ hy) rfl rfl rfl
  | respawn y =>
      by_cases hy : y = x
      · subst hy
        have hnone : ((clusterStep pow conf s (.respawn y)).worker y).rc.ac = none := by
          simp [clusterStep, sentinelRedisInitProcess]
        exact absurd (hafter.1.symm.trans hnone) (by simp)
      · refine .quiet _ ?_ rfl rfl rfl
        simp only [clusterStep, update_of_ne (Ne.symm hy)]
        exact .of_eq rfl rfl rfl
  | serve y i answer =>
      by_cases hyi : y = x ∧ i = id
      · obtain ⟨rfl, rfl⟩ := hyi
        cases hnext : s.next y i with
        | none =>
            have hstep : clusterStep pow conf s (.serve y i answer) = s := by
              simp only [clusterStep, hnext]
            refine .quiet _ ?_ ?_ ?_ ?_
            · rw [hstep]
              exact .of_eq rfl rfl rfl
            · rw [hstep]
            · rw [hstep]
            · cases answer with
              | refuse e => rfl
              | run cursor keys => simp [scanExchange, hnext]
        | some command => exact .serve answer command hnext
      · have hstep : (clusterStep pow conf s (.serve y i answer)).worker = s.worker ∧
            (clusterStep pow conf s (.serve y i answer)).served x id = s.served x id ∧
            (clusterStep pow conf s (.serve y i answer)).inbox x id = s.inbox x id := by
          have hupdate : ∀ {β : Type} (f : ι → Nat → β) (b : β),
              update f y (update (f y) i b) x id = f x id := by
            intro β f b
            by_cases hy : y = x
            · subst hy
              rw [update_self, update_of_ne fun hi => hyi ⟨rfl, hi.symm⟩]
            · rw [update_of_ne (Ne.symm hy)]
          simp only [clusterStep]
          split
          · exact ⟨rfl, rfl, rfl⟩
          · exact ⟨rfl, hupdate s.served _, hupdate s.inbox _⟩
        refine .quiet _ ?_ hstep.2.1 hstep.2.2 ?_
        · rw [hstep.1]
          exact .of_eq rfl rfl rfl
        · cases answer with
          | refuse e => rfl
          | run cursor keys => simp only [scanExchange, if_neg hyi]

end Steps
section Pass

/-- The value that a host publishes for an entry. -/
def PushEntry.value (ban : PushEntry) : Bytes := redisValue ban.action ban.expiry.toNat

variable (keyStart : Bytes) (ban : PushEntry) (l : List ScanExchange)

/-- A marked call is a `GET` for the ban that is looked for. -/
def banAsks (u : Bool × RedisCallback) (command : RedisCommand) : Prop :=
  u.1 = true → command = .get (keyStart ++ ban.ip)

def banAnswers (u : Bool × RedisCallback) (r : RedisReply) : Prop :=
  u.1 = true → RedisReply.text (some r) = some ban.value

/-- In a pass, a `SCAN` goes on from the exchanges so far. -/
def passAsks (u : Bool × RedisCallback) (command : RedisCommand) : Prop :=
  match u.2 with
  | .scan => ∃ asked pattern count, command = .scan asked pattern count ∧
      pattern = keyStart ++ [redisSigns.star] ∧ Iterates (str "0") l asked
  | _ => (∀ c pattern count, command ≠ .scan c pattern count) ∧ banAsks keyStart ban u command

def passAnswers (u : Bool × RedisCallback) (r : RedisReply) : Prop :=
  match u.2 with
  | .scan => ∃ (cursor : Bytes) (keys : List Bytes),
      r = .array [.string cursor, .array (keys.map .string)] ∧ CursorText cursor ∧ l ≠ [] ∧
        Iterates (str "0") l cursor ∧ ∀ k ∈ keys, keyStart <+: k
  | _ => r.keys = [] ∧ banAnswers ban u r

theorem passAsks_other {u : Bool × RedisCallback} (hu : u.2 ≠ .scan) (command : RedisCommand) :
    passAsks keyStart ban l u command ↔ (∀ c pattern count, command ≠ .scan c pattern count) ∧
      banAsks keyStart ban u command := by
  obtain ⟨marked, fn⟩ := u
  cases fn with
  | scan => exact absurd rfl hu
  | auth => rfl
  | get ipcopy => rfl
  | set => rfl

theorem passAnswers_other {u : Bool × RedisCallback} (hu : u.2 ≠ .scan) (r : RedisReply) :
    passAnswers keyStart ban l u r ↔ r.keys = [] ∧ banAnswers ban u r := by
  obtain ⟨marked, fn⟩ := u
  cases fn with
  | scan => exact absurd rfl hu
  | auth => rfl
  | get ipcopy => rfl
  | set => rfl

/-- How many `SCAN`s are outstanding. -/
def scanCalls (calls : List (Bool × RedisCallback)) : Nat := (calls.map Prod.snd).count .scan

variable {calls calls' : List (Bool × RedisCallback)} {u : Bool × RedisCallback}

theorem scanCalls_append : scanCalls (calls ++ calls') = scanCalls calls + scanCalls calls' := by
  rw [scanCalls, List.map_append, List.count_append]
  rfl

theorem scanCalls_eq_zero : scanCalls calls = 0 ↔ ∀ u ∈ calls, u.2 ≠ .scan := by
  rw [scanCalls, List.count_eq_zero]
  constructor
  · exact fun h u hu hscan => h (hscan ▸ List.mem_map_of_mem hu)
  · intro h hmem
    obtain ⟨u, hu, hscan⟩ := List.mem_map.mp hmem
    exact h u hu hscan

theorem scanCalls_cons :
    scanCalls (u :: calls) = scanCalls calls + if u.2 = .scan then 1 else 0 := by
  rw [scanCalls, List.map_cons, List.count_cons]
  simp [scanCalls]

/-- A worker in a pass: there is one `SCAN`, or the pass is over. -/
structure InPass (lcf : RedisConf) (csZone : Option Zone) (id : Nat) (w : RedisWorld)
    (served : Nat) (inbox : List RedisReply) (calls : List (Bool × RedisCallback)) : Prop where
  linked : Linked (passAsks keyStart ban l) (passAnswers keyStart ban l) lcf csZone id w served
    inbox calls
  chain : if w.rc.pullInflight then scanCalls calls = 1
    else scanCalls calls = 0 ∧ FullIteration l

/-- Once the key of the ban has been in an exchange, a reply with it is on its way
or the ban has been asked for. -/
def Sought (inbox : List RedisReply) (calls : List (Bool × RedisCallback)) : Prop :=
  (∃ e ∈ l, keyStart ++ ban.ip ∈ e.keys) →
    (∃ r ∈ inbox, .string (keyStart ++ ban.ip) ∈ r.keys) ∨ (true, .get ban.ip) ∈ calls

/-- The ban's key is one of which the worker makes the ban's address. -/
structure Keyed (plen : Nat) : Prop where
  length : plen = keyStart.length
  ip : redisKeyIp plen (keyStart ++ ban.ip) = some ban.ip
  nonul : cString (keyStart ++ ban.ip) = keyStart ++ ban.ip

/-- Nothing that a worker does for a pass fails for want of memory. -/
structure RedisIo.Fine (io : RedisIo) : Prop where
  scan : io.scan = true
  command : ∀ i, io.command i = true
  alloc : ∀ i, io.alloc i = true
  slab : io.slab = true

variable {keyStart ban l} {lcf : RedisConf} {csZone : Option Zone} {id : Nat} {w : RedisWorld}
  {served : Nat} {inbox : List RedisReply}

/-- Each key of a reply is asked for. -/
theorem linked_scanKeys {io : RedisIo} (hfine : io.Fine) {plen : Nat}
    (hban : Keyed keyStart ban plen) (keys : List Bytes) (hkeys : ∀ k ∈ keys, keyStart <+: k) :
    ∀ {w : RedisWorld} {calls : List (Bool × RedisCallback)} (i : Nat),
      Linked (passAsks keyStart ban l) (passAnswers keyStart ban l) lcf csZone id w served inbox
        calls →
      let w' := scanKeys plen io w i (keys.map .string)
      ∃ gets, scanCalls gets = 0 ∧ w'.rc = w.rc ∧
        Linked (passAsks keyStart ban l) (passAnswers keyStart ban l) lcf csZone id w' served inbox
          (calls ++ gets) ∧
        (keyStart ++ ban.ip ∈ keys → (true, .get ban.ip) ∈ gets) := by
  induction keys with
  | nil =>
      intro w calls i h
      exact ⟨[], rfl, rfl, (List.append_nil calls).symm ▸ h, fun hk => absurd hk List.not_mem_nil⟩
  | cons k keys ih =>
      intro w calls i h
      have hrest := fun k' hk' => hkeys k' (List.mem_cons_of_mem k hk')
      cases hip : redisKeyIp plen k with
      | none =>
          simp only [List.map_cons, scanKeys, hip]
          obtain ⟨gets, hgets, hrc, hlinked, hmem⟩ := ih hrest (i + 1) h
          refine ⟨gets, hgets, hrc, hlinked, fun hk => hmem ?_⟩
          cases List.mem_cons.mp hk with
          | inl hfirst => exact absurd (hip.symm.trans (hfirst ▸ hban.ip)) (by simp)
          | inr hlater => exact hlater
      | some ipcopy =>
          have hask : passAsks keyStart ban l (decide (k = keyStart ++ ban.ip), .get ipcopy)
              (.get (cString k)) := by
            refine ⟨by simp, fun hmark => ?_⟩
            rw [of_decide_eq_true hmark, hban.nonul]
          obtain ⟨-, hrc, hget⟩ := linked_command h hask
          simp only [List.map_cons, scanKeys, hip, hfine.alloc i, hfine.command i,
            Bool.true_eq_false, if_false]
          obtain ⟨gets, hgets, hrc', hlinked, hmem⟩ := ih hrest (i + 1) hget
          refine ⟨(decide (k = keyStart ++ ban.ip), .get ipcopy) :: gets, ?_, hrc'.trans hrc, ?_,
            fun hin => ?_⟩
          · rw [scanCalls_cons, hgets, if_neg (by simp)]
          · rwa [List.append_assoc] at hlinked
          · cases List.mem_cons.mp hin with
            | inl hfirst =>
                have hsame : some ban.ip = some ipcopy := hban.ip.symm.trans (hfirst ▸ hip)
                rw [← hfirst, Option.some.inj hsame, decide_eq_true rfl]
                exact List.mem_cons_self
            | inr hlater => exact List.mem_cons_of_mem _ (hmem hlater)

/-- The next `SCAN` of a pass goes out. -/
theorem linked_pullStep {io : RedisIo} (hfine : io.scan = true)
    (hpattern : ∀ stack, redisPattern lcf.keyPrefix stack = keyStart ++ [redisSigns.star])
    (h : Linked (passAsks keyStart ban l) (passAnswers keyStart ban l) lcf csZone id w served inbox
      calls)
    (hcursor : Iterates (str "0") l (ngxPrint w.rc.scanCursor.toNat)) :
    (sentinelRedisPullStep w io).rc = w.rc ∧
      Linked (passAsks keyStart ban l) (passAnswers keyStart ban l) lcf csZone id
        (sentinelRedisPullStep w io) served inbox (calls ++ [(false, .scan)]) := by
  obtain ⟨hac, hstate, -⟩ := h.ready
  have hask : passAsks keyStart ban l (false, .scan) (.scan (ngxPrint w.rc.scanCursor.toNat)
      (redisPattern w.rc.lcf.keyPrefix io.stack) ngxSentinelRedisScanCount) := by
    refine ⟨_, _, _, rfl, ?_, hcursor⟩
    rw [h.conf.1]
    exact hpattern io.stack
  obtain ⟨hsent, hrc, hscan⟩ := linked_command h hask
  have hready : ¬ (w.rc.ac = none ∨ w.rc.state ≠ .up) := by simp [hac, hstate]
  simp only [sentinelRedisPullStep, if_neg hready, hfine]
  rw [if_pos hsent]
  exact ⟨hrc, hscan⟩

/-- A reply of the server to `SCAN` brings the next one, or the end of the pass. -/
theorem inPass_scanReply {io : RedisIo} (hfine : io.Fine)
    (hpattern : ∀ stack, redisPattern lcf.keyPrefix stack = keyStart ++ [redisSigns.star])
    (hban : Keyed keyStart ban (redisPlen lcf.keyPrefix))
    (h : Linked (passAsks keyStart ban l) (passAnswers keyStart ban l) lcf csZone id w served inbox
      calls)
    (hflight : w.rc.pullInflight = true) (hnone : scanCalls calls = 0) {r : RedisReply}
    (hr : passAnswers keyStart ban l (false, .scan) r) :
    ∃ calls', InPass keyStart ban l lcf csZone id (sentinelRedisScanReply w (some r) io) served
      inbox calls' ∧
      (((∃ e ∈ l, keyStart ++ ban.ip ∈ e.keys) → .string (keyStart ++ ban.ip) ∈ r.keys ∨
        (∃ r ∈ inbox, .string (keyStart ++ ban.ip) ∈ r.keys) ∨ (true, .get ban.ip) ∈ calls) →
        Sought keyStart ban l inbox calls') := by
  obtain ⟨cursor, keys, rfl, htext, hsome, hiterates, hkeys⟩ := hr
  obtain ⟨hecho, hend⟩ := cursorText_parse htext
  have hset : Linked (passAsks keyStart ban l) (passAnswers keyStart ban l) lcf csZone id
      { w with rc := { w.rc with scanCursor := sentinelRedisParseCursor cursor } } served inbox
      calls := ⟨h.conf, h.context, h.ready, h.counted, h.matched⟩
  have hplen : Keyed keyStart ban (redisPlen w.rc.lcf.keyPrefix) := by
    rw [h.conf.1]
    exact hban
  obtain ⟨gets, hgets, hrc, hlinked, hmem⟩ := linked_scanKeys hfine hplen keys hkeys 0 hset
  have hkey : ((∃ e ∈ l, keyStart ++ ban.ip ∈ e.keys) →
      .string (keyStart ++ ban.ip) ∈
        (RedisReply.array [.string cursor, .array (keys.map .string)]).keys ∨
      (∃ r ∈ inbox, .string (keyStart ++ ban.ip) ∈ r.keys) ∨ (true, .get ban.ip) ∈ calls) →
      Sought keyStart ban l inbox (calls ++ gets) := by
    intro hreturned hexchanged
    cases hreturned hexchanged with
    | inl hhere =>
        refine .inr (List.mem_append_right _ (hmem ?_))
        simpa [RedisReply.keys, RedisReply.elements] using hhere
    | inr hbefore =>
        cases hbefore with
        | inl hbox => exact .inl hbox
        | inr hcalled => exact .inr (List.mem_append_left _ hcalled)
  have hreply : ∀ w', w' = scanKeys (redisPlen w.rc.lcf.keyPrefix) io
      { w with rc := { w.rc with scanCursor := sentinelRedisParseCursor cursor } } 0
      (keys.map .string) →
      sentinelRedisScanReply w (some (.array [.string cursor, .array (keys.map .string)])) io =
        if w'.rc.scanCursor ≠ 0 then sentinelRedisPullStep w' io
        else { w' with rc := { w'.rc with pullInflight := false } } :=
    fun w' hw' => hw' ▸ rfl
  generalize scanKeys (redisPlen w.rc.lcf.keyPrefix) io
    { w with rc := { w.rc with scanCursor := sentinelRedisParseCursor cursor } } 0
    (keys.map .string) = w' at hrc hlinked hreply
  rw [hreply w' rfl]
  have hcursor : w'.rc.scanCursor = sentinelRedisParseCursor cursor := by rw [hrc]
  have hflight' : w'.rc.pullInflight = true := by rw [hrc, hflight]
  split
  · obtain ⟨hrc', hscan⟩ := linked_pullStep hfine.scan hpattern hlinked (by rwa [hcursor, hecho])
    refine ⟨_, ⟨hscan, ?_⟩, fun hreturned hexchanged => ?_⟩
    · rw [hrc', if_pos hflight', scanCalls_append, scanCalls_append, hnone, hgets]
      rfl
    · exact (hkey hreturned hexchanged).imp_right (List.mem_append_left _)
  next hzero =>
    have hlast : cursor = str "0" := hend (hcursor ▸ not_ne_iff.mp hzero)
    refine ⟨calls ++ gets, ⟨⟨hlinked.conf, hlinked.context, hlinked.ready, hlinked.counted,
      hlinked.matched⟩, ?_⟩, hkey⟩
    rw [if_neg (by simp), scanCalls_append, hnone, hgets]
    exact ⟨rfl, hsome, hlast ▸ hiterates⟩

/-- A tick of a worker that is connected. -/
theorem timerHandler_up {w : RedisWorld} (hup : w.rc.state = .up)
    (hauth : w.rc.authPending = false) (now : Nat) (io : RedisIo) :
    sentinelRedisTimerHandler w now io =
      let w := sentinelRedisFlushPush { w with rc := { w.rc with timer := none } } now io
      let w := if w.rc.pullInflight then w else sentinelRedisPullStep
        { w with rc := { w.rc with pullInflight := true, scanCursor := 0 } } io
      if w.rc.state = .up ∨ w.rc.state = .connecting then
        { w with rc := { w.rc with timer := some (w.rc.lcf.interval * 1000) } }
      else w := by
  simp only [sentinelRedisTimerHandler, redisTick, hup, hauth, Bool.false_eq_true, if_false]

/-- A tick in a pass flushes the ring and does nothing else. -/
theorem inPass_timer (h : InPass keyStart ban l lcf csZone id w served inbox calls)
    (hflight : w.rc.pullInflight = true) (now : Nat) (io : RedisIo) :
    ∃ calls', InPass keyStart ban l lcf csZone id (sentinelRedisTimerHandler w now io) served inbox
      calls' ∧ (Sought keyStart ban l inbox calls → Sought keyStart ban l inbox calls') := by
  have hset : Linked (passAsks keyStart ban l) (passAnswers keyStart ban l) lcf csZone id
      { w with rc := { w.rc with timer := none } } served inbox calls :=
    ⟨h.linked.conf, h.linked.context, h.linked.ready, h.linked.counted, h.linked.matched⟩
  obtain ⟨n, hrc, hflush⟩ := linked_flushPush hset
    (fun key value ttl => ⟨fun c pattern count => nofun, nofun⟩) now io
  have hsets : scanCalls (List.replicate n (false, .set)) = 0 :=
    scanCalls_eq_zero.mpr fun u hu => List.eq_of_mem_replicate hu ▸ nofun
  rw [timerHandler_up h.linked.ready.2.1 h.linked.ready.2.2]
  generalize sentinelRedisFlushPush { w with rc := { w.rc with timer := none } } now io = w'
    at hrc hflush
  have hflight' : w'.rc.pullInflight = true := by rw [hrc, hflight]
  simp only [hflight', if_true, hflush.ready.2.1, true_or]
  refine ⟨_, ⟨⟨hflush.conf, hflush.context, ⟨hflush.ready.1, rfl, hflush.ready.2.2⟩,
    hflush.counted, hflush.matched⟩, ?_⟩, ?_⟩
  · have hchain := h.chain
    rw [if_pos hflight] at hchain
    simp only [if_true, scanCalls_append, hsets, hchain]
  · exact fun hsought hexchanged => (hsought hexchanged).imp_right (List.mem_append_left _)

/-- The server runs a command in a pass. -/
theorem inPass_serve {served : Nat} (h : InPass keyStart ban l lcf csZone id w served inbox calls)
    {command : RedisCommand} (hnext : (issuedOn id w.log)[served]? = some command) :
    (∀ c pattern count, command ≠ .scan c pattern count) ∧
        (∀ r, r.keys = [] → (command = .get (keyStart ++ ban.ip) →
            RedisReply.text (some r) = some ban.value) →
          InPass keyStart ban l lcf csZone id w (served + 1) (inbox ++ [r]) calls) ∨
      ∃ asked count, command = .scan asked (keyStart ++ [redisSigns.star]) count ∧
        ∀ cursor keys, CursorText cursor → (∀ k ∈ keys, keyStart <+: k) →
          w.rc.pullInflight = true →
          InPass keyStart ban (l ++ [⟨asked, cursor, keys⟩]) lcf csZone id w (served + 1)
            (inbox ++ [.array [.string cursor, .array (keys.map .string)]]) calls ∧
          (Sought keyStart ban l inbox calls →
            Sought keyStart ban (l ++ [⟨asked, cursor, keys⟩])
              (inbox ++ [.array [.string cursor, .array (keys.map .string)]]) calls) := by
  obtain ⟨a, v, b, hcalls, hask, hserve⟩ := linked_serve h.linked hnext
  by_cases hscan : v.2 = .scan
  · right
    obtain ⟨marked, fn⟩ := v
    obtain rfl : fn = .scan := hscan
    obtain ⟨asked, pattern, count, rfl, rfl, hiterates⟩ := hask
    refine ⟨asked, count, rfl, fun cursor keys htext hkeys hflight => ?_⟩
    have hchain := h.chain
    rw [if_pos hflight, hcalls, scanCalls_append, scanCalls_cons, if_pos rfl] at hchain
    have ha := scanCalls_eq_zero.mp (show scanCalls a = 0 by omega)
    have hb := scanCalls_eq_zero.mp (show scanCalls b = 0 by omega)
    have hnext : Iterates (str "0") (l ++ [⟨asked, cursor, keys⟩]) cursor := iterates_snoc hiterates
    refine ⟨⟨hserve _ _ _ ?_ ?_ ⟨cursor, keys, rfl, htext, by simp, hnext, hkeys⟩, ?_⟩, ?_⟩
    · intro u hu r
      rw [passAnswers_other _ _ _ (ha u hu), passAnswers_other _ _ _ (ha u hu)]
      exact fun h => h
    · intro u hu c
      rw [passAsks_other _ _ _ (hb u hu), passAsks_other _ _ _ (hb u hu)]
      exact fun h => h
    · have hcount := h.chain
      rw [if_pos hflight] at hcount ⊢
      exact hcount
    · intro hsought ⟨e, he, hmem⟩
      cases List.mem_append.mp he with
      | inl hbefore => exact (hsought ⟨e, hbefore, hmem⟩).imp_left fun ⟨r, hr, hk⟩ =>
          ⟨r, List.mem_append_left _ hr, hk⟩
      | inr hlast =>
          rw [List.mem_singleton.mp hlast] at hmem
          refine .inl ⟨_, List.mem_append_right _ (List.mem_singleton_self _), ?_⟩
          simpa [RedisReply.keys, RedisReply.elements] using hmem
  · left
    rw [passAsks_other _ _ _ hscan] at hask
    refine ⟨hask.1, fun r hkeys htext => ⟨?_, h.chain⟩⟩
    refine hserve _ _ r (fun _ _ _ h => h) (fun _ _ _ h => h) ?_
    rw [passAnswers_other _ _ _ hscan]
    exact ⟨hkeys, fun hmark => htext (hask.2 hmark)⟩

theorem Sought.more (h : Sought keyStart ban l inbox calls) (r : RedisReply) :
    Sought keyStart ban l (inbox ++ [r]) calls := by
  intro hexchanged
  refine (h hexchanged).imp_left fun ⟨r', hr', hk⟩ => ?_
  exact ⟨r', List.mem_append_left _ hr', hk⟩

/-- A worker that has asked for the ban by the command at place `p` of its
connection, and waits for the reply. -/
def Asked (keyStart : Bytes) (ban : PushEntry) (lcf : RedisConf) (csZone : Option Zone)
    (id p : Nat) (w : RedisWorld) (served : Nat) (inbox : List RedisReply) : Prop :=
  ∃ a b, Linked (banAsks keyStart ban) (banAnswers ban) lcf csZone id w served inbox
    (a ++ (true, .get ban.ip) :: b) ∧ served + a.length = p + inbox.length

/-- The end of a pass in which the ban's key has been seen. -/
theorem asked_of_inPass (h : InPass keyStart ban l lcf csZone id w served inbox calls)
    (hsought : Sought keyStart ban l inbox calls) (hover : w.rc.pullInflight = false)
    (hinbox : inbox.length ≤ served) (hseen : ∃ e ∈ l, keyStart ++ ban.ip ∈ e.keys) :
    ∃ p, p < (issuedOn id w.log).length ∧ Asked keyStart ban lcf csZone id p w served inbox := by
  have hchain := h.chain
  rw [if_neg (by simp [hover])] at hchain
  have hother := scanCalls_eq_zero.mp hchain.1
  have hcalled : (true, RedisCallback.get ban.ip) ∈ calls := by
    cases hsought hseen with
    | inr hcalled => exact hcalled
    | inl hbox =>
        obtain ⟨r, hr, hk⟩ := hbox
        obtain ⟨u, hu, hanswer⟩ := h.linked.matched.of_reply hr
        rw [passAnswers_other _ _ _ (hother u hu)] at hanswer
        rw [hanswer.1] at hk
        exact absurd hk List.not_mem_nil
  have hmatched : Pipeline.Matched (banAsks keyStart ban) (banAnswers ban) calls inbox
      ((issuedOn id w.log).drop served) := by
    have hmap : Pipeline.Matched (banAsks keyStart ban) (banAnswers ban) (calls.map fun u => u)
        inbox ((issuedOn id w.log).drop served) := h.linked.matched.map (fun u => u)
      (fun u hu c hask => ((passAsks_other _ _ _ (hother u hu) c).mp hask).2)
      (fun u hu r hanswer => ((passAnswers_other _ _ _ (hother u hu) r).mp hanswer).2)
    rwa [List.map_id'] at hmap
  have hlength := hmatched.length
  have hcounted := h.linked.counted
  obtain ⟨a, b, rfl⟩ := List.append_of_mem hcalled
  rw [List.length_drop, List.length_append, List.length_cons] at hlength
  refine ⟨served + a.length - inbox.length, by omega, a, b, ?_, by omega⟩
  exact ⟨h.linked.conf, h.linked.context, h.linked.ready, hcounted, hmatched⟩

variable {p : Nat}

theorem asked_command (h : Asked keyStart ban lcf csZone id p w served inbox) (ok : Bool)
    (fn : RedisCallback) (command : RedisCommand) :
    Asked keyStart ban lcf csZone id p (redisAsyncCommand w ok fn command).2 served inbox := by
  cases ok with
  | false =>
      rw [redisAsyncCommand_refused]
      exact h
  | true =>
      obtain ⟨a, b, hlinked, hplace⟩ := h
      have hask : banAsks keyStart ban (false, fn) command := nofun
      obtain ⟨-, -, hcommand⟩ := linked_command hlinked hask
      rw [List.append_assoc] at hcommand
      exact ⟨a, b ++ [(false, fn)], hcommand, hplace⟩

/-- The chain of `SCAN`s is not spoken of. -/
theorem asked_pull (h : Asked keyStart ban lcf csZone id p w served inbox) (flight : Bool)
    (cursor : UInt64) :
    Asked keyStart ban lcf csZone id p { w with
      rc := { w.rc with pullInflight := flight, scanCursor := cursor } } served inbox := by
  obtain ⟨a, b, hlinked, hplace⟩ := h
  exact ⟨a, b, ⟨hlinked.conf, hlinked.context, hlinked.ready, hlinked.counted, hlinked.matched⟩,
    hplace⟩

theorem asked_pullStep (h : Asked keyStart ban lcf csZone id p w served inbox) (io : RedisIo) :
    Asked keyStart ban lcf csZone id p (sentinelRedisPullStep w io) served inbox := by
  simp only [sentinelRedisPullStep]
  split
  · exact asked_pull h false w.rc.scanCursor
  · split
    · exact asked_command h ..
    · exact asked_pull (asked_command h ..) false _

theorem asked_scanReply (h : Asked keyStart ban lcf csZone id p w served inbox)
    (reply : Option RedisReply) (io : RedisIo) :
    Asked keyStart ban lcf csZone id p (sentinelRedisScanReply w reply io) served inbox := by
  simp only [sentinelRedisScanReply]
  split
  next cur keys =>
    have hasked := scanKeys_keeps (P := fun w => Asked keyStart ban lcf csZone id p w served inbox)
      (fun w ok ipcopy key h => asked_command h ok (.get ipcopy) (.get key))
      (redisPlen w.rc.lcf.keyPrefix) io keys.elements (i := 0)
      (asked_pull h w.rc.pullInflight cur.cursor)
    split
    · exact asked_pullStep hasked io
    · exact asked_pull hasked false _
  next => exact asked_pull h false w.rc.scanCursor

theorem asked_rearm (h : Asked keyStart ban lcf csZone id p w served inbox)
    (timer : Option Nat) :
    Asked keyStart ban lcf csZone id p { w with rc := { w.rc with timer } } served inbox := by
  obtain ⟨a, b, hlinked, hplace⟩ := h
  exact ⟨a, b, ⟨hlinked.conf, hlinked.context, hlinked.ready, hlinked.counted, hlinked.matched⟩,
    hplace⟩

theorem asked_timer (h : Asked keyStart ban lcf csZone id p w served inbox) (now : Nat)
    (io : RedisIo) :
    Asked keyStart ban lcf csZone id p (sentinelRedisTimerHandler w now io) served inbox := by
  obtain ⟨a, b, hset, hplace⟩ := asked_rearm h none
  obtain ⟨n, -, hflush⟩ := linked_flushPush hset (fun key value ttl => nofun) now io
  rw [List.append_assoc, List.cons_append] at hflush
  have hflushed : Asked keyStart ban lcf csZone id p
      (sentinelRedisFlushPush { w with rc := { w.rc with timer := none } } now io) served inbox :=
    ⟨a, _, hflush, hplace⟩
  have hend : ∀ w', Asked keyStart ban lcf csZone id p w' served inbox →
      Asked keyStart ban lcf csZone id p
        (if w'.rc.state = .up ∨ w'.rc.state = .connecting then
          { w' with rc := { w'.rc with timer := some (w'.rc.lcf.interval * 1000) } }
        else w') served inbox := by
    intro w' hw'
    split
    · exact asked_rearm hw' _
    · exact hw'
  have hup : w.rc.state = .up := hset.ready.2.1
  rw [timerHandler_up hup hset.ready.2.2]
  apply hend
  split
  · exact hflushed
  · exact asked_pullStep (asked_pull hflushed true 0) io

/-- The host has the ban as it was published. -/
def HeldIn (ngx : NgxCore) (ban : PushEntry) (sh : Shctx) : Prop :=
  ∃ n, sh.get (sentinelFeedDigest ngx ban.ip) = some n ∧ n.blockedUntil = ban.expiry ∧
    n.csAction = ban.action

theorem heldIn_of_reply {ngx : NgxCore} {z : Zone} (hban : EntryOk ban) (wf : w.sh.Wf ngx)
    (hzone : w.rc.csZone = some z) {r : RedisReply}
    (hr : RedisReply.text (some r) = some ban.value) {now : Nat} {io : RedisIo}
    (hnow : now < ban.expiry) (hslab : io.slab = true) :
    HeldIn ngx ban (runCallback ngx w (.get ban.ip) (some r) now io).sh := by
  obtain ⟨htext, -, -, htier, hnonneg, hrange⟩ := hban
  have hip := htext.cString
  have hvalue : r = .string (redisValue ban.action ban.expiry.toNat) := by
    cases r with
    | string s => exact congrArg RedisReply.string (Option.some.inj hr)
    | error s => contradiction
    | array elements => contradiction
    | other => contradiction
  obtain ⟨-, hstored, -⟩ := getReply_value wf hzone ban.action (n := ban.expiry.toNat)
    (by omega) (show now < _ by omega) ban.ip io
  obtain ⟨n, hexpiry, haction, hget⟩ := hstored (.inl hslab)
  rw [hip] at hget
  refine ⟨n, ?_, ?_, haction.trans ((sentinelRedisAction_str _).2 htier)⟩
  · rw [hvalue, hget, if_pos rfl]
  · rw [hexpiry, Int.toNat_of_nonneg hnonneg]

/-- A callback other than that of a `SCAN` leaves the connection as it is, if it
does not give it up. -/
theorem linked_callback {asks : Bool × RedisCallback → RedisCommand → Prop}
    {answers : Bool × RedisCallback → RedisReply → Prop} (ngx : NgxCore)
    (h : Linked asks answers lcf csZone id w served inbox calls) {fn : RedisCallback}
    (hfn : fn ≠ .scan) {r : RedisReply} {now : Nat} {io : RedisIo}
    (hac : (runCallback ngx w fn (some r) now io).rc.ac = some id) :
    Linked asks answers lcf csZone id (runCallback ngx w fn (some r) now io) served inbox calls ∧
      (runCallback ngx w fn (some r) now io).rc.pullInflight = w.rc.pullInflight := by
  cases fn with
  | scan => exact absurd rfl hfn
  | set => exact ⟨h, rfl⟩
  | get ipcopy =>
      cases runCallback_get ngx w ipcopy (some r) now io with
      | inl hstored =>
          obtain ⟨sh, hstored⟩ := hstored
          rw [hstored]
          exact ⟨⟨h.conf, h.context, h.ready, h.counted, h.matched⟩, rfl⟩
      | inr hdied =>
          rw [hdied] at hac
          contradiction
  | auth =>
      simp only [runCallback, sentinelRedisAuthReply] at hac ⊢
      split at hac
      · exact absurd ((giveUp_ac _).symm.trans hac) (by simp)
      next hok =>
        rw [if_neg hok]
        exact ⟨⟨h.conf, h.context, ⟨h.ready.1, h.ready.2.1, rfl⟩, h.counted, h.matched⟩, rfl⟩

/-- A reply in a pass. -/
theorem inPass_reply {ngx : NgxCore} {z : Zone} {rest : List RedisReply} {r : RedisReply}
    {now : Nat} {io : RedisIo} (hban : EntryOk ban) (wf : w.sh.Wf ngx) (hzone : csZone = some z)
    (hfine : io.Fine) (hnow : now < ban.expiry)
    (hpattern : ∀ stack, redisPattern lcf.keyPrefix stack = keyStart ++ [redisSigns.star])
    (hkeyed : Keyed keyStart ban (redisPlen lcf.keyPrefix))
    (h : InPass keyStart ban l lcf csZone id w served (r :: rest) calls)
    (hflight : w.rc.pullInflight = true)
    (hac : (redisStep ngx w (.reply r now io)).rc.ac = some id) :
    ∃ calls', InPass keyStart ban l lcf csZone id (redisStep ngx w (.reply r now io)) served rest
        calls' ∧
      (Sought keyStart ban l (r :: rest) calls →
        HeldIn ngx ban (redisStep ngx w (.reply r now io)).sh ∨
          Sought keyStart ban l rest calls') := by
  obtain ⟨v, calls', w₁, rfl, hanswer, hrc, hsh, hlinked, hstep⟩ := linked_reply ngx now io h.linked
  rw [hstep] at hac ⊢
  have hchain := h.chain
  rw [if_pos hflight, scanCalls_cons] at hchain
  have hflight₁ : w₁.rc.pullInflight = true := by rw [hrc, hflight]
  have hkey : Sought keyStart ban l (r :: rest) (v :: calls') →
      (∃ e ∈ l, keyStart ++ ban.ip ∈ e.keys) → .string (keyStart ++ ban.ip) ∈ r.keys ∨
      (∃ r ∈ rest, .string (keyStart ++ ban.ip) ∈ r.keys) ∨
      (true, RedisCallback.get ban.ip) ∈ v :: calls' := by
    intro hsought hexchanged
    cases hsought hexchanged with
    | inr hcalled => exact .inr (.inr hcalled)
    | inl hbox =>
        obtain ⟨r', hr', hk⟩ := hbox
        cases List.mem_cons.mp hr' with
        | inl hfirst => exact .inl (hfirst ▸ hk)
        | inr hlater => exact .inr (.inl ⟨r', hlater, hk⟩)
  obtain ⟨marked, fn⟩ := v
  by_cases hfn : fn = .scan
  · subst hfn
    rw [if_pos rfl] at hchain
    obtain ⟨calls'', hpass, hnext⟩ :=
      inPass_scanReply hfine hpattern hkeyed hlinked hflight₁ (by omega) hanswer
    refine ⟨calls'', hpass, fun hsought => .inr (hnext fun hexchanged => ?_)⟩
    refine (hkey hsought hexchanged).imp_right fun hlater => hlater.imp_right fun hcalled => ?_
    exact (List.mem_cons.mp hcalled).resolve_left (by simp)
  · rw [if_neg hfn] at hchain
    rw [passAnswers_other _ _ _ hfn] at hanswer
    obtain ⟨hlinked', hflight'⟩ := linked_callback ngx hlinked hfn hac
    refine ⟨calls', ⟨hlinked', ?_⟩, fun hsought => ?_⟩
    · rw [if_pos (hflight'.trans hflight₁)]
      exact hchain
    by_cases hmarked : (marked, fn) = (true, RedisCallback.get ban.ip)
    · left
      obtain ⟨rfl, rfl⟩ := Prod.mk.inj hmarked
      exact heldIn_of_reply hban (hsh ▸ wf) (hlinked.conf.2.trans hzone) (hanswer.2 rfl) hnow
        hfine.slab
    · right
      intro hexchanged
      cases hkey hsought hexchanged with
      | inl hhere =>
          rw [hanswer.1] at hhere
          exact absurd hhere List.not_mem_nil
      | inr hlater =>
          refine hlater.imp_right fun hcalled => ?_
          exact (List.mem_cons.mp hcalled).resolve_left (Ne.symm hmarked)

/-- A reply to a worker that has asked for the ban. -/
theorem asked_reply {ngx : NgxCore} {z : Zone} {rest : List RedisReply} {r : RedisReply}
    {now : Nat} {io : RedisIo} (hban : EntryOk ban) (wf : w.sh.Wf ngx) (hzone : csZone = some z)
    (hslab : io.slab = true) (hnow : now < ban.expiry)
    (h : Asked keyStart ban lcf csZone id p w served (r :: rest))
    (hac : (redisStep ngx w (.reply r now io)).rc.ac = some id) :
    HeldIn ngx ban (redisStep ngx w (.reply r now io)).sh ∨
      Asked keyStart ban lcf csZone id p (redisStep ngx w (.reply r now io)) served rest := by
  obtain ⟨a, b, hbefore, hplace⟩ := h
  obtain ⟨v, calls', w₁, hcalls, hanswer, hrc, hsh, hlinked, hstep⟩ :=
    linked_reply ngx now io hbefore
  rw [hstep] at hac ⊢
  cases a with
  | nil =>
      left
      obtain ⟨rfl, rfl⟩ := List.cons.inj hcalls
      exact heldIn_of_reply hban (hsh ▸ wf) (hlinked.conf.2.trans hzone) (hanswer rfl) hnow hslab
  | cons u a =>
      right
      obtain ⟨rfl, rfl⟩ := List.cons.inj hcalls
      have hplace' : served + a.length = p + rest.length := by
        simp only [List.length_cons] at hplace
        omega
      obtain ⟨marked, fn⟩ := u
      by_cases hfn : fn = .scan
      · subst hfn
        exact asked_scanReply ⟨a, b, hlinked, hplace'⟩ (some r) io
      · exact ⟨a, b, (linked_callback ngx hlinked hfn hac).1, hplace'⟩

/-- A tick begins a pass. -/
theorem inPass_start (hpattern : ∀ stack,
      redisPattern lcf.keyPrefix stack = keyStart ++ [redisSigns.star])
    (h : Linked (passAsks keyStart ban []) (passAnswers keyStart ban []) lcf csZone id w served
      inbox calls)
    (hnone : scanCalls calls = 0) (hidle : w.rc.pullInflight = false) (now : Nat) (io : RedisIo)
    (hscan : io.scan = true) :
    ∃ calls', InPass keyStart ban [] lcf csZone id (sentinelRedisTimerHandler w now io) served inbox
      calls' := by
  have hset : Linked (passAsks keyStart ban []) (passAnswers keyStart ban []) lcf csZone id
      { w with rc := { w.rc with timer := none } } served inbox calls :=
    ⟨h.conf, h.context, h.ready, h.counted, h.matched⟩
  obtain ⟨n, hrc, hflush⟩ := linked_flushPush hset
    (fun key value ttl => ⟨fun c pattern count => nofun, nofun⟩) now io
  have hsets : scanCalls (List.replicate n (false, .set)) = 0 :=
    scanCalls_eq_zero.mpr fun u hu => List.eq_of_mem_replicate hu ▸ nofun
  rw [timerHandler_up h.ready.2.1 h.ready.2.2]
  generalize sentinelRedisFlushPush { w with rc := { w.rc with timer := none } } now io = w'
    at hrc hflush
  have hidle' : ¬ w'.rc.pullInflight = true := by simp [hrc, hidle]
  have hbegin : Linked (passAsks keyStart ban []) (passAnswers keyStart ban []) lcf csZone id
      { w' with rc := { w'.rc with pullInflight := true, scanCursor := 0 } } served inbox
      (calls ++ List.replicate n (false, .set)) :=
    ⟨hflush.conf, hflush.context, hflush.ready, hflush.counted, hflush.matched⟩
  obtain ⟨hrc', hpull⟩ := linked_pullStep hscan hpattern hbegin
    (show str "0" = ngxPrint 0 by decide)
  dsimp only
  rw [if_neg hidle']
  generalize sentinelRedisPullStep
    { w' with rc := { w'.rc with pullInflight := true, scanCursor := 0 } } io = w'' at hrc' hpull
  rw [if_pos (.inl hpull.ready.2.1)]
  refine ⟨_, ⟨hpull.conf, hpull.context, hpull.ready, hpull.counted, hpull.matched⟩, ?_⟩
  rw [hrc', if_pos rfl, scanCalls_append, scanCalls_append, hnone, hsets]
  rfl

theorem InPass.congr {w' : RedisWorld}
    (h : InPass keyStart ban l lcf csZone id w served inbox calls) (hsame : SameLink w w') :
    InPass keyStart ban l lcf csZone id w' served inbox calls := by
  refine ⟨hsame.linked h.linked, ?_⟩
  rw [hsame.flight]
  exact h.chain

end Pass
section World
variable {ι : Type} {conf : ClusterConf ι} {ban : PushEntry}

theorem keyed_of_entry (hconf : conf.Plain) (hban : EntryOk ban) (x : ι) :
    Keyed (conf.keyStart x) ban (redisPlen (conf.lcf x).keyPrefix) := by
  refine ⟨(keyStart_length x).symm, redisKeyIp_prefixed hban.pos hban.len, ?_⟩
  rw [cString_key hconf, hban.text.cString]

theorem sameLink_world (conf : ClusterConf ι) (s : Cluster ι) (x : ι) :
    SameLink (s.worker x) (s.world conf x) :=
  .of_eq rfl rfl rfl

end World
section PassRun
variable {ι : Type} [DecidableEq ι] (pow : PowCore) (glob : RedisGlob) (conf : ClusterConf ι)
  (x : ι) (id : Nat) (ban : PushEntry)

/-- The server runs what it is asked, but it may refuse a `SET`. -/
def ServerAnswer.Serves : ServerAnswer → RedisCommand → Prop
  | .refuse _, .set _ _ _ => True
  | .refuse _, _ => False
  | .run cursor _, .scan _ _ _ => CursorText cursor
  | .run _ _, _ => True

/-- A step with the ban at the server, over which the connection stays open. The
server serves it; and a reply is handled before the ban is over, with the memory
that takes. -/
structure Supported (s : Cluster ι) (e : ClusterEvent ι) : Prop where
  allowed : ClusterAllowed glob conf s e
  stays : s.store (conf.keyStart x ++ ban.ip) = some ban.value
  opened : Opened x id (clusterStep pow conf s e)
  works : ∀ now io, e = .deliver x now io → now < ban.expiry ∧ io.Fine
  serves : ∀ answer command, e = .serve x id answer → s.next x id = some command →
    answer.Serves command

/-- The worker's host has the ban. -/
def HostHolds (s : Cluster ι) : Prop :=
  HeldIn pow.toNgxCore ban ((s.shared (conf.host x)).shm (conf.segment (conf.host x)))

def PassAt (l : List ScanExchange) (s : Cluster ι) (calls : List (Bool × RedisCallback)) : Prop :=
  InPass (conf.keyStart x) ban l (conf.lcf x) (conf.csZone x) id (s.worker x) (s.served x id)
    (s.inbox x id) calls

def SoughtAt (l : List ScanExchange) (s : Cluster ι) (calls : List (Bool × RedisCallback)) : Prop :=
  Sought (conf.keyStart x) ban l (s.inbox x id) calls

def AskedAt (p : Nat) (s : Cluster ι) : Prop :=
  Asked (conf.keyStart x) ban (conf.lcf x) (conf.csZone x) id p (s.worker x) (s.served x id)
    (s.inbox x id)

variable {pow glob conf x id ban} {s : Cluster ι} {e : ClusterEvent ι} {l : List ScanExchange}
  {E : Nat → PushEntry → Prop} {z : Zone}

theorem hostHolds_reply {now : Nat} {io : RedisIo} {r : RedisReply} {rest : List RedisReply}
    (h : HeldIn pow.toNgxCore ban
      (redisStep pow.toNgxCore (s.world conf x) (.reply r now io)).sh) :
    HostHolds pow conf x ban { s.handle pow conf x (.reply r now io) with
      inbox := update s.inbox x (update (s.inbox x) id rest) } := by
  simpa [HostHolds, Cluster.handle, Cluster.setZone] using h

/-- The server answers a `GET` for the ban with the ban. -/
theorem serves_text {server : RedisServer} {answer : ServerAnswer} {command : RedisCommand}
    {key value : Bytes} {store : Bytes → Option Bytes} (hserves : answer.Serves command)
    (hkey : command = .get key) (hstore : store key = some value) :
    RedisReply.text (some (server.run store answer command).1) = some value := by
  subst hkey
  cases answer with
  | refuse e => contradiction
  | run cursor keys => exact serverRun_get.mpr hstore

theorem scanExchange_other {answer : ServerAnswer} {command : RedisCommand}
    (hnext : s.next x id = some command)
    (hscan : ∀ c pattern count, command ≠ .scan c pattern count) :
    scanExchange x id s (.serve x id answer) = none := by
  cases answer with
  | refuse e => rfl
  | run cursor keys =>
      cases command with
      | scan c pattern count => exact absurd rfl (hscan c pattern count)
      | auth password => simp [scanExchange, hnext]
      | get key => simp [scanExchange, hnext]
      | set key value ttl => simp [scanExchange, hnext]

/-- What the server's running a command does to the worker. -/
theorem step_serve (pow : PowCore) (conf : ClusterConf ι) (answer : ServerAnswer)
    {command : RedisCommand} (hnext : s.next x id = some command) :
    let s' := clusterStep pow conf s (.serve x id answer)
    s'.worker = s.worker ∧ s'.served x id = s.served x id + 1 ∧
      s'.inbox x id = s.inbox x id ++ [(conf.server.run s.store answer command).1] := by
  simp only [clusterStep, hnext, update_self, true_and]

/-- A step of a pass goes on with it, and with the search for the ban unless the
ban has come. -/
theorem passAt_step (hconf : conf.Plain) (hz : conf.csZone x = some z) (hban : EntryOk ban)
    (hinv : ClusterInv pow conf E s) {calls : List (Bool × RedisCallback)}
    (h : PassAt conf x id ban l s calls) (hflight : (s.worker x).rc.pullInflight = true)
    (hsupported : Supported pow glob conf x id ban s e) :
    let s' := clusterStep pow conf s e
    let l' := l ++ (scanExchange x id s e).toList
    ∃ calls', PassAt conf x id ban l' s' calls' ∧
      (SoughtAt conf x id ban l s calls →
        HostHolds pow conf x ban s' ∨ SoughtAt conf x id ban l' s' calls') := by
  obtain ⟨c, hc, hid, hopen, -⟩ := h.linked.context
  have hkeyed := keyed_of_entry hconf hban x
  cases linkStep_cases ⟨h.linked.ready.1, c, hc, hid, hopen⟩ h.linked.ready.2.1 hsupported.allowed
    hsupported.opened with
  | quiet _ hsame hserved hinbox hscan =>
      refine ⟨calls, ?_, fun hsought => .inr ?_⟩
      · rw [PassAt, hserved, hinbox, hscan, Option.toList_none, List.append_nil]
        exact h.congr hsame
      · rw [SoughtAt, hinbox, hscan, Option.toList_none, List.append_nil]
        exact hsought
  | tick now io =>
      obtain ⟨calls', h', hnext⟩ := inPass_timer (h.congr (sameLink_world conf s x)) hflight now
        { io with drained := s.taken x }
      refine ⟨calls', ?_, fun hsought => .inr ?_⟩
      · simpa [PassAt, clusterStep, Cluster.handle, Cluster.setZone, redisStep, scanExchange]
          using h'
      · simpa [SoughtAt, clusterStep, Cluster.handle, Cluster.setZone, scanExchange]
          using hnext hsought
  | reply now io r rest hbox hstep =>
      obtain ⟨hnow, hfine⟩ := hsupported.works now io rfl
      have hworld := h.congr (sameLink_world conf s x)
      rw [hbox] at hworld
      have hac := hsupported.opened.1
      rw [hstep] at hac ⊢
      obtain ⟨calls', h', hnext⟩ := inPass_reply hban (hinv.zone (conf.host x)).2 hz hfine
        hnow (redisPattern_plain hconf x) hkeyed hworld hflight
        (by simpa [Cluster.handle] using hac)
      refine ⟨calls', ?_, fun hsought => ?_⟩
      · simpa [PassAt, Cluster.handle, Cluster.setZone, scanExchange] using h'
      · rw [SoughtAt, hbox] at hsought
        refine (hnext hsought).imp hostHolds_reply fun hkept => ?_
        simpa [SoughtAt, scanExchange] using hkept
  | serve answer command hnext =>
      have hserves := hsupported.serves answer command rfl hnext
      obtain ⟨hworker, hserved, hinbox⟩ := step_serve pow conf answer hnext
      simp only [PassAt, SoughtAt]
      rw [hworker, hserved, hinbox]
      cases inPass_serve h hnext with
      | inl hother =>
          obtain ⟨hnoscan, hreply⟩ := hother
          rw [scanExchange_other hnext hnoscan, Option.toList_none, List.append_nil]
          refine ⟨calls, hreply _ (serverRun_keys hnoscan) fun hget =>
            serves_text hserves hget hsupported.stays, fun hsought => .inr (hsought.more _)⟩
      | inr hscan =>
          obtain ⟨asked, count, rfl, hreply⟩ := hscan
          cases answer with
          | refuse e => contradiction
          | run cursor keys =>
              have hplain : ∀ c ∈ conf.keyStart x, redisSigns.Plain c :=
                plain_label fun c hc => (hconf.plain x c hc).1
              have hkeys : ∀ k ∈ keys, conf.keyStart x <+: k := by
                intro k hk
                have hmatch := hsupported.allowed cursor keys _ _ _ rfl hnext k hk
                exact (Glob.match_plain glob.law hplain k).mp hmatch
              have hexchange : scanExchange x id s (.serve x id (.run cursor keys)) =
                  some ⟨asked, cursor, keys⟩ := by
                simp [scanExchange, hnext]
              obtain ⟨hpass, hsought⟩ := hreply cursor keys hserves hkeys hflight
              rw [hexchange, conf.server.run_scan]
              exact ⟨calls, hpass, fun h => .inr (hsought h)⟩

/-- A step while the worker waits for the ban. -/
theorem askedAt_step (hz : conf.csZone x = some z) (hban : EntryOk ban)
    (hinv : ClusterInv pow conf E s) {p : Nat} (h : AskedAt conf x id ban p s)
    (hsupported : Supported pow glob conf x id ban s e) :
    HostHolds pow conf x ban (clusterStep pow conf s e) ∨
      AskedAt conf x id ban p (clusterStep pow conf s e) := by
  obtain ⟨a, b, hlinked, hplace⟩ := h
  obtain ⟨c, hc, hid, hopen, -⟩ := hlinked.context
  have hworld : Asked (conf.keyStart x) ban (conf.lcf x) (conf.csZone x) id p (s.world conf x)
      (s.served x id) (s.inbox x id) := ⟨a, b, (sameLink_world conf s x).linked hlinked, hplace⟩
  cases linkStep_cases ⟨hlinked.ready.1, c, hc, hid, hopen⟩ hlinked.ready.2.1 hsupported.allowed
    hsupported.opened with
  | quiet _ hsame hserved hinbox hscan =>
      right
      rw [AskedAt, hserved, hinbox]
      exact ⟨a, b, hsame.linked hlinked, hplace⟩
  | tick now io =>
      right
      have h' := asked_timer hworld now { io with drained := s.taken x }
      simpa [AskedAt, clusterStep, Cluster.handle, Cluster.setZone, redisStep] using h'
  | reply now io r rest hbox hstep =>
      obtain ⟨hnow, hfine⟩ := hsupported.works now io rfl
      rw [hbox] at hworld
      have hac := hsupported.opened.1
      rw [hstep] at hac ⊢
      have hreply := asked_reply hban (hinv.zone (conf.host x)).2 hz
        hfine.slab hnow hworld (by simpa [Cluster.handle] using hac)
      cases hreply with
      | inl hheld => exact .inl (hostHolds_reply hheld)
      | inr hkept =>
          right
          simpa [AskedAt, Cluster.handle, Cluster.setZone] using hkept
  | serve answer command hnext =>
      right
      have hserves := hsupported.serves answer command rfl hnext
      obtain ⟨hworker, hserved, hinbox⟩ := step_serve pow conf answer hnext
      obtain ⟨a', v, b', hcalls, hask, hserve⟩ := linked_serve hlinked hnext
      rw [AskedAt, hworker, hserved, hinbox]
      refine ⟨a, b, hserve _ _ _ (fun _ _ _ h => h) (fun _ _ _ h => h) fun hmark => ?_, ?_⟩
      · exact serves_text hserves (hask hmark) hsupported.stays
      · rw [List.length_append, List.length_singleton]
        omega

/-- A worker that begins a pass at its next tick. -/
structure ReadyToPull (x : ι) (id : Nat) (s : Cluster ι) : Prop where
  opened : Opened x id s
  up : (s.worker x).rc.state = .up
  authed : (s.worker x).rc.authPending = false
  idle : (s.worker x).rc.pullInflight = false

theorem passAt_start (ban : PushEntry) (hconf : conf.Plain) (hinv : ClusterInv pow conf E s)
    (hconnected : Connected conf s) (hready : ReadyToPull x id s) (now : Nat) {io : RedisIo}
    (hscan : io.scan = true) :
    ∃ calls, PassAt conf x id ban [] (clusterStep pow conf s (.tick x now io)) calls := by
  obtain ⟨hac, c, hc, rfl, hopen⟩ := hready.opened
  have hwired := hinv.wired x
  have hscans : (s.worker x).scans = 0 :=
    (hconnected x).1.idle (by simp [hac]) hready.idle
  rw [RedisWorld.scans, hc] at hscans
  have hold : ∀ fn ∈ c.replies, fn ≠ .scan := by
    intro fn hfn hsame
    exact List.count_eq_zero.mp hscans (hsame ▸ hfn)
  have hmatched : Pipeline.Matched (passAsks (conf.keyStart x) ban [])
      (passAnswers (conf.keyStart x) ban []) (c.replies.map fun fn => (false, fn))
      (s.inbox x c.id) ((issuedOn c.id (s.worker x).log).drop (s.served x c.id)) :=
    (hwired.matched c hc hopen).map (fun fn => (false, fn)) (by
      intro fn hfn command hask
      rw [passAsks_other _ _ _ (hold fn hfn)]
      refine ⟨fun c pattern count hcommand => hold fn hfn ?_, fun hmark => absurd hmark (by simp)⟩
      subst hcommand
      cases fn with
      | scan => rfl
      | auth => contradiction
      | get ipcopy => contradiction
      | set => contradiction) (by
      intro fn hfn r hanswer
      rw [passAnswers_other _ _ _ (hold fn hfn)]
      refine ⟨?_, fun hmark => absurd hmark (by simp)⟩
      cases fn with
      | scan => exact absurd rfl (hold _ hfn)
      | auth => exact hanswer
      | get ipcopy => exact hanswer.1
      | set => exact hanswer)
  have hlinked : Linked (passAsks (conf.keyStart x) ban []) (passAnswers (conf.keyStart x) ban [])
      (conf.lcf x) (conf.csZone x) c.id (s.world conf x) (s.served x c.id) (s.inbox x c.id)
      (c.replies.map fun fn => (false, fn)) := by
    refine ⟨hwired.conf, ⟨c, hc, rfl, hopen, ?_⟩, ⟨hac, hready.up, hready.authed⟩,
      (hwired.counted c.id).2, hmatched⟩
    rw [List.map_map]
    exact (List.map_id' _).symm
  have hnone : scanCalls (c.replies.map fun fn => (false, fn)) = 0 := by
    rw [scanCalls_eq_zero]
    intro u hu
    obtain ⟨fn, hfn, rfl⟩ := List.mem_map.mp hu
    exact hold fn hfn
  obtain ⟨calls', h'⟩ := inPass_start (redisPattern_plain hconf x) hlinked hnone hready.idle now
    { io with drained := s.taken x } hscan
  refine ⟨calls', ?_⟩
  simpa [PassAt, clusterStep, Cluster.handle, Cluster.setZone, redisStep] using h'

/-- Whatever is fit for publication may have been published. -/
theorem clusterInv_fit (hconf : conf.Plain) (hallowed : ClusterAllowed glob conf s e)
    (hinv : ClusterInv pow conf (fun _ => EntryOk) s) :
    ClusterInv pow conf (fun _ => EntryOk) (clusterStep pow conf s e) :=
  clusterInv_step hconf (fun _ _ h => h) e hallowed
    (fun _ _ horigin => entryOk_of_originates hallowed horigin) hinv

variable (pow glob conf x id ban)

/-- A pass of the worker, which its tick in `s` begins; and what happens after it
until every reply to the commands of the pass has been handled. -/
structure PullPass (s : Cluster ι) (now : Nat) (io : RedisIo)
    (pass after : List (ClusterEvent ι)) : Prop where
  ready : ReadyToPull x id s
  first : Supported pow glob conf x id ban s (.tick x now io)
  memory : io.scan = true
  steps : Run.Along (fun s e => Supported pow glob conf x id ban s e ∧
      (s.worker x).rc.pullInflight = true)
    (clusterStep pow conf) (clusterStep pow conf s (.tick x now io)) pass
  ended : ((Run.exec (clusterStep pow conf) s (.tick x now io :: pass)).worker x).rc.pullInflight =
    false
  later : Run.Along (Supported pow glob conf x id ban) (clusterStep pow conf)
    (Run.exec (clusterStep pow conf) s (.tick x now io :: pass)) after
  answered :
    let s₁ := Run.exec (clusterStep pow conf) s (.tick x now io :: pass)
    let s₂ := Run.exec (clusterStep pow conf) s₁ after
    (issuedOn id (s₁.worker x).log).length + (s₂.inbox x id).length ≤ s₂.served x id

variable {pow glob conf x id ban}

/-- The exchanges of the worker from its tick on. -/
def PullPass.exchanges (pow : PowCore) (conf : ClusterConf ι) (x : ι) (id : Nat) (s : Cluster ι)
    (now : Nat) (io : RedisIo) (pass : List (ClusterEvent ι)) : List ScanExchange :=
  scanExchanges pow conf x id (clusterStep pow conf s (.tick x now io)) pass

/-- In every state that has been reached, a pass of a worker is a full iteration,
whatever the other workers and hosts do meanwhile. -/
theorem pass_iterates (hconf : conf.Plain) (hz : conf.csZone x = some z) (hban : EntryOk ban)
    (hinv : ClusterInv pow conf (fun _ => EntryOk) s) (hconnected : Connected conf s)
    {pass after : List (ClusterEvent ι)} {now : Nat} {io : RedisIo}
    (hpass : PullPass pow glob conf x id ban s now io pass after) :
    FullIteration (PullPass.exchanges pow conf x id s now io pass) := by
  have hstart := passAt_start ban hconf hinv hconnected hpass.ready now hpass.memory
  have hinv₁ := clusterInv_fit hconf hpass.first.allowed hinv
  have hpassed := Run.outputs_unless
    (fun s e => (scanExchange x id s e, clusterStep pow conf s e))
    (fun past s => (∃ calls, PassAt conf x id ban past.reduceOption s calls) ∧
      ClusterInv pow conf (fun _ => EntryOk) s)
    (D := fun _ => False) (fun past s e hstep h => by
      obtain ⟨⟨calls, h⟩, hinv⟩ := h
      obtain ⟨calls', h', -⟩ := passAt_step hconf hz hban hinv h hstep.2 hstep.1
      rw [List.reduceOption_append, List.reduceOption_singleton]
      exact .inr ⟨⟨calls', h'⟩, clusterInv_fit hconf hstep.1.allowed hinv⟩)
    [] hpass.steps ⟨hstart, hinv₁⟩
  obtain ⟨-, -, -, hnever⟩ | ⟨⟨calls, hend⟩, -⟩ := hpassed
  · exact hnever.elim
  · have hchain := hend.chain
    have hover : ¬ ((Run.exec (fun s e => (scanExchange x id s e, clusterStep pow conf s e).2)
        (clusterStep pow conf s (.tick x now io)) pass).worker x).rc.pullInflight = true :=
      Bool.eq_false_iff.mp hpass.ended
    rw [if_neg hover] at hchain
    exact hchain.2

/-- In every run, a pass of a worker is a full iteration, and if it returns the key
of a ban that stays with the server, as the server promises, it brings the ban to
the worker's host, whatever the other workers and hosts do meanwhile. -/
theorem cluster_pass_pulls (hconf : conf.Plain) (hz : conf.csZone x = some z)
    (hban : EntryOk ban) {before pass after : List (ClusterEvent ι)} {now : Nat} {io : RedisIo}
    (hrun : Run.Along (ClusterAllowed glob conf) (clusterStep pow conf) (clusterStart conf) before)
    (hpass : PullPass pow glob conf x id ban
      (Run.exec (clusterStep pow conf) (clusterStart conf) before) now io pass after) :
    let l := PullPass.exchanges pow conf x id
      (Run.exec (clusterStep pow conf) (clusterStart conf) before) now io pass
    FullIteration l ∧
      ((∃ e ∈ l, conf.keyStart x ++ ban.ip ∈ e.keys) →
        ∃ done left, pass ++ after = done ++ left ∧ HostHolds pow conf x ban
          (Run.exec (clusterStep pow conf) (clusterStart conf)
            (before ++ .tick x now io :: done))) := by
  have hinv : ClusterInv pow conf (fun _ => EntryOk)
      (Run.exec (clusterStep pow conf) (clusterStart conf) before) :=
    Run.exec_invariant_along (fun s e hallowed h => clusterInv_fit hconf hallowed h) hrun
      clusterInv_start
  have hconnected := connected_run hrun
  refine ⟨pass_iterates hconf hz hban hinv hconnected hpass, fun hseen => ?_⟩
  simp only [Run.exec_append, Run.exec_cons]
  generalize Run.exec (clusterStep pow conf) (clusterStart conf) before = s at *
  obtain ⟨hready, hfirst, hmemory, hsteps, hover, hlater, hanswered⟩ := hpass
  obtain ⟨calls₀, hstart⟩ := passAt_start ban hconf hinv hconnected hready now hmemory
  have hinv₁ := clusterInv_fit hconf hfirst.allowed hinv
  simp only [PullPass.exchanges, Run.exec_cons] at hover hlater hanswered hseen
  generalize clusterStep pow conf s (.tick x now io) = s₁ at *
  have hpassed := Run.outputs_unless
    (fun s e => (scanExchange x id s e, clusterStep pow conf s e))
    (fun past s => (∃ calls, PassAt conf x id ban past.reduceOption s calls ∧
        SoughtAt conf x id ban past.reduceOption s calls) ∧
      ClusterInv pow conf (fun _ => EntryOk) s)
    (D := HostHolds pow conf x ban) (fun past s e hstep h => by
      obtain ⟨⟨calls, h, hsought⟩, hinv⟩ := h
      obtain ⟨calls', h', hnext⟩ := passAt_step hconf hz hban hinv h hstep.2 hstep.1
      rw [List.reduceOption_append, List.reduceOption_singleton]
      exact (hnext hsought).imp_right fun hsought' =>
        ⟨⟨calls', h', hsought'⟩, clusterInv_fit hconf hstep.1.allowed hinv⟩)
    [] hsteps ⟨⟨calls₀, hstart, fun hexchanged => absurd hexchanged (by simp)⟩, hinv₁⟩
  cases hpassed with
  | inl hheld =>
      obtain ⟨done, left, rfl, hheld⟩ := hheld
      exact ⟨done, left ++ after, List.append_assoc .., hheld⟩
  | inr hend =>
      obtain ⟨⟨calls, hend, hsought⟩, hinv₂⟩ := hend
      obtain ⟨p, hp, hasked⟩ :=
        asked_of_inPass hend hsought hover ((hinv₂.wired x).counted id).1 hseen
      have hwaited := Run.outputs_unless (fun s e => ((), clusterStep pow conf s e))
        (fun _ s => AskedAt conf x id ban p s ∧ ClusterInv pow conf (fun _ => EntryOk) s)
        (D := HostHolds pow conf x ban) (fun _ s e hstep h =>
          (askedAt_step hz hban h.2 h.1 hstep).imp_right fun hkept =>
            ⟨hkept, clusterInv_fit hconf hstep.allowed h.2⟩) [] hlater ⟨hasked, hinv₂⟩
      cases hwaited with
      | inl hheld =>
          obtain ⟨done, left, rfl, hheld⟩ := hheld
          refine ⟨pass ++ done, left, (List.append_assoc ..).symm, ?_⟩
          rw [Run.exec_append]
          exact hheld
      | inr hwaiting =>
          -- the reply to the `GET` has been handled, and so the ban was there
          obtain ⟨⟨a, b, -, hplace⟩, -⟩ := hwaiting
          change Cluster.served (Run.exec (clusterStep pow conf) _ after) x id + _ =
            p + (Cluster.inbox (Run.exec (clusterStep pow conf) _ after) x id).length at hplace
          change p < (issuedOn id ((Run.exec (clusterStep pow conf) s₁ pass).worker x).log).length
            at hp
          omega

end PassRun
section Example

/-- The first host has published its ban; then the second host connects. -/
def decoyPublished : List (ClusterEvent Bool) :=
  clusterDecoy.take 5 ++
    [.serve false 0 (.run [] []), .tick true 90 (fineIo []), .connect true true]

def decoyPass : List (ClusterEvent Bool) :=
  [.serve true 0 (.run (str "0") [str "sentinel:ban:1.2.3.4"]), .deliver true 110 (fineIo [])]

def decoyReplies : List (ClusterEvent Bool) :=
  [.serve true 0 (.run [] []), .deliver true 111 (fineIo [])]

def decoyBan : PushEntry := ⟨str "1.2.3.4", ngxSentinelCsBan, 3680⟩

theorem decoyBan_ok : EntryOk decoyBan :=
  ⟨⟨by decide, by decide⟩, by decide, by decide, by decide, by decide, by decide⟩

theorem decoyPublished_allowed :
    Run.Along (ClusterAllowed redisGlob clusterPair) (clusterStep Ref.pow clusterPair)
      (clusterStart clusterPair) decoyPublished := by
  refine ⟨⟨by decide +kernel, by decide, by decide, ⟨by decide, by decide⟩, by decide⟩, ⟨rfl, rfl⟩,
    ⟨_, rfl, rfl, rfl⟩, trivial, ⟨rfl, rfl⟩, ?_, ⟨rfl, rfl⟩, ⟨_, rfl, rfl, rfl⟩, trivial⟩
  intro cursor keys c pattern count hrun _
  cases hrun
  exact List.forall_mem_nil _

theorem cursorText_end : CursorText (str "0") :=
  ⟨Numeral.write_canonical digitCode 0, by decide⟩

theorem decoyPass_pulls :
    PullPass Ref.pow redisGlob clusterPair true 0 decoyBan
      (Run.exec (clusterStep Ref.pow clusterPair) (clusterStart clusterPair) decoyPublished) 110
      (fineIo []) decoyPass decoyReplies := by
  have hfine : (fineIo []).Fine := ⟨rfl, fun _ => rfl, fun _ => rfl, rfl⟩
  refine ⟨⟨⟨rfl, _, rfl, rfl, rfl⟩, rfl, rfl, rfl⟩,
    ⟨⟨rfl, rfl⟩, by decide +kernel, ⟨rfl, _, rfl, rfl, rfl⟩, nofun, nofun⟩, rfl, ?_, rfl, ?_,
    by decide +kernel⟩
  · refine ⟨⟨⟨?_, by decide +kernel, ⟨rfl, _, rfl, rfl, rfl⟩, nofun, ?_⟩, rfl⟩,
      ⟨⟨⟨_, rfl, rfl, rfl, nofun⟩, by decide +kernel, ⟨rfl, _, rfl, rfl, rfl⟩, ?_, nofun⟩, rfl⟩,
      trivial⟩
    · intro cursor keys c pattern count hrun hnext
      cases hrun
      have hscan : some (RedisCommand.scan (str "0") (str "sentinel:ban:*") 256) =
        some (.scan c pattern count) := hnext
      simp only [Option.some.injEq, RedisCommand.scan.injEq] at hscan
      rw [← hscan.2.1]
      decide +kernel
    · intro answer command he hnext
      cases he
      have hscan : some (RedisCommand.scan (str "0") (str "sentinel:ban:*") 256) = some command :=
        hnext
      rw [← Option.some.inj hscan]
      exact cursorText_end
    · intro now io he
      cases he
      exact ⟨by decide, hfine⟩
  · refine ⟨⟨?_, by decide +kernel, ⟨rfl, _, rfl, rfl, rfl⟩, nofun, ?_⟩,
      ⟨⟨_, rfl, rfl, rfl, nofun⟩, by decide +kernel, ⟨rfl, _, rfl, rfl, rfl⟩, ?_, nofun⟩, trivial⟩
    · intro cursor keys c pattern count hrun _
      cases hrun
      exact List.forall_mem_nil _
    · intro answer command he hnext
      cases he
      have hget : some (RedisCommand.get (str "sentinel:ban:1.2.3.4")) = some command := hnext
      rw [← Option.some.inj hget]
      trivial
    · intro now io he
      cases he
      exact ⟨by decide, hfine⟩

/-- The second host's worker comes upon the first host's ban. -/
theorem cluster_pass_pulls_decoy :
    FullIteration (PullPass.exchanges Ref.pow clusterPair true 0
      (Run.exec (clusterStep Ref.pow clusterPair) (clusterStart clusterPair) decoyPublished) 110
      (fineIo []) decoyPass) ∧
    ∃ done left, decoyPass ++ decoyReplies = done ++ left ∧
      HostHolds Ref.pow clusterPair true decoyBan
        (Run.exec (clusterStep Ref.pow clusterPair) (clusterStart clusterPair)
          (decoyPublished ++ .tick true 110 (fineIo []) :: done)) := by
  obtain ⟨hiterates, hpulls⟩ := cluster_pass_pulls clusterPair_plain rfl decoyBan_ok
    decoyPublished_allowed decoyPass_pulls
  refine ⟨hiterates, hpulls ?_⟩
  exact ⟨⟨str "0", str "0", [str "sentinel:ban:1.2.3.4"]⟩, List.mem_cons_self, by decide⟩

end Example
end Sentinel
