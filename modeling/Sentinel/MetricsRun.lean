import Mathlib.Algebra.BigOperators.Fin
import Sentinel.Lib.Tally
import Sentinel.MetricsPage

/-!
The counters under all workers at once. A worker counts a request one increment
after the other, and reads a page one word after the other; in between the other
workers do the same, take connections into the tarpit, or die.
-/

namespace Sentinel
open Function

/-- What the handler reads, in its order. -/
inductive StatusRead where
  | metric (idx : Nat)
  | conn (slot : Nat)
  deriving DecidableEq, Repr

def statusReads : List StatusRead :=
  .metric NgxSentinelMetric.requests.idx ::
    (sentinelVerdictLabels.mapIdx fun i _ => .metric (NgxSentinelMetric.verdictAllow.idx + i)) ++
    (sentinelSignalLabels.map fun s => .metric s.1.idx) ++
    .metric NgxSentinelMetric.shadow.idx :: (List.range ngxMaxProcesses).map .conn

/-- What a worker has to do still: increments, or reads for a page, with what has
been read so far. -/
inductive MetricsTask where
  | record (left : List Nat)
  | scrape (io : StatusIo) (seen : Nat → Nat) (active : Nat) (left : List StatusRead)

/-- The array, the tarpit with its slots, and the workers. -/
structure MetricsState (n : Nat) where
  metrics : Nat → Nat
  tarpit : TarpitState
  task : Fin n → MetricsTask

inductive MetricsEvent (n : Nat) where
  /-- A request comes to `sentinel_metrics_record`. -/
  | request (w : Fin n) (ctx : SentinelCtx) (shadow : Bool)
  /-- A request for the page. -/
  | status (w : Fin n) (io : StatusIo)
  /-- The worker goes on with its task. -/
  | advance (w : Fin n)
  /-- The tarpit's part of the worker moves; a crash ends the task too. -/
  | tarpit (w : Fin n) (act : TarpitAct)

def metricsStart (n : Nat) : MetricsState n := ⟨fun _ => 0, tarpitStart, fun _ => .record []⟩

/-- `sentinel_metric_inc` -/
def sentinelMetricInc (metrics : Nat → Nat) (idx : Nat) : Nat → Nat :=
  update metrics idx ((metrics idx + 1) % 2 ^ 64)

/-- `sentinel_metric_get` -/
def sentinelMetricGet (present : Bool) (metrics : Nat → Nat) (idx : Nat) : Nat :=
  if present then metrics idx else 0

/-- A pass of the loop of `sentinel_tarpit_active`. -/
def tarpitActiveAdd (present : Bool) (slots : Nat → Int) (sum slot : Nat) : Nat :=
  if present then (sum + (slots slot % 2 ^ 64).toNat) % 2 ^ 64 else 0

section Step
variable {n : Nat} (present : Bool) (maxConns : Nat)

def MetricsState.assign (s : MetricsState n) (w : Fin n) (task : MetricsTask) : MetricsState n :=
  { s with task := update s.task w task }

/-- One event, and what the status handler returns in it. A worker that is at
work takes nothing up. -/
def metricsStep (s : MetricsState n) : MetricsEvent n → Option StatusReply × MetricsState n
  | .request w ctx shadow =>
      match s.task w with
      | .record [] => (none, s.assign w (.record (sentinelMetricsRecord present ctx shadow)))
      | _ => (none, s)
  | .status w io =>
      match s.task w with
      | .record [] =>
          match statusRefusal io with
          | some rc => (some ⟨rc, none, none⟩, s)
          | none => (none, s.assign w (.scrape io (fun _ => 0) 0 statusReads))
      | _ => (none, s)
  | .advance w =>
      match s.task w with
      | .record [] => (none, s)
      | .record (idx :: left) =>
          (none, { s.assign w (.record left) with metrics := sentinelMetricInc s.metrics idx })
      | .scrape io seen active (.metric idx :: left) =>
          let seen := update seen idx (sentinelMetricGet present s.metrics idx)
          (none, s.assign w (.scrape io seen active left))
      | .scrape io seen active (.conn slot :: left) =>
          let active := tarpitActiveAdd present s.tarpit.slots active slot
          (none, s.assign w (.scrape io seen active left))
      | .scrape io seen active [] =>
          (some (statusAnswer io (statusText seen active)), s.assign w (.record []))
  | .tarpit w act =>
      let s := { s with tarpit := tarpitStep n maxConns s.tarpit (w, act) }
      (none, if act = .crash then s.assign w (.record []) else s)

def metricsNext (s : MetricsState n) (e : MetricsEvent n) : MetricsState n :=
  (metricsStep present maxConns s e).2

/-- The state that a run leads to. -/
def metricsAfter (run : List (MetricsEvent n)) : MetricsState n :=
  Run.exec (metricsNext present maxConns) (metricsStart n) run

/-- A request comes to a worker that has nothing to do. -/
def TakesFree (s : MetricsState n) : MetricsEvent n → Prop
  | .request w _ _ => s.task w = .record []
  | .status _ _ => True
  | .advance _ => True
  | .tarpit _ _ => True

end Step
section Tallied
variable {n : Nat} (present : Bool) (maxConns : Nat)

/-- The increments that are left of a task. -/
def MetricsTask.marks : MetricsTask → List Nat
  | .record left => left
  | .scrape _ _ _ _ => []

@[simp] theorem marks_record (left : List Nat) : (MetricsTask.record left).marks = left := rfl

@[simp] theorem marks_scrape (io : StatusIo) (seen : Nat → Nat) (active : Nat)
    (left : List StatusRead) : (MetricsTask.scrape io seen active left).marks = [] := rfl

def MetricsEvent.isRequest : MetricsEvent n → Bool
  | .request _ _ _ => true
  | _ => false

def MetricsEvent.isCrash : MetricsEvent n → Bool
  | .tarpit _ .crash => true
  | _ => false

/-- What an event is to the tally. -/
def tallyActs (s : MetricsState n) : MetricsEvent n → List (Tally.Act (Fin n) Nat)
  | .request w ctx shadow =>
      match s.task w with
      | .record [] => [.take w (sentinelMetricsRecord present ctx shadow)]
      | _ => []
  | .status _ _ => []
  | .advance w =>
      match s.task w with
      | .record (_ :: _) => [.mark w]
      | _ => []
  | .tarpit w act => if act = .crash then [.drop w] else []

/-- The marks of one record. -/
def IsRecord (job : List Nat) : Prop :=
  ∃ ctx shadow, job = sentinelMetricsRecord present ctx shadow

/-- The array counts the marks that have been made, and the tasks are what is left. -/
structure Counts (s : MetricsState n) (t : Tally.State (Fin n) Nat) : Prop where
  metrics : ∀ k, s.metrics k = t.done.count k % 2 ^ 64
  left : ∀ w, t.left w = (s.task w).marks

/-- What an event does: to the system, and to the tally. -/
inductive MetricsMove (s : MetricsState n) : MetricsEvent n → Option StatusReply →
    MetricsState n → List (Tally.Act (Fin n) Nat) → Prop
  | same (e : MetricsEvent n) (reply : Option StatusReply)
      (hreply : ∀ r, reply = some r → r.body = none) (hcrash : e.isCrash = false)
      (hbusy : e.isRequest = true → ¬ TakesFree s e) : MetricsMove s e reply s []
  | taken (w : Fin n) (ctx : SentinelCtx) (shadow : Bool) (htask : s.task w = .record []) :
      MetricsMove s (.request w ctx shadow) none
        (s.assign w (.record (sentinelMetricsRecord present ctx shadow)))
        [.take w (sentinelMetricsRecord present ctx shadow)]
  | opened (w : Fin n) (io : StatusIo) (htask : s.task w = .record []) :
      MetricsMove s (.status w io) none
        (s.assign w (.scrape io (fun _ => 0) 0 statusReads)) []
  | counted (w : Fin n) (idx : Nat) (left : List Nat) (htask : s.task w = .record (idx :: left)) :
      MetricsMove s (.advance w) none
        { s.assign w (.record left) with metrics := sentinelMetricInc s.metrics idx } [.mark w]
  | readMetric (w : Fin n) (io : StatusIo) (seen : Nat → Nat) (active idx : Nat)
      (left : List StatusRead) (htask : s.task w = .scrape io seen active (.metric idx :: left)) :
      MetricsMove s (.advance w) none
        (s.assign w
          (.scrape io (update seen idx (sentinelMetricGet present s.metrics idx)) active left)) []
  | readConn (w : Fin n) (io : StatusIo) (seen : Nat → Nat) (active slot : Nat)
      (left : List StatusRead) (htask : s.task w = .scrape io seen active (.conn slot :: left)) :
      MetricsMove s (.advance w) none
        (s.assign w
          (.scrape io seen (tarpitActiveAdd present s.tarpit.slots active slot) left)) []
  | answered (w : Fin n) (io : StatusIo) (seen : Nat → Nat) (active : Nat)
      (htask : s.task w = .scrape io seen active []) :
      MetricsMove s (.advance w) (some (statusAnswer io (statusText seen active)))
        (s.assign w (.record [])) []
  | moved (w : Fin n) (act : TarpitAct) (hact : act ≠ .crash) :
      MetricsMove s (.tarpit w act) none
        { s with tarpit := tarpitStep n maxConns s.tarpit (w, act) } []
  | crashed (w : Fin n) :
      MetricsMove s (.tarpit w .crash) none
        (({ s with tarpit := tarpitStep n maxConns s.tarpit (w, .crash) } : MetricsState n).assign w
          (.record [])) [.drop w]

variable {present maxConns}
variable {s s' : MetricsState n} {t : Tally.State (Fin n) Nat} {e : MetricsEvent n}
  {reply : Option StatusReply} {acts : List (Tally.Act (Fin n) Nat)}

theorem metricsStep_move (present : Bool) (maxConns : Nat) (s : MetricsState n)
    (e : MetricsEvent n) :
    MetricsMove present maxConns s e (metricsStep present maxConns s e).1
      (metricsStep present maxConns s e).2 (tallyActs present s e) := by
  cases e with
  | request w ctx shadow =>
      cases htask : s.task w with
      | record left =>
          cases left with
          | nil =>
              simp only [metricsStep, tallyActs, htask]
              exact .taken w ctx shadow htask
          | cons idx left =>
              simp only [metricsStep, tallyActs, htask]
              exact .same _ _ (by simp) rfl (by simp [TakesFree, htask])
      | scrape io seen active left =>
          simp only [metricsStep, tallyActs, htask]
          exact .same _ _ (by simp) rfl (by simp [TakesFree, htask])
  | status w io =>
      cases htask : s.task w with
      | record left =>
          cases left with
          | nil =>
              cases hrefusal : statusRefusal io with
              | none =>
                  simp only [metricsStep, tallyActs, htask, hrefusal]
                  exact .opened w io htask
              | some rc =>
                  simp only [metricsStep, tallyActs, htask, hrefusal]
                  exact .same _ _ (by simp) rfl (by simp [MetricsEvent.isRequest])
          | cons idx left =>
              simp only [metricsStep, tallyActs, htask]
              exact .same _ _ (by simp) rfl (by simp [MetricsEvent.isRequest])
      | scrape io' seen active left =>
          simp only [metricsStep, tallyActs, htask]
          exact .same _ _ (by simp) rfl (by simp [MetricsEvent.isRequest])
  | advance w =>
      cases htask : s.task w with
      | record left =>
          cases left with
          | nil =>
              simp only [metricsStep, tallyActs, htask]
              exact .same _ _ (by simp) rfl (by simp [MetricsEvent.isRequest])
          | cons idx left =>
              simp only [metricsStep, tallyActs, htask]
              exact .counted w idx left htask
      | scrape io seen active left =>
          cases left with
          | nil =>
              simp only [metricsStep, tallyActs, htask]
              exact .answered w io seen active htask
          | cons read left =>
              cases read with
              | metric idx =>
                  simp only [metricsStep, tallyActs, htask]
                  exact .readMetric w io seen active idx left htask
              | conn slot =>
                  simp only [metricsStep, tallyActs, htask]
                  exact .readConn w io seen active slot left htask
  | tarpit w act =>
      by_cases hact : act = .crash
      · subst hact
        exact .crashed w
      · simp only [metricsStep, tallyActs, if_neg hact]
        exact .moved w act hact

theorem counts_start (n : Nat) : Counts (metricsStart n) Tally.start := by
  constructor
  · intro k
    rfl
  · intro w
    rfl

/-- The marks that are left, after a task has been assigned. -/
theorem marks_assign (s : MetricsState n) (w : Fin n) (task : MetricsTask) :
    (fun w' => ((s.assign w task).task w').marks) =
      update (fun w' => (s.task w').marks) w task.marks := by
  funext w'
  by_cases hw : w' = w
  · subst hw
    simp [MetricsState.assign]
  · simp [MetricsState.assign, update_of_ne hw]

/-- A task without marks in the place of one. -/
theorem marks_assign_none (w : Fin n) {task : MetricsTask} (hbefore : (s.task w).marks = [])
    (hafter : task.marks = []) :
    (fun w' => ((s.assign w task).task w').marks) = fun w' => (s.task w').marks := by
  rw [marks_assign, hafter, ← hbefore]
  exact update_eq_self w _

/-- The array goes with the tally. -/
theorem counts_move (h : Counts s t) (hmove : MetricsMove present maxConns s e reply s' acts) :
    Counts s' (Run.exec Tally.step t acts) := by
  have hleft : t.left = fun w => (s.task w).marks := funext h.left
  have of_left : ∀ {s' : MetricsState n}, s'.metrics = s.metrics →
      ((fun w => (s'.task w).marks) = fun w => (s.task w).marks) → Counts s' t := by
    intro s' hmetrics hmarks
    refine ⟨fun k => ?_, fun w => ?_⟩
    · rw [hmetrics]
      exact h.metrics k
    · rw [h.left w]
      exact (congrFun hmarks w).symm
  cases hmove with
  | same _ _ hreply hcrash hbusy => exact h
  | taken w ctx shadow htask =>
      have hnone : t.left w = [] := by simp [hleft, htask]
      refine ⟨fun k => ?_, fun w' => ?_⟩
      · simpa [Run.exec, Tally.step, hnone, MetricsState.assign] using h.metrics k
      · rw [congrFun (marks_assign s w _) w', ← hleft]
        simp [Run.exec, Tally.step, hnone]
  | opened w io htask =>
      apply of_left
      · rfl
      · apply marks_assign_none
        · simp [htask]
        · rfl
  | counted w idx left htask =>
      have hmark : t.left w = idx :: left := by simp [hleft, htask]
      refine ⟨fun k => ?_, fun w' => ?_⟩
      · have hk := h.metrics k
        by_cases hidx : k = idx
        · subst hidx
          simp [Run.exec, Tally.step, hmark, sentinelMetricInc, hk]
        · simp [Run.exec, Tally.step, hmark, sentinelMetricInc, update_of_ne hidx, hk,
            List.count_cons_of_ne (Ne.symm hidx)]
      · have hmarks := congrFun (marks_assign s w (.record left)) w'
        simp only [← hleft] at hmarks
        simp [Run.exec, Tally.step, hmark, hmarks]
  | readMetric w io seen active idx left htask =>
      apply of_left
      · rfl
      · apply marks_assign_none
        · simp [htask]
        · rfl
  | readConn w io seen active slot left htask =>
      apply of_left
      · rfl
      · apply marks_assign_none
        · simp [htask]
        · rfl
  | answered w io seen active htask =>
      apply of_left
      · rfl
      · apply marks_assign_none
        · simp [htask]
        · rfl
  | moved w act hact => exact of_left rfl rfl
  | crashed w =>
      refine ⟨fun k => ?_, fun w' => ?_⟩
      · simpa [Run.exec, Tally.step, MetricsState.assign] using h.metrics k
      · have hmarks := congrFun (marks_assign
          { s with tarpit := tarpitStep n maxConns s.tarpit (w, .crash) } w (.record [])) w'
        simp only [← hleft] at hmarks
        simp [Run.exec, Tally.step, hmarks]

end Tallied
section Records
variable {n : Nat} {present : Bool} {job : List Nat}

def isRequestMark (k : Nat) : Bool := k == NgxSentinelMetric.requests.idx

def isVerdictMark (k : Nat) : Bool :=
  decide (NgxSentinelMetric.verdictAllow.idx ≤ k ∧ k ≤ NgxSentinelMetric.verdictBlock.idx)

/-- The sum that the four counters of the verdicts make. -/
def verdictSum (get : Nat → Nat) : Nat :=
  get NgxSentinelMetric.verdictAllow.idx + get NgxSentinelMetric.verdictChallenge.idx +
    get NgxSentinelMetric.verdictTarpit.idx + get NgxSentinelMetric.verdictBlock.idx

theorem countP_verdictMark (l : List Nat) :
    l.countP isVerdictMark = verdictSum fun k => l.count k := by
  induction l with
  | nil => rfl
  | cons k l ih =>
      have hmark : (if isVerdictMark k then 1 else 0) = (if k = 1 then 1 else 0) +
          (if k = 2 then 1 else 0) + (if k = 3 then 1 else 0) + (if k = 4 then 1 else 0) := by
        simp only [isVerdictMark, NgxSentinelMetric.idx, NgxSentinelMetric.ctorIdx]
        grind
      simp only [List.countP_cons, ih, verdictSum, List.count_cons, beq_iff_eq, hmark,
        NgxSentinelMetric.idx, NgxSentinelMetric.ctorIdx]
      omega

/-- A record is a request's mark, a verdict's mark, and marks of other kinds. -/
theorem IsRecord.cases (h : IsRecord present job) :
    job = [] ∨ ∃ verdict rest, job = NgxSentinelMetric.requests.idx :: verdict :: rest ∧
      isVerdictMark verdict = true ∧ isRequestMark verdict = false ∧
      ∀ k ∈ rest, isRequestMark k = false ∧ isVerdictMark k = false := by
  obtain ⟨ctx, shadow, rfl⟩ := h
  cases present with
  | false => exact .inl rfl
  | true =>
      refine .inr ⟨_, _, record_eq ctx shadow, ?_, ?_, ?_⟩
      · cases ctx.verdict <;> rfl
      · cases ctx.verdict <;> rfl
      · have htests : ∀ m ∈ (sentinelSignalTests ctx.inputs).map Prod.snd,
            isRequestMark m.idx = false ∧ isVerdictMark m.idx = false := by
          change ∀ m ∈ (sentinelSignalTests noInputs).map Prod.snd, _
          decide
        intro k hk
        obtain ⟨m, hm, rfl⟩ := List.mem_map.mp hk
        cases List.mem_append.mp hm with
        | inl hfired =>
            apply htests
            exact List.map_subset _ (List.filter_subset_self _) hfired
        | inr hshadow =>
            have hm : m = .shadow := by
              split at hshadow
              · exact List.mem_singleton.mp hshadow
              · cases hshadow
            subst hm
            decide

/-- In the first part of a record the request comes before its verdict. -/
theorem IsRecord.part {first rest : List Nat} (h : IsRecord present (first ++ rest)) :
    first.countP isVerdictMark ≤ first.countP isRequestMark ∧ first.countP isRequestMark ≤ 1 ∧
      (rest = [] → first.countP isRequestMark ≤ first.countP isVerdictMark) := by
  cases h.cases with
  | inl hnone =>
      obtain ⟨rfl, -⟩ := List.append_eq_nil_iff.mp hnone
      simp
  | inr hsome =>
      obtain ⟨verdict, others, hjob, hverdict, hrequest, hothers⟩ := hsome
      cases first with
      | nil => simp
      | cons r first =>
          obtain ⟨rfl, htail⟩ := List.cons.inj hjob
          cases first with
          | nil =>
              have hne : rest ≠ [] := by
                intro hrest
                rw [hrest] at htail
                exact absurd htail (by simp)
              simp [isRequestMark, isVerdictMark, NgxSentinelMetric.idx,
                NgxSentinelMetric.ctorIdx, hne]
          | cons v first =>
              obtain ⟨rfl, hsplit⟩ := List.cons.inj htail
              have hmem : ∀ k ∈ first, k ∈ others := by
                intro k hk
                rw [← hsplit]
                exact List.mem_append_left _ hk
              have hnoRequest : first.countP isRequestMark = 0 := by
                rw [List.countP_eq_zero]
                intro k hk
                simp [(hothers k (hmem k hk)).1]
              have hnoVerdict : first.countP isVerdictMark = 0 := by
                rw [List.countP_eq_zero]
                intro k hk
                simp [(hothers k (hmem k hk)).2]
              have hfirst : isRequestMark NgxSentinelMetric.requests.idx = true := rfl
              have hfirst' : isVerdictMark NgxSentinelMetric.requests.idx = false := rfl
              simp [hnoRequest, hnoVerdict, hverdict, hrequest, hfirst, hfirst']

/-- No verdict is counted before its request. -/
theorem record_verdict_covered : Tally.Covers (IsRecord present) isRequestMark isVerdictMark 0 where
  whole job hjob := by
    have hpart : IsRecord present (job ++ []) := by rwa [List.append_nil]
    exact hpart.part.1
  part first rest hjob := hjob.part.1

/-- A request is counted a step before its verdict. -/
theorem record_request_covered : Tally.Covers (IsRecord present) isVerdictMark isRequestMark 1 where
  whole job hjob := by
    have hpart : IsRecord present (job ++ []) := by rwa [List.append_nil]
    exact hpart.part.2.2 rfl
  part first rest hjob := by
    have hle := hjob.part.2.1
    omega

theorem IsRecord.count_le_one (h : IsRecord present job) (k : Nat) : job.count k ≤ 1 := by
  obtain ⟨ctx, shadow, rfl⟩ := h
  cases present with
  | false => exact Nat.zero_le _
  | true =>
      rw [record_eq]
      exact List.nodup_iff_count_le_one.mp ((recordMetrics_nodup ctx shadow).map idx_injective) k

/-- No mark comes twice in what is left of a record. -/
theorem record_few (k : Nat) : Tally.Few (IsRecord present) (· == k) 1 := by
  intro first rest hjob
  have hone := hjob.count_le_one k
  simp only [List.count, List.countP_append] at hone
  omega

end Records
section Tallied
open Run
variable {n : Nat} {present : Bool} {maxConns : Nat}
variable {s s' : MetricsState n} {t : Tally.State (Fin n) Nat} {e : MetricsEvent n}
  {reply : Option StatusReply} {acts : List (Tally.Act (Fin n) Nat)}

/-- What a run has tallied. -/
structure Tallied (present : Bool) (past : List (MetricsEvent n)) (s : MetricsState n)
    (t : Tally.State (Fin n) Nat) : Prop where
  counts : Counts s t
  working : Tally.Working (IsRecord present) t
  balanced : Tally.Balanced t
  verdicts : Tally.Covered isRequestMark isVerdictMark 0 t
  requests : Tally.Covered isVerdictMark isRequestMark 1 t
  lost : ∀ k, Tally.Lost (· == k) 1 t
  asked : ∀ k, t.asked.count k ≤ past.countP MetricsEvent.isRequest
  absent : present = false → t.asked = []
  drops : t.drops = past.countP MetricsEvent.isCrash

theorem tallied_start (present : Bool) : Tallied present [] (metricsStart n) Tally.start where
  counts := counts_start n
  working := Tally.working_start
  balanced := Tally.balanced_start
  verdicts := Tally.covered_start
  requests := Tally.covered_start
  lost _ := Tally.lost_start _ 1
  asked _ := Nat.le_refl 0
  absent _ := rfl
  drops := rfl

theorem takes_move (hmove : MetricsMove present maxConns s e reply s' acts) :
    ∀ a ∈ acts, Tally.Takes (IsRecord present) a := by
  cases hmove with
  | taken w ctx shadow htask => simpa [Tally.Takes] using ⟨ctx, shadow, rfl⟩
  | counted w idx left htask => simp [Tally.Takes]
  | crashed w => simp [Tally.Takes]
  | _ => simp

theorem asked_move {past : List (MetricsEvent n)}
    (hmove : MetricsMove present maxConns s e reply s' acts)
    (h : ∀ k, t.asked.count k ≤ past.countP MetricsEvent.isRequest) (k : Nat) :
    (exec Tally.step t acts).asked.count k ≤ (past ++ [e]).countP MetricsEvent.isRequest := by
  have hk := h k
  rw [List.countP_append]
  cases hmove with
  | taken w ctx shadow htask =>
      have hrecord : IsRecord present (sentinelMetricsRecord present ctx shadow) :=
        ⟨ctx, shadow, rfl⟩
      have hone := hrecord.count_le_one k
      simp only [exec_cons, exec_nil, Tally.step]
      split
      · simp only [List.count_append, MetricsEvent.isRequest, List.countP_singleton, if_true]
        omega
      · exact Nat.le_add_right_of_le hk
  | counted w idx left htask =>
      simp only [exec_cons, exec_nil, Tally.step]
      split
      · exact Nat.le_add_right_of_le hk
      · exact Nat.le_add_right_of_le hk
  | crashed w => exact Nat.le_add_right_of_le hk
  | _ => exact Nat.le_add_right_of_le hk

theorem absent_move (hmove : MetricsMove false maxConns s e reply s' acts) (h : t.asked = []) :
    (exec Tally.step t acts).asked = [] := by
  cases hmove with
  | taken w ctx shadow htask =>
      simp only [exec_cons, exec_nil, Tally.step]
      split
      · simpa using ⟨h, rfl⟩
      · exact h
  | counted w idx left htask =>
      simp only [exec_cons, exec_nil, Tally.step]
      split
      · exact h
      · exact h
  | _ => exact h

theorem drops_move {past : List (MetricsEvent n)}
    (hmove : MetricsMove present maxConns s e reply s' acts)
    (h : t.drops = past.countP MetricsEvent.isCrash) :
    (exec Tally.step t acts).drops = (past ++ [e]).countP MetricsEvent.isCrash := by
  rw [List.countP_append, ← h]
  cases hmove with
  | same _ _ hreply hcrash hbusy => simp [hcrash]
  | taken w ctx shadow htask =>
      simp only [exec_cons, exec_nil, Tally.step]
      split <;> rfl
  | counted w idx left htask =>
      simp only [exec_cons, exec_nil, Tally.step]
      split <;> rfl
  | moved w act hact => cases act <;> first | rfl | exact absurd rfl hact
  | _ => rfl

theorem tallied_move {past : List (MetricsEvent n)} (h : Tallied present past s t)
    (hmove : MetricsMove present maxConns s e reply s' acts) :
    Tallied present (past ++ [e]) s' (exec Tally.step t acts) := by
  have hrun := exec_invariant_along (P := fun _ a => Tally.Takes (IsRecord present) a)
    (I := fun t => Tally.Working (IsRecord present) t ∧ Tally.Balanced t ∧
      Tally.Covered isRequestMark isVerdictMark 0 t ∧
      Tally.Covered isVerdictMark isRequestMark 1 t ∧ ∀ k, Tally.Lost (· == k) 1 t)
    (fun t a ha h => ⟨Tally.working_step ha h.1, Tally.balanced_step a h.2.1,
      Tally.covered_step record_verdict_covered h.1 a h.2.2.1,
      Tally.covered_step record_request_covered h.1 a h.2.2.2.1,
      fun k => Tally.lost_step (record_few k) h.1 a (h.2.2.2.2 k)⟩)
    (along_of_forall Tally.step t (takes_move hmove))
    ⟨h.working, h.balanced, h.verdicts, h.requests, h.lost⟩
  obtain ⟨hworking, hbalanced, hverdicts, hrequests, hlost⟩ := hrun
  refine ⟨counts_move h.counts hmove, hworking, hbalanced, hverdicts, hrequests, hlost,
    asked_move hmove h.asked, fun hpresent => ?_, drops_move hmove h.drops⟩
  subst hpresent
  exact absent_move hmove (h.absent rfl)

@[simp] theorem metricsAfter_snoc (run : List (MetricsEvent n)) (e : MetricsEvent n) :
    metricsAfter present maxConns (run ++ [e]) =
      (metricsStep present maxConns (metricsAfter present maxConns run) e).2 := by
  simp [metricsAfter, metricsNext, exec_append]

/-- What every run has tallied. -/
theorem exists_tallied (present : Bool) (maxConns : Nat) (run : List (MetricsEvent n)) :
    ∃ t, Tallied present run (metricsAfter present maxConns run) t := by
  induction run using List.reverseRecOn with
  | nil => exact ⟨Tally.start, tallied_start present⟩
  | append_singleton run e ih =>
      obtain ⟨t, ht⟩ := ih
      rw [metricsAfter_snoc]
      exact ⟨_, tallied_move ht (metricsStep_move _ _ _ e)⟩

/-- Whether an event is a request that a counter counts. -/
def MetricsEvent.isCounted (present : Bool) (m : NgxSentinelMetric) : MetricsEvent n → Bool
  | .request _ ctx shadow => present && m.counts ctx shadow
  | _ => false

theorem counted_move {past : List (MetricsEvent n)} (h : Tallied present past s t)
    (hmove : MetricsMove present maxConns s e reply s' acts) (hfree : TakesFree s e)
    (m : NgxSentinelMetric) :
    (exec Tally.step t acts).asked.count m.idx =
      t.asked.count m.idx + if e.isCounted present m then 1 else 0 := by
  cases hmove with
  | same _ _ hreply hcrash hbusy =>
      cases e with
      | request w ctx shadow => exact absurd hfree (hbusy rfl)
      | _ => rfl
  | taken w ctx shadow htask =>
      have hnone : t.left w = [] := by simp [h.counts.left w, htask]
      simp [Tally.step, hnone, record_count, MetricsEvent.isCounted]
  | counted w idx left htask =>
      simp only [exec_cons, exec_nil, Tally.step]
      split
      · rfl
      · rfl
  | _ => rfl

/-- What was asked for is what the requests of the run count for. -/
theorem exists_asked (run : List (MetricsEvent n))
    (hfree : Along TakesFree (metricsNext present maxConns) (metricsStart n) run) :
    ∃ t, Tallied present run (metricsAfter present maxConns run) t ∧
      ∀ m : NgxSentinelMetric,
        t.asked.count m.idx = run.countP (MetricsEvent.isCounted present m) := by
  induction run using List.reverseRecOn with
  | nil => exact ⟨Tally.start, tallied_start present, fun _ => rfl⟩
  | append_singleton run e ih =>
      obtain ⟨hbefore, he⟩ := along_append.mp hfree
      obtain ⟨t, ht, hasked⟩ := ih hbefore
      rw [metricsAfter_snoc]
      refine ⟨_, tallied_move ht (metricsStep_move _ _ _ e), fun m => ?_⟩
      rw [counted_move ht (metricsStep_move present maxConns _ e) he.1 m, hasked m,
        List.countP_append, List.countP_singleton]

section Facts
variable {past : List (MetricsEvent n)} (h : Tallied present past s t)
include h

theorem Tallied.done_le (k : Nat) : t.done.count k ≤ t.asked.count k := by
  have hk := h.balanced (· == k)
  simp only [List.count]
  omega

theorem Tallied.metrics_eq (hbound : past.countP MetricsEvent.isRequest < 2 ^ 64) (k : Nat) :
    s.metrics k = t.done.count k := by
  rw [h.counts.metrics k]
  apply Nat.mod_eq_of_lt
  exact Nat.lt_of_le_of_lt (Nat.le_trans (h.done_le k) (h.asked k)) hbound

theorem Tallied.get_eq (k : Nat) : sentinelMetricGet present s.metrics k = s.metrics k := by
  cases hpresent : present with
  | true => rfl
  | false =>
      have hdone := h.done_le k
      rw [h.absent hpresent] at hdone
      rw [h.counts.metrics k, Nat.le_zero.mp hdone]
      rfl

/-- What the counters of the verdicts say of that of the requests. -/
theorem Tallied.consistent (hbound : past.countP MetricsEvent.isRequest < 2 ^ 64) :
    verdictSum s.metrics ≤ s.metrics NgxSentinelMetric.requests.idx ∧
      s.metrics NgxSentinelMetric.requests.idx ≤
        verdictSum s.metrics + (n + past.countP MetricsEvent.isCrash) := by
  have hmetrics : s.metrics = fun k => t.done.count k := funext (h.metrics_eq hbound)
  have hverdicts := h.verdicts.done_le record_verdict_covered h.working
  have hrequests := h.requests.done_le record_request_covered h.working
  have hcount : t.done.countP isRequestMark = t.done.count NgxSentinelMetric.requests.idx := rfl
  rw [Fintype.card_fin, hcount, countP_verdictMark, ← hmetrics] at hverdicts hrequests
  rw [h.drops] at hrequests
  simp only [hmetrics] at hverdicts hrequests ⊢
  omega

end Facts
end Tallied
end Sentinel
