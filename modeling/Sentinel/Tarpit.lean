import Sentinel.Lib.Run
import Sentinel.Lib.SoftCap
import Sentinel.Ngx

/-!
The connection cap of `sentinel_tarpit.c` under concurrency. A worker is one
thread: while it is inside a reservation none of its cleanups run, but other
workers move between any two of its reads of the counters, and any worker can be
killed and respawned at any point. The model of the code refines the soft cap of
`Lib/SoftCap.lean`, which bounds the sum of the counters.

The counters are integers here; that they never wrap is part of the result. Left
out: the drip itself, which touches no counter.
-/

namespace Sentinel

/-- `NGX_MAX_PROCESSES` -/
def ngxMaxProcesses : Nat := 1024

/-- The index of the worker's own counter. -/
def slotOf (worker : Nat) : Nat := if worker ≥ ngxMaxProcesses then 0 else worker

/-- Where a worker is in `sentinel_tarpit_start`. -/
inductive TarpitPhase where
  | idle
  /-- In the loop of `sentinel_tarpit_sum`, before reading slot `i`. -/
  | summing (i : Nat) (sum : Int)
  /-- Below the cap, with `old_slot` read. -/
  | swapping (old : Int)
  /-- Reserved, and its context not counted yet. -/
  | settingUp
  | dead
  deriving DecidableEq, Repr

/-- A worker process: its contexts with their `counted` flags, and what
`sentinel_tarpit_start` returned last. -/
structure TarpitWorker where
  phase : TarpitPhase
  ctxs : List Bool
  rc : Option NgxRc
  deriving DecidableEq, Repr

structure TarpitState where
  slots : Nat → Int
  workers : Nat → TarpitWorker

def tarpitStart : TarpitState := ⟨fun _ => 0, fun _ => ⟨.idle, [], none⟩⟩

inductive TarpitAct where
  | reserve | read | check | swap
  /-- The context or its cleanup cannot be allocated. -/
  | setupFailed
  | setupDone
  /-- The pool of that context is destroyed. -/
  | cleanup (ctx : Nat)
  | crash | respawn
  deriving DecidableEq, Repr

/-- What an act makes of a worker and its own slot, if it can happen now. -/
def workerStep (maxConns : Nat) (slots : Nat → Int) (own : Int) (wk : TarpitWorker) :
    TarpitAct → Option (TarpitWorker × Int)
  | .reserve =>
      match wk.phase with
      | .idle =>
          if maxConns = 0 then some ({ wk with rc := some .declined }, own)
          else some ({ wk with phase := .summing 0 0 }, own)
      | _ => none
  | .read =>
      match wk.phase with
      | .summing i sum =>
          if i < ngxMaxProcesses then
            some ({ wk with phase := .summing (i + 1) (sum + slots i) }, own)
          else none
      | _ => none
  | .check =>
      match wk.phase with
      | .summing i sum =>
          if i < ngxMaxProcesses then none
          else if sum ≥ maxConns then
            some ({ wk with phase := .idle, rc := some .httpClose }, own)
          else some ({ wk with phase := .swapping own }, own)
      | _ => none
  | .swap =>
      match wk.phase with
      | .swapping old =>
          if own = old then some ({ wk with phase := .settingUp }, old + 1)
          else some ({ wk with phase := .summing 0 0 }, own)
      | _ => none
  | .setupFailed =>
      match wk.phase with
      | .settingUp => some ({ wk with phase := .idle, rc := some .declined }, own - 1)
      | _ => none
  | .setupDone =>
      match wk.phase with
      | .settingUp =>
          some ({ phase := .idle, ctxs := wk.ctxs ++ [true], rc := some .done }, own)
      | _ => none
  | .cleanup ctx =>
      match wk.phase, wk.ctxs[ctx]? with
      | .idle, some true => some ({ wk with ctxs := wk.ctxs.set ctx false }, own - 1)
      | _, _ => none
  | .crash =>
      match wk.phase with
      | .dead => none
      | _ => some ({ wk with phase := .dead, ctxs := [] }, own)
  | .respawn =>
      match wk.phase with
      | .dead => some (⟨.idle, [], none⟩, 0)
      | _ => none

def TarpitState.put (s : TarpitState) (w : Nat) (wk : TarpitWorker) (own : Int) :
    TarpitState where
  slots := Function.update s.slots (slotOf w) own
  workers := Function.update s.workers w wk

/-- One act of one of the workers. -/
def tarpitStep (workers maxConns : Nat) (s : TarpitState) (e : Nat × TarpitAct) :
    TarpitState :=
  if e.1 < workers then
    match workerStep maxConns s.slots (s.slots (slotOf e.1)) (s.workers e.1) e.2 with
    | some (wk, own) => s.put e.1 wk own
    | none => s
  else s

section Moves
variable {maxConns : Nat} {slots : Nat → Int} {own : Int} {wk : TarpitWorker}

/-- The moves of a worker. -/
inductive WorkerMove (maxConns : Nat) (slots : Nat → Int) (own : Int) (wk : TarpitWorker) :
    TarpitWorker → Int → Prop where
  | disabled (h : wk.phase = .idle) :
      WorkerMove maxConns slots own wk { wk with rc := some .declined } own
  | begun (h : wk.phase = .idle) :
      WorkerMove maxConns slots own wk { wk with phase := .summing 0 0 } own
  | read (i : Nat) (sum : Int) (h : wk.phase = .summing i sum) (hi : i < ngxMaxProcesses) :
      WorkerMove maxConns slots own wk
        { wk with phase := .summing (i + 1) (sum + slots i) } own
  | closed (i : Nat) (sum : Int) (h : wk.phase = .summing i sum) :
      WorkerMove maxConns slots own wk { wk with phase := .idle, rc := some .httpClose } own
  | below (i : Nat) (sum : Int) (h : wk.phase = .summing i sum) (hi : ngxMaxProcesses ≤ i)
      (hsum : sum < maxConns) :
      WorkerMove maxConns slots own wk { wk with phase := .swapping own } own
  | swapped (h : wk.phase = .swapping own) :
      WorkerMove maxConns slots own wk { wk with phase := .settingUp } (own + 1)
  | retried (old : Int) (h : wk.phase = .swapping old) :
      WorkerMove maxConns slots own wk { wk with phase := .summing 0 0 } own
  | undone (h : wk.phase = .settingUp) :
      WorkerMove maxConns slots own wk { wk with phase := .idle, rc := some .declined }
        (own - 1)
  | counted (h : wk.phase = .settingUp) :
      WorkerMove maxConns slots own wk
        { phase := .idle, ctxs := wk.ctxs ++ [true], rc := some .done } own
  | released (ctx : Nat) (h : wk.phase = .idle) (hctx : wk.ctxs[ctx]? = some true) :
      WorkerMove maxConns slots own wk { wk with ctxs := wk.ctxs.set ctx false } (own - 1)
  | crashed : WorkerMove maxConns slots own wk { wk with phase := .dead, ctxs := [] } own
  | respawned (h : wk.phase = .dead) :
      WorkerMove maxConns slots own wk ⟨.idle, [], none⟩ 0

theorem workerStep_move {act : TarpitAct} {wk' : TarpitWorker} {own' : Int}
    (h : workerStep maxConns slots own wk act = some (wk', own')) :
    WorkerMove maxConns slots own wk wk' own' := by
  cases act with
  | reserve =>
      simp only [workerStep] at h
      split at h
      next hphase =>
        split at h
        · cases h
          exact .disabled hphase
        · cases h
          exact .begun hphase
      next => cases h
  | read =>
      simp only [workerStep] at h
      split at h
      next i sum hphase =>
        split at h
        next hi =>
          cases h
          exact .read i sum hphase hi
        next => cases h
      next => cases h
  | check =>
      simp only [workerStep] at h
      split at h
      next i sum hphase =>
        split at h
        next => cases h
        next hi =>
          split at h
          next =>
            cases h
            exact .closed i sum hphase
          next hsum =>
            cases h
            exact .below i sum hphase (Nat.not_lt.mp hi) (Int.not_le.mp hsum)
      next => cases h
  | swap =>
      simp only [workerStep] at h
      split at h
      next old hphase =>
        split at h
        next heq =>
          cases h
          subst heq
          exact .swapped hphase
        next =>
          cases h
          exact .retried old hphase
      next => cases h
  | setupFailed =>
      simp only [workerStep] at h
      split at h
      next hphase =>
        cases h
        exact .undone hphase
      next => cases h
  | setupDone =>
      simp only [workerStep] at h
      split at h
      next hphase =>
        cases h
        exact .counted hphase
      next => cases h
  | cleanup ctx =>
      simp only [workerStep] at h
      split at h
      next hphase hctx =>
        cases h
        exact .released ctx hphase hctx
      next => cases h
  | crash =>
      simp only [workerStep] at h
      split at h
      next => cases h
      next =>
        cases h
        exact .crashed
  | respawn =>
      simp only [workerStep] at h
      split at h
      next hphase =>
        cases h
        exact .respawned hphase
      next => cases h

theorem tarpitStep_cases (workers maxConns : Nat) (s : TarpitState) (e : Nat × TarpitAct) :
    tarpitStep workers maxConns s e = s ∨ e.1 < workers ∧ ∃ wk own,
      WorkerMove maxConns s.slots (s.slots (slotOf e.1)) (s.workers e.1) wk own ∧
        tarpitStep workers maxConns s e = s.put e.1 wk own := by
  rw [tarpitStep]
  split
  next hw =>
    cases hstep : workerStep maxConns s.slots (s.slots (slotOf e.1)) (s.workers e.1) e.2 with
    | none => exact .inl rfl
    | some r => exact .inr ⟨hw, r.1, r.2, workerStep_move hstep, rfl⟩
  next => exact .inl rfl

end Moves

section Alone
variable {workers maxConns w : Nat}

/-- The acts of a reservation that goes through. -/
def reservation : List TarpitAct :=
  .reserve :: (List.replicate ngxMaxProcesses .read ++ [.check, .swap, .setupDone])

theorem reservation_no_crash : ∀ act ∈ reservation, act ≠ .crash := by
  intro act hact heq
  simp [reservation, List.mem_replicate, heq] at hact

theorem tarpitStep_eq (hw : w < workers) {s : TarpitState} {act : TarpitAct} {wk : TarpitWorker}
    {own : Int}
    (h : workerStep maxConns s.slots (s.slots (slotOf w)) (s.workers w) act = some (wk, own)) :
    tarpitStep workers maxConns s (w, act) = s.put w wk own := by
  simp only [tarpitStep, if_pos hw, h]

/-- The loop of `sentinel_tarpit_sum`, with `n` slots to go. -/
theorem exec_reads (hw : w < workers) (n : Nat) :
    ∀ {s : TarpitState} {i : Nat} {sum : Int}, (s.workers w).phase = .summing i sum →
      i + n ≤ ngxMaxProcesses →
      Run.exec (tarpitStep workers maxConns) s (List.replicate n (w, .read)) =
        s.put w { s.workers w with
          phase := .summing (i + n) (sum + ∑ j ∈ Finset.range n, s.slots (i + j)) }
          (s.slots (slotOf w)) := by
  induction n with
  | zero =>
      intro s i sum hphase _
      simp [TarpitState.put, ← hphase, Function.update_eq_self]
  | succ n ih =>
      intro s i sum hphase hle
      have hi : i < ngxMaxProcesses := by omega
      have hstep : tarpitStep workers maxConns s (w, .read) =
          s.put w { s.workers w with phase := .summing (i + 1) (sum + s.slots i) }
            (s.slots (slotOf w)) :=
        tarpitStep_eq hw (by simp [workerStep, hphase, hi])
      have hnext : ((tarpitStep workers maxConns s (w, .read)).workers w).phase =
          .summing (i + 1) (sum + s.slots i) := by simp [hstep, TarpitState.put]
      rw [List.replicate_succ, Run.exec_cons, ih hnext (by omega), hstep]
      have hindex : ∀ j, i + 1 + j = i + (j + 1) := fun j => by omega
      have hsum : sum + s.slots i + ∑ j ∈ Finset.range n, s.slots (i + (j + 1)) =
          sum + ∑ j ∈ Finset.range (n + 1), s.slots (i + j) := by
        rw [Finset.sum_range_succ', Nat.add_zero]
        omega
      simp only [TarpitState.put, Function.update_self, Function.update_idem,
        Function.update_eq_self, hindex, hsum]

/-- A worker that nobody disturbs gets its connection while the sum is below the
cap. -/
theorem reservation_alone (hw : w < workers) {s : TarpitState}
    (hidle : (s.workers w).phase = .idle)
    (hbelow : ∑ j ∈ Finset.range ngxMaxProcesses, s.slots j < maxConns) (hmax : maxConns ≠ 0) :
    Run.exec (tarpitStep workers maxConns) s (reservation.map (Prod.mk w)) =
      s.put w ⟨.idle, (s.workers w).ctxs ++ [true], some .done⟩ (s.slots (slotOf w) + 1) := by
  have hbegin : tarpitStep workers maxConns s (w, .reserve) =
      s.put w { s.workers w with phase := .summing 0 0 } (s.slots (slotOf w)) :=
    tarpitStep_eq hw (by simp [workerStep, hidle, hmax])
  have hphase : ((tarpitStep workers maxConns s (w, .reserve)).workers w).phase = .summing 0 0 := by
    simp [hbegin, TarpitState.put]
  rw [reservation, List.map_cons, List.map_append, List.map_replicate, Run.exec_cons,
    Run.exec_append, exec_reads hw ngxMaxProcesses hphase (by simp), hbegin]
  have hsum : ¬ (maxConns : Int) ≤ ∑ j ∈ Finset.range ngxMaxProcesses, s.slots j :=
    Int.not_le.mpr hbelow
  simp [TarpitState.put, tarpitStep, workerStep, hw, hsum]

end Alone

section Accounts
variable {maxConns : Nat} {slots : Nat → Int} {own own' : Int} {wk wk' : TarpitWorker}

/-- The contexts whose cleanup will decrement, and the reservation being set up. -/
def TarpitWorker.holds (wk : TarpitWorker) : Int :=
  wk.ctxs.count true + if wk.phase = .settingUp then 1 else 0

/-- A running worker's slot is what it holds; a dead one left some count behind. -/
structure Accounted (wk : TarpitWorker) (own : Int) : Prop where
  nonneg : 0 ≤ own
  running : wk.phase ≠ .dead → own = wk.holds

theorem holds_nonneg (wk : TarpitWorker) : 0 ≤ wk.holds := by
  rw [TarpitWorker.holds]
  split <;> omega

theorem count_set_false {l : List Bool} {i : Nat} (h : l[i]? = some true) :
    ((l.set i false).count true : Int) = l.count true - 1 := by
  obtain ⟨hi, htrue⟩ := List.getElem?_eq_some_iff.mp h
  have hpos : 0 < l.count true := List.count_pos_iff.mpr (htrue ▸ List.getElem_mem hi)
  rw [List.count_set hi]
  simp only [htrue, beq_self_eq_true, if_true]
  simp only [Bool.false_beq, Bool.not_true, Bool.false_eq_true, if_false, Nat.add_zero]
  omega

/-- Every move keeps the worker's account. -/
theorem accounted_move (h : Accounted wk own)
    (hmove : WorkerMove maxConns slots own wk wk' own') : Accounted wk' own' := by
  have of_holds : ∀ {wk' : TarpitWorker} {own' : Int}, own' = wk'.holds →
      Accounted wk' own' := by
    intro wk' own' he
    exact ⟨he ▸ holds_nonneg wk', fun _ => he⟩
  have hrun : ∀ {phase : TarpitPhase}, wk.phase = phase → phase ≠ .dead →
      own = wk.ctxs.count true + if phase = .settingUp then 1 else 0 := by
    intro phase hphase hne
    subst hphase
    exact h.running hne
  cases hmove with
  | disabled hp => exact of_holds (hrun hp (by decide) ▸ by simp [TarpitWorker.holds, hp])
  | begun hp => exact of_holds (hrun hp (by decide) ▸ by simp [TarpitWorker.holds])
  | read i sum hp _ => exact of_holds (hrun hp (by simp) ▸ by simp [TarpitWorker.holds])
  | closed i sum hp => exact of_holds (hrun hp (by simp) ▸ by simp [TarpitWorker.holds])
  | below i sum hp _ _ => exact of_holds (hrun hp (by simp) ▸ by simp [TarpitWorker.holds])
  | swapped hp =>
      apply of_holds
      have := hrun hp (by simp)
      simp only [reduceCtorEq, if_false, TarpitWorker.holds, if_true] at this ⊢
      omega
  | retried old hp => exact of_holds (hrun hp (by simp) ▸ by simp [TarpitWorker.holds])
  | undone hp =>
      apply of_holds
      have := hrun hp (by decide)
      simp only [if_true, TarpitWorker.holds, reduceCtorEq, if_false] at this ⊢
      omega
  | counted hp =>
      apply of_holds
      have := hrun hp (by decide)
      simp only [if_true] at this
      simp [TarpitWorker.holds, this]
  | released ctx hp hctx =>
      apply of_holds
      have := hrun hp (by decide)
      simp only [reduceCtorEq, if_false] at this
      simp only [TarpitWorker.holds, hp, reduceCtorEq, if_false, count_set_false hctx]
      omega
  | crashed => exact ⟨h.nonneg, fun hne => absurd rfl hne⟩
  | respawned hp => exact of_holds rfl

end Accounts

section Refinement
variable {workers maxConns : Nat} {s : TarpitState} {a : SoftCap.State}

/-- How far a worker's reading is, in the soft cap. -/
def Matches (maxConns : Nat) : TarpitPhase → Option (List Int) → Prop
  | .summing i sum, r => ∃ l, r = some l ∧ l.length = i ∧ i ≤ ngxMaxProcesses ∧ l.sum = sum
  | .swapping _, r => ∃ l, r = some l ∧ l.length = ngxMaxProcesses ∧ l.sum < maxConns
  | _, r => r = none

structure Refines (workers maxConns : Nat) (s : TarpitState) (a : SoftCap.State) : Prop where
  counter : a.counter = s.slots
  reading : ∀ w < workers, Matches maxConns (s.workers w).phase (a.reading w)

/-- The step of the soft cap that a move of worker `w` is. -/
theorem move_refines (hW : workers ≤ ngxMaxProcesses) {w : Nat} (hw : w < workers)
    {wk : TarpitWorker} {own : Int} (h : Refines workers maxConns s a)
    (hacc : Accounted (s.workers w) (s.slots (slotOf w)))
    (hmove : WorkerMove maxConns s.slots (s.slots (slotOf w)) (s.workers w) wk own) :
    ∃ a', Relation.ReflTransGen (SoftCap.Step ngxMaxProcesses workers maxConns) a a' ∧
      Refines workers maxConns (s.put w wk own) a' := by
  have hslot : slotOf w = w := if_neg (by omega)
  have hwk := h.reading w hw
  rw [hslot] at hacc hmove
  -- the worker's reading becomes `r` and its counter `own`; the rest stays
  have result : ∀ a' : SoftCap.State, SoftCap.Step ngxMaxProcesses workers maxConns a a' →
      a'.counter = Function.update s.slots w own →
      (∀ u, u ≠ w → a'.reading u = a.reading u) → Matches maxConns wk.phase (a'.reading w) →
      ∃ a', Relation.ReflTransGen (SoftCap.Step ngxMaxProcesses workers maxConns) a a' ∧
        Refines workers maxConns (s.put w wk own) a' := by
    intro a' hstep hcounter hother hself
    refine ⟨a', Relation.ReflTransGen.single hstep, ?_, fun u hu => ?_⟩
    · rw [hcounter, TarpitState.put, hslot]
    · by_cases huw : u = w
      · subst huw
        simpa [TarpitState.put] using hself
      · rw [hother u huw]
        simpa [TarpitState.put, Function.update_of_ne huw] using h.reading u hu
  have same : a.counter = Function.update s.slots w (s.slots w) := by
    rw [Function.update_eq_self, h.counter]
  have others : ∀ (r : Option (List Int)) u, u ≠ w →
      Function.update a.reading w r u = a.reading u := fun r u hu => Function.update_of_ne hu _ _
  -- a move that ends or forgets the reading
  have ends : Matches maxConns wk.phase none → own = s.slots w →
      ∃ a', Relation.ReflTransGen (SoftCap.Step ngxMaxProcesses workers maxConns) a a' ∧
        Refines workers maxConns (s.put w wk own) a' := by
    intro hm ho
    subst ho
    exact result _ (.abandon a w) same (others none) (by simpa using hm)
  have restarts : Matches maxConns wk.phase (some []) → own = s.slots w →
      ∃ a', Relation.ReflTransGen (SoftCap.Step ngxMaxProcesses workers maxConns) a a' ∧
        Refines workers maxConns (s.put w wk own) a' := by
    intro hm ho
    subst ho
    exact result _ (.start a w) same (others (some [])) (by simpa using hm)
  -- a move outside a reservation that takes the counter down
  have lowers : Matches maxConns wk.phase (a.reading w) → own ≤ s.slots w →
      ∃ a', Relation.ReflTransGen (SoftCap.Step ngxMaxProcesses workers maxConns) a a' ∧
        Refines workers maxConns (s.put w wk own) a' := by
    intro hm ho
    refine result _ (.lower a w own (by rw [h.counter]; exact ho)) ?_ (fun _ _ => rfl) hm
    simp only [h.counter]
  cases hmove with
  | disabled hp =>
      rw [hp] at hwk
      exact lowers (by simpa [hp] using hwk) (Int.le_refl _)
  | begun hp => exact restarts ⟨[], rfl, rfl, Nat.zero_le _, rfl⟩ rfl
  | read i sum hp hi =>
      rw [hp] at hwk
      obtain ⟨l, hl, hlen, _, hsum⟩ := hwk
      refine result _ (.read a w l hl (by omega)) same (others _) ?_
      simp only [Function.update_self]
      refine ⟨_, rfl, by simp [hlen], hi, ?_⟩
      simp [hsum, hlen, h.counter]
  | closed i sum hp => exact ends rfl rfl
  | below i sum hp hi hsum =>
      rw [hp] at hwk
      obtain ⟨l, hl, hlen, hle, hs⟩ := hwk
      exact lowers ⟨l, hl, by omega, by omega⟩ (Int.le_refl _)
  | swapped hp =>
      rw [hp] at hwk
      obtain ⟨l, hl, hlen, hs⟩ := hwk
      refine result _ (.raise a w l hw hl hlen hs) ?_ (others none) (by simp [Matches])
      simp only [h.counter]
  | retried old hp => exact restarts ⟨[], rfl, rfl, Nat.zero_le _, rfl⟩ rfl
  | undone hp =>
      rw [hp] at hwk
      exact lowers hwk (by omega)
  | counted hp =>
      rw [hp] at hwk
      exact lowers hwk (Int.le_refl _)
  | released ctx hp _ =>
      rw [hp] at hwk
      exact lowers (by simpa [hp] using hwk) (by omega)
  | crashed => exact ends rfl rfl
  | respawned hp =>
      rw [hp] at hwk
      exact lowers hwk hacc.nonneg

/-- The account of every worker, the slots nobody owns, and a state of the soft
cap that explains the rest. -/
structure TarpitInv (workers maxConns : Nat) (s : TarpitState) : Prop where
  accounted : ∀ w < workers, Accounted (s.workers w) (s.slots (slotOf w))
  unowned : ∀ j, workers ≤ j → s.slots j = 0
  refines : ∃ a, Relation.ReflTransGen (SoftCap.Step ngxMaxProcesses workers maxConns)
    SoftCap.init a ∧ Refines workers maxConns s a

theorem tarpitInv_start (workers maxConns : Nat) :
    TarpitInv workers maxConns tarpitStart where
  accounted := fun _ _ => ⟨Int.le_refl 0, fun _ => rfl⟩
  unowned := fun _ _ => rfl
  refines := ⟨SoftCap.init, .refl, rfl, fun _ _ => rfl⟩

theorem tarpitInv_step (hW : workers ≤ ngxMaxProcesses) (h : TarpitInv workers maxConns s)
    (e : Nat × TarpitAct) : TarpitInv workers maxConns (tarpitStep workers maxConns s e) := by
  have hslot : ∀ w, w < workers → slotOf w = w := fun w hw => if_neg (by omega)
  cases tarpitStep_cases workers maxConns s e with
  | inl hsame => exact hsame.symm ▸ h
  | inr hmoved =>
      obtain ⟨hw, wk, own, hmove, hput⟩ := hmoved
      rw [hput]
      refine ⟨fun u hu => ?_, fun j hj => ?_, ?_⟩
      · by_cases huw : u = e.1
        · subst huw
          simpa [TarpitState.put] using accounted_move (h.accounted _ hu) hmove
        · have hne : slotOf u ≠ slotOf e.1 := by
            rw [hslot u hu, hslot e.1 hw]
            exact huw
          simpa [TarpitState.put, Function.update_of_ne huw, Function.update_of_ne hne] using
            h.accounted u hu
      · have hne : j ≠ slotOf e.1 := by
          rw [hslot e.1 hw]
          omega
        simpa [TarpitState.put, Function.update_of_ne hne] using h.unowned j hj
      · obtain ⟨a, hreach, href⟩ := h.refines
        obtain ⟨a', hstep, href'⟩ := move_refines hW hw href (h.accounted e.1 hw) hmove
        exact ⟨a', hreach.trans hstep, href'⟩

/-- In every state that any interleaving of the workers' acts reaches, no slot is
negative, a running worker's slot is what it holds, and the sum of all slots
exceeds the cap by less than the number of workers. -/
theorem tarpit_conns_capped (workers maxConns : Nat) (hmax : 1 ≤ maxConns)
    (hW : workers ≤ ngxMaxProcesses) (events : List (Nat × TarpitAct)) :
    let s := Run.exec (tarpitStep workers maxConns) tarpitStart events
    (∀ j, 0 ≤ s.slots j) ∧
      (∀ w < workers, (s.workers w).phase ≠ .dead →
        s.slots (slotOf w) = (s.workers w).holds) ∧
      ∑ j ∈ Finset.range ngxMaxProcesses, s.slots j ≤ maxConns + ((workers : Int) - 1) := by
  have h := Run.exec_invariant (I := TarpitInv workers maxConns)
    (fun s e hs => tarpitInv_step hW hs e) (tarpitInv_start workers maxConns) events
  refine ⟨fun j => ?_, fun w hw => (h.accounted w hw).running, ?_⟩
  · by_cases hj : j < workers
    · have hslot : slotOf j = j := if_neg (by omega)
      have hnonneg := (h.accounted j hj).nonneg
      rwa [hslot] at hnonneg
    · rw [h.unowned j (Nat.not_lt.mp hj)]
  · obtain ⟨a, hreach, href⟩ := h.refines
    have hle := SoftCap.total_le (by omega) hreach
    rw [href.counter] at hle
    omega

/-- Two workers and a cap of one: one of them has its connection, and is killed
and comes back while the other one sums. -/
theorem tarpit_conns_capped_respawn :
    let first := reservation.map (Prod.mk 0)
    let s := Run.exec (tarpitStep 2 1) tarpitStart first
    let later : List (Nat × TarpitAct) :=
      [(1, .reserve), (1, .read), (0, .crash), (1, .read), (0, .respawn)]
    s.slots 0 = 1 ∧ (s.workers 0).rc = some .done ∧
      ∑ j ∈ Finset.range ngxMaxProcesses,
        (Run.exec (tarpitStep 2 1) tarpitStart (first ++ later)).slots j ≤ 2 := by
  intro first s later
  have hreserved : s =
      tarpitStart.put 0 ⟨.idle, (tarpitStart.workers 0).ctxs ++ [true], some .done⟩
        (tarpitStart.slots (slotOf 0) + 1) :=
    reservation_alone (by decide) rfl (by simp [tarpitStart]) (by decide)
  have hcapped := (tarpit_conns_capped 2 1 (by decide) (by decide) (first ++ later)).2.2
  refine ⟨?_, ?_, hcapped.trans (by decide)⟩
  · rw [hreserved]
    rfl
  · rw [hreserved]
    rfl

end Refinement
end Sentinel
