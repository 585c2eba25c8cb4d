import Sentinel.MetricsRun

/-!
The page while the workers go on. It is read one word after the other, so it need
not show any one moment; but each number is one that the counter had while the
page was being read, none is far from the requests that there have been, and the
verdicts go with the requests. When nothing moves, the page is exact.
-/

namespace Sentinel
open Function

section Scraping
open Run
variable {n : Nat} {present : Bool} {maxConns : Nat}
variable {s s' : MetricsState n} {t : Tally.State (Fin n) Nat} {e : MetricsEvent n}
  {reply : Option StatusReply} {acts : List (Tally.Act (Fin n) Nat)}
variable {metrics metrics' seen : Nat → Nat} {left : List StatusRead}

/-- What the page shows of a counter, or would if it were read now. -/
def scrapeView (metrics seen : Nat → Nat) (left : List StatusRead) (k : Nat) : Nat :=
  if .metric k ∈ left then metrics k else seen k

/-- What a worker has read of the array since it stood at `before`. -/
structure Scraping (before metrics seen : Nat → Nat) (left : List StatusRead) (slack : Nat) :
    Prop where
  suffix : left <:+ statusReads
  low : ∀ m : NgxSentinelMetric, before m.idx ≤ scrapeView metrics seen left m.idx
  high : ∀ m : NgxSentinelMetric, scrapeView metrics seen left m.idx ≤ metrics m.idx
  cover : scrapeView metrics seen left NgxSentinelMetric.requests.idx ≤
    verdictSum (scrapeView metrics seen left) + slack

theorem statusReads_eq : statusReads =
    statusMetrics.map (fun m => .metric m.idx) ++ (List.range ngxMaxProcesses).map .conn := by
  have hmetrics : statusMetrics.map (fun m => StatusRead.metric m.idx) =
      .metric NgxSentinelMetric.requests.idx ::
        (sentinelVerdictLabels.mapIdx fun i _ =>
          .metric (NgxSentinelMetric.verdictAllow.idx + i)) ++
        (sentinelSignalLabels.map fun s => .metric s.1.idx) ++
        [.metric NgxSentinelMetric.shadow.idx] := rfl
  rw [hmetrics, statusReads, List.append_assoc _ [_], List.singleton_append]

theorem metric_mem_statusReads (m : NgxSentinelMetric) : .metric m.idx ∈ statusReads := by
  rw [statusReads_eq]
  apply List.mem_append_left
  exact List.mem_map_of_mem (f := fun m => StatusRead.metric m.idx) (mem_statusMetrics m)

/-- While the requests have not been read, nothing has been read. -/
theorem eq_statusReads_of_mem (hleft : left <:+ statusReads)
    (hmem : .metric NgxSentinelMetric.requests.idx ∈ left) : left = statusReads := by
  cases List.suffix_cons_iff.mp hleft with
  | inl heq => exact heq
  | inr htail =>
      have hlater := htail.subset hmem
      simp [sentinelVerdictLabels, sentinelSignalLabels, NgxSentinelMetric.idx,
        NgxSentinelMetric.ctorIdx] at hlater

theorem verdictSum_le {get get' : Nat → Nat}
    (h : ∀ m : NgxSentinelMetric, get m.idx ≤ get' m.idx) : verdictSum get ≤ verdictSum get' := by
  have h₁ := h .verdictAllow
  have h₂ := h .verdictChallenge
  have h₃ := h .verdictTarpit
  have h₄ := h .verdictBlock
  simp only [verdictSum]
  omega

/-- While the array grows and only what has not been read shows that. -/
theorem Scraping.mono {before : Nat → Nat} {slack slack' : Nat}
    (h : Scraping before metrics seen left slack) (hgrow : ∀ k, metrics k ≤ metrics' k)
    (hslack : slack ≤ slack')
    (hnow : metrics' NgxSentinelMetric.requests.idx ≤ verdictSum metrics' + slack') :
    Scraping before metrics' seen left slack' := by
  have hview : ∀ k, scrapeView metrics seen left k ≤ scrapeView metrics' seen left k := by
    intro k
    simp only [scrapeView]
    split
    · exact hgrow k
    · exact Nat.le_refl _
  refine ⟨h.suffix, fun m => Nat.le_trans (h.low m) (hview _), ?_, ?_⟩
  · intro m
    have hhigh := h.high m
    simp only [scrapeView] at hhigh ⊢
    split
    · exact Nat.le_refl _
    next hread =>
      rw [if_neg hread] at hhigh
      exact Nat.le_trans hhigh (hgrow _)
  · by_cases hmem : StatusRead.metric NgxSentinelMetric.requests.idx ∈ left
    · obtain rfl := eq_statusReads_of_mem h.suffix hmem
      have hall : ∀ m : NgxSentinelMetric, scrapeView metrics' seen statusReads m.idx =
          metrics' m.idx := fun m => if_pos (metric_mem_statusReads m)
      simpa only [verdictSum, hall] using hnow
    · have hsame : ∀ metrics, scrapeView metrics seen left NgxSentinelMetric.requests.idx =
          seen NgxSentinelMetric.requests.idx := fun metrics => if_neg hmem
      have hcover := h.cover
      have hsum := verdictSum_le fun m => hview m.idx
      rw [hsame] at hcover ⊢
      omega

theorem assign_task (s : MetricsState n) (w w' : Fin n) (task : MetricsTask) :
    (s.assign w task).task w' = if w' = w then task else s.task w' := by
  by_cases hw : w' = w
  · subst hw
    simp [MetricsState.assign]
  · simp [MetricsState.assign, hw]

/-- Reading a counter changes nothing of what the page is to show of the array. -/
theorem scrapeView_read (k idx : Nat) :
    scrapeView metrics (update seen idx (metrics idx)) left k =
      scrapeView metrics seen (.metric idx :: left) k := by
  by_cases hk : k = idx
  · subst hk
    simp [scrapeView]
  · simp [scrapeView, hk]

@[simp] theorem scrapeView_nil (metrics seen : Nat → Nat) : scrapeView metrics seen [] = seen := by
  funext k
  simp [scrapeView]

theorem scrapeView_conn (k slot : Nat) :
    scrapeView metrics seen left k = scrapeView metrics seen (.conn slot :: left) k := by
  simp [scrapeView]

/-- The page that a worker is reading after a step: it has been begun in the step,
or it would have been the same before. -/
theorem scrape_move (hmove : MetricsMove present maxConns s e reply s' acts)
    (hget : ∀ k, sentinelMetricGet present s.metrics k = s.metrics k) {w : Fin n} {io : StatusIo}
    {active : Nat} (htask : s'.task w = .scrape io seen active left) :
    (∃ seen₀ active₀ left₀, s.task w = .scrape io seen₀ active₀ left₀ ∧ left <:+ left₀ ∧
      ∀ k, scrapeView s.metrics seen left k = scrapeView s.metrics seen₀ left₀ k) ∨
      (e = .status w io ∧ left = statusReads ∧ s'.metrics = s.metrics ∧
        s.task w = .record []) := by
  have kept : s.task w = .scrape io seen active left → ∃ seen₀ active₀ left₀,
      s.task w = .scrape io seen₀ active₀ left₀ ∧ left <:+ left₀ ∧
        ∀ k, scrapeView s.metrics seen left k = scrapeView s.metrics seen₀ left₀ k :=
    fun h => ⟨seen, active, left, h, List.suffix_refl _, fun _ => rfl⟩
  cases hmove with
  | same _ _ hreply hcrash => exact .inl (kept htask)
  | moved w' act hact => exact .inl (kept htask)
  | opened w' io' hfree =>
      rw [assign_task] at htask
      split at htask
      next hw =>
        subst hw
        cases htask
        exact .inr ⟨rfl, rfl, rfl, hfree⟩
      · exact .inl (kept htask)
  | readMetric w' io' seen' active' idx left' hbefore =>
      rw [assign_task] at htask
      split at htask
      next hw =>
        subst hw
        cases htask
        refine .inl ⟨seen', active, .metric idx :: left, hbefore, List.suffix_cons _ _, ?_⟩
        intro k
        rw [hget]
        exact scrapeView_read k idx
      · exact .inl (kept htask)
  | readConn w' io' seen' active' slot left' hbefore =>
      rw [assign_task] at htask
      split at htask
      next hw =>
        subst hw
        cases htask
        exact .inl ⟨seen, active', .conn slot :: left, hbefore, List.suffix_cons _ _,
          fun k => scrapeView_conn k slot⟩
      · exact .inl (kept htask)
  | taken w' ctx shadow hfree =>
      rw [assign_task] at htask
      split at htask
      · cases htask
      · exact .inl (kept htask)
  | counted w' idx left' hbefore =>
      have htask' : (s.assign w' (.record left')).task w = .scrape io seen active left := htask
      rw [assign_task] at htask'
      split at htask'
      · cases htask'
      · exact .inl (kept htask')
  | answered w' io' seen' active' hbefore =>
      rw [assign_task] at htask
      split at htask
      · cases htask
      · exact .inl (kept htask)
  | crashed w' =>
      rw [assign_task] at htask
      split at htask
      · cases htask
      · exact .inl (kept htask)

/-- The array only grows. -/
theorem metrics_le_move {past : List (MetricsEvent n)} (h : Tallied present past s t)
    (hmove : MetricsMove present maxConns s e reply s' acts)
    (hbound : (past ++ [e]).countP MetricsEvent.isRequest < 2 ^ 64) (k : Nat) :
    s.metrics k ≤ s'.metrics k := by
  have hbefore : past.countP MetricsEvent.isRequest < 2 ^ 64 := by
    rw [List.countP_append] at hbound
    omega
  rw [h.metrics_eq hbefore, (tallied_move h hmove).metrics_eq hbound]
  cases hmove with
  | counted w idx left htask =>
      simp only [exec_cons, exec_nil, Tally.step]
      split
      · exact Nat.le_refl _
      · simp
  | taken w ctx shadow htask =>
      simp only [exec_cons, exec_nil, Tally.step]
      split
      · exact Nat.le_refl _
      · exact Nat.le_refl _
  | _ => exact Nat.le_refl _

/-- A worker that had nothing to do took up a page after `before`, and has been at
it ever since. -/
structure ReadingSince (present : Bool) (maxConns : Nat) (before : List (MetricsEvent n))
    (w : Fin n) (io : StatusIo) (during : List (MetricsEvent n)) : Prop where
  free : (metricsAfter present maxConns before).task w = .record []
  reading : ∀ first rest, during = first ++ rest → ∃ seen active left,
    (metricsAfter present maxConns (before ++ .status w io :: first)).task w =
      .scrape io seen active left

theorem ReadingSince.snoc {before during : List (MetricsEvent n)} {w : Fin n} {io : StatusIo}
    (h : ReadingSince present maxConns before w io during) {active : Nat}
    (hnow : (metricsAfter present maxConns (before ++ .status w io :: (during ++ [e]))).task w =
      .scrape io seen active left) :
    ReadingSince present maxConns before w io (during ++ [e]) := by
  refine ⟨h.free, fun first rest hsplit => ?_⟩
  cases List.eq_nil_or_concat rest with
  | inl hrest =>
      rw [hrest, List.append_nil] at hsplit
      subst hsplit
      exact ⟨seen, active, left, hnow⟩
  | inr hrest =>
      obtain ⟨rest', e', rfl⟩ := hrest
      rw [List.concat_eq_append, ← List.append_assoc] at hsplit
      exact h.reading first rest' (List.append_inj_left' hsplit rfl)

/-- Every page that is being read was begun at some place of the run, and shows
what the array has been since. -/
def Scraped (present : Bool) (maxConns : Nat) (past : List (MetricsEvent n))
    (s : MetricsState n) : Prop :=
  ∀ w io seen active left, s.task w = .scrape io seen active left →
    ∃ before during, past = before ++ .status w io :: during ∧
      ReadingSince present maxConns before w io during ∧
      Scraping (metricsAfter present maxConns before).metrics s.metrics seen left
        (n + past.countP MetricsEvent.isCrash)

theorem scraping_opened (hnow : metrics NgxSentinelMetric.requests.idx ≤ verdictSum metrics + k) :
    Scraping metrics metrics seen statusReads k := by
  have hall : ∀ m : NgxSentinelMetric, scrapeView metrics seen statusReads m.idx = metrics m.idx :=
    fun m => if_pos (metric_mem_statusReads m)
  refine ⟨List.suffix_refl _, fun m => (hall m).ge, fun m => (hall m).le, ?_⟩
  simpa only [verdictSum, hall] using hnow

theorem Scraping.of_view {before : Nat → Nat} {slack : Nat} {seen₀ : Nat → Nat}
    {left₀ : List StatusRead} (h : Scraping before metrics seen₀ left₀ slack)
    (hleft : left <:+ left₀)
    (hview : ∀ k, scrapeView metrics seen left k = scrapeView metrics seen₀ left₀ k) :
    Scraping before metrics seen left slack := by
  have heq : scrapeView metrics seen left = scrapeView metrics seen₀ left₀ := funext hview
  refine ⟨hleft.trans h.suffix, ?_, ?_, ?_⟩
  · rw [heq]
    exact h.low
  · rw [heq]
    exact h.high
  · rw [heq]
    exact h.cover

theorem exists_scraped (present : Bool) (maxConns : Nat) (run : List (MetricsEvent n))
    (hbound : run.countP MetricsEvent.isRequest < 2 ^ 64) :
    Scraped present maxConns run (metricsAfter present maxConns run) := by
  induction run using List.reverseRecOn with
  | nil =>
      intro w io seen active left htask
      cases htask
  | append_singleton run e ih =>
      have hbefore : run.countP MetricsEvent.isRequest < 2 ^ 64 := by
        rw [List.countP_append] at hbound
        omega
      obtain ⟨t, ht⟩ := exists_tallied present maxConns run
      have hmove := metricsStep_move present maxConns
        (metricsAfter present maxConns run) e
      have hafter := (tallied_move ht hmove).consistent hbound
      have hgrow := metrics_le_move ht hmove hbound
      intro w io seen active left hnow
      have htask := hnow
      rw [metricsAfter_snoc] at htask ⊢
      cases scrape_move hmove ht.get_eq htask with
      | inl hkept =>
          obtain ⟨seen₀, active₀, left₀, htask₀, hleft, hview⟩ := hkept
          obtain ⟨before, during, rfl, hsince, hscraping⟩ :=
            ih hbefore w io seen₀ active₀ left₀ htask₀
          rw [List.append_assoc, List.cons_append] at hnow
          refine ⟨before, during ++ [e], by simp, hsince.snoc hnow, ?_⟩
          apply (hscraping.of_view hleft hview).mono hgrow
          · simp only [List.countP_append]
            omega
          · exact hafter.2
      | inr hopened =>
          obtain ⟨rfl, rfl, hmetrics, hfree⟩ := hopened
          refine ⟨run, [], rfl, ⟨hfree, fun first rest hsplit => ?_⟩, ?_⟩
          · obtain ⟨rfl, -⟩ := List.append_eq_nil_iff.mp hsplit.symm
            exact ⟨seen, active, _, hnow⟩
          · rw [← hmetrics]
            exact scraping_opened hafter.2

end Scraping
section Answers
open Run
variable {n : Nat} {present : Bool} {maxConns : Nat}
variable {s s' : MetricsState n} {t : Tally.State (Fin n) Nat} {e : MetricsEvent n}
  {reply : Option StatusReply} {acts : List (Tally.Act (Fin n) Nat)}

/-- What has been read are words of 64 bits. -/
def ReadsWords (s : MetricsState n) : Prop :=
  ∀ w io seen active left, s.task w = .scrape io seen active left →
    (∀ k, seen k < 2 ^ 64) ∧ active < 2 ^ 64

theorem tarpitActiveAdd_lt (slots : Nat → Int) (sum slot : Nat) :
    tarpitActiveAdd present slots sum slot < 2 ^ 64 := by
  rw [tarpitActiveAdd]
  split
  · exact Nat.mod_lt _ (by decide)
  · decide

theorem readsWords_move (h : ReadsWords s) (hmetrics : ∀ k, s.metrics k < 2 ^ 64)
    (hmove : MetricsMove present maxConns s e reply s' acts) : ReadsWords s' := by
  intro w io seen active left htask
  cases hmove with
  | same _ _ hreply hcrash hbusy => exact h w io seen active left htask
  | moved w' act hact => exact h w io seen active left htask
  | opened w' io' hfree =>
      rw [assign_task] at htask
      split at htask
      · cases htask
        exact ⟨fun _ => Nat.two_pow_pos 64, Nat.two_pow_pos 64⟩
      · exact h w io seen active left htask
  | readMetric w' io' seen' active' idx left' hbefore =>
      rw [assign_task] at htask
      split at htask
      · cases htask
        obtain ⟨hseen, hactive⟩ := h w' _ _ _ _ hbefore
        refine ⟨fun k => ?_, hactive⟩
        by_cases hk : k = idx
        · subst hk
          rw [update_self, sentinelMetricGet]
          split
          · exact hmetrics k
          · decide
        · rw [update_of_ne hk]
          exact hseen k
      · exact h w io seen active left htask
  | readConn w' io' seen' active' slot left' hbefore =>
      rw [assign_task] at htask
      split at htask
      · cases htask
        exact ⟨(h w' _ _ _ _ hbefore).1, tarpitActiveAdd_lt _ _ _⟩
      · exact h w io seen active left htask
  | taken w' ctx shadow hfree =>
      rw [assign_task] at htask
      split at htask
      · cases htask
      · exact h w io seen active left htask
  | counted w' idx left' hbefore =>
      have htask' : (s.assign w' (.record left')).task w = .scrape io seen active left := htask
      rw [assign_task] at htask'
      split at htask'
      · cases htask'
      · exact h w io seen active left htask'
  | answered w' io' seen' active' hbefore =>
      rw [assign_task] at htask
      split at htask
      · cases htask
      · exact h w io seen active left htask
  | crashed w' =>
      rw [assign_task] at htask
      split at htask
      · cases htask
      · exact h w io seen active left htask

theorem readsWords_after (run : List (MetricsEvent n)) :
    ReadsWords (metricsAfter present maxConns run) := by
  induction run using List.reverseRecOn with
  | nil =>
      intro w io seen active left htask
      cases htask
  | append_singleton run e ih =>
      obtain ⟨t, ht⟩ := exists_tallied present maxConns run
      rw [metricsAfter_snoc]
      apply readsWords_move ih _ (metricsStep_move _ _ _ e)
      intro k
      rw [ht.counts.metrics k]
      exact Nat.mod_lt _ (by decide)

theorem header_statusAnswer (io : StatusIo) (page : Bytes) : (statusAnswer io page).header =
    some ⟨ngxHttpOk, page.length, str "text/plain; version=0.0.4"⟩ := by
  rw [statusAnswer]
  split
  · rfl
  · split
    · rfl
    · rfl

theorem body_statusAnswer {io : StatusIo} {page text : Bytes}
    (h : (statusAnswer io page).body = some text) : text = page := by
  rw [statusAnswer] at h
  split at h
  · cases h
  · split at h
    · cases h
    · exact (Option.some.inj h).symm

/-- Where a page is handed out it has been read to its end. -/
theorem MetricsMove.page (hmove : MetricsMove present maxConns s e reply s' acts) {r : StatusReply}
    {text : Bytes} (hreply : reply = some r) (hbody : r.body = some text) :
    ∃ w io seen active, e = .advance w ∧ s.task w = .scrape io seen active [] ∧
      r = statusAnswer io text ∧ text = statusText seen active := by
  cases hmove with
  | same _ _ hnone hcrash hbusy =>
      rw [hnone r hreply] at hbody
      cases hbody
  | answered w io seen active htask =>
      have htext := body_statusAnswer (Option.some.inj hreply ▸ hbody)
      refine ⟨w, io, seen, active, rfl, htask, ?_, htext⟩
      rw [htext]
      exact (Option.some.inj hreply).symm
  | _ => cases hreply

/-- The requests of a run that a counter counts. -/
def requestsCounted (present : Bool) (m : NgxSentinelMetric) (run : List (MetricsEvent n)) : Nat :=
  run.countP (MetricsEvent.isCounted present m)

theorem isCounted_le (m : NgxSentinelMetric) (run : List (MetricsEvent n)) :
    run.countP (MetricsEvent.isCounted present m) ≤ run.countP MetricsEvent.isRequest := by
  apply List.countP_mono_left
  intro e _ hcounted
  cases e with
  | request w ctx shadow => rfl
  | _ => cases hcounted

/-- A counter is never above the requests, and below them only by what is under way
or has died. -/
theorem metricsAfter_counted (run : List (MetricsEvent n))
    (hfree : Along TakesFree (metricsNext present maxConns) (metricsStart n) run)
    (hbound : run.countP MetricsEvent.isRequest < 2 ^ 64) (m : NgxSentinelMetric) :
    (metricsAfter present maxConns run).metrics m.idx ≤ requestsCounted present m run ∧
      requestsCounted present m run ≤ (metricsAfter present maxConns run).metrics m.idx +
        (n + run.countP MetricsEvent.isCrash) := by
  obtain ⟨t, ht, hasked⟩ := exists_asked run hfree
  have hle := ht.balanced.asked_le ht.working (record_few m.idx) (ht.lost m.idx)
  have hdone := ht.done_le m.idx
  rw [Fintype.card_fin, ht.drops] at hle
  rw [ht.metrics_eq hbound, requestsCounted, ← hasked m]
  simp only [List.count] at hle hdone ⊢
  omega

/-- A worker that goes on reading comes to the end. -/
theorem exists_read (present : Bool) (maxConns : Nat) (w : Fin n) (io : StatusIo)
    {left : List StatusRead} {s : MetricsState n}
    (h : ∃ seen active, s.task w = .scrape io seen active left) :
    ∃ seen active, (exec (metricsNext present maxConns) s
      (List.replicate left.length (.advance w))).task w = .scrape io seen active [] := by
  induction left generalizing s with
  | nil => exact h
  | cons read left ih =>
      obtain ⟨seen, active, htask⟩ := h
      rw [List.length_cons, List.replicate_succ, exec_cons]
      apply ih
      cases read with
      | metric idx =>
          have hnext : metricsNext present maxConns s (.advance w) = s.assign w (.scrape io
              (update seen idx (sentinelMetricGet present s.metrics idx)) active left) := by
            simp [metricsNext, metricsStep, htask]
          exact ⟨_, _, by rw [hnext, assign_task, if_pos rfl]⟩
      | conn slot =>
          have hnext : metricsNext present maxConns s (.advance w) = s.assign w (.scrape io seen
              (tarpitActiveAdd present s.tarpit.slots active slot) left) := by
            simp [metricsNext, metricsStep, htask]
          exact ⟨_, _, by rw [hnext, assign_task, if_pos rfl]⟩

/-- What nginx does with a `GET` when nothing is wrong. -/
def plainStatusIo : StatusIo where
  getOrHead := true
  discardBody := 0
  pnalloc := true
  sendHeader := 0
  headerOnly := false
  calloc := true
  outputFilter := 0

def MetricsEvent.isReading : MetricsEvent n → Bool
  | .status _ _ => true
  | .advance _ => true
  | _ => false

/-- The events of a page that a worker reads on its own. -/
def undisturbed (w : Fin n) : List (MetricsEvent n) :=
  .status w plainStatusIo :: List.replicate statusReads.length (.advance w)

theorem exists_page {w : Fin n} {run : List (MetricsEvent n)}
    (hidle : (metricsAfter present maxConns run).task w = .record []) :
    ∃ r text, (metricsStep present maxConns (metricsAfter present maxConns
      (run ++ undisturbed w)) (.advance w)).1 = some r ∧ r.body = some text := by
  have hopened : metricsNext present maxConns (metricsAfter present maxConns run)
      (.status w plainStatusIo) = (metricsAfter present maxConns run).assign w
        (.scrape plainStatusIo (fun _ => 0) 0 statusReads) := by
    simp [metricsNext, metricsStep, hidle, statusRefusal, plainStatusIo, NgxRc.code]
  obtain ⟨seen, active, hread⟩ := exists_read present maxConns w plainStatusIo
    (s := (metricsAfter present maxConns run).assign w
      (.scrape plainStatusIo (fun _ => 0) 0 statusReads))
    ⟨_, _, by rw [assign_task, if_pos rfl]⟩
  have hrun : metricsAfter present maxConns (run ++ undisturbed w) =
      exec (metricsNext present maxConns) ((metricsAfter present maxConns run).assign w
        (.scrape plainStatusIo (fun _ => 0) 0 statusReads))
        (List.replicate statusReads.length (.advance w)) := by
    rw [← hopened, metricsAfter, undisturbed, exec_append, exec_cons, metricsAfter]
  rw [hrun]
  simp only [metricsStep, hread]
  exact ⟨_, _, rfl, rfl⟩

theorem undisturbed_request (w : Fin n) :
    (undisturbed w).countP MetricsEvent.isRequest = 0 := by
  simp [undisturbed, MetricsEvent.isRequest, List.countP_replicate]

theorem undisturbed_reading (w : Fin n) : ∀ e ∈ undisturbed w, e.isReading = true := by
  intro e he
  cases List.mem_cons.mp he with
  | inl heq =>
      rw [heq]
      rfl
  | inr hmem =>
      rw [List.eq_of_mem_replicate hmem]
      rfl

theorem takesFree_of_not_request {run : List (MetricsEvent n)} (s : MetricsState n)
    (h : run.countP MetricsEvent.isRequest = 0) :
    Along TakesFree (metricsNext present maxConns) s run := by
  rw [along_iff_split]
  intro before e after hsplit
  have he : e.isRequest = false := by
    simpa using List.countP_eq_zero.mp h e (by simp [hsplit])
  cases e with
  | request w ctx shadow => cases he
  | _ => trivial

/-- A page that is read while the workers go on, in fewer than 2^64 requests. Every
number on it is one that the counter had at some time between the request for the
page and the answer; it misses no request from before that time but such as were
being counted or had died in it; and the verdicts add up to the requests in the
same sense. -/
theorem status_page_bounds (n : Nat) (present : Bool) (maxConns : Nat)
    (run : List (MetricsEvent n)) (e : MetricsEvent n) (r : StatusReply) (text : Bytes)
    (hfree : Along TakesFree (metricsNext present maxConns) (metricsStart n) run)
    (hbound : run.countP MetricsEvent.isRequest < 2 ^ 64)
    (hreply : (metricsStep present maxConns (metricsAfter present maxConns run) e).1 = some r)
    (hbody : r.body = some text) :
    ∃ w io before during, ∃ page : NgxSentinelMetric → Nat,
      e = .advance w ∧ run = before ++ .status w io :: during ∧
      ReadingSince present maxConns before w io during ∧
      (∀ m, (Exposition.read statusSigns text).lookup m.label = some (page m)) ∧
      (∀ m, (metricsAfter present maxConns before).metrics m.idx ≤ page m ∧
        page m ≤ (metricsAfter present maxConns run).metrics m.idx) ∧
      (∀ m, requestsCounted present m before ≤
          page m + (n + before.countP MetricsEvent.isCrash) ∧
        page m ≤ requestsCounted present m run) ∧
      page .requests ≤ page .verdictAllow + page .verdictChallenge + page .verdictTarpit +
        page .verdictBlock + (n + run.countP MetricsEvent.isCrash) ∧
      page .verdictAllow + page .verdictChallenge + page .verdictTarpit + page .verdictBlock ≤
        (metricsAfter present maxConns run).metrics NgxSentinelMetric.requests.idx := by
  obtain ⟨w, io, seen, active, he, htask, hr, htext⟩ :=
    (metricsStep_move present maxConns _ _).page hreply hbody
  obtain ⟨hseen, hactive⟩ := readsWords_after run w io seen active [] htask
  obtain ⟨before, during, hrun, hsince, hscraping⟩ :=
    exists_scraped present maxConns run hbound w io seen active [] htask
  obtain ⟨t, ht⟩ := exists_tallied present maxConns run
  have hlow := hscraping.low
  have hhigh := hscraping.high
  have hcover := hscraping.cover
  have hverdicts := Nat.le_trans (verdictSum_le hhigh) (ht.consistent hbound).1
  rw [scrapeView_nil] at hlow hhigh hcover hverdicts
  simp only [verdictSum] at hcover hverdicts
  refine ⟨w, io, before, during, fun m => seen m.idx, he, hrun, hsince, ?_, ?_, ?_, hcover,
    hverdicts⟩
  · intro m
    rw [htext, statusText_read hseen hactive]
    exact statusSamples_metric seen active m
  · intro m
    exact ⟨hlow m, hhigh m⟩
  · intro m
    have hcounted := metricsAfter_counted run hfree hbound m
    rw [hrun] at hfree hbound
    rw [List.countP_append] at hbound
    have hbefore := metricsAfter_counted before (along_append.mp hfree).1 (by omega) m
    constructor
    · exact Nat.le_trans hbefore.2 (Nat.add_le_add_right (hlow m) _)
    · exact Nat.le_trans (hhigh m) hcounted.1

/-- A request without signals. -/
def plainCtx : SentinelCtx := ⟨noInputs, 0, .allow, false, false, .off⟩

/-- A page that is read while another worker has counted a request and not its verdict. -/
theorem status_page_bounds_race : ∃ text, ∃ page : NgxSentinelMetric → Nat,
    (Exposition.read statusSigns text).lookup NgxSentinelMetric.requests.label =
      some (page .requests) ∧ page .requests ≤ 1 := by
  obtain ⟨run, hrun⟩ : ∃ run : List (MetricsEvent 2),
      run = [.request 0 plainCtx false, .advance 0] := ⟨_, rfl⟩
  have hidle : (metricsAfter true 4 run).task 1 = .record [] := by
    rw [hrun]
    rfl
  have hfree : Along TakesFree (metricsNext true 4) (metricsStart 2) run := by
    rw [hrun]
    exact ⟨rfl, trivial, trivial⟩
  have hcount : run.countP MetricsEvent.isRequest = 1 := by
    rw [hrun]
    rfl
  have hall : (run ++ undisturbed 1).countP MetricsEvent.isRequest = 1 := by
    rw [List.countP_append, hcount, undisturbed_request]
  obtain ⟨r, text, hreply, hbody⟩ := exists_page hidle
  have h := status_page_bounds 2 true 4 (run ++ undisturbed 1) (.advance 1) r text
    (along_append.mpr ⟨hfree, takesFree_of_not_request _ (undisturbed_request 1)⟩)
    (by rw [hall]; decide) hreply hbody
  obtain ⟨w, io, before, during, page, he, hsplit, hsince, hread, hwords, hrequests, hsums⟩ := h
  refine ⟨text, page, hread .requests, ?_⟩
  rw [← hall]
  exact Nat.le_trans (hrequests .requests).2 (isCounted_le _ _)

end Answers
section Still
open Run
variable {n : Nat} {present : Bool} {maxConns : Nat}
variable {s₀ s s' : MetricsState n} {e : MetricsEvent n}
  {reply : Option StatusReply} {acts : List (Tally.Act (Fin n) Nat)}

/-- The sum of the slots, with those that have not been read as they stand. -/
def activeView (present : Bool) (slots : Nat → Int) (active : Nat) (left : List StatusRead) : Nat :=
  left.foldl (fun sum r => match r with
    | .metric _ => sum
    | .conn slot => tarpitActiveAdd present slots sum slot) active

/-- Nothing has moved since `s₀`, and every page is going to show that. -/
structure Still (present : Bool) (s₀ s : MetricsState n) : Prop where
  metrics : s.metrics = s₀.metrics
  tarpit : s.tarpit = s₀.tarpit
  marks : ∀ w, (s.task w).marks = []
  view : ∀ w io seen active left, s.task w = .scrape io seen active left →
    (∀ m : NgxSentinelMetric, scrapeView s₀.metrics seen left m.idx = s₀.metrics m.idx) ∧
      activeView present s₀.tarpit.slots active left =
        activeView present s₀.tarpit.slots 0 statusReads

theorem still_idle (h : ∀ w, s.task w = .record []) : Still present s s := by
  refine ⟨rfl, rfl, ?_, ?_⟩
  · intro w
    rw [h w]
    rfl
  · intro w io seen active left htask
    rw [h w] at htask
    cases htask

/-- A task that shows the same, in the place of another. -/
theorem Still.assign (h : Still present s₀ s) {w : Fin n} {task : MetricsTask}
    (hmarks : task.marks = [])
    (hview : ∀ io seen active left, task = .scrape io seen active left →
      (∀ m : NgxSentinelMetric, scrapeView s₀.metrics seen left m.idx = s₀.metrics m.idx) ∧
        activeView present s₀.tarpit.slots active left =
          activeView present s₀.tarpit.slots 0 statusReads) :
    Still present s₀ (s.assign w task) := by
  refine ⟨h.metrics, h.tarpit, ?_, ?_⟩
  · intro w'
    rw [assign_task]
    split
    · exact hmarks
    · exact h.marks w'
  · intro w' io seen active left htask
    rw [assign_task] at htask
    split at htask
    · exact hview io seen active left htask
    · exact h.view w' io seen active left htask

theorem still_move (h : Still present s₀ s)
    (hget : ∀ k, sentinelMetricGet present s₀.metrics k = s₀.metrics k)
    (hmove : MetricsMove present maxConns s e reply s' acts) (he : e.isReading = true) :
    Still present s₀ s' := by
  cases hmove with
  | same _ _ hreply hcrash hbusy => exact h
  | opened w io hfree =>
      apply h.assign
      · rfl
      · intro io' seen active left htask
        cases htask
        exact ⟨fun m => if_pos (metric_mem_statusReads m), rfl⟩
  | counted w idx left htask =>
      have hmarks := h.marks w
      rw [htask] at hmarks
      cases hmarks
  | readMetric w io seen active idx left htask =>
      obtain ⟨hseen, hactive⟩ := h.view w io seen active _ htask
      apply h.assign
      · rfl
      · intro io' seen' active' left' htask'
        cases htask'
        refine ⟨fun m => ?_, hactive⟩
        rw [h.metrics, hget, scrapeView_read]
        exact hseen m
  | readConn w io seen active slot left htask =>
      obtain ⟨hseen, hactive⟩ := h.view w io seen active _ htask
      apply h.assign
      · rfl
      · intro io' seen' active' left' htask'
        cases htask'
        refine ⟨fun m => ?_, ?_⟩
        · rw [scrapeView_conn _ slot]
          exact hseen m
        · rw [h.tarpit]
          exact hactive
  | answered w io seen active htask =>
      apply h.assign
      · rfl
      · intro io' seen' active' left' htask'
        cases htask'
  | _ => cases he

theorem activeView_metrics (slots : Nat → Int) (sum : Nat) (l : List NgxSentinelMetric)
    (left : List StatusRead) :
    activeView present slots sum (l.map (fun m => .metric m.idx) ++ left) =
      activeView present slots sum left := by
  induction l with
  | nil => rfl
  | cons m l ih => exact ih

theorem activeView_conns (slots : Nat → Int) (count : Nat) :
    activeView present slots 0 ((List.range count).map .conn) =
      if present then ((∑ j ∈ Finset.range count, slots j) % 2 ^ 64).toNat else 0 := by
  induction count with
  | zero => cases present <;> rfl
  | succ count ih =>
      rw [activeView] at ih
      rw [activeView, List.range_succ, List.map_append, List.foldl_append, ih,
        Finset.sum_range_succ]
      cases present with
      | false => rfl
      | true =>
          simp only [if_true, List.map_cons, List.map_nil, List.foldl_cons, List.foldl_nil,
            tarpitActiveAdd]
          omega

/-- The sum that a scrape makes of slots that do not move. -/
theorem activeView_statusReads (slots : Nat → Int) :
    activeView present slots 0 statusReads =
      if present then ((∑ j ∈ Finset.range ngxMaxProcesses, slots j) % 2 ^ 64).toNat else 0 := by
  rw [statusReads_eq, activeView_metrics, activeView_conns]

end Still
section Quiet
open Run
variable {n : Nat} {present : Bool} {maxConns : Nat}
variable {s s' : MetricsState n} {e : MetricsEvent n}
  {reply : Option StatusReply} {acts : List (Tally.Act (Fin n) Nat)}

theorem workerStep_alive {slots : Nat → Int} {own own' : Int} {wk wk' : TarpitWorker}
    {act : TarpitAct} (hact : act ≠ .crash) (hwk : wk.phase ≠ .dead)
    (h : workerStep maxConns slots own wk act = some (wk', own')) : wk'.phase ≠ .dead := by
  cases act with
  | crash => exact absurd rfl hact
  | _ =>
      simp only [workerStep] at h
      grind

/-- The slots are accounted for, and no worker has died. -/
structure Alive (maxConns : Nat) (s : MetricsState n) : Prop where
  inv : TarpitInv n maxConns s.tarpit
  alive : ∀ w < n, (s.tarpit.workers w).phase ≠ .dead

theorem alive_move (hn : n ≤ ngxMaxProcesses) (h : Alive maxConns s) (he : e.isCrash = false)
    (hmove : MetricsMove present maxConns s e reply s' acts) : Alive maxConns s' := by
  cases hmove with
  | moved w act hact =>
      refine ⟨tarpitInv_step hn h.inv (w, act), fun w' hw' => ?_⟩
      simp only [tarpitStep]
      split
      · split
        next wk own hstep =>
          by_cases hw : w' = w
          · subst hw
            simp only [TarpitState.put, update_self]
            exact workerStep_alive hact (h.alive _ hw') hstep
          · simp only [TarpitState.put, update_of_ne hw]
            exact h.alive w' hw'
        · exact h.alive w' hw'
      · exact h.alive w' hw'
  | crashed w => cases he
  | _ => exact ⟨h.inv, h.alive⟩

/-- The slots add up to the connections that the workers hold. -/
theorem Alive.sum_slots (hn : n ≤ ngxMaxProcesses) (h : Alive maxConns s) :
    ∑ j ∈ Finset.range ngxMaxProcesses, s.tarpit.slots j =
      ∑ w : Fin n, (s.tarpit.workers w).holds := by
  have hrest : ∑ j ∈ Finset.range n, s.tarpit.slots j =
      ∑ j ∈ Finset.range ngxMaxProcesses, s.tarpit.slots j := by
    apply Finset.sum_subset (Finset.range_subset_range.mpr hn)
    intro j _ hj
    exact h.inv.unowned j (Nat.not_lt.mp fun hlt => hj (Finset.mem_range.mpr hlt))
  rw [← hrest, Finset.sum_range]
  apply Finset.sum_congr rfl
  intro w _
  have hslot : slotOf w = w := if_neg (by omega)
  have hown := (h.inv.accounted w w.isLt).running (h.alive w w.isLt)
  rwa [hslot] at hown

theorem alive_after (hn : n ≤ ngxMaxProcesses) (run : List (MetricsEvent n))
    (hcrash : run.countP MetricsEvent.isCrash = 0) :
    Alive maxConns (metricsAfter present maxConns run) := by
  induction run using List.reverseRecOn with
  | nil =>
      refine ⟨tarpitInv_start n maxConns, fun _ _ => ?_⟩
      simp [metricsAfter, metricsStart, tarpitStart]
  | append_singleton run e ih =>
      rw [List.countP_append] at hcrash
      rw [metricsAfter_snoc]
      apply alive_move hn (ih (by omega)) _ (metricsStep_move _ _ _ e)
      have hlast : [e].countP MetricsEvent.isCrash = 0 := by omega
      simpa using hlast

/-- While nothing moves, everything that is read is as it was. -/
theorem still_after (run during : List (MetricsEvent n))
    (hidle : ∀ w, (metricsAfter present maxConns run).task w = .record [])
    (hduring : ∀ e ∈ during, e.isReading = true) :
    Still present (metricsAfter present maxConns run)
      (metricsAfter present maxConns (run ++ during)) := by
  obtain ⟨t, ht⟩ := exists_tallied present maxConns run
  induction during using List.reverseRecOn with
  | nil =>
      rw [List.append_nil]
      exact still_idle hidle
  | append_singleton during e ih =>
      rw [← List.append_assoc, metricsAfter_snoc]
      exact still_move (ih fun e' he' => hduring e' (List.mem_append_left _ he')) ht.get_eq
        (metricsStep_move _ _ _ e) (hduring e (by simp))

/-- A page that is read while no worker does anything else, after a run in which no
worker has died: the counters are the requests that they count, and the gauge is
the number of connections that are held. -/
theorem status_page_exact (n : Nat) (hn : n ≤ ngxMaxProcesses) (present : Bool) (maxConns : Nat)
    (run during : List (MetricsEvent n)) (e : MetricsEvent n) (r : StatusReply) (text : Bytes)
    (hfree : Along TakesFree (metricsNext present maxConns) (metricsStart n) run)
    (hcrash : run.countP MetricsEvent.isCrash = 0)
    (hidle : ∀ w, (metricsAfter present maxConns run).task w = .record [])
    (hduring : ∀ e ∈ during, e.isReading = true)
    (hreply :
      (metricsStep present maxConns (metricsAfter present maxConns (run ++ during)) e).1 = some r)
    (hbody : r.body = some text) :
    r.header = some ⟨ngxHttpOk, text.length, str "text/plain; version=0.0.4"⟩ ∧
      (∀ m, (Exposition.read statusSigns text).lookup m.label =
        some (requestsCounted present m run % 2 ^ 64)) ∧
      (Exposition.read statusSigns text).lookup tarpitActiveLabel =
        some (if present then
          ((∑ w : Fin n, ((metricsAfter present maxConns run).tarpit.workers w).holds)
            % 2 ^ 64).toNat
        else 0) := by
  obtain ⟨w, io, seen, active, he, htask, hr, htext⟩ :=
    (metricsStep_move present maxConns _ _).page hreply hbody
  obtain ⟨hseen, hactive⟩ := readsWords_after (run ++ during) w io seen active [] htask
  have hstill := still_after run during hidle hduring
  obtain ⟨hview, hsum⟩ := hstill.view w io seen active [] htask
  rw [scrapeView_nil] at hview
  obtain ⟨t, ht, hasked⟩ := exists_asked run hfree
  have hleft : ∀ w, t.left w = [] := by
    intro w
    rw [ht.counts.left w, hidle w]
    rfl
  have hdrops : t.drops = 0 := ht.drops.trans hcrash
  have hsamples : Exposition.read statusSigns text = statusSamples seen active := by
    rw [htext, statusText_read hseen hactive]
  refine ⟨?_, fun m => ?_, ?_⟩
  · rw [hr]
    exact header_statusAnswer io text
  · have hdone := ht.balanced.finished (ht.lost m.idx) hdrops hleft
    rw [hsamples, statusSamples_metric, hview m, ht.counts.metrics, requestsCounted, ← hasked m]
    exact congrArg (fun k => some (k % 2 ^ 64)) hdone
  · rw [hsamples, statusSamples_active, ← (alive_after hn run hcrash).sum_slots hn,
      ← activeView_statusReads, ← hsum]
    rfl

/-- The tarpit's part of a run, without crashes, touches no counter and no task. -/
theorem exec_tarpit (w : Fin n) (s : MetricsState n) {acts : List TarpitAct}
    (hacts : ∀ act ∈ acts, act ≠ .crash) :
    exec (metricsNext present maxConns) s (acts.map (.tarpit w)) =
      { s with tarpit := exec (tarpitStep n maxConns) s.tarpit (acts.map (Prod.mk w.val)) } := by
  induction acts generalizing s with
  | nil => rfl
  | cons act acts ih =>
      obtain ⟨hact, hacts⟩ := List.forall_mem_cons.mp hacts
      have hnext : metricsNext present maxConns s (.tarpit w act) =
          { s with tarpit := tarpitStep n maxConns s.tarpit (w, act) } := by
        simp [metricsNext, metricsStep, hact]
      rw [List.map_cons, List.map_cons, exec_cons, exec_cons, hnext, ih _ hacts]

theorem countP_tarpit (w : Fin n) (acts : List TarpitAct) {p : MetricsEvent n → Bool}
    (hp : ∀ act ∈ acts, p (.tarpit w act) = false) : (acts.map (.tarpit w)).countP p = 0 := by
  simpa [List.countP_eq_zero] using hp

/-- A request for a decoy, which is tarpitted. -/
def decoyCtx : SentinelCtx := ⟨{ noInputs with honeypot := true }, 70, .tarpit, false, false, .off⟩

/-- A request of a bot, which would be blocked. -/
def shadowedCtx : SentinelCtx := ⟨{ noInputs with botUa := true }, 90, .block, false, false, .off⟩

/-- Two workers count a request each, one of them a block that is suppressed; one
takes its connection into the tarpit, the other one reads the page. -/
theorem status_page_exact_two : ∃ text,
    let page := Exposition.read statusSigns text
    page.lookup NgxSentinelMetric.requests.label = some 2 ∧
      page.lookup NgxSentinelMetric.verdictTarpit.label = some 1 ∧
      page.lookup NgxSentinelMetric.verdictBlock.label = some 1 ∧
      page.lookup NgxSentinelMetric.sigHoneypot.label = some 1 ∧
      page.lookup NgxSentinelMetric.shadow.label = some 1 ∧
      page.lookup tarpitActiveLabel = some 1 := by
  let counting : List (MetricsEvent 2) :=
    [.request 0 decoyCtx false, .request 1 shadowedCtx true, .advance 1, .advance 0, .advance 0,
      .advance 1, .advance 1, .advance 0, .advance 1]
  let held : List (MetricsEvent 2) := reservation.map (.tarpit 0)
  have hafter : metricsAfter true 4 (counting ++ held) =
      { metricsAfter true 4 counting with
        tarpit := tarpitStart.put 0 ⟨.idle, [true], some .done⟩ 1 } := by
    rw [metricsAfter, exec_append, exec_tarpit 0 _ reservation_no_crash, ← metricsAfter]
    have halone : exec (tarpitStep 2 4) tarpitStart (reservation.map (Prod.mk 0)) =
        tarpitStart.put 0 ⟨.idle, [] ++ [true], some .done⟩ (tarpitStart.slots (slotOf 0) + 1) :=
      reservation_alone (by decide) rfl (by simp [tarpitStart]) (by decide)
    exact congrArg (fun tarpit => { metricsAfter true 4 counting with tarpit := tarpit }) halone
  have hidle : ∀ w, (metricsAfter true 4 (counting ++ held)).task w = .record [] := by
    intro w
    rw [hafter]
    cases w using Fin.cases with
    | zero => rfl
    | succ w =>
        rw [Fin.fin_one_eq_zero w]
        rfl
  have hrequests : held.countP MetricsEvent.isRequest = 0 := countP_tarpit 0 _ fun _ _ => rfl
  have hcrash : (counting ++ held).countP MetricsEvent.isCrash = 0 := by
    have hheld : held.countP MetricsEvent.isCrash = 0 := by
      apply countP_tarpit
      intro act hact
      have hno := reservation_no_crash act hact
      cases act with
      | crash => exact absurd rfl hno
      | _ => rfl
    rw [List.countP_append, hheld]
    rfl
  obtain ⟨r, text, hreply, hbody⟩ := exists_page (hidle 1)
  have h := status_page_exact 2 (by decide) true 4 (counting ++ held) (undisturbed 1) (.advance 1)
    r text (along_append.mpr ⟨⟨rfl, rfl, trivial, trivial, trivial, trivial, trivial, trivial,
      trivial, trivial⟩, takesFree_of_not_request _ hrequests⟩) hcrash hidle
    (undisturbed_reading 1) hreply hbody
  have hcounted : ∀ m, requestsCounted true m (counting ++ held) =
      requestsCounted true m counting := by
    intro m
    have hheld : requestsCounted true m held = 0 := countP_tarpit 0 _ fun _ _ => rfl
    rw [requestsCounted, List.countP_append, ← requestsCounted, ← requestsCounted, hheld]
    rfl
  obtain ⟨hheader, hcounters, hgauge⟩ := h
  simp only [hcounted] at hcounters
  rw [hafter] at hgauge
  exact ⟨text, hcounters .requests, hcounters .verdictTarpit, hcounters .verdictBlock,
    hcounters .sigHoneypot, hcounters .shadow, hgauge⟩

end Quiet
end Sentinel
