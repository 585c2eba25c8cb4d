import Sentinel.FeedLoaders

/-!
Lookups while a feed is being swapped in. A load holds the lock for one batch at
a time, so readers see the old table, the decisions written so far and the nodes
not yet swept side by side, and their own evictions thin the table out. What a
reader is told still comes from the old table or from the feed, and an address
that both have banned stays banned throughout, as long as no reader's clock runs
ahead of a later one's: each of them evicts what has run out by its own.
-/

namespace Sentinel

/-- A critical section of the load, or a lookup by some worker. -/
inductive SwapOp where
  | load
  | lookup (key : Key) (now : Int)

/-- The load and its readers; no allocation fails. -/
def swapStep (ngx : NgxCore) (z : Zone) (s : Loader × Shctx) : SwapOp → Loader × Shctx
  | .load => loaderSection ngx (some z) (fun _ => true) s.1 s.2
  | .lookup key now => (s.1, (sentinelShmCrowdsecLookup ngx (some z) s.2 key now).2.2)

/-- Every lookup so far was made at `t` or before. -/
def LookedUpBy (t : Int) : SwapOp → Prop
  | .load => True
  | .lookup _ now => now ≤ t

/-- The body lines that a load takes decisions from: none of a rejected feed. -/
def feedLines (ngx : NgxCore) (data : Buffer) : List Bytes :=
  match feedValidate ngx data.data with
  | some body => Lines.split (ch '\n') body
  | none => []

/-- The load has written all its decisions. -/
def FeedPhase.written : FeedPhase → Prop
  | .sweeping _ _ => True
  | .returned reply => reply.rc = .ok
  | _ => False

/-- What a table without evictions would say of `k` after `ds` were written over
`old`, before any sweep. -/
def loadedEntry (old : Shctx) (ds : List Decision) (k : Key) : Option (Int × UInt8 × Nat) :=
  match lastDecision ds k with
  | some d => some (d.expiry, d.action, old.csGeneration + 1)
  | none => (old.get k).map Node.entry

section Invariant
variable {ngx : NgxCore} {old : Shctx} {ds : List Decision} {t : Int} {s : Loader × Shctx}

/-- The table says what it would say without readers, but for entries that had
run out by `t`, and for old ones once the sweep is on. -/
def EntriesKept (old : Shctx) (t : Int) (written : List Decision) (swept : Prop) (sh : Shctx) :
    Prop :=
  ∀ k, (sh.get k).map Node.entry = loadedEntry old written k ∨
    sh.get k = none ∧ ∀ e, loadedEntry old written k = some e →
      e.1 ≤ t ∨ swept ∧ e.2.2 ≠ old.csGeneration + 1

structure SwapInv (ngx : NgxCore) (old : Shctx) (ds : List Decision) (t : Int)
    (s : Loader × Shctx) : Prop where
  wf : s.2.Wf ngx
  bump : s.1.phase = .bump → s.2.csGeneration = old.csGeneration ∧ s.1.pending ngx = ds
  owned : ∀ g, s.1.phase.generation = some g →
    g = old.csGeneration + 1 ∧ s.2.csGeneration = old.csGeneration + 1
  entries : ∃ written, ds = written ++ s.1.pending ngx ∧
    EntriesKept old t written s.1.phase.written s.2
  done : s.1.phase.rc = some .ok → ∀ n ∈ s.2.queue, n.csGeneration = old.csGeneration + 1

theorem EntriesKept.mono {written : List Decision} {p q : Prop} {sh : Shctx}
    (h : EntriesKept old t written p sh) (hpq : p → q) : EntriesKept old t written q sh := by
  intro k
  refine (h k).imp_right fun hgone => ⟨hgone.1, fun e he => ?_⟩
  exact (hgone.2 e he).imp_right fun hs => ⟨hpq hs.1, hs.2⟩

/-- Entries that run out do not count. -/
theorem EntriesKept.evict {written : List Decision} {swept : Prop} {sh sh' : Shctx}
    (h : EntriesKept old t written swept sh)
    (hkept : ∀ k, (sh'.get k).map Node.entry = (sh.get k).map Node.entry ∨
      sh'.get k = none ∧ ∃ n, sh.get k = some n ∧ n.blockedUntil ≤ t) :
    EntriesKept old t written swept sh' := by
  intro k
  cases hkept k with
  | inl hsame =>
      rw [hsame]
      refine (h k).imp_right fun hgone => ⟨?_, hgone.2⟩
      rwa [hgone.1, Option.map_none, Option.map_eq_none_iff] at hsame
  | inr hdead =>
      obtain ⟨hnone, n, hn, hout⟩ := hdead
      refine .inr ⟨hnone, fun e he => .inl ?_⟩
      cases h k with
      | inl hsame =>
          rw [hn, he] at hsame
          rw [← Option.some.inj hsame]
          exact hout
      | inr hgone =>
          rw [hn] at hgone
          exact absurd hgone.1 (by simp)

theorem loadedEntry_append (old : Shctx) (ds ds' : List Decision) (k : Key) :
    loadedEntry old (ds ++ ds') k =
      match lastDecision ds' k with
      | some d => some (d.expiry, d.action, old.csGeneration + 1)
      | none => loadedEntry old ds k := by
  simp only [loadedEntry, lastDecision_append]
  cases lastDecision ds' k <;> rfl

theorem EntriesKept.write {written more : List Decision} {swept : Prop} {sh sh' : Shctx}
    (h : EntriesKept old t written swept sh)
    (hwritten : ∀ k, Written (sh.get k) (sh'.get k) (old.csGeneration + 1)
      (lastDecision more k)) :
    EntriesKept old t (written ++ more) swept sh' := by
  intro k
  have hk := hwritten k
  rw [loadedEntry_append]
  cases hlast : lastDecision more k with
  | none =>
      rw [hlast] at hk
      rw [show sh'.get k = sh.get k from hk]
      exact h k
  | some d =>
      rw [hlast] at hk
      obtain ⟨n, hn, -, hexp, hact, hgen⟩ := hk
      left
      rw [hn, Option.map_some, Node.entry, hexp, hact, hgen]

/-- A swept node was an old one. -/
theorem EntriesKept.sweep {written : List Decision} {generation batch : Nat}
    {sh sh' : Shctx} (wf : sh.Wf ngx) (h : EntriesKept old t written True sh)
    (hgen : generation = old.csGeneration + 1)
    (hget : ∀ k, sh'.get k = if ∃ n ∈ crowdsecVictims generation batch sh, n.key = k then none
      else sh.get k) :
    EntriesKept old t written True sh' := by
  intro k
  rw [hget]
  split
  next hv =>
    obtain ⟨n, hn, rfl⟩ := hv
    obtain ⟨hmem, hstale⟩ := mem_victims hn
    refine .inr ⟨rfl, fun e he => .inr ⟨trivial, ?_⟩⟩
    cases h n.key with
    | inl hsame =>
        rw [get_of_mem wf hmem, he] at hsame
        rw [← Option.some.inj hsame, ← hgen]
        exact hstale
    | inr hgone =>
        rw [get_of_mem wf hmem] at hgone
        exact absurd hgone.1 (by simp)
  next => exact h k

theorem SwapInv.bumped (h : SwapInv ngx old ds t s) (hphase : s.1.phase = .bump) :
    SwapInv ngx old ds t ({ s.1 with phase := .applying (s.2.csGeneration + 1) s.1.lines 0 },
      { s.2 with csGeneration := s.2.csGeneration + 1 }) := by
  obtain ⟨hgen, hpend⟩ := h.bump hphase
  obtain ⟨written, hds, hkept⟩ := h.entries
  refine ⟨wf_bump h.wf, ?_, ?_, ⟨written, ?_, ?_⟩, ?_⟩
  · intro hb
    contradiction
  · intro g hg
    cases hg
    simp only [hgen, and_self]
  · rw [hds]
    simp only [Loader.pending, hphase]
  · refine EntriesKept.mono (show EntriesKept _ _ _ _ s.2 from hkept) ?_
    simp only [hphase, FeedPhase.written, false_imp_iff]
  · intro hrc
    contradiction

theorem SwapInv.applied (h : SwapInv ngx old ds t s) {generation : Nat} {more left : List Decision}
    {phase : FeedPhase} {sh : Shctx}
    (hold : ∃ lines applied, s.1.phase = .applying generation lines applied)
    (hsplit : s.1.pending ngx = more ++ left) (hphase : phase.generation = some generation)
    (hleft : Loader.pending ngx { s.1 with phase := phase } = left) (hwf : sh.Wf ngx)
    (hgen : sh.csGeneration = s.2.csGeneration)
    (hwritten : ∀ k, Written (s.2.get k) (sh.get k) generation (lastDecision more k)) :
    SwapInv ngx old ds t ({ s.1 with phase := phase }, sh) := by
  obtain ⟨lines, applied, hold⟩ := hold
  obtain ⟨rfl, hgen'⟩ := h.owned generation (by rw [hold]; rfl)
  obtain ⟨written, hds, hkept⟩ := h.entries
  refine ⟨hwf, ?_, ?_, ⟨written ++ more, ?_, ?_⟩, ?_⟩
  · intro hb
    change phase = .bump at hb
    rw [hb] at hphase
    contradiction
  · intro g hg
    cases hphase.symm.trans hg
    exact ⟨rfl, hgen.trans hgen'⟩
  · rw [hleft, hds, hsplit, List.append_assoc]
  · apply EntriesKept.mono _ _
    · exact False
    · apply EntriesKept.write _ hwritten
      simpa only [hold, FeedPhase.written] using hkept
    · exact False.elim
  · intro hrc
    change phase.rc = some .ok at hrc
    cases phase <;> simp [FeedPhase.rc, FeedPhase.generation] at hrc hphase

theorem SwapInv.swept (h : SwapInv ngx old ds t s) {generation applied : Nat} {phase : FeedPhase}
    {sh : Shctx} (hphase : s.1.phase = .sweeping generation applied)
    (hend : phase = .sweeping generation applied ∨
      phase = .returned ⟨.ok, applied⟩ ∧ ∀ n ∈ s.2.queue, n.csGeneration = generation)
    (hwf : sh.Wf ngx) (hgen : sh.csGeneration = s.2.csGeneration)
    (hget : ∀ k, sh.get k =
      if ∃ n ∈ crowdsecVictims generation ngxSentinelFeedApplyBatch s.2, n.key = k then none
      else s.2.get k) :
    SwapInv ngx old ds t ({ s.1 with phase := phase }, sh) := by
  obtain ⟨rfl, hgen'⟩ := h.owned generation (by rw [hphase]; rfl)
  obtain ⟨written, hds, hkept⟩ := h.entries
  have hover : phase.written := by
    cases hend with
    | inl he => rw [he]; trivial
    | inr he => rw [he.1]; rfl
  refine ⟨hwf, ?_, ?_, ⟨written, ?_, ?_⟩, ?_⟩
  · intro hb
    change phase = .bump at hb
    rw [hb] at hover
    contradiction
  · intro g hg
    change phase.generation = some g at hg
    cases hend with
    | inl he =>
        rw [he] at hg
        cases hg
        exact ⟨rfl, hgen.trans hgen'⟩
    | inr he =>
        rw [he.1] at hg
        contradiction
  · rw [hds, pending_sweep ngx hphase (hend.imp_right And.left)]
  · apply EntriesKept.mono (EntriesKept.sweep h.wf _ rfl hget)
    · exact fun _ => hover
    · simpa only [hphase, FeedPhase.written] using hkept
  · intro hrc n hn
    cases hend with
    | inl he =>
        change phase.rc = some .ok at hrc
        rw [he] at hrc
        contradiction
    | inr he => exact he.2 n (mem_of_sweep hwf hget hn)

theorem swapInv_load (z : Zone) (h : SwapInv ngx old ds t s) :
    SwapInv ngx old ds t (swapStep ngx z s .load) := by
  have hroom : ∀ i : Nat, (fun _ => true) i = true := fun _ => rfl
  have hle : ∀ g, s.1.phase.generation = some g → g ≤ s.2.csGeneration := by
    intro g hg
    obtain ⟨rfl, hgen⟩ := h.owned g hg
    exact hgen.ge
  have heff := loaderSection_effect z (fun _ => true) s.1 h.wf hle
  simp only [swapStep]
  generalize loaderSection ngx (some z) (fun _ => true) s.1 s.2 = r at heff
  obtain ⟨ld, sh⟩ := r
  dsimp only at heff ⊢
  cases heff with
  | bump hphase => exact h.bumped hphase
  | write generation more left phase sh' hold hsplit hphase hleft hwf hgen hwritten =>
      exact h.applied hold hsplit hphase (hleft hroom) hwf hgen hwritten
  | sweep generation applied phase sh' hphase hend hwf hgen hget =>
      exact h.swept hphase hend hwf hgen hget
  | idle reply hphase => exact h

theorem swapInv_lookup (z : Zone) (h : SwapInv ngx old ds t s) (key : Key) {now : Int}
    (hnow : now ≤ t) : SwapInv ngx old ds t (swapStep ngx z s (.lookup key now)) := by
  obtain ⟨wf, hbump, howned, hentries, hdone⟩ := h
  obtain ⟨written, hds, hkept⟩ := hentries
  obtain ⟨hwf, hgen, hentry, -⟩ := crowdsecLookup_spec z wf key now
  refine ⟨hwf, ?_, ?_, ⟨written, hds, hkept.evict fun k => ?_⟩, ?_⟩
  · intro hp
    obtain ⟨hg, hpend⟩ := hbump hp
    exact ⟨hgen.trans hg, hpend⟩
  · intro g hg
    obtain ⟨he, hg'⟩ := howned g hg
    exact ⟨he, hgen.trans hg'⟩
  · refine (hentry k).imp_right fun hgone => ?_
    obtain ⟨hnone, n, hn, hout⟩ := hgone
    exact ⟨hnone, n, hn, Int.le_trans hout hnow⟩
  · intro hrc n hn
    have hk := hentry n.key
    rw [get_of_mem hwf hn] at hk
    cases hk with
    | inl hsame =>
        obtain ⟨m, hm, he⟩ := Option.map_eq_some_iff.mp hsame.symm
        have hstamp := hdone hrc m (mem_of_get hm)
        rw [← hstamp]
        exact (congrArg (fun e => e.2.2) he).symm
    | inr hgone => exact absurd hgone.1 (by simp)

end Invariant

section Readers
variable {ngx : NgxCore} {old : Shctx} {data : Buffer} {defaultTtl now t : Int}

/-- A load and its readers from the moment the load is called. -/
def swapRun (ngx : NgxCore) (z : Zone) (old : Shctx) (data : Buffer) (defaultTtl now : Int)
    (ops : List SwapOp) : Loader × Shctx :=
  Run.exec (swapStep ngx z) (Loader.start ngx data defaultTtl now, old) ops

theorem swapInv_start (wf : old.Wf ngx) :
    SwapInv ngx old (feedDecisions ngx defaultTtl now (feedLines ngx data)) t
      (Loader.start ngx data defaultTtl now, old) := by
  have hentries : ∀ swept, EntriesKept old t [] swept old := fun _ k => .inl rfl
  rw [Loader.start, feedLines]
  cases feedValidate ngx data.data with
  | none =>
      refine ⟨wf, ?_, ?_, ⟨[], rfl, hentries _⟩, ?_⟩
      · intro h
        contradiction
      · intro g hg
        contradiction
      · intro h
        simp [FeedPhase.rc] at h
  | some body =>
      refine ⟨wf, fun _ => ⟨rfl, rfl⟩, ?_, ⟨[], rfl, hentries _⟩, ?_⟩
      · intro g hg
        contradiction
      · intro h
        contradiction

theorem swapInv_run (z : Zone) (data : Buffer) (defaultTtl now : Int) (wf : old.Wf ngx)
    {ops : List SwapOp} (hops : ∀ op ∈ ops, LookedUpBy t op) :
    SwapInv ngx old (feedDecisions ngx defaultTtl now (feedLines ngx data)) t
      (swapRun ngx z old data defaultTtl now ops) := by
  have hstep : ∀ s op, LookedUpBy t op →
      SwapInv ngx old (feedDecisions ngx defaultTtl now (feedLines ngx data)) t s →
      SwapInv ngx old (feedDecisions ngx defaultTtl now (feedLines ngx data)) t
        (swapStep ngx z s op) := by
    intro s op hop h
    cases op with
    | load => exact swapInv_load z h
    | lookup key now => exact swapInv_lookup z h key hop
  exact Run.exec_invariant_along hstep
    (Run.along_of_forall (swapStep ngx z) (Loader.start ngx data defaultTtl now, old) hops)
    (swapInv_start wf)

/-- Every address that a feed lists has a decision among those written. -/
theorem lastDecision_listed {k : Key} {line : Bytes} {e : FeedEntry}
    (hline : line ∈ feedLines ngx data) (he : LiveLine ngx defaultTtl now line e)
    (hk : sentinelFeedDigest ngx e.ip = k) :
    ∃ d, lastDecision (feedDecisions ngx defaultTtl now (feedLines ngx data)) k = some d := by
  rw [← Option.isSome_iff_exists, lastDecision_isSome_iff]
  exact ⟨_, mem_feedDecisions.mpr ⟨line, hline, e, he, rfl⟩, hk⟩

/-- What is found in the table comes from the old one or from a line. -/
theorem loadedEntry_cases {written rest : List Decision} {k : Key} {e : Int × UInt8 × Nat}
    (hds : feedDecisions ngx defaultTtl now (feedLines ngx data) = written ++ rest)
    (he : loadedEntry old written k = some e) :
    (∃ n, old.get k = some n ∧ e.1 = n.blockedUntil ∧ e.2.1 = n.csAction) ∨
      ∃ line ∈ feedLines ngx data, ∃ f, LiveLine ngx defaultTtl now line f ∧
        sentinelFeedDigest ngx f.ip = k ∧ e.1 = effectiveExpiry defaultTtl now f ∧
        e.2.1 = f.action := by
  rw [loadedEntry] at he
  cases hlast : lastDecision written k with
  | none =>
      rw [hlast] at he
      obtain ⟨n, hn, rfl⟩ := Option.map_eq_some_iff.mp he
      exact .inl ⟨n, hn, rfl, rfl⟩
  | some d =>
      rw [hlast] at he
      obtain rfl := Option.some.inj he
      have hd : d ∈ feedDecisions ngx defaultTtl now (feedLines ngx data) := by
        rw [hds]
        exact List.mem_append_left _ (List.mem_reverse.mp (List.mem_of_find?_eq_some hlast))
      obtain ⟨line, hline, f, hf, rfl⟩ := mem_feedDecisions.mp hd
      exact .inr ⟨line, hline, f, hf, lastDecision_key hlast, rfl, rfl⟩

/-- The last decision of every address, or the old entry where there is none. -/
theorem loadedEntry_eq_none {written : List Decision} {k : Key}
    (h : loadedEntry old written k = none) : lastDecision written k = none ∧ old.get k = none := by
  rw [loadedEntry] at h
  cases hlast : lastDecision written k with
  | none =>
      rw [hlast] at h
      exact ⟨rfl, Option.map_eq_none_iff.mp h⟩
  | some d =>
      rw [hlast] at h
      contradiction

/-- A rejected feed writes nothing. -/
theorem accepted_of_written (z : Zone) {ops : List SwapOp}
    (h : (swapRun ngx z old data defaultTtl now ops).1.phase.written) :
    (feedValidate ngx data.data).isSome := by
  cases hval : feedValidate ngx data.data with
  | some body => rfl
  | none =>
      have hstep : ∀ (s : Loader × Shctx) op, s.1.phase = .returned ⟨.declined, 0⟩ →
          (swapStep ngx z s op).1.phase = .returned ⟨.declined, 0⟩ := by
        intro s op hs
        cases op with
        | load => simp only [swapStep, loaderSection, hs]
        | lookup key now => exact hs
      have hstart : (Loader.start ngx data defaultTtl now).phase = .returned ⟨.declined, 0⟩ := by
        simp only [Loader.start, hval]
      have hend := Run.exec_invariant hstep (s := (Loader.start ngx data defaultTtl now, old))
        hstart ops
      rw [swapRun] at h
      rw [hend] at h
      contradiction

theorem written_of_ok {phase : FeedPhase} (h : phase.rc = some .ok) : phase.written := by
  cases phase with
  | returned reply => exact Option.some.inj h
  | bump => contradiction
  | applying generation lines applied => contradiction
  | sweeping generation applied => contradiction

theorem pending_of_written {phase : FeedPhase} (h : phase.written) (ld : Loader)
    (hld : ld.phase = phase) : ld.pending ngx = [] := by
  rw [Loader.pending]
  rw [hld]
  cases phase <;> first | rfl | exact h.elim

/-- An address banned in the old table and on every line for it is still banned,
whatever the load and its readers have done so far. -/
theorem banned_throughout (z : Zone) (wf : old.Wf ngx) {ops : List SwapOp}
    (hops : ∀ op ∈ ops, LookedUpBy t op) (hnow : now ≤ t) {k : Key} (hold : Banned old t k)
    (hlisted : (feedValidate ngx data.data).isSome → ∃ line ∈ feedLines ngx data, ∃ e,
      DecisionLine ngx line e ∧ sentinelFeedDigest ngx e.ip = k)
    (hlines : ∀ line ∈ feedLines ngx data, ∀ e, DecisionLine ngx line e →
      sentinelFeedDigest ngx e.ip = k → t < effectiveExpiry defaultTtl now e) :
    Banned (swapRun ngx z old data defaultTtl now ops).2 t k := by
  obtain ⟨-, -, -, ⟨written, hds, hkept⟩, -⟩ :=
    swapInv_run z data defaultTtl now wf hops
  obtain ⟨n₀, hn₀, hlive⟩ := hold
  have hlasts : ∀ e, loadedEntry old written k = some e → t < e.1 := by
    intro e he
    cases loadedEntry_cases hds he with
    | inl hfrom =>
        obtain ⟨n, hn, hexp, -⟩ := hfrom
        rw [hexp, Option.some.inj (hn.symm.trans hn₀)]
        exact hlive
    | inr hfrom =>
        obtain ⟨line, hline, f, hf, hk, hexp, -⟩ := hfrom
        rw [hexp]
        exact hlines line hline f hf.1 hk
  cases hentry : loadedEntry old written k with
  | none =>
      rw [(loadedEntry_eq_none hentry).2] at hn₀
      contradiction
  | some e =>
      have he := hlasts e hentry
      cases hkept k with
      | inl hsame =>
          rw [hentry] at hsame
          obtain ⟨n, hn, rfl⟩ := Option.map_eq_some_iff.mp hsame
          exact ⟨n, hn, he⟩
      | inr hgone =>
          cases hgone.2 e hentry with
          | inl hout => omega
          | inr hswept =>
              -- the address has a line, and the load has written them all
              obtain ⟨line, hline, f, hf, hk⟩ := hlisted (accepted_of_written z hswept.1)
              have hlive : LiveLine ngx defaultTtl now line f :=
                ⟨hf, Int.lt_of_le_of_lt hnow (hlines line hline f hf hk)⟩
              obtain ⟨d, hd⟩ := lastDecision_listed hline hlive hk
              rw [hds, pending_of_written hswept.1 _ rfl, List.append_nil] at hd
              simp only [loadedEntry, hd, Option.some.injEq] at hentry
              exact absurd (hentry ▸ rfl) hswept.2

/-- Whom the table bans, the old table or the feed bans, and in the same words. -/
theorem banned_by (z : Zone) (wf : old.Wf ngx) {ops : List SwapOp}
    (hops : ∀ op ∈ ops, LookedUpBy t op) {k : Key} {n : Node}
    (hn : (swapRun ngx z old data defaultTtl now ops).2.get k = some n) :
    (∃ n₀, old.get k = some n₀ ∧ n.blockedUntil = n₀.blockedUntil ∧
        n.csAction = n₀.csAction) ∨
      ∃ line ∈ feedLines ngx data, ∃ f, LiveLine ngx defaultTtl now line f ∧
        sentinelFeedDigest ngx f.ip = k ∧ n.blockedUntil = effectiveExpiry defaultTtl now f ∧
        n.csAction = f.action := by
  obtain ⟨-, -, -, ⟨written, hds, hkept⟩, -⟩ :=
    swapInv_run z data defaultTtl now wf hops
  cases hkept k with
  | inl hsame =>
      rw [hn, Option.map_some] at hsame
      exact loadedEntry_cases hds hsame.symm
  | inr hgone =>
      rw [hn] at hgone
      exact absurd hgone.1 (by simp)

/-- The entries of a table that have not run out. -/
def Shctx.unexpired (sh : Shctx) (t : Int) (k : Key) : Option (Int × UInt8 × Nat) :=
  ((sh.get k).map Node.entry).filter fun e => t < e.1

theorem loaderSection_rc {z : Zone} {slab : Nat → Bool} {ld : Loader} {sh : Shctx} {rc : NgxRc}
    (h : (loaderSection ngx (some z) slab ld sh).1.phase.rc = some rc) :
    rc = .ok ∨ ld.phase.rc = some rc := by
  rw [loaderSection] at h
  cases hphase : ld.phase with
  | bump =>
      simp only [hphase] at h
      contradiction
  | applying generation lines applied =>
      simp only [hphase] at h
      split at h <;> contradiction
  | sweeping generation applied =>
      simp only [hphase] at h
      split at h
      · left
        exact (Option.some.inj h).symm
      · right
        rwa [hphase] at h
  | returned reply =>
      simp only [hphase] at h
      exact .inr h

/-- A load that has returned has taken the feed, or there was none to take. -/
theorem written_of_returned (z : Zone) {ops : List SwapOp}
    (hacc : (feedValidate ngx data.data).isSome)
    (h : (swapRun ngx z old data defaultTtl now ops).1.phase.rc.isSome) :
    (swapRun ngx z old data defaultTtl now ops).1.phase.rc = some .ok := by
  have hstep : ∀ (s : Loader × Shctx) op, (∀ rc, s.1.phase.rc = some rc → rc = .ok) →
      ∀ rc, (swapStep ngx z s op).1.phase.rc = some rc → rc = .ok := by
    intro s op hs rc hrc
    cases op with
    | load => exact (loaderSection_rc hrc).elim id (hs rc)
    | lookup key now => exact hs rc hrc
  have hstart : ∀ rc, (Loader.start ngx data defaultTtl now).phase.rc = some rc → rc = .ok := by
    obtain ⟨body, hval⟩ := Option.isSome_iff_exists.mp hacc
    intro rc hrc
    simp only [Loader.start, hval] at hrc
    contradiction
  obtain ⟨rc, hrc⟩ := Option.isSome_iff_exists.mp h
  have hend := Run.exec_invariant hstep (s := (Loader.start ngx data defaultTtl now, old))
    hstart ops rc hrc
  rw [hrc, hend]

/-- A rejected feed writes and sweeps nothing: the table is the old one, less
what has run out. -/
theorem unexpired_of_rejected (z : Zone) (wf : old.Wf ngx) {ops : List SwapOp}
    (hops : ∀ op ∈ ops, LookedUpBy t op) (hval : feedValidate ngx data.data = none) (k : Key) :
    (swapRun ngx z old data defaultTtl now ops).2.unexpired t k = old.unexpired t k := by
  obtain ⟨-, -, -, ⟨written, hds, hkept⟩, -⟩ :=
    swapInv_run z data defaultTtl now wf hops
  have hnone : feedDecisions ngx defaultTtl now (feedLines ngx data) = [] := by
    simp only [feedLines, hval]
    rfl
  rw [hnone] at hds
  obtain ⟨rfl, -⟩ := List.append_eq_nil_iff.mp hds.symm
  simp only [Shctx.unexpired]
  cases hkept k with
  | inl hsame =>
      rw [hsame]
      rfl
  | inr hgone =>
      rw [hgone.1, Option.map_none, Option.filter_none]
      cases hold : old.get k with
      | none => rfl
      | some n =>
          cases hgone.2 n.entry (by simp [loadedEntry, lastDecision, hold]) with
          | inl hout =>
              have hout : ¬ t < n.entry.1 := by omega
              simp [Option.filter, hout]
          | inr hswept =>
              have hacc := accepted_of_written z hswept.1
              rw [hval] at hacc
              contradiction

/-- When the load is over, its readers have cost the table nothing but entries
that have run out. -/
theorem unexpired_eq_alone (z : Zone) (wf : old.Wf ngx) {ops : List SwapOp}
    (hops : ∀ op ∈ ops, LookedUpBy t op)
    (hover : (swapRun ngx z old data defaultTtl now ops).1.phase.rc.isSome) (k : Key) :
    (swapRun ngx z old data defaultTtl now ops).2.unexpired t k =
      (sentinelFeedParse ngx (some z) old data defaultTtl now fun _ => true).2.unexpired t k := by
  obtain ⟨hwf, -, -, ⟨written, hds, hkept⟩, hdone⟩ :=
    swapInv_run z data defaultTtl now wf hops
  cases hval : feedValidate ngx data.data with
  | none =>
      rw [unexpired_of_rejected z wf hops hval]
      simp only [sentinelFeedParse, hval]
  | some body =>
      have hrc := written_of_returned z (by rw [hval]; rfl) hover
      have hphase := written_of_ok hrc
      rw [pending_of_written hphase _ rfl, List.append_nil] at hds
      have halone := (load_spec z wf hval defaultTtl now fun _ => true).2.2.2 k
      have hlines : feedLines ngx data = Lines.split (ch '\n') body := by
        simp only [feedLines, hval]
      rw [feedFits_of_room (fun _ => rfl), ← hlines, hds] at halone
      have hstamp : ∀ n, (swapRun ngx z old data defaultTtl now ops).2.get k = some n →
          n.csGeneration = old.csGeneration + 1 := fun n hn => hdone hrc n (mem_of_get hn)
      simp only [Shctx.unexpired]
      cases hlast : lastDecision written k with
      | none =>
          rw [hlast] at halone
          rw [show _ = none from halone]
          cases hget : (swapRun ngx z old data defaultTtl now ops).2.get k with
          | none => rfl
          | some n =>
              -- an unswept node of the old table would have an old stamp
              cases hkept k with
              | inl hsame =>
                  rw [hget, loadedEntry, hlast] at hsame
                  obtain ⟨m, hm, he⟩ := Option.map_eq_some_iff.mp hsame.symm
                  have hle := wf.gen_le m (mem_of_get hm)
                  have hgen : m.csGeneration = n.csGeneration := congrArg (fun e => e.2.2) he
                  have := hstamp n hget
                  omega
              | inr hgone =>
                  rw [hget] at hgone
                  exact absurd hgone.1 (by simp)
      | some d =>
          rw [hlast] at halone
          obtain ⟨m, hm, -, hexp, hact, hgen⟩ := halone
          have hentry : loadedEntry old written k =
              some (d.expiry, d.action, old.csGeneration + 1) := by
            rw [loadedEntry, hlast]
          rw [hm, Option.map_some, Node.entry, hexp, hact, hgen]
          cases hkept k with
          | inl hsame => rw [hsame, hentry]
          | inr hgone =>
              rw [hgone.1]
              cases hgone.2 _ hentry with
              | inl hout =>
                  have hout : ¬ t < d.expiry := Int.not_lt.mpr hout
                  simp [Option.filter, hout]
              | inr hswept => exact absurd rfl hswept.2

/-- At any point of a load and for any lookups so far, none of them at a later
time, an address that both the old table and the feed ban is found banned, what
is found is what one of them says, and when the load has returned, only entries
that had run out are missing from the table it would have made alone. -/
theorem readers_see_no_gap (ngx : NgxCore) (z : Zone) (old : Shctx) (wf : old.Wf ngx)
    (data : Buffer) (defaultTtl now : Int) (ops : List SwapOp) (t : Int)
    (hops : ∀ op ∈ ops, LookedUpBy t op) (hnow : now ≤ t) :
    let s := swapRun ngx z old data defaultTtl now ops
    (∀ k,
      let r := sentinelShmCrowdsecLookup ngx (some z) s.2 k t
      (Banned old t k →
        ((feedValidate ngx data.data).isSome → ∃ line ∈ feedLines ngx data, ∃ e,
          DecisionLine ngx line e ∧ sentinelFeedDigest ngx e.ip = k) →
        (∀ line ∈ feedLines ngx data, ∀ e, DecisionLine ngx line e →
          sentinelFeedDigest ngx e.ip = k → t < effectiveExpiry defaultTtl now e) →
        r.1 = .busy) ∧
      (r.1 = .busy →
        (∃ n, old.get k = some n ∧ t < n.blockedUntil ∧ r.2.1 = n.csAction) ∨
        ∃ line ∈ feedLines ngx data, ∃ e, LiveLine ngx defaultTtl now line e ∧
          sentinelFeedDigest ngx e.ip = k ∧ t < effectiveExpiry defaultTtl now e ∧
          r.2.1 = e.action)) ∧
    (s.1.phase.rc.isSome → ∀ k, s.2.unexpired t k =
      (sentinelFeedParse ngx (some z) old data defaultTtl now fun _ => true).2.unexpired t k) := by
  intro s
  have hinv := swapInv_run z data defaultTtl now wf hops
  refine ⟨fun k => ?_, fun hover k => unexpired_eq_alone z wf hops hover k⟩
  obtain ⟨-, -, -, hreply⟩ := crowdsecLookup_spec z hinv.wf k t
  refine ⟨fun hold hlisted hlines => ?_, fun hbusy => ?_⟩
  · obtain ⟨n, hn, hlive⟩ := banned_throughout z wf hops hnow hold hlisted hlines
    cases hreply with
    | inl hbusy => exact hbusy.1
    | inr hfree =>
        have := hfree.2 n hn
        omega
  · cases hreply with
    | inr hfree =>
        have hboth := hfree.1.symm.trans hbusy
        contradiction
    | inl hfound =>
        obtain ⟨-, n, hn, hlive, hact⟩ := hfound
        cases banned_by z wf hops hn with
        | inl hold =>
            obtain ⟨n₀, hn₀, hexp, hsame⟩ := hold
            exact .inl ⟨n₀, hn₀, hexp ▸ hlive, hact.trans hsame⟩
        | inr hfeed =>
            obtain ⟨line, hline, e, he, hk, hexp, hsame⟩ := hfeed
            exact .inr ⟨line, hline, e, he, hk, hexp ▸ hlive, hact.trans hsame⟩

/-- The old table bans an address and the feed says captcha for it: a lookup
after one sweep call, with lookups in between. -/
theorem readers_see_no_gap_captcha :
    let z : Zone := ⟨0, 0, 0⟩
    let old := (sentinelFeedParse Ref.ngx (some z) sentinelShmInitZone
      ⟨str "# sentinel-crowdsec-feed v1\n1.2.3.4 ban 100\n%%EOF 1 9eb69a54\n", by decide⟩
      3600 50 fun _ => true).2
    let data : Buffer :=
      ⟨str "# sentinel-crowdsec-feed v1\n1.2.3.4 captcha 90\n%%EOF 1 c3fa4a01\n", by decide⟩
    let k := sentinelFeedDigest Ref.ngx (str "1.2.3.4")
    let s := swapRun Ref.ngx z old data 3600 50
      [.load, .lookup k 55, .load, .lookup k 56, .load]
    (sentinelShmCrowdsecLookup Ref.ngx (some z) s.2 k 60).1 = .busy := by
  intro z old data k s
  have hlines : feedLines Ref.ngx data = [str "1.2.3.4 captcha 90"] := by decide +kernel
  have hline : DecisionLine Ref.ngx (str "1.2.3.4 captcha 90")
      ⟨str "1.2.3.4", ngxSentinelCsCaptcha, 90⟩ := by
    apply feedApplyScan_eq_some_iff.mp
    decide +kernel
  have hgap := readers_see_no_gap Ref.ngx z old (wf_parse _ _ _ _ _ _ wf_init _) data 3600 50
    [.load, .lookup k 55, .load, .lookup k 56, .load] 60
    (by simp [LookedUpBy]) (by decide)
  apply (hgap.1 k).1
  · decide +kernel
  · intro _
    rw [hlines]
    exact ⟨_, List.mem_singleton_self _, _, hline, rfl⟩
  · intro line hmem e he _
    rw [hlines, List.mem_singleton] at hmem
    subst hmem
    rw [he.unique hline]
    decide

/-- A lookup at a later time evicts an entry that a lookup at an earlier time
would still have found, and the load has not written the new one yet. -/
theorem later_lookup_opens_gap :
    let z : Zone := ⟨60, 0, 0⟩
    let old := (sentinelFeedParse Ref.ngx (some z) sentinelShmInitZone
      ⟨str "# sentinel-crowdsec-feed v1\n1.2.3.4 ban 100\n%%EOF 1 9eb69a54\n", by decide⟩
      3600 50 fun _ => true).2
    let data : Buffer :=
      ⟨str "# sentinel-crowdsec-feed v1\n1.2.3.4 captcha 90\n%%EOF 1 c3fa4a01\n", by decide⟩
    let k := sentinelFeedDigest Ref.ngx (str "1.2.3.4")
    let s := swapRun Ref.ngx z old data 3600 50
      [.lookup (sentinelFeedDigest Ref.ngx (str "5.6.7.8")) 200]
    Banned old 60 k ∧
      (∃ line ∈ feedLines Ref.ngx data, ∃ e,
        DecisionLine Ref.ngx line e ∧ sentinelFeedDigest Ref.ngx e.ip = k) ∧
      (∀ line ∈ feedLines Ref.ngx data, ∀ e, DecisionLine Ref.ngx line e →
        sentinelFeedDigest Ref.ngx e.ip = k → 60 < effectiveExpiry 3600 50 e) ∧
      (sentinelShmCrowdsecLookup Ref.ngx (some z) s.2 k 60).1 ≠ .busy := by
  intro z old data k s
  have hlines : feedLines Ref.ngx data = [str "1.2.3.4 captcha 90"] := by decide +kernel
  have hline : DecisionLine Ref.ngx (str "1.2.3.4 captcha 90")
      ⟨str "1.2.3.4", ngxSentinelCsCaptcha, 90⟩ := by
    apply feedApplyScan_eq_some_iff.mp
    decide +kernel
  rw [hlines]
  refine ⟨by decide +kernel, ⟨_, List.mem_singleton_self _, _, hline, rfl⟩, ?_, by decide +kernel⟩
  intro line hmem e he _
  obtain rfl := List.mem_singleton.mp hmem
  rw [he.unique hline]
  decide

end Readers
end Sentinel
