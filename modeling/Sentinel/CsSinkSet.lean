import Mathlib.Algebra.Ring.Int.Defs
import Mathlib.Data.Finset.Card
import Sentinel.CsSink
import Sentinel.Lib.Run

/-!
The decision set over whole runs of the owner's timer. What the file says is
right after every tick. What the set keeps is not: the bans of a tick are taken
up before the decisions that have run out are dropped, so a new ban can be turned
away by slots that nobody needs any more.
-/

namespace Sentinel
open Function

section Ticks

/-- What the timer meets: the time, and the entries that it gets out of the ring. -/
structure SinkTick where
  now : Nat
  drained : List PushEntry

/-- The owner's context, and for each address the expiry of the last ban that
was drained and not discarded. -/
structure SinkRun where
  sc : SinkCtx
  latest : Bytes → Option Int

def drainStep (now : Int) (s : SinkRun) (e : PushEntry) : SinkRun :=
  let sc := cssinkDrain now s.sc e
  { sc
    latest := if cssinkLive now e ∧ e.ip ∈ sc.ips then update s.latest e.ip (some e.expiry)
      else s.latest }

def sinkStep (s : SinkRun) (t : SinkTick) : SinkRun :=
  { sc := sentinelCssinkTimerHandler s.sc t.now t.drained true
    latest := (t.drained.foldl (drainStep t.now) s).latest }

def sinkStart (cap : Nat) (scenario file : Bytes) : SinkRun :=
  ⟨⟨List.replicate cap ⟨[], 0⟩, 0, scenario, file⟩, fun _ => none⟩

/-- The file has one line for each address whose last ban has not run out, and
the count is that of the occupied slots. -/
def FileRight (s : SinkRun) (t : SinkTick) : Prop :=
  let s' := sinkStep s t
  ∃ bans : List SinkDecision,
    (s'.sc.file = bans.flatMap fun d => decisionLine d.ip s.sc.scenario (d.expiry - t.now)) ∧
      (bans.map SinkDecision.ip).Nodup ∧
      (∀ d, d ∈ bans ↔ s'.latest d.ip = some d.expiry ∧ t.now < d.expiry) ∧
      s'.sc.setCount = s'.sc.held.length

/-- A ban of a new address is turned away only by `set_cap` decisions that have
not run out. -/
def KeepsNew (s : SinkRun) (t : SinkTick) : Prop :=
  ∀ pre e post, t.drained = pre ++ e :: post → cssinkLive t.now e = true →
    let sc := pre.foldl (cssinkDrain t.now) s.sc
    e.ip ∉ sc.ips → e.ip ∉ (cssinkDrain t.now sc e).ips →
      (sc.held.filter fun d => (t.now : Int) < d.expiry).length = sc.set.length

def liveIps (now : Int) (entries : List PushEntry) : List Bytes :=
  (entries.filter fun e => cssinkLive now e).map PushEntry.ip

/-- The addresses that the entries bring and the set does not hold. -/
def newIps (sc : SinkCtx) (now : Int) (entries : List PushEntry) : Finset Bytes :=
  (liveIps now entries).toFinset.filter fun ip => ip ∉ sc.ips

/-- As soon as the bans that a tick drains have brought more new addresses than
there were empty slots, they have also renewed every decision that had run out. -/
def RoomOrRenewed (s : SinkRun) (t : SinkTick) : Prop :=
  ∀ pre post, t.drained = pre ++ post →
    s.sc.set.length < s.sc.held.length + (newIps s.sc t.now pre).card →
      ∀ d ∈ s.sc.held, d.expiry ≤ t.now → d.ip ∈ liveIps t.now pre

/-- Every line of the tick fits the buffer. -/
def TickFits (s : SinkRun) (t : SinkTick) : Prop := LinesFit (sinkStep s t).sc t.now

end Ticks
section Drain
variable {sc : SinkCtx} {now : Int}

theorem live_iff {e : PushEntry} :
    cssinkLive now e = true ↔
      e.ip.length > 0 ∧ e.ip.length < ngxSockaddrStrlen ∧ e.expiry > now := by
  simp [cssinkLive]

theorem liveIps_append (now : Int) (pre : List PushEntry) (e : PushEntry) :
    liveIps now (pre ++ [e]) =
      if cssinkLive now e then liveIps now pre ++ [e.ip] else liveIps now pre := by
  cases h : cssinkLive now e with
  | false => simp [liveIps, h]
  | true => simp [liveIps, h]

theorem mem_newIps {ip : Bytes} {pre : List PushEntry} :
    ip ∈ newIps sc now pre ↔ ip ∈ liveIps now pre ∧ ip ∉ sc.ips := by
  rw [newIps, Finset.mem_filter, List.mem_toFinset]

theorem newIps_of_not_live {e : PushEntry} (h : cssinkLive now e = false) (pre : List PushEntry) :
    newIps sc now (pre ++ [e]) = newIps sc now pre := by
  rw [newIps, liveIps_append, h]
  rfl

/-- One more entry brings one more address, unless it is held or was brought before. -/
theorem newIps_append (sc : SinkCtx) {e : PushEntry} (h : cssinkLive now e = true)
    (pre : List PushEntry) :
    newIps sc now (pre ++ [e]) =
      if e.ip ∈ sc.ips then newIps sc now pre else insert e.ip (newIps sc now pre) := by
  ext ip
  rw [mem_newIps, liveIps_append, if_pos h, List.mem_append, List.mem_singleton]
  by_cases hheld : e.ip ∈ sc.ips
  · rw [if_pos hheld, mem_newIps]
    constructor
    · intro hip
      refine ⟨hip.1.resolve_right ?_, hip.2⟩
      intro heq
      exact hip.2 (heq ▸ hheld)
    · intro hip
      exact ⟨.inl hip.1, hip.2⟩
  · rw [if_neg hheld, Finset.mem_insert, mem_newIps]
    constructor
    · intro hip
      cases hip.1 with
      | inl hbefore => exact .inr ⟨hbefore, hip.2⟩
      | inr heq => exact .inl heq
    · intro hip
      cases hip with
      | inl heq => exact ⟨.inr heq, heq ▸ hheld⟩
      | inr hbefore => exact ⟨.inl hbefore.1, hbefore.2⟩

theorem card_newIps_append (sc : SinkCtx) {e : PushEntry} (h : cssinkLive now e = true)
    (pre : List PushEntry) :
    (newIps sc now (pre ++ [e])).card = if e.ip ∈ sc.ips ∨ e.ip ∈ newIps sc now pre then
      (newIps sc now pre).card else (newIps sc now pre).card + 1 := by
  rw [newIps_append sc h pre]
  by_cases hheld : e.ip ∈ sc.ips
  · rw [if_pos hheld, if_pos (.inl hheld)]
  · rw [if_neg hheld]
    by_cases hbefore : e.ip ∈ newIps sc now pre
    · rw [if_pos (.inr hbefore), Finset.insert_eq_of_mem hbefore]
    · rw [if_neg (not_or.mpr ⟨hheld, hbefore⟩), Finset.card_insert_of_notMem hbefore]

/-- What the array is after some entries of a tick, in terms of what it was
before the first: how many slots are taken, whose they are, and which decisions
in it have run out. -/
structure Drained (sc : SinkCtx) (now : Int) (pre : List PushEntry) (sc' : SinkCtx) : Prop where
  wf : sc'.Wf
  cap : sc'.set.length = sc.set.length
  taken : sc'.held.length =
    min sc.set.length (sc.held.length + (newIps sc now pre).card)
  keeps : ∀ ip ∈ sc.ips, ip ∈ sc'.ips
  whose : ∀ ip ∈ sc'.ips, ip ∈ sc.ips ∨ ip ∈ liveIps now pre
  room : sc.held.length + (newIps sc now pre).card ≤ sc.set.length →
    ∀ ip ∈ liveIps now pre, ip ∈ sc'.ips
  stale : ∀ d, d.expiry ≤ now →
    (d ∈ sc'.held ↔ d ∈ sc.held ∧ d.ip ∉ liveIps now pre)

theorem drained_nil (wf : sc.Wf) : Drained sc now [] sc where
  wf := wf
  cap := rfl
  taken := by
    have := held_length_le sc
    simp only [newIps, liveIps, List.filter_nil, List.map_nil, List.toFinset_nil,
      Finset.filter_empty, Finset.card_empty]
    omega
  keeps := fun _ h => h
  whose := fun _ h => .inl h
  room := fun _ ip h => by simp [liveIps] at h
  stale := fun d _ => by simp [liveIps]

theorem drained_skip {sc' : SinkCtx} {pre : List PushEntry} (h : Drained sc now pre sc')
    {e : PushEntry} (hlive : cssinkLive now e = false) :
    Drained sc now (pre ++ [e]) (cssinkDrain now sc' e) := by
  have hips : liveIps now (pre ++ [e]) = liveIps now pre := by
    rw [liveIps_append, hlive]
    rfl
  have hsame : cssinkDrain now sc' e = sc' := by
    rw [cssinkDrain, hlive]
    rfl
  obtain ⟨hwf, hcap, htaken, hkeeps, hwhose, hroom, hover⟩ := h
  rw [hsame]
  refine ⟨hwf, hcap, ?_, hkeeps, ?_, ?_, ?_⟩
  · rw [newIps_of_not_live hlive, htaken]
  · rw [hips]
    exact hwhose
  · rw [newIps_of_not_live hlive, hips]
    exact hroom
  · rw [hips]
    exact hover

/-- An address that the set has got is an old one, or was brought before. -/
theorem Drained.brought {sc' : SinkCtx} {pre : List PushEntry} (h : Drained sc now pre sc')
    {ip : Bytes} (hin : ip ∈ sc'.ips) : ip ∈ sc.ips ∨ ip ∈ newIps sc now pre := by
  by_cases hheld : ip ∈ sc.ips
  · exact .inl hheld
  · exact .inr (mem_newIps.mpr ⟨(h.whose ip hin).resolve_left hheld, hheld⟩)

/-- While nothing has been turned away, the set has got whatever was brought. -/
theorem Drained.kept {sc' : SinkCtx} {pre : List PushEntry} (h : Drained sc now pre sc')
    (hroom : sc.held.length + (newIps sc now pre).card ≤ sc.set.length) {ip : Bytes}
    (hold : ip ∈ sc.ips ∨ ip ∈ newIps sc now pre) : ip ∈ sc'.ips := by
  cases hold with
  | inl hheld => exact h.keeps ip hheld
  | inr hbefore => exact h.room hroom ip (mem_newIps.mp hbefore).1

/-- One entry more. -/
theorem drained_take {sc' : SinkCtx} {pre : List PushEntry} (hnow : 0 ≤ now)
    (h : Drained sc now pre sc') {e : PushEntry} (hlive : cssinkLive now e = true) :
    Drained sc now (pre ++ [e]) (cssinkDrain now sc' e) := by
  obtain ⟨-, -, hexpiry⟩ := live_iff.mp hlive
  have hne : e.expiry ≠ 0 := by omega
  have hdrain : cssinkDrain now sc' e = sentinelCssinkSetUpsert sc' e.ip e.expiry := by
    rw [cssinkDrain, if_pos hlive]
  have hips : liveIps now (pre ++ [e]) = liveIps now pre ++ [e.ip] := by
    rw [liveIps_append, if_pos hlive]
  have hcard := card_newIps_append sc hlive pre
  have hmem := mem_ips_upsert sc' e.ip hne
  have hlength := held_length_upsert sc' e.ip hne
  have htaken := h.taken
  have hcap := h.cap
  refine ⟨?_, ?_, ?_, ?_, ?_, ?_, ?_⟩
  · rw [hdrain]
    exact wf_upsert h.wf e.ip hne
  · rw [hdrain]
    exact (upsert_cases sc' e.ip hne).1.trans hcap
  · rw [hdrain, hlength, hcard]
    by_cases hin : e.ip ∈ sc'.ips
    · rw [if_pos hin, if_pos (h.brought hin), htaken]
    · rw [if_neg hin, hcap, htaken]
      split
      next hold =>
        -- the array is full, or the address would be in it
        have hfull : ¬ sc.held.length + (newIps sc now pre).card ≤ sc.set.length :=
          fun hroom => hin (h.kept hroom hold)
        omega
      next => omega
  · intro ip hip
    rw [hdrain, hmem]
    exact .inl (h.keeps ip hip)
  · intro ip hip
    rw [hdrain, hmem] at hip
    rw [hips, List.mem_append, List.mem_singleton]
    cases hip with
    | inl hbefore => exact (h.whose ip hbefore).imp_right .inl
    | inr hlast => exact .inr (.inr hlast.1)
  · intro hroom ip hip
    rw [hcard] at hroom
    rw [hips, List.mem_append, List.mem_singleton] at hip
    rw [hdrain, hmem]
    have hbefore : sc.held.length + (newIps sc now pre).card ≤ sc.set.length := by
      split at hroom
      · exact hroom
      · omega
    cases hip with
    | inl hin => exact .inl (h.room hbefore ip hin)
    | inr heq =>
        rw [heq]
        by_cases hold : e.ip ∈ sc.ips ∨ e.ip ∈ newIps sc now pre
        · exact .inl (h.kept hbefore hold)
        · rw [if_neg hold] at hroom
          refine .inr ⟨rfl, ?_⟩
          omega
  · intro d hd
    have hnot : d ≠ ⟨e.ip, e.expiry⟩ := by
      intro heq
      rw [heq] at hd
      exact absurd hd (by simpa using hexpiry)
    have hkept := mem_held_upsert h.wf e.ip hne d
    simp only [hnot, false_and, false_or] at hkept
    rw [hdrain, hkept, h.stale d hd, hips, List.mem_append, List.mem_singleton, not_or, and_assoc]

theorem drained_spec (wf : sc.Wf) (hnow : 0 ≤ now) (pre : List PushEntry) :
    Drained sc now pre (pre.foldl (cssinkDrain now) sc) := by
  induction pre using List.reverseRecOn with
  | nil => exact drained_nil wf
  | append_singleton pre e ih =>
      rw [List.foldl_append, List.foldl_cons, List.foldl_nil]
      cases hlive : cssinkLive now e with
      | false => exact drained_skip ih hlive
      | true => exact drained_take hnow ih hlive

end Drain
section Room
variable {s : SinkRun} {t : SinkTick}

/-- In an array that is full of decisions that run on, none has run out. -/
theorem all_live_iff (sc : SinkCtx) (now : Int) :
    (sc.held.filter fun d => now < d.expiry).length = sc.set.length ↔
      sc.held.length = sc.set.length ∧ ∀ d ∈ sc.held, now < d.expiry := by
  have hheld := held_length_le sc
  have hfilter := List.length_filter_le (fun d : SinkDecision => decide (now < d.expiry)) sc.held
  constructor
  · intro h
    have hlen : (sc.held.filter fun d => now < d.expiry).length = sc.held.length := by omega
    refine ⟨by omega, fun d hd => ?_⟩
    simpa using List.length_filter_eq_length_iff.mp hlen d hd
  · intro h
    obtain ⟨hfull, hall⟩ := h
    rw [List.filter_eq_self.mpr fun d hd => decide_eq_true (hall d hd), hfull]

/-- A ban is turned away when its address is new and every slot is taken. -/
theorem discarded_iff {sc : SinkCtx} {now : Int} (hnow : 0 ≤ now) {e : PushEntry}
    (hlive : cssinkLive now e = true) (hnew : e.ip ∉ sc.ips) :
    e.ip ∉ (cssinkDrain now sc e).ips ↔ sc.held.length = sc.set.length := by
  have hne : e.expiry ≠ 0 := by
    have := (live_iff.mp hlive).2.2
    omega
  have hle := held_length_le sc
  rw [cssinkDrain, if_pos hlive, mem_ips_upsert sc e.ip hne, not_or, eq_self_iff_true, true_and,
    Nat.not_lt, and_iff_right hnew]
  omega

/-- The first ban for which there is no slot is turned away, so by then every old
decision has been renewed. -/
theorem roomOrRenewed_of_keepsNew (wf : s.sc.Wf) (hkeeps : KeepsNew s t) : RoomOrRenewed s t := by
  have hnow : (0 : Int) ≤ t.now := Int.natCast_nonneg _
  have hdrained := drained_spec wf hnow
  intro pre
  induction pre using List.reverseRecOn with
  | nil =>
      intro post _ hover
      have := held_length_le s.sc
      simp only [newIps, liveIps, List.filter_nil, List.map_nil, List.toFinset_nil,
        Finset.filter_empty, Finset.card_empty] at hover
      omega
  | append_singleton pre e ih =>
      intro post hpost hover d hd hold
      rw [List.append_assoc, List.singleton_append] at hpost
      have hmono : d.ip ∈ liveIps t.now pre → d.ip ∈ liveIps t.now (pre ++ [e]) := by
        intro hmem
        rw [liveIps_append]
        split
        · exact List.mem_append_left _ hmem
        · exact hmem
      by_cases hbefore : s.sc.set.length < s.sc.held.length + (newIps s.sc t.now pre).card
      · exact hmono (ih (e :: post) hpost hbefore d hd hold)
      · -- `e` is the first ban for which there is no slot
        cases hlive : cssinkLive t.now e with
        | false =>
            rw [newIps_of_not_live hlive] at hover
            exact absurd hover hbefore
        | true =>
            have hspec := hdrained pre
            rw [card_newIps_append s.sc hlive] at hover
            have hfirst : ¬ (e.ip ∈ s.sc.ips ∨ e.ip ∈ newIps s.sc t.now pre) := by
              intro hold
              rw [if_pos hold] at hover
              exact hbefore hover
            rw [if_neg hfirst] at hover
            have hnew : e.ip ∉ (pre.foldl (cssinkDrain t.now) s.sc).ips :=
              fun hmem => hfirst (hspec.brought hmem)
            have htaken := hspec.taken
            have hcap := hspec.cap
            have hdiscarded := (discarded_iff hnow hlive hnew).mpr (by omega)
            have hall := ((all_live_iff _ _).mp
              (hkeeps pre e post hpost hlive hnew hdiscarded)).2
            apply hmono
            by_contra hnotrenewed
            have := hall d ((hspec.stale d hold).mpr ⟨hd, hnotrenewed⟩)
            omega

theorem keepsNew_of_roomOrRenewed (wf : s.sc.Wf) (hroom : RoomOrRenewed s t) : KeepsNew s t := by
  have hnow : (0 : Int) ≤ t.now := Int.natCast_nonneg _
  have hdrained := drained_spec wf hnow
  intro pre e post hpost hlive sc hnew hdiscarded
  have hspec : Drained s.sc t.now pre sc := hdrained pre
  have hfull := (discarded_iff hnow hlive hnew).mp hdiscarded
  have hnotheld : e.ip ∉ s.sc.ips := fun hmem => hnew (hspec.keeps e.ip hmem)
  have hsnoc := hdrained (pre ++ [e])
  rw [List.foldl_append, List.foldl_cons, List.foldl_nil] at hsnoc
  have hlast : e.ip ∈ liveIps t.now (pre ++ [e]) := by
    rw [liveIps_append, if_pos hlive]
    simp
  have hover : s.sc.set.length < s.sc.held.length + (newIps s.sc t.now (pre ++ [e])).card := by
    by_contra hfits
    exact hdiscarded (hsnoc.room (Nat.not_lt.mp hfits) e.ip hlast)
  refine (all_live_iff sc t.now).mpr ⟨hfull, fun d hd => ?_⟩
  by_contra hold
  obtain ⟨hd₀, hnotrenewed⟩ := (hspec.stale d (Int.not_lt.mp hold)).mp hd
  have hrenewed := hroom (pre ++ [e]) post (by simpa using hpost) hover d hd₀ (Int.not_lt.mp hold)
  rw [liveIps_append, if_pos hlive, List.mem_append, List.mem_singleton] at hrenewed
  cases hrenewed with
  | inl hbefore => exact hnotrenewed hbefore
  | inr heq => exact hnotheld (heq ▸ List.mem_map_of_mem hd₀)

/-- A tick turns no new ban away for the sake of an old one exactly when it has
the room, or has renewed the old ones in time. -/
theorem keepsNew_iff (wf : s.sc.Wf) : KeepsNew s t ↔ RoomOrRenewed s t :=
  ⟨roomOrRenewed_of_keepsNew wf, keepsNew_of_roomOrRenewed wf⟩

end Room
section File
variable {s : SinkRun} {t : SinkTick} {last : Nat}

/-- What is in the array at the end of a tick at `last`. -/
structure SinkInv (s : SinkRun) (last : Nat) : Prop where
  wf : s.sc.Wf
  ips : ∀ d ∈ s.sc.held, 0 < d.ip.length ∧ d.ip.length < ngxSockaddrStrlen
  latest : ∀ d ∈ s.sc.held, s.latest d.ip = some d.expiry
  held : ∀ d : SinkDecision, s.latest d.ip = some d.expiry → last < d.expiry → d ∈ s.sc.held

theorem sinkInv_start (cap : Nat) (scenario file : Bytes) :
    SinkInv (sinkStart cap scenario file) 0 := by
  have hheld : (sinkStart cap scenario file).sc.held = [] := by
    simp [sinkStart, SinkCtx.held]
  refine ⟨⟨?_, ?_⟩, ?_, ?_, ?_⟩
  · rw [SinkCtx.ips, hheld]
    exact List.nodup_nil
  · rw [hheld]
    rfl
  · rw [hheld]
    exact fun d hd => by simp at hd
  · rw [hheld]
    exact fun d hd => by simp at hd
  · intro d hd
    contradiction

/-- An entry keeps the array and the record of the last bans in step. -/
theorem sinkInv_drain (hnow : last ≤ t.now) (h : SinkInv s last) (e : PushEntry) :
    SinkInv (drainStep t.now s e) last := by
  cases hlive : cssinkLive t.now e with
  | false =>
      have hsame : drainStep t.now s e = s := by
        simp [drainStep, cssinkDrain, hlive]
      rw [hsame]
      exact h
  | true =>
      obtain ⟨hpos, hlt, hexpiry⟩ := live_iff.mp hlive
      have hne : e.expiry ≠ 0 := by omega
      have hwf := wf_upsert h.wf e.ip hne
      have hheld := mem_held_upsert h.wf e.ip hne
      have hkept : e.ip ∈ s.sc.ips → e.ip ∈ (sentinelCssinkSetUpsert s.sc e.ip e.expiry).ips :=
        fun hin => (mem_ips_upsert s.sc e.ip hne e.ip).mpr (.inl hin)
      have hdrain : drainStep t.now s e = ⟨sentinelCssinkSetUpsert s.sc e.ip e.expiry,
          if e.ip ∈ (sentinelCssinkSetUpsert s.sc e.ip e.expiry).ips
            then update s.latest e.ip (some e.expiry) else s.latest⟩ := by
        simp [drainStep, cssinkDrain, hlive]
      rw [hdrain]
      generalize sentinelCssinkSetUpsert s.sc e.ip e.expiry = sc at hwf hheld hkept
      -- a decision of another address is as it was before
      have hother : ∀ d : SinkDecision, d.ip ≠ e.ip →
          (if e.ip ∈ sc.ips then update s.latest e.ip (some e.expiry) else s.latest) d.ip =
            s.latest d.ip := by
        intro d hip
        split
        · exact update_of_ne hip _ _
        · rfl
      refine ⟨hwf, ?_, ?_, ?_⟩
      · intro d hd
        cases (hheld d).mp hd with
        | inl hlast =>
            rw [hlast.1]
            exact ⟨hpos, hlt⟩
        | inr hbefore => exact h.ips d hbefore.1
      · intro d hd
        cases (hheld d).mp hd with
        | inl hlast =>
            rw [hlast.1, if_pos hlast.2]
            exact update_self ..
        | inr hbefore =>
            exact (hother d hbefore.2).trans (h.latest d hbefore.1)
      · intro d hlatest hafter
        by_cases hip : d.ip = e.ip
        · dsimp only at hlatest
          by_cases hin : e.ip ∈ sc.ips
          · rw [if_pos hin, hip, update_self] at hlatest
            refine (hheld d).mpr (.inl ⟨?_, hin⟩)
            rw [Option.some.inj hlatest, ← hip]
          · -- the address was turned away, so it has no decision
            rw [if_neg hin] at hlatest
            have hd := List.mem_map_of_mem (f := SinkDecision.ip) (h.held d hlatest hafter)
            rw [hip] at hd
            exact absurd (hkept hd) hin
        · have hbefore := (hother d hip).symm.trans hlatest
          exact (hheld d).mpr (.inr ⟨h.held d hbefore hafter, hip⟩)

end File
section Run
variable {s : SinkRun} {t : SinkTick} {last : Nat}

theorem drain_sc (now : Int) (s : SinkRun) (entries : List PushEntry) :
    (entries.foldl (drainStep now) s).sc = entries.foldl (cssinkDrain now) s.sc := by
  induction entries generalizing s with
  | nil => rfl
  | cons e entries ih => exact ih (drainStep now s e)

theorem sinkInv_drains (hnow : last ≤ t.now) (h : SinkInv s last) (entries : List PushEntry) :
    SinkInv (entries.foldl (drainStep t.now) s) last := by
  induction entries generalizing s with
  | nil => exact h
  | cons e entries ih => exact ih (sinkInv_drain hnow h e)

theorem drains_scenario (now : Int) (sc : SinkCtx) (entries : List PushEntry) :
    (entries.foldl (cssinkDrain now) sc).scenario = sc.scenario := by
  induction entries generalizing sc with
  | nil => rfl
  | cons e entries ih =>
      refine (ih (cssinkDrain now sc e)).trans ?_
      rw [cssinkDrain]
      split
      · exact upsert_scenario sc e.ip e.expiry
      · rfl

theorem sinkStep_scenario (s : SinkRun) (t : SinkTick) :
    (sinkStep s t).sc.scenario = s.sc.scenario :=
  drains_scenario t.now s.sc t.drained

/-- A tick whose lines fit leaves the set in step and the file right. -/
theorem sinkStep_spec (hnow : last ≤ t.now) (hfit : TickFits s t) (h : SinkInv s last) :
    SinkInv (sinkStep s t) t.now ∧ FileRight s t := by
  have hdrained := sinkInv_drains hnow h t.drained
  have hexpire := expire_spec hdrained.wf t.now
  rw [drain_sc] at hexpire
  obtain ⟨hwf, -, -, hheld⟩ := hexpire
  -- the rewrite changes nothing but the file
  have hheld' : (sinkStep s t).sc.held =
      (t.drained.foldl (drainStep t.now) s).sc.held.filter fun d => (t.now : Int) < d.expiry := by
    rw [drain_sc]
    exact hheld
  have hmem : ∀ d, d ∈ (sinkStep s t).sc.held ↔
      (sinkStep s t).latest d.ip = some d.expiry ∧ t.now < d.expiry := by
    intro d
    rw [hheld', List.mem_filter, decide_eq_true_iff]
    refine and_congr_left fun hlive => ⟨fun hd => hdrained.latest d hd, fun hlatest => ?_⟩
    exact hdrained.held d hlatest (by omega)
  have hips : ∀ d ∈ (sinkStep s t).sc.held, 0 < d.ip.length ∧ d.ip.length < ngxSockaddrStrlen := by
    intro d hd
    rw [hheld'] at hd
    exact hdrained.ips d (List.mem_of_mem_filter hd)
  refine ⟨⟨⟨hwf.unique, hwf.count⟩, hips, fun d hd => ((hmem d).mp hd).1, ?_⟩, ?_⟩
  · intro d hlatest hlive
    exact (hmem d).mpr ⟨hlatest, hlive⟩
  · refine ⟨(sinkStep s t).sc.held, ?_, hwf.unique, hmem, hwf.count⟩
    have hall : ((sinkStep s t).sc.held.filter fun d => (t.now : Int) < d.expiry) =
        (sinkStep s t).sc.held := by
      rw [List.filter_eq_self]
      intro d hd
      exact decide_eq_true ((hmem d).mp hd).2
    rw [← sinkStep_scenario s t]
    exact (rewrite_file hips hfit).trans (congrArg _ hall)

theorem sink_run {ticks : List SinkTick} (hmono : ticks.Pairwise fun t t' => t.now ≤ t'.now)
    (hlast : ∀ t ∈ ticks, last ≤ t.now) (h : SinkInv s last)
    (hfit : Run.Along TickFits sinkStep s ticks) :
    Run.Along FileRight sinkStep s ticks ∧
      (Run.Along KeepsNew sinkStep s ticks ↔ Run.Along RoomOrRenewed sinkStep s ticks) := by
  induction ticks generalizing s last with
  | nil => exact ⟨trivial, Iff.rfl⟩
  | cons t ticks ih =>
      obtain ⟨hfirst, hrest⟩ := List.pairwise_cons.mp hmono
      obtain ⟨hinv, hfile⟩ := sinkStep_spec (hlast t List.mem_cons_self) hfit.1 h
      obtain ⟨hfiles, hkeeps⟩ := ih hrest hfirst hinv hfit.2
      exact ⟨⟨hfile, hfiles⟩, and_congr (keepsNew_iff h.wf) hkeeps⟩

end Run
section Full
variable {s : SinkRun} {t : SinkTick}

/-- Durations of up to 20 digits fit the line next to a scenario of 60 bytes. -/
theorem linesFit_of_short {sc : SinkCtx} {now : Int}
    (hips : ∀ d ∈ sc.held, d.ip.length < ngxSockaddrStrlen) (hscenario : sc.scenario.length ≤ 60)
    (hexpiry : ∀ d ∈ sc.held, d.expiry - now < 10 ^ 20) : LinesFit sc now := by
  intro d hd _
  have hip := hips d hd
  have hdigits : (ngxPrint (d.expiry - now).toNat).length ≤ 20 := by
    rw [ngxPrint, Numeral.write, List.length_map, Nat.length_toDigits_le_iff (by omega) (by omega)]
    have := hexpiry d hd
    omega
  simp only [decisionLine, List.length_append, ngxSentinelCssinkLine, ngxSockaddrStrlen, str,
    List.length_map, String.length_toList] at hip ⊢
  have h₁ : "\x7b\"value\":\"".length = 10 := rfl
  have h₂ : "\",\"scope\":\"Ip\",\"duration\":\"".length = 27 := rfl
  have h₃ : "s\",\"scenario\":\"".length = 15 := rfl
  have h₄ : "\",\"origin\":\"sentinel\"\x7d\n".length = 23 := rfl
  omega

/-- What all decisions of the array and all bans of the tick have, the decisions
have after it. -/
theorem forall_held_drains {P : SinkDecision → Prop} {now : Int} (hnow : 0 ≤ now) {sc : SinkCtx}
    (wf : sc.Wf) (hheld : ∀ d ∈ sc.held, P d) {entries : List PushEntry}
    (hentries : ∀ e ∈ entries, P ⟨e.ip, e.expiry⟩) :
    ∀ d ∈ (entries.foldl (cssinkDrain now) sc).held, P d := by
  induction entries generalizing sc with
  | nil => exact hheld
  | cons e entries ih =>
      have hrest : ∀ e' ∈ entries, P ⟨e'.ip, e'.expiry⟩ :=
        fun e' he' => hentries e' (List.mem_cons_of_mem e he')
      rw [List.foldl_cons]
      cases hlive : cssinkLive now e with
      | false =>
          have hsame : cssinkDrain now sc e = sc := by
            rw [cssinkDrain, hlive]
            rfl
          rw [hsame]
          exact ih wf hheld hrest
      | true =>
          have hne : e.expiry ≠ 0 := by
            have := (live_iff.mp hlive).2.2
            omega
          rw [cssinkDrain, if_pos hlive]
          refine ih (wf_upsert wf e.ip hne) (fun d hd => ?_) hrest
          cases (mem_held_upsert wf e.ip hne d).mp hd with
          | inl hlast => exact hlast.1 ▸ hentries e List.mem_cons_self
          | inr hbefore => exact hheld d hbefore.1

theorem forall_held_step {P : SinkDecision → Prop} (wf : s.sc.Wf) (hheld : ∀ d ∈ s.sc.held, P d)
    (hentries : ∀ e ∈ t.drained, P ⟨e.ip, e.expiry⟩) :
    (sinkStep s t).sc.Wf ∧ ∀ d ∈ (sinkStep s t).sc.held, P d := by
  have hnow : (0 : Int) ≤ t.now := Int.natCast_nonneg _
  obtain ⟨hwf, -, -, hfilter⟩ := expire_spec (drained_spec wf hnow t.drained).wf t.now
  refine ⟨⟨hwf.unique, hwf.count⟩, fun d hd => ?_⟩
  have hd' := hfilter ▸ hd
  exact forall_held_drains hnow wf hheld hentries d (List.mem_of_mem_filter hd')

/-- With a scenario of up to 60 bytes, lines fit whatever the times of the bans are. -/
theorem along_fits {cap : Nat} {scenario file : Bytes} {ticks : List SinkTick}
    (hscenario : scenario.length ≤ 60)
    (hticks : ∀ t ∈ ticks, ∀ e ∈ t.drained, e.ip.length < ngxSockaddrStrlen ∧ e.expiry < 10 ^ 20) :
    Run.Along TickFits sinkStep (sinkStart cap scenario file) ticks := by
  refine Run.along_imp (P := fun _ t => ∀ e ∈ t.drained, e.ip.length < ngxSockaddrStrlen ∧
      e.expiry < 10 ^ 20)
    (I := fun s => s.sc.Wf ∧ s.sc.scenario.length ≤ 60 ∧
      ∀ d ∈ s.sc.held, d.ip.length < ngxSockaddrStrlen ∧ d.expiry < 10 ^ 20) ?_ ?_
    (Run.along_of_forall sinkStep _ hticks) ?_
  · intro s t ht h
    obtain ⟨hwf, hlen, hheld⟩ := h
    obtain ⟨hwf', hheld'⟩ := forall_held_step hwf hheld ht
    exact ⟨hwf', sinkStep_scenario s t ▸ hlen, hheld'⟩
  · intro s t ht h
    obtain ⟨hwf, hlen, hheld⟩ := h
    obtain ⟨-, hheld'⟩ := forall_held_step hwf hheld ht
    refine linesFit_of_short (fun d hd => (hheld' d hd).1) (sinkStep_scenario s t ▸ hlen) ?_
    intro d hd
    have := (hheld' d hd).2
    omega
  · refine ⟨(sinkInv_start cap scenario file).wf, hscenario, fun d hd => ?_⟩
    simp [sinkStart, SinkCtx.held] at hd

/-- A full array turns the next new ban away, whatever has run out in it. -/
theorem not_keepsNew_of_full (hfull : s.sc.held.length = s.sc.set.length) {e : PushEntry}
    {rest : List PushEntry} (hdrained : t.drained = e :: rest) (hlive : cssinkLive t.now e = true)
    (hnew : e.ip ∉ s.sc.ips) {d : SinkDecision} (hd : d ∈ s.sc.held) (hold : d.expiry ≤ t.now) :
    ¬ KeepsNew s t := by
  intro hkeeps
  have hdiscarded := (discarded_iff (Int.natCast_nonneg _) hlive hnew).mpr hfull
  have hall := ((all_live_iff s.sc t.now).mp (hkeeps [] e rest hdrained hlive hnew hdiscarded)).2
  have := hall d hd
  omega

def lastDigit (n : Nat) : UInt8 := UInt8.ofNat (48 + n % 10)

theorem lastDigit_inj {m n : Nat} : lastDigit m = lastDigit n ↔ m % 10 = n % 10 := by
  rw [lastDigit, lastDigit, ← UInt8.toNat_inj, UInt8.toNat_ofNat', UInt8.toNat_ofNat']
  omega

/-- Distinct addresses from 10.10.100.100 on. -/
def crowdIp (i : Nat) : Bytes :=
  str "10.10.1" ++ [lastDigit (i / 1000), lastDigit (i / 100)] ++ str ".1" ++
    [lastDigit (i / 10), lastDigit i]

theorem crowdIp_inj {i j : Nat} (hi : i < 10000) (hj : j < 10000) (h : crowdIp i = crowdIp j) :
    i = j := by
  simp only [crowdIp, List.append_assoc, List.append_cancel_left_eq, List.cons_append,
    List.nil_append, List.cons.injEq, lastDigit_inj] at h
  omega

theorem crowdIp_length (i : Nat) : (crowdIp i).length = 13 := rfl

def crowd (cap : Nat) : List PushEntry := (List.range cap).map fun i => ⟨crowdIp i, 0, 1600⟩

/-- As many bans as there are slots, and one more when they are all over. -/
def crowdTicks (cap : Nat) : List SinkTick :=
  [⟨1000, crowd cap⟩, ⟨2000, [⟨str "10.20.0.1", 0, 2600⟩]⟩]

theorem crowd_live (cap : Nat) : liveIps 1000 (crowd cap) = (List.range cap).map crowdIp := by
  rw [liveIps, crowd, List.filter_eq_self.mpr, List.map_map]
  · rfl
  · intro e he
    obtain ⟨i, -, rfl⟩ := List.mem_map.mp he
    rfl

/-- The crowd takes every slot. -/
theorem crowd_taken (cap : Nat) (hcap : cap ≤ 10000) (scenario file : Bytes) :
    let s := sinkStep (sinkStart cap scenario file) ⟨1000, crowd cap⟩
    s.sc.held.length = cap ∧ s.sc.set.length = cap ∧
      ∀ d ∈ s.sc.held, (∃ i, d.ip = crowdIp i) ∧ d.expiry = 1600 := by
  intro s
  have hwf := (sinkInv_start cap scenario file).wf
  have hempty : (sinkStart cap scenario file).sc.held = [] := by
    simp [sinkStart, SinkCtx.held]
  have hheld : ∀ d ∈ s.sc.held, (∃ i, d.ip = crowdIp i) ∧ d.expiry = 1600 := by
    refine (forall_held_step hwf ?_ ?_).2
    · rw [hempty]
      exact fun d hd => absurd hd List.not_mem_nil
    · intro e he
      obtain ⟨i, -, rfl⟩ := List.mem_map.mp he
      exact ⟨⟨i, rfl⟩, rfl⟩
  have hdrained := drained_spec hwf (show (0 : Int) ≤ 1000 by omega) (crowd cap)
  obtain ⟨-, hlength, -, hfilter⟩ := expire_spec hdrained.wf 1000
  have hcap₀ : (sinkStart cap scenario file).sc.set.length = cap := List.length_replicate
  have hnew : (newIps (sinkStart cap scenario file).sc 1000 (crowd cap)).card = cap := by
    have hnodup : ((List.range cap).map crowdIp).Nodup := by
      refine List.Nodup.map_on (fun i hi j hj h => ?_) List.nodup_range
      rw [List.mem_range] at hi hj
      exact crowdIp_inj (by omega) (by omega) h
    rw [newIps, crowd_live, Finset.filter_true_of_mem]
    · rw [List.toFinset_card_of_nodup hnodup, List.length_map, List.length_range]
    · intro ip _
      rw [SinkCtx.ips, hempty]
      exact List.not_mem_nil
  have htaken := hdrained.taken
  rw [hempty, hnew, hcap₀, List.length_nil, Nat.zero_add, Nat.min_self] at htaken
  refine ⟨?_, hlength.trans (hdrained.cap.trans hcap₀), hheld⟩
  have hall : s.sc.held =
      ((crowd cap).foldl (cssinkDrain 1000) (sinkStart cap scenario file).sc).held := by
    refine hfilter.trans (List.filter_eq_self.mpr fun d hd => ?_)
    have hlive : ¬ d.expiry ≤ 1000 := by
      intro hold
      have := ((hdrained.stale d hold).mp hd).1
      rw [hempty] at this
      exact List.not_mem_nil this
    exact decide_eq_true (Int.not_le.mp hlive)
  rw [hall, htaken]

theorem crowdTicks_fit (cap : Nat) {scenario : Bytes} (file : Bytes)
    (hscenario : scenario.length ≤ 60) :
    Run.Along TickFits sinkStep (sinkStart cap scenario file) (crowdTicks cap) := by
  refine along_fits hscenario fun t ht e he => ?_
  rw [crowdTicks, List.mem_cons, List.mem_singleton] at ht
  cases ht with
  | inl hfirst =>
      rw [hfirst] at he
      obtain ⟨i, -, rfl⟩ := List.mem_map.mp he
      refine ⟨?_, ?_⟩
      · rw [crowdIp_length, ngxSockaddrStrlen]
        omega
      · dsimp only
        omega
  | inr hsecond =>
      rw [hsecond] at he
      rw [List.mem_singleton.mp he]
      exact ⟨by decide, by decide⟩

end Full
section Correct

/-- In every run the file and the count are right after every tick; a new ban is
turned away by nothing but unexpired decisions exactly in the runs in which a
tick that brings more new addresses than there are empty slots has renewed the
old decisions by then. -/
theorem sink_set_correct (cap : Nat) (scenario file : Bytes) (ticks : List SinkTick)
    (hmono : ticks.Pairwise fun t t' => t.now ≤ t'.now)
    (hfit : Run.Along TickFits sinkStep (sinkStart cap scenario file) ticks) :
    Run.Along FileRight sinkStep (sinkStart cap scenario file) ticks ∧
      (Run.Along KeepsNew sinkStep (sinkStart cap scenario file) ticks ↔
        Run.Along RoomOrRenewed sinkStep (sinkStart cap scenario file) ticks) :=
  sink_run hmono (fun _ _ => Nat.zero_le _) (sinkInv_start cap scenario file) hfit

theorem sink_set_correct_crowd :
    Run.Along FileRight sinkStep (sinkStart 2 (str "sentinel/http-abuse") []) (crowdTicks 2) ∧
      (Run.Along KeepsNew sinkStep (sinkStart 2 (str "sentinel/http-abuse") []) (crowdTicks 2) ↔
        Run.Along RoomOrRenewed sinkStep (sinkStart 2 (str "sentinel/http-abuse") [])
          (crowdTicks 2)) :=
  sink_set_correct 2 (str "sentinel/http-abuse") [] (crowdTicks 2) (by decide)
    (crowdTicks_fit 2 [] (by decide))

/-- A ban of a new address is discarded although every decision in the array is over. -/
theorem new_ban_discarded :
    let cap := ngxSentinelCssinkRing.toNat
    let start := sinkStart cap (str "sentinel/http-abuse") []
    (crowdTicks cap).Pairwise (fun t t' => t.now ≤ t'.now) ∧
      Run.Along TickFits sinkStep start (crowdTicks cap) ∧
      ¬ Run.Along KeepsNew sinkStep start (crowdTicks cap) := by
  intro cap start
  have hcap : cap = 4096 := rfl
  refine ⟨by simp [crowdTicks], crowdTicks_fit cap [] (by decide), fun hkeeps => ?_⟩
  obtain ⟨htaken, hlength, hheld⟩ := crowd_taken cap (by omega)
    (str "sentinel/http-abuse") []
  have hpos : 0 < (sinkStep start ⟨1000, crowd cap⟩).sc.held.length := by
    rw [htaken, hcap]
    omega
  have hold := List.getElem_mem hpos
  refine not_keepsNew_of_full (htaken.trans hlength.symm) rfl (by decide) ?_ hold ?_ hkeeps.2.1
  · intro hmem
    obtain ⟨d, hd, hip⟩ := List.mem_map.mp hmem
    obtain ⟨i, hi⟩ := (hheld d hd).1
    have hlen := congrArg List.length (hi.symm.trans hip)
    rw [crowdIp_length] at hlen
    exact absurd hlen (by decide)
  · rw [(hheld _ hold).2]
    decide

end Correct
end Sentinel
