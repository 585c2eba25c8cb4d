import Sentinel.Lib.Keyed
import Sentinel.Pow
import Sentinel.PushRing

/-!
The owner's side of `sentinel_cssink.c`: the fixed array of decisions, the
expiry pass over it, and the decisions file that every tick of the timer writes
from it. The entries that a tick drains from the ring come in as a list.

Left out: the workers that do not own the file, shutdown, and the log lines.
-/

namespace Sentinel

/-- The buffer that a line is formatted into. -/
def ngxSentinelCssinkLine : Nat := ngxSockaddrStrlen + 160

/-- `sentinel_cssink_decision_t`; an expiry of 0 is an empty slot. -/
structure SinkDecision where
  ip : Bytes
  expiry : Int
  deriving DecidableEq, Repr

/-- `sentinel_cssink_ctx_t`, and what the file at `cs_sink_path` holds; `set_cap`
is the length of the array, and the scenario is what `%s` prints of it. -/
structure SinkCtx where
  set : List SinkDecision
  setCount : Nat
  scenario : Bytes
  file : Bytes
  deriving DecidableEq, Repr

section Lines

/-- The line that `ngx_snprintf` writes when there is room. -/
def decisionLine (ip scenario : Bytes) (duration : Int) : Bytes :=
  str "\x7b\"value\":\"" ++ ip ++ str "\",\"scope\":\"Ip\",\"duration\":\"" ++
    ngxPrint duration.toNat ++ str "s\",\"scenario\":\"" ++ scenario ++
    str "\",\"origin\":\"sentinel\"\x7d\n"

/-- A line of no length is none: the arguments are bad, or the buffer is full. -/
def sentinelCssinkFormatDecision (cap : Nat) (ip scenario : Bytes) (duration : Int) : Bytes :=
  if ip.length = 0 ∨ ip.length ≥ ngxSockaddrStrlen ∨ duration ≤ 0 then []
  else if (decisionLine ip scenario duration).length ≥ cap then []
  else decisionLine ip scenario duration

end Lines
section Set

/-- The search of the upsert: the slot of the address, or the first empty one,
which is `cap` if there is none. -/
def cssinkScan (cap : Nat) (ip : Bytes) : (set : List SinkDecision) → (i free : Nat) → Nat ⊕ Nat
  | [], _, free => .inr free
  | d :: set, i, free =>
      if d.expiry = 0 then cssinkScan cap ip set (i + 1) (if free = cap then i else free)
      else if d.ip = ip then .inl i
      else cssinkScan cap ip set (i + 1) free

def sentinelCssinkSetUpsert (sc : SinkCtx) (ip : Bytes) (expiry : Int) : SinkCtx :=
  match cssinkScan sc.set.length ip sc.set 0 sc.set.length with
  | .inl i => { sc with set := sc.set.modify i fun d => { d with expiry := expiry } }
  | .inr free =>
      if free = sc.set.length then sc
      else { sc with set := sc.set.set free ⟨ip, expiry⟩, setCount := sc.setCount + 1 }

/-- The array, the count and the number of live decisions after the pass. -/
def cssinkExpireLoop (now : Int) : (set : List SinkDecision) → (count : Nat) →
    List SinkDecision × Nat × Nat
  | [], count => ([], count, 0)
  | d :: set, count =>
      if d.expiry = 0 then
        let r := cssinkExpireLoop now set count
        (d :: r.1, r.2)
      else if d.expiry ≤ now then
        let r := cssinkExpireLoop now set (if count > 0 then count - 1 else count)
        ({ d with expiry := 0 } :: r.1, r.2)
      else
        let r := cssinkExpireLoop now set count
        (d :: r.1, r.2.1, r.2.2 + 1)

def sentinelCssinkSetExpire (sc : SinkCtx) (now : Int) : Nat × SinkCtx :=
  let r := cssinkExpireLoop now sc.set sc.setCount
  (r.2.2, { sc with set := r.1, setCount := r.2.1 })

/-- `fs` says whether every file operation succeeds; the file is only ever
replaced as a whole. -/
def sentinelCssinkRewrite (sc : SinkCtx) (now : Int) (fs : Bool) : SinkCtx :=
  if fs then
    { sc with
      file := sc.set.flatMap fun d =>
        if d.expiry = 0 ∨ d.expiry ≤ now then []
        else sentinelCssinkFormatDecision ngxSentinelCssinkLine d.ip sc.scenario (d.expiry - now) }
  else sc

/-- An entry that the tick takes up. -/
def cssinkLive (now : Int) (e : PushEntry) : Bool :=
  decide (e.ip.length > 0 ∧ e.ip.length < ngxSockaddrStrlen ∧ e.expiry > now)

def cssinkDrain (now : Int) (sc : SinkCtx) (e : PushEntry) : SinkCtx :=
  if cssinkLive now e then sentinelCssinkSetUpsert sc e.ip e.expiry else sc

def sentinelCssinkTimerHandler (sc : SinkCtx) (now : Int) (drained : List PushEntry) (fs : Bool) :
    SinkCtx :=
  let sc := drained.foldl (cssinkDrain now) sc
  let sc := (sentinelCssinkSetExpire sc now).2
  sentinelCssinkRewrite sc now fs

/-- The decisions in the array. -/
def SinkCtx.held (sc : SinkCtx) : List SinkDecision := sc.set.filter fun d => d.expiry ≠ 0

def SinkCtx.ips (sc : SinkCtx) : List Bytes := sc.held.map SinkDecision.ip

/-- No address has two slots, and the count is that of the occupied ones. -/
structure SinkCtx.Wf (sc : SinkCtx) : Prop where
  unique : sc.ips.Nodup
  count : sc.setCount = sc.held.length

end Set
section Scan
variable {cap i free : Nat} {ip : Bytes} {set : List SinkDecision}

/-- Slot `j` of an array that begins with slot `i`. -/
def SlotAt (set : List SinkDecision) (i j : Nat) (p : SinkDecision → Prop) : Prop :=
  ∃ pre d post, set = pre ++ d :: post ∧ j = i + pre.length ∧ p d

theorem slotAt_head (d : SinkDecision) (set : List SinkDecision) (i : Nat)
    {p : SinkDecision → Prop} (h : p d) : SlotAt (d :: set) i i p :=
  ⟨[], d, set, rfl, rfl, h⟩

theorem SlotAt.cons {j : Nat} {p : SinkDecision → Prop} (h : SlotAt set (i + 1) j p)
    (d : SinkDecision) : SlotAt (d :: set) i j p := by
  obtain ⟨pre, d', post, hset, hj, hd'⟩ := h
  refine ⟨d :: pre, d', post, by rw [hset]; rfl, ?_, hd'⟩
  rw [List.length_cons]
  omega

/-- What the search says about the slots it has gone through. -/
theorem cssinkScan_spec (cap : Nat) (ip : Bytes) (set : List SinkDecision) :
    ∀ i free, i + set.length ≤ cap → free ≤ cap →
      match cssinkScan cap ip set i free with
      | .inl j => SlotAt set i j fun d => d.expiry ≠ 0 ∧ d.ip = ip
      | .inr j => (∀ d ∈ set, d.expiry ≠ 0 → d.ip ≠ ip) ∧
          (j = free ∧ (free < cap ∨ ∀ d ∈ set, d.expiry ≠ 0) ∨
            free = cap ∧ SlotAt set i j fun d => d.expiry = 0) := by
  induction set with
  | nil =>
      intro i free _ _
      exact ⟨fun d hd => by simp at hd, .inl ⟨rfl, .inr fun d hd => by simp at hd⟩⟩
  | cons d set ih =>
      intro i free hi hfree
      rw [List.length_cons] at hi
      rw [cssinkScan]
      by_cases hempty : d.expiry = 0
      · rw [if_pos hempty]
        have hih := ih (i + 1) (if free = cap then i else free) (by omega) (by split <;> omega)
        generalize cssinkScan cap ip set (i + 1) (if free = cap then i else free) = r at hih ⊢
        cases r with
        | inl j => exact hih.cons d
        | inr j =>
            obtain ⟨hnone, hj⟩ := hih
            refine ⟨List.forall_mem_cons.mpr ⟨fun hne => absurd hempty hne, hnone⟩, ?_⟩
            by_cases hcap : free = cap
            · -- this is the first empty slot
              rw [if_pos hcap] at hj
              refine .inr ⟨hcap, ?_⟩
              cases hj with
              | inl hfirst => exact hfirst.1 ▸ slotAt_head d set i hempty
              | inr hlater => omega
            · rw [if_neg hcap] at hj
              cases hj with
              | inl hsame => exact .inl ⟨hsame.1, .inl (by omega)⟩
              | inr hlater => exact absurd hlater.1 hcap
      · rw [if_neg hempty]
        by_cases hip : d.ip = ip
        · rw [if_pos hip]
          exact slotAt_head d set i ⟨hempty, hip⟩
        · rw [if_neg hip]
          have hih := ih (i + 1) free (by omega) hfree
          generalize cssinkScan cap ip set (i + 1) free = r at hih ⊢
          cases r with
          | inl j => exact hih.cons d
          | inr j =>
              obtain ⟨hnone, hj⟩ := hih
              refine ⟨List.forall_mem_cons.mpr ⟨fun _ => hip, hnone⟩, ?_⟩
              cases hj with
              | inl hsame =>
                  refine .inl ⟨hsame.1, hsame.2.imp_right fun hall => ?_⟩
                  exact List.forall_mem_cons.mpr ⟨hempty, hall⟩
              | inr hlater => exact .inr ⟨hlater.1, hlater.2.cons d⟩

end Scan
section Upsert
variable {sc : SinkCtx} {ip : Bytes} {expiry now : Int}

/-- What an upsert does to the decisions in the array: it renews the one of the
address, adds one where there is an empty slot, or does nothing. -/
inductive Upserts (sc : SinkCtx) (ip : Bytes) (expiry : Int) (sc' : SinkCtx) : Prop
  | renew (pre : List SinkDecision) (d : SinkDecision) (post : List SinkDecision) :
      sc.held = pre ++ d :: post → d.ip = ip → sc'.held = pre ++ ⟨ip, expiry⟩ :: post →
      sc'.setCount = sc.setCount → Upserts sc ip expiry sc'
  | add (pre post : List SinkDecision) : ip ∉ sc.ips → sc.held = pre ++ post →
      sc'.held = pre ++ ⟨ip, expiry⟩ :: post → sc'.setCount = sc.setCount + 1 →
      Upserts sc ip expiry sc'
  | full : ip ∉ sc.ips → sc.held.length = sc.set.length → sc' = sc → Upserts sc ip expiry sc'

theorem mem_ips {ip : Bytes} : ip ∈ sc.ips ↔ ∃ d ∈ sc.set, d.expiry ≠ 0 ∧ d.ip = ip := by
  simp [SinkCtx.ips, SinkCtx.held, and_assoc]

theorem modify_append_cons {α : Type} (f : α → α) (pre : List α) (d : α) (post : List α) :
    (pre ++ d :: post).modify pre.length f = pre ++ f d :: post := by
  induction pre with
  | nil => rfl
  | cons a pre ih => exact congrArg (a :: ·) ih

theorem upsert_cases (sc : SinkCtx) (ip : Bytes) (hexpiry : expiry ≠ 0) :
    let sc' := sentinelCssinkSetUpsert sc ip expiry
    sc'.set.length = sc.set.length ∧ Upserts sc ip expiry sc' := by
  have hspec := cssinkScan_spec sc.set.length ip sc.set 0 sc.set.length (by omega)
    (Nat.le_refl _)
  simp only [sentinelCssinkSetUpsert]
  generalize cssinkScan sc.set.length ip sc.set 0 sc.set.length = r at hspec ⊢
  cases r with
  | inl j =>
      obtain ⟨pre, d, post, hset, hj, hd, hip⟩ := hspec
      rw [Nat.zero_add] at hj
      have hmodify : (sc.set.modify j fun d => { d with expiry := expiry }) =
          pre ++ { d with expiry := expiry } :: post := by
        rw [hset, hj, modify_append_cons]
      refine ⟨List.length_modify .., ?_⟩
      refine .renew (pre.filter fun d => d.expiry ≠ 0) d (post.filter fun d => d.expiry ≠ 0) ?_ hip
        ?_ rfl
      · simp [SinkCtx.held, hset, hd]
      · simp [SinkCtx.held, hmodify, hexpiry, ← hip]
  | inr j =>
      obtain ⟨hnone, hj⟩ := hspec
      have hnew : ip ∉ sc.ips := by
        intro hmem
        obtain ⟨d, hd, hne, hip⟩ := mem_ips.mp hmem
        exact hnone d hd hne hip
      dsimp only
      by_cases hfull : j = sc.set.length
      · rw [if_pos hfull]
        refine ⟨rfl, .full hnew ?_ rfl⟩
        cases hj with
        | inl hsame =>
            have hall := hsame.2.resolve_left (Nat.lt_irrefl _)
            rw [SinkCtx.held, List.filter_eq_self.mpr fun d hd => by simpa using hall d hd]
        | inr hfound =>
            obtain ⟨-, pre, d, post, hset, hj, -⟩ := hfound
            rw [hset, List.length_append, List.length_cons] at hfull
            omega
      · rw [if_neg hfull]
        cases hj with
        | inl hsame => exact absurd hsame.1 hfull
        | inr hfound =>
            obtain ⟨-, pre, d, post, hset, hj, hd⟩ := hfound
            rw [Nat.zero_add] at hj
            refine ⟨List.length_set, ?_⟩
            refine .add (pre.filter fun d => d.expiry ≠ 0) (post.filter fun d => d.expiry ≠ 0)
              hnew ?_ ?_ rfl
            · simp [SinkCtx.held, hset, hd]
            · simp [SinkCtx.held, hset, hj, hexpiry]

theorem upsert_scenario (sc : SinkCtx) (ip : Bytes) (expiry : Int) :
    (sentinelCssinkSetUpsert sc ip expiry).scenario = sc.scenario := by
  simp only [sentinelCssinkSetUpsert]
  split
  · rfl
  · split
    · rfl
    · rfl

theorem held_length_le (sc : SinkCtx) : sc.held.length ≤ sc.set.length := List.length_filter_le ..

theorem wf_upsert (wf : sc.Wf) (ip : Bytes) (hexpiry : expiry ≠ 0) :
    (sentinelCssinkSetUpsert sc ip expiry).Wf := by
  have hcount := wf.count
  have hunique := wf.unique
  obtain ⟨-, hcases⟩ := upsert_cases sc ip hexpiry
  generalize sentinelCssinkSetUpsert sc ip expiry = sc' at hcases
  cases hcases with
  | renew pre d post hheld hip hheld' hsame =>
      rw [SinkCtx.ips, hheld] at hunique
      rw [hheld] at hcount
      refine ⟨?_, ?_⟩
      · rw [SinkCtx.ips, hheld']
        simpa [hip] using hunique
      · rw [hsame, hcount, hheld']
        simp
  | add pre post hnew hheld hheld' hsucc =>
      rw [SinkCtx.ips, hheld] at hunique hnew
      rw [hheld] at hcount
      refine ⟨?_, ?_⟩
      · have hperm : (sc'.ips).Perm (ip :: (pre ++ post).map SinkDecision.ip) := by
          rw [SinkCtx.ips, hheld', List.map_append, List.map_append]
          exact List.perm_middle
        exact hperm.nodup_iff.mpr (List.nodup_cons.mpr ⟨hnew, hunique⟩)
      · rw [hsucc, hcount, hheld']
        simp only [List.length_append, List.length_cons]
        omega
  | full _ _ hsame =>
      rw [hsame]
      exact wf

/-- An upsert takes up an address that is held or finds an empty slot. -/
theorem mem_ips_upsert (sc : SinkCtx) (ip : Bytes) (hexpiry : expiry ≠ 0) (ip' : Bytes) :
    ip' ∈ (sentinelCssinkSetUpsert sc ip expiry).ips ↔
      ip' ∈ sc.ips ∨ ip' = ip ∧ sc.held.length < sc.set.length := by
  obtain ⟨hlen, hcases⟩ := upsert_cases sc ip hexpiry
  generalize sentinelCssinkSetUpsert sc ip expiry = sc' at hlen hcases
  cases hcases with
  | renew pre d post hheld hip hheld' _ =>
      simp only [SinkCtx.ips, hheld, hheld', List.map_append, List.map_cons, hip]
      simp only [List.mem_append, List.mem_cons]
      grind
  | add pre post _ hheld hheld' _ =>
      have hle := held_length_le sc'
      rw [hheld', List.length_append, List.length_cons, hlen] at hle
      have hroom : (pre ++ post).length < sc.set.length := by
        rw [List.length_append]
        omega
      simp only [SinkCtx.ips, hheld, hheld', hroom, List.map_append, List.map_cons,
        List.mem_append, List.mem_cons, and_true]
      grind
  | full _ hfull hsame =>
      rw [hsame, hfull]
      simp

theorem held_length_upsert (sc : SinkCtx) (ip : Bytes) (hexpiry : expiry ≠ 0) :
    (sentinelCssinkSetUpsert sc ip expiry).held.length =
      if ip ∈ sc.ips then sc.held.length else min sc.set.length (sc.held.length + 1) := by
  obtain ⟨hlen, hcases⟩ := upsert_cases sc ip hexpiry
  generalize sentinelCssinkSetUpsert sc ip expiry = sc' at hlen hcases
  cases hcases with
  | renew pre d post hheld hip hheld' _ =>
      have hmem : ip ∈ sc.ips := by
        rw [SinkCtx.ips, hheld, List.map_append, List.map_cons, hip]
        simp
      rw [if_pos hmem, hheld, hheld', List.length_append, List.length_append, List.length_cons,
        List.length_cons]
  | add pre post hnew hheld hheld' _ =>
      have hle := held_length_le sc'
      rw [if_neg hnew, hheld]
      rw [hheld', hlen] at hle
      rw [hheld']
      simp only [List.length_append, List.length_cons] at hle ⊢
      omega
  | full hnew hfull hsame =>
      rw [if_neg hnew, hsame, hfull]
      omega

/-- The array holds the new decision, unless it was turned away, and those of
other addresses. -/
theorem mem_held_upsert (wf : sc.Wf) (ip : Bytes) (hexpiry : expiry ≠ 0) (d : SinkDecision) :
    let sc' := sentinelCssinkSetUpsert sc ip expiry
    d ∈ sc'.held ↔ d = ⟨ip, expiry⟩ ∧ ip ∈ sc'.ips ∨ d ∈ sc.held ∧ d.ip ≠ ip := by
  have hunique := wf.unique
  obtain ⟨-, hcases⟩ := upsert_cases sc ip hexpiry
  dsimp only
  generalize sentinelCssinkSetUpsert sc ip expiry = sc' at hcases
  cases hcases with
  | renew pre d' post hheld hip hheld' _ =>
      have hmem : ip ∈ sc'.ips := by
        rw [SinkCtx.ips, hheld', List.map_append, List.map_cons]
        simp
      -- the address has one slot, so the others are not its
      have hother : ∀ d₁ ∈ pre ++ post, d₁.ip ≠ ip := by
        rw [SinkCtx.ips, hheld, List.map_append, List.map_cons, hip] at hunique
        have hperm := (@List.perm_middle _ ip (pre.map SinkDecision.ip)
          (post.map SinkDecision.ip)).nodup_iff.mp hunique
        intro d₁ hd₁ heq
        apply (List.nodup_cons.mp hperm).1
        rw [← heq, ← List.map_append]
        exact List.mem_map_of_mem hd₁
      rw [hheld, hheld']
      simp only [List.mem_append, List.mem_cons, hmem, and_true] at hother ⊢
      grind
  | add pre post hnew hheld hheld' _ =>
      have hmem : ip ∈ sc'.ips := by
        rw [SinkCtx.ips, hheld', List.map_append, List.map_cons]
        simp
      have hother : ∀ d₁ ∈ sc.held, d₁.ip ≠ ip := fun d₁ hd₁ heq =>
        hnew (heq ▸ List.mem_map_of_mem hd₁)
      rw [hheld] at hother ⊢
      rw [hheld']
      simp only [List.mem_append, List.mem_cons, hmem, and_true] at hother ⊢
      grind
  | full hnew _ hsame =>
      rw [hsame]
      refine ⟨fun hd => .inr ⟨hd, fun heq => hnew (heq ▸ List.mem_map_of_mem hd)⟩, fun h => ?_⟩
      cases h with
      | inl hin => exact absurd hin.2 hnew
      | inr hd => exact hd.1

end Upsert
section Expire
variable {sc : SinkCtx} {now : Int}

theorem cssinkExpireLoop_spec (now : Int) (set : List SinkDecision) :
    ∀ count, (set.filter fun d => d.expiry ≠ 0).length ≤ count →
      let r := cssinkExpireLoop now set count
      r.1.length = set.length ∧
        r.1.filter (fun d => d.expiry ≠ 0) =
          set.filter (fun d => d.expiry ≠ 0 ∧ now < d.expiry) ∧
        r.2.1 + (set.filter fun d => d.expiry ≠ 0).length =
          count + (r.1.filter fun d => d.expiry ≠ 0).length := by
  induction set with
  | nil =>
      intro count _
      exact ⟨rfl, rfl, rfl⟩
  | cons d set ih =>
      intro count hcount
      by_cases hempty : d.expiry = 0
      · have hrest : (set.filter fun d => d.expiry ≠ 0).length ≤ count := by
          simpa [hempty] using hcount
        obtain ⟨hlen, hheld, hdiff⟩ := ih count hrest
        simp only [cssinkExpireLoop, hempty, if_true]
        refine ⟨by rw [List.length_cons, List.length_cons, hlen], ?_, ?_⟩
        · simpa [hempty] using hheld
        · simpa [hempty] using hdiff
      · have hsucc : (set.filter fun d => d.expiry ≠ 0).length + 1 ≤ count := by
          simpa [hempty] using hcount
        by_cases hover : d.expiry ≤ now
        · have hpos : count > 0 := by omega
          obtain ⟨hlen, hheld, hdiff⟩ := ih (count - 1) (by omega)
          simp only [cssinkExpireLoop, hempty, hover, hpos, if_true, if_false]
          refine ⟨by rw [List.length_cons, List.length_cons, hlen], ?_, ?_⟩
          · have hnot : ¬ now < d.expiry := by omega
            simpa [hnot] using hheld
          · simp only [List.filter_cons, ne_eq, not_true, decide_false, Bool.false_eq_true,
              if_false, hempty, not_false_eq_true, decide_true, if_true, List.length_cons]
              at hdiff ⊢
            omega
        · have hlive : now < d.expiry := by omega
          obtain ⟨hlen, hheld, hdiff⟩ := ih count (by omega)
          simp only [cssinkExpireLoop, hempty, hover, if_false]
          refine ⟨by rw [List.length_cons, List.length_cons, hlen], ?_, ?_⟩
          · simpa [hempty, hlive] using hheld
          · simp only [List.filter_cons, ne_eq, hempty, not_false_eq_true, decide_true, if_true,
              List.length_cons] at hdiff ⊢
            omega

/-- The pass leaves the decisions that have not run out. -/
theorem expire_spec (wf : sc.Wf) (now : Int) :
    let sc' := (sentinelCssinkSetExpire sc now).2
    sc'.Wf ∧ sc'.set.length = sc.set.length ∧ sc'.scenario = sc.scenario ∧
      sc'.held = sc.held.filter fun d => now < d.expiry := by
  have hcount := wf.count
  obtain ⟨hlen, hheld, hdiff⟩ := cssinkExpireLoop_spec now sc.set sc.setCount hcount.ge
  have hfilter :
      (sentinelCssinkSetExpire sc now).2.held = sc.held.filter fun d => now < d.expiry := by
    rw [SinkCtx.held, SinkCtx.held, List.filter_filter]
    refine hheld.trans (List.filter_congr fun d _ => ?_)
    simp [and_comm]
  refine ⟨⟨?_, ?_⟩, hlen, rfl, hfilter⟩
  · rw [SinkCtx.ips, hfilter]
    exact wf.unique.sublist (List.filter_sublist.map SinkDecision.ip)
  · have hsum : (sentinelCssinkSetExpire sc now).2.setCount + sc.held.length =
        sc.setCount + (sentinelCssinkSetExpire sc now).2.held.length := hdiff
    omega

/-- Every line that is to be written fits its buffer. -/
def LinesFit (sc : SinkCtx) (now : Int) : Prop :=
  ∀ d ∈ sc.held, now < d.expiry →
    (decisionLine d.ip sc.scenario (d.expiry - now)).length < ngxSentinelCssinkLine

instance decidableLinesFit (sc : SinkCtx) (now : Int) : Decidable (LinesFit sc now) :=
  inferInstanceAs (Decidable (∀ _ ∈ _, _))

theorem flatMap_ite {α β : Type} (p : α → Prop) [DecidablePred p] (f : α → List β) (l : List α) :
    (l.flatMap fun a => if p a then f a else []) = (l.filter fun a => p a).flatMap f := by
  induction l with
  | nil => rfl
  | cons a l ih =>
      by_cases h : p a
      · simp [h, ih]
      · simp [h, ih]

/-- The file has a line for each decision that has not run out. -/
theorem rewrite_file (hips : ∀ d ∈ sc.held, 0 < d.ip.length ∧ d.ip.length < ngxSockaddrStrlen)
    (hfit : LinesFit sc now) :
    (sentinelCssinkRewrite sc now true).file =
      (sc.held.filter fun d => now < d.expiry).flatMap fun d =>
        decisionLine d.ip sc.scenario (d.expiry - now) := by
  simp only [sentinelCssinkRewrite, if_true, SinkCtx.held, List.filter_filter]
  have hline : ∀ d ∈ sc.set, (if d.expiry = 0 ∨ d.expiry ≤ now then [] else
      sentinelCssinkFormatDecision ngxSentinelCssinkLine d.ip sc.scenario (d.expiry - now)) =
      if d.expiry ≠ 0 ∧ now < d.expiry then decisionLine d.ip sc.scenario (d.expiry - now)
      else [] := by
    intro d hd
    by_cases hout : d.expiry = 0 ∨ d.expiry ≤ now
    · have hnot : ¬ (d.expiry ≠ 0 ∧ now < d.expiry) := by omega
      rw [if_pos hout, if_neg hnot]
    · have hin : d.expiry ≠ 0 ∧ now < d.expiry := by omega
      have hmem : d ∈ sc.held := List.mem_filter.mpr ⟨hd, by simpa using hin.1⟩
      have hip := hips d hmem
      have hlen := hfit d hmem hin.2
      have hargs : ¬ (d.ip.length = 0 ∨ d.ip.length ≥ ngxSockaddrStrlen ∨ d.expiry - now ≤ 0) := by
        omega
      rw [if_neg hout, if_pos hin, sentinelCssinkFormatDecision, if_neg hargs,
        if_neg (Nat.not_le.mpr hlen)]
  rw [List.flatMap_congr hline, flatMap_ite]
  congr 1
  refine List.filter_congr fun d _ => ?_
  simp [and_comm]

end Expire
end Sentinel
