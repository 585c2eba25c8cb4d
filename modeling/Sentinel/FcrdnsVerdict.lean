import Sentinel.Fcrdns
import Sentinel.Lib.Run
import Sentinel.NgxRef

/-!
What a cached verdict rests on. Any number of carriers are under way, in either
of the two stages; what the resolver has answered is kept in a log, and every
verdict in the cache can be traced to two answers in it. The suffix test is one
of bytes: it knows no labels.
-/

namespace Sentinel
open Function

section Suffix
variable {s t name suf : Bytes}

/-- The texts agree but for the case of letters, up to a NUL. -/
def Alike (s t : Bytes) : Prop :=
  (s.map ngxTolower).takeWhile (· ≠ 0) = (t.map ngxTolower).takeWhile (· ≠ 0)

instance decidableAlike (s t : Bytes) : Decidable (Alike s t) := inferInstanceAs (Decidable (_ = _))

/-- The last bytes of `name` are those of `suf`. -/
def EndsIn (name suf : Bytes) : Prop :=
  suf.length ≤ name.length ∧ Alike (name.drop (name.length - suf.length)) suf

instance decidableEndsIn (name suf : Bytes) : Decidable (EndsIn name suf) :=
  inferInstanceAs (Decidable (_ ∧ _))

/-- They are so at the start of a label. -/
def EndsAtLabel (name suf : Bytes) : Prop :=
  EndsIn name suf ∧ (suf.head? = some (ch '.') ∨ name.length = suf.length ∨
    name[name.length - suf.length - 1]? = some (ch '.'))

instance decidableEndsAtLabel (name suf : Bytes) : Decidable (EndsAtLabel name suf) :=
  inferInstanceAs (Decidable (_ ∧ _))

def SuffixAllowed (suffixes : List Bytes) (name : Bytes) : Prop :=
  suffixes = [] ∨ ∃ suf ∈ suffixes, EndsIn name suf

instance decidableSuffixAllowed (suffixes : List Bytes) (name : Bytes) :
    Decidable (SuffixAllowed suffixes name) :=
  inferInstanceAs (Decidable (_ ∨ ∃ _ ∈ _, _))

theorem ngxStrncasecmp_eq_zero_iff (h : s.length = t.length) :
    ngxStrncasecmp s t t.length = 0 ↔ Alike s t := by
  induction t generalizing s with
  | nil =>
      rw [List.length_eq_zero_iff.mp h]
      simp [ngxStrncasecmp, Alike]
  | cons d t ih =>
      cases s with
      | nil => simp at h
      | cons c s =>
          have hrest := ih (Nat.succ.inj h)
          by_cases hcd : ngxTolower c = ngxTolower d
          · by_cases hzero : ngxTolower d = 0
            · simp [ngxStrncasecmp, Alike, hcd, hzero]
            · simp only [Alike] at hrest
              simp [ngxStrncasecmp, Alike, hcd, hzero, hrest]
          · have hne : ((ngxTolower c).toNat : Int) - (ngxTolower d).toNat ≠ 0 := by
              intro hsub
              apply hcd
              apply UInt8.toNat_inj.mp
              omega
            have hdiff : ¬ Alike (c :: s) (d :: t) := by
              intro halike
              simp only [Alike, List.map_cons, List.takeWhile_cons] at halike
              by_cases hc : ngxTolower c = 0
              · have hd : ¬ ngxTolower d = 0 := fun hd => hcd (hc.trans hd.symm)
                simp [hc, hd] at halike
              · by_cases hd : ngxTolower d = 0
                · simp [hc, hd] at halike
                · simp only [ne_eq, hc, hd, not_false_eq_true, decide_true, if_true,
                    List.cons.injEq] at halike
                  exact hcd halike.1
            simp [ngxStrncasecmp, hcd, hne, hdiff]

theorem suffixOk_iff (c : Carrier) (name : Bytes) :
    sentinelFcrdnsSuffixOk c name = true ↔ SuffixAllowed c.suffixes name := by
  simp only [sentinelFcrdnsSuffixOk, decide_eq_true_eq, List.length_eq_zero_iff, List.any_eq_true,
    SuffixAllowed, EndsIn]
  have hsuf : ∀ suf : Bytes, name.length ≥ suf.length →
      (ngxStrncasecmp (name.drop (name.length - suf.length)) suf suf.length = 0 ↔
        Alike (name.drop (name.length - suf.length)) suf) := by
    intro suf hle
    apply ngxStrncasecmp_eq_zero_iff
    rw [List.length_drop]
    omega
  refine or_congr_right ⟨?_, ?_⟩
  · intro h
    obtain ⟨suf, hmem, hle, hcmp⟩ := h
    exact ⟨suf, hmem, hle, (hsuf suf hle).mp hcmp⟩
  · intro h
    obtain ⟨suf, hmem, hle, halike⟩ := h
    exact ⟨suf, hmem, hle, (hsuf suf hle).mpr halike⟩

/-- A suffix that starts with a dot ends at a label by itself. -/
theorem endsAtLabel_of_dot (hdot : suf.head? = some (ch '.')) :
    EndsAtLabel name suf ↔ EndsIn name suf :=
  ⟨fun h => h.1, fun h => ⟨h, .inl hdot⟩⟩

end Suffix
section Run
variable (ngx : NgxCore)

/-- A carrier waits for the name of its address, or for the addresses of the name. -/
inductive Stage where
  | ptr (c : Carrier)
  | fwd (c : Carrier)

/-- An answer that a carrier has got. -/
inductive Answer where
  | ptr (c : Carrier) (reply : PtrReply)
  | fwd (c : Carrier) (reply : FwdReply)

structure FcrdnsRun where
  shm : Segments
  stages : Nat → Option Stage
  log : List Answer

/-- A request reads the cache, and starts a resolve under a number that is free;
`slab` is the memory for a node that is new. -/
inductive FcrdnsEvent where
  | request (id : Nat) (lcf : FcrdnsConf) (addrText : Bytes) (sockaddr : SockAddr) (now : Int)
      (inputs : Inputs) (env : ResolveEnv)
  | ptr (id : Nat) (reply : PtrReply) (env : PtrEnv) (now : Int) (slab : Bool)
  | fwd (id : Nat) (reply : FwdReply) (now : Int) (slab : Bool)

def fcrdnsRequest (s : FcrdnsRun) (id : Nat) (lcf : FcrdnsConf) (addrText : Bytes)
    (sockaddr : SockAddr) (now : Int) (inputs : Inputs) (env : ResolveEnv) : FcrdnsRun :=
  let r := sentinelFcrdnsSignal ngx lcf addrText sockaddr now inputs s.shm
  let carrier := r.2.2.bind fun key => lcf.fcrdnsZone.bind fun z =>
    sentinelFcrdnsResolveStart lcf z key sockaddr env
  { s with
    shm := r.2.1
    stages := if (s.stages id).isSome then s.stages else update s.stages id (carrier.map .ptr) }

def fcrdnsStep (s : FcrdnsRun) : FcrdnsEvent → FcrdnsRun
  | .request id lcf addrText sockaddr now inputs env =>
      fcrdnsRequest ngx s id lcf addrText sockaddr now inputs env
  | .ptr id reply env now slab =>
      match s.stages id with
      | some (.ptr c) =>
          let r := sentinelFcrdnsPtrHandler ngx c reply env now slab s.shm
          ⟨r.2, update s.stages id (r.1.map .fwd), s.log ++ [.ptr c reply]⟩
      | _ => s
  | .fwd id reply now slab =>
      match s.stages id with
      | some (.fwd c) =>
          ⟨sentinelFcrdnsFwdHandler ngx c reply now slab s.shm, update s.stages id none,
            s.log ++ [.fwd c reply]⟩
      | _ => s

def fcrdnsStart : FcrdnsRun := ⟨fun _ => sentinelShmInitZone, fun _ => none, []⟩

/-- The resolver has given `c.ss` a name that the list allows. -/
def NameAllowed (log : List Answer) (c : Carrier) : Prop :=
  ∃ c₀ reply, .ptr c₀ reply ∈ log ∧ c = { c₀ with ptrName := reply.name } ∧ reply.ok = true ∧
    reply.name ≠ [] ∧ SuffixAllowed c.suffixes reply.name

/-- The addresses of an allowed name include the client's. -/
def Confirmed (log : List Answer) (c : Carrier) : Prop :=
  NameAllowed log c ∧ ∃ reply, .fwd c reply ∈ log ∧ reply.ok = true ∧ c.ss ∈ reply.addrs

/-- The name is not allowed, or it has addresses and none is the client's. -/
def Refuted (log : List Answer) (c : Carrier) : Prop :=
  (∃ reply, .ptr c reply ∈ log ∧ reply.ok = true ∧ reply.name ≠ [] ∧
      ¬ SuffixAllowed c.suffixes reply.name) ∨
    NameAllowed log c ∧
      ∃ reply, .fwd c reply ∈ log ∧ reply.ok = true ∧ reply.addrs ≠ [] ∧ c.ss ∉ reply.addrs

/-- What a verdict under `key` rests on. -/
def Earned (log : List Answer) (shm : Nat) (key : Key) (verdict : UInt8) : Prop :=
  ∃ c : Carrier, c.zone.shm = shm ∧ c.key = key ∧ sentinelFcrdnsKey ngx c.ss = some key ∧
    (verdict = ngxSentinelFcrdnsVerified ∧ Confirmed log c ∨
      verdict = ngxSentinelFcrdnsFailed ∧ Refuted log c)

/-- Errors, timeouts, empty answers and failed allocations, those of a carrier
among them. -/
def Inconclusive (s : FcrdnsRun) : FcrdnsEvent → Prop
  | .request _ _ _ _ _ _ _ => False
  | .ptr id reply env _ slab => ∀ c, s.stages id = some (.ptr c) →
      reply.ok = false ∨ reply.name = [] ∨
        SuffixAllowed c.suffixes reply.name ∧
          (env.nameAlloc = false ∨ env.resolveStart = false ∨ env.resolveName = false) ∨
        slab = false ∧ (s.shm c.zone.shm).get c.key = none
  | .fwd id reply _ slab => ∀ c, s.stages id = some (.fwd c) →
      reply.ok = false ∨ reply.addrs = [] ∨
        slab = false ∧ (s.shm c.zone.shm).get c.key = none

end Run
section Handlers
variable {ngx : NgxCore} {c : Carrier} {shm : Segments} {now : Int} {slab : Bool}

/-- An answer of the resolver is for a carrier that waits for it, or for none. -/
theorem fcrdnsStep_ptr_cases (ngx : NgxCore) (s : FcrdnsRun) (id : Nat) (reply : PtrReply)
    (env : PtrEnv) (now : Int) (slab : Bool) :
    fcrdnsStep ngx s (.ptr id reply env now slab) = s ∨ ∃ c, s.stages id = some (.ptr c) ∧
      let r := sentinelFcrdnsPtrHandler ngx c reply env now slab s.shm
      fcrdnsStep ngx s (.ptr id reply env now slab) =
        ⟨r.2, update s.stages id (r.1.map .fwd), s.log ++ [.ptr c reply]⟩ := by
  simp only [fcrdnsStep]
  cases hstage : s.stages id with
  | none => exact .inl rfl
  | some stage =>
      cases stage with
      | fwd c => exact .inl rfl
      | ptr c => exact .inr ⟨c, rfl, rfl⟩

theorem fcrdnsStep_fwd_cases (ngx : NgxCore) (s : FcrdnsRun) (id : Nat) (reply : FwdReply)
    (now : Int) (slab : Bool) :
    fcrdnsStep ngx s (.fwd id reply now slab) = s ∨ ∃ c, s.stages id = some (.fwd c) ∧
      fcrdnsStep ngx s (.fwd id reply now slab) =
        ⟨sentinelFcrdnsFwdHandler ngx c reply now slab s.shm, update s.stages id none,
          s.log ++ [.fwd c reply]⟩ := by
  simp only [fcrdnsStep]
  cases hstage : s.stages id with
  | none => exact .inl rfl
  | some stage =>
      cases stage with
      | ptr c => exact .inl rfl
      | fwd c => exact .inr ⟨c, rfl, rfl⟩

/-- The addresses that the callbacks work on. -/
theorem fcrdnsMatch_iff {orig : SockAddr} (horig : (sentinelFcrdnsKey ngx orig).isSome)
    (addrs : List SockAddr) : fcrdnsMatch orig addrs = true ↔ orig ∈ addrs := by
  induction addrs with
  | nil => simp [fcrdnsMatch]
  | cons a addrs ih =>
      cases orig with
      | other text => simp [sentinelFcrdnsKey] at horig
      | inet o ho =>
          cases a with
          | inet b hb =>
              by_cases h : b = o
              · simp [fcrdnsMatch, h]
              · simp [fcrdnsMatch, h, ih, Ne.symm h]
          | inet6 b hb => simp [fcrdnsMatch, ih]
          | other text => simp [fcrdnsMatch, ih]
      | inet6 o ho =>
          cases a with
          | inet b hb => simp [fcrdnsMatch, ih]
          | inet6 b hb =>
              by_cases h : b = o
              · simp [fcrdnsMatch, h]
              · simp [fcrdnsMatch, h, ih, Ne.symm h]
          | other text => simp [fcrdnsMatch, ih]

/-- Every segment is well-formed. -/
def AllWf (ngx : NgxCore) (shm : Segments) : Prop := ∀ i, (shm i).Wf ngx

theorem AllWf.update (wf : AllWf ngx shm) {i : Nat} {sh : Shctx} (h : sh.Wf ngx) :
    AllWf ngx (update shm i sh) := by
  intro j
  by_cases hj : j = i
  · subst hj
    rw [update_self]
    exact h
  · rw [update_of_ne hj]
    exact wf j

/-- A carrier that is finished with a verdict leaves it under its key, or leaves
everything as it is. -/
theorem finish_spec (wf : AllWf ngx shm) (c : Carrier) (verdict : UInt8) (now : Int) (slab : Bool) :
    let shm' := sentinelFcrdnsFinish ngx c verdict now slab shm
    AllWf ngx shm' ∧
      ((verdict = ngxSentinelFcrdnsPending ∨
          slab = false ∧ (shm c.zone.shm).get c.key = none) → shm' = shm) ∧
      ∀ i k n, (shm' i).get k = some n →
        (shm i).get k = some n ∨ i = c.zone.shm ∧ k = c.key ∧ n.csAction = verdict := by
  simp only [sentinelFcrdnsFinish]
  by_cases hpending : verdict = ngxSentinelFcrdnsPending
  · rw [if_neg (not_not.mpr hpending)]
    exact ⟨wf, fun _ => rfl, fun i k n hn => .inl hn⟩
  · rw [if_pos hpending]
    cases hz : c.zone.zone with
    | none =>
        simp only [sentinelShmFcrdnsSet, update_eq_self]
        exact ⟨wf, fun _ => trivial, fun i k n hn => .inl hn⟩
    | some zone =>
        obtain ⟨hwf, hcases⟩ := fcrdnsSet_spec zone (wf c.zone.shm) c.key verdict now c.ttl slab
        refine ⟨wf.update hwf, ?_, ?_⟩
        · intro h
          have hrefused := h.resolve_left hpending
          cases hcases with
          | inl hsame => rw [hsame.2.2, update_eq_self]
          | inr hset =>
              have hroom := hset.1
              rw [hrefused.1, hrefused.2] at hroom
              simp at hroom
        · intro i k n hn
          by_cases hi : i = c.zone.shm
          · subst hi
            rw [update_self] at hn
            cases hcases with
            | inl hsame =>
                rw [hsame.2.2] at hn
                exact .inl hn
            | inr hset =>
                obtain ⟨-, m, hm, hget⟩ := hset
                rw [hget] at hn
                by_cases hk : k = c.key
                · rw [if_pos hk] at hn
                  obtain rfl := Option.some.inj hn
                  exact .inr ⟨rfl, hk, hm.2.2.1⟩
                · rw [if_neg hk] at hn
                  exact .inl hn
          · rw [update_of_ne hi] at hn
            exact .inl hn

/-- A request changes no verdict, and resolves its own address. -/
theorem fcrdnsSignal_spec (wf : AllWf ngx shm) (lcf : FcrdnsConf) (addrText : Bytes)
    (sockaddr : SockAddr) (now : Int) (inputs : Inputs) :
    let r := sentinelFcrdnsSignal ngx lcf addrText sockaddr now inputs shm
    AllWf ngx r.2.1 ∧
      (∀ i k n, (r.2.1 i).get k = some n →
        ∃ m, (shm i).get k = some m ∧ m.csAction = n.csAction) ∧
      ∀ key, r.2.2 = some key → sentinelFcrdnsKey ngx sockaddr = some key := by
  have hsame : AllWf ngx shm ∧ (∀ i k n, (shm i).get k = some n →
      ∃ m, (shm i).get k = some m ∧ m.csAction = n.csAction) ∧
      ∀ key, none = some key → sentinelFcrdnsKey ngx sockaddr = some key :=
    ⟨wf, fun i k n hn => ⟨n, hn, rfl⟩, fun key hkey => by contradiction⟩
  simp only [sentinelFcrdnsSignal]
  cases hz : lcf.fcrdnsZone with
  | none => exact hsame
  | some z =>
      dsimp only
      by_cases hgood : inputs.knownGoodUa = true
      · by_cases haddr : addrText.length = 0
        · simp only [hgood, haddr, not_true, if_false, if_true]
          exact hsame
        · cases hkey : sentinelFcrdnsKey ngx sockaddr with
          | none =>
              simp only [hgood, haddr, not_true, if_false]
              exact ⟨hsame.1, hsame.2.1, fun key h => by contradiction⟩
          | some key =>
              simp only [hgood, haddr, not_true, if_false, sentinelShmFcrdnsGet]
              have hlook : ((sentinelShmCrowdsecLookup ngx z.zone (shm z.shm) key now).2.2).Wf ngx ∧
                  Fades now (shm z.shm)
                    (sentinelShmCrowdsecLookup ngx z.zone (shm z.shm) key now).2.2 := by
                cases z.zone with
                | none => exact ⟨wf z.shm, fun k => .inl rfl⟩
                | some zone =>
                    have h := crowdsecLookup_spec zone (wf z.shm) key now
                    exact ⟨h.1, h.2.2.1⟩
              generalize sentinelShmCrowdsecLookup ngx z.zone (shm z.shm) key now = l at hlook
              obtain ⟨hwf, hfades⟩ := hlook
              have hverdicts : ∀ i k n, (update shm z.shm l.2.2 i).get k = some n →
                  ∃ m, (shm i).get k = some m ∧ m.csAction = n.csAction := by
                intro i k n hn
                by_cases hi : i = z.shm
                · subst hi
                  rw [update_self] at hn
                  cases hfades k with
                  | inl hkept =>
                      rw [hn, Option.map_some] at hkept
                      obtain ⟨m, hm, hentry⟩ := Option.map_eq_some_iff.mp hkept.symm
                      exact ⟨m, hm, congrArg (fun e => e.2.1) hentry⟩
                  | inr hgone =>
                      rw [hn] at hgone
                      exact absurd hgone.1 (by simp)
                · rw [update_of_ne hi] at hn
                  exact ⟨n, hn, rfl⟩
              generalize (if l.1 = .busy then l.2.1 else ngxSentinelFcrdnsPending) = verdict
              split
              · exact ⟨wf.update hwf, hverdicts, fun k h => by contradiction⟩
              · split
                · exact ⟨wf.update hwf, hverdicts, fun k h => by contradiction⟩
                · exact ⟨wf.update hwf, hverdicts, fun k h => h⟩
      · simp only [hgood, Bool.false_eq_true, not_false_eq_true, if_true]
        exact hsame

theorem resolveStart_spec {lcf : FcrdnsConf} {z : BoundZone} {key : Key} {ss : SockAddr}
    {env : ResolveEnv} (h : sentinelFcrdnsResolveStart lcf z key ss env = some c) :
    c.key = key ∧ c.ss = ss := by
  simp only [sentinelFcrdnsResolveStart] at h
  split at h
  · contradiction
  · split at h
    · contradiction
    · split at h
      · contradiction
      · split at h
        · contradiction
        · split at h
          · contradiction
          · obtain rfl := Option.some.inj h
            exact ⟨rfl, rfl⟩

/-- The three ways out of the first callback. -/
theorem ptrHandler_cases (ngx : NgxCore) (c : Carrier) (reply : PtrReply) (env : PtrEnv) (now : Int)
    (slab : Bool) (shm : Segments) :
    let r := sentinelFcrdnsPtrHandler ngx c reply env now slab shm
    (reply.ok = false ∨ reply.name = [] ∨ SuffixAllowed c.suffixes reply.name ∧
        (env.nameAlloc = false ∨ env.resolveStart = false ∨ env.resolveName = false)) ∧
        r = (none, sentinelFcrdnsFinish ngx c ngxSentinelFcrdnsPending now slab shm) ∨
      (reply.ok = true ∧ reply.name ≠ [] ∧ ¬ SuffixAllowed c.suffixes reply.name) ∧
        r = (none, sentinelFcrdnsFinish ngx c ngxSentinelFcrdnsFailed now slab shm) ∨
      (reply.ok = true ∧ reply.name ≠ [] ∧ SuffixAllowed c.suffixes reply.name) ∧
        r = (some { c with ptrName := reply.name }, shm) := by
  intro r
  simp only [r, sentinelFcrdnsPtrHandler, suffixOk_iff]
  by_cases hempty : ¬ reply.ok = true ∨ reply.name.length = 0
  · rw [if_pos hempty]
    refine .inl ⟨?_, rfl⟩
    cases hempty with
    | inl hok => exact .inl (by simpa using hok)
    | inr hname => exact .inr (.inl (List.length_eq_zero_iff.mp hname))
  · have hok : reply.ok = true := by
      by_contra hnot
      exact hempty (.inl hnot)
    have hname : reply.name ≠ [] := fun h => hempty (.inr (by rw [h]; rfl))
    rw [if_neg hempty]
    by_cases hsuffix : SuffixAllowed c.suffixes reply.name
    · rw [if_neg (not_not.mpr hsuffix)]
      cases halloc : env.nameAlloc with
      | false => exact .inl ⟨.inr (.inr ⟨hsuffix, .inl rfl⟩), by simp⟩
      | true =>
          cases hstart : env.resolveStart with
          | false =>
              exact .inl ⟨.inr (.inr ⟨hsuffix, .inr (.inl rfl)⟩),
                by simp [sentinelFcrdnsFinish]⟩
          | true =>
              cases hresolve : env.resolveName with
              | false =>
                  exact .inl ⟨.inr (.inr ⟨hsuffix, .inr (.inr rfl)⟩),
                    by simp [sentinelFcrdnsFinish]⟩
              | true => exact .inr (.inr ⟨⟨hok, hname, hsuffix⟩, by simp⟩)
    · rw [if_pos hsuffix]
      exact .inr (.inl ⟨⟨hok, hname, hsuffix⟩, rfl⟩)

theorem finish_pending (c : Carrier) (now : Int) (slab : Bool) (shm : Segments) :
    sentinelFcrdnsFinish ngx c ngxSentinelFcrdnsPending now slab shm = shm := by
  simp [sentinelFcrdnsFinish]

end Handlers
section Invariant
variable {ngx : NgxCore} {log log' : List Answer}

theorem NameAllowed.mono {c : Carrier} (h : NameAllowed log c) (hle : ∀ a ∈ log, a ∈ log') :
    NameAllowed log' c := by
  obtain ⟨c₀, reply, hmem, hrest⟩ := h
  exact ⟨c₀, reply, hle _ hmem, hrest⟩

theorem Earned.mono {shm : Nat} {key : Key} {verdict : UInt8} (h : Earned ngx log shm key verdict)
    (hle : ∀ a ∈ log, a ∈ log') : Earned ngx log' shm key verdict := by
  obtain ⟨c, hshm, hkey, hss, hcases⟩ := h
  refine ⟨c, hshm, hkey, hss, ?_⟩
  cases hcases with
  | inl hverified =>
      obtain ⟨hv, hname, reply, hmem, hrest⟩ := hverified
      exact .inl ⟨hv, hname.mono hle, reply, hle _ hmem, hrest⟩
  | inr hfailed =>
      obtain ⟨hv, hrefuted⟩ := hfailed
      refine .inr ⟨hv, ?_⟩
      cases hrefuted with
      | inl hptr =>
          obtain ⟨reply, hmem, hrest⟩ := hptr
          exact .inl ⟨reply, hle _ hmem, hrest⟩
      | inr hfwd =>
          obtain ⟨hname, reply, hmem, hrest⟩ := hfwd
          exact .inr ⟨hname.mono hle, reply, hle _ hmem, hrest⟩

def Stage.carrier : Stage → Carrier
  | .ptr c => c
  | .fwd c => c

/-- A carrier has the key of its address; one in the second stage has an allowed
name; and the verdicts in the cache are earned. -/
structure FcrdnsInv (ngx : NgxCore) (s : FcrdnsRun) : Prop where
  wf : AllWf ngx s.shm
  key : ∀ id stage, s.stages id = some stage →
    sentinelFcrdnsKey ngx stage.carrier.ss = some stage.carrier.key
  name : ∀ id c, s.stages id = some (.fwd c) → NameAllowed s.log c
  earned : ∀ i k n, (s.shm i).get k = some n → Earned ngx s.log i k n.csAction

theorem fcrdnsInv_start : FcrdnsInv ngx fcrdnsStart where
  wf := fun _ => wf_init
  key := fun _ _ h => by contradiction
  name := fun _ _ h => by contradiction
  earned := fun _ _ _ h => by contradiction

/-- A stage after an update is the new one or an old one. -/
theorem stage_update {stages : Nat → Option Stage} {id id' : Nat} {o : Option Stage} {stage : Stage}
    (h : update stages id o id' = some stage) : o = some stage ∨ stages id' = some stage := by
  by_cases hid : id' = id
  · subst hid
    rw [update_self] at h
    exact .inl h
  · rw [update_of_ne hid] at h
    exact .inr h

theorem fcrdnsInv_request {s : FcrdnsRun} (h : FcrdnsInv ngx s) (id : Nat) (lcf : FcrdnsConf)
    (addrText : Bytes) (sockaddr : SockAddr) (now : Int) (inputs : Inputs) (env : ResolveEnv) :
    FcrdnsInv ngx (fcrdnsRequest ngx s id lcf addrText sockaddr now inputs env) := by
  obtain ⟨hwf, hverdicts, hkey⟩ := fcrdnsSignal_spec h.wf lcf addrText sockaddr now inputs
  -- a stage that is new belongs to the request
  have hstages : ∀ id' stage,
      (fcrdnsRequest ngx s id lcf addrText sockaddr now inputs env).stages id' = some stage →
      s.stages id' = some stage ∨
        ∃ c, stage = .ptr c ∧ sentinelFcrdnsKey ngx c.ss = some c.key := by
    intro id' stage hstage
    simp only [fcrdnsRequest] at hstage
    split at hstage
    · exact .inl hstage
    · cases stage_update hstage with
      | inr hold => exact .inl hold
      | inl hnew =>
          obtain ⟨c, hc, rfl⟩ := Option.map_eq_some_iff.mp hnew
          obtain ⟨key, hsignal, hbind⟩ := Option.bind_eq_some_iff.mp hc
          obtain ⟨z, -, hstart⟩ := Option.bind_eq_some_iff.mp hbind
          obtain ⟨hck, hcs⟩ := resolveStart_spec hstart
          refine .inr ⟨c, rfl, ?_⟩
          rw [hck, hcs]
          exact hkey key hsignal
  refine ⟨hwf, ?_, ?_, ?_⟩
  · intro id' stage hstage
    cases hstages id' stage hstage with
    | inl hold => exact h.key id' stage hold
    | inr hnew =>
        obtain ⟨c, rfl, hc⟩ := hnew
        exact hc
  · intro id' c hstage
    cases hstages id' _ hstage with
    | inl hold => exact h.name id' c hold
    | inr hnew =>
        obtain ⟨c', hc', -⟩ := hnew
        contradiction
  · intro i k n hn
    obtain ⟨m, hm, haction⟩ := hverdicts i k n hn
    rw [← haction]
    exact h.earned i k m hm

/-- An answer that moves one carrier on, and leaves the entries or earns them. -/
theorem fcrdnsInv_answer {s : FcrdnsRun} (h : FcrdnsInv ngx s) (id : Nat) {o : Option Stage}
    {a : Answer} {shm : Segments} (hwf : AllWf ngx shm)
    (hkey : ∀ stage, o = some stage →
      sentinelFcrdnsKey ngx stage.carrier.ss = some stage.carrier.key)
    (hname : ∀ c, o = some (.fwd c) → NameAllowed (s.log ++ [a]) c)
    (hentries : ∀ i k n, (shm i).get k = some n →
      (s.shm i).get k = some n ∨ Earned ngx (s.log ++ [a]) i k n.csAction) :
    FcrdnsInv ngx ⟨shm, update s.stages id o, s.log ++ [a]⟩ := by
  have hle : ∀ b ∈ s.log, b ∈ s.log ++ [a] := fun b hb => List.mem_append_left [a] hb
  refine ⟨hwf, ?_, ?_, ?_⟩
  · intro id' stage hstage
    cases stage_update hstage with
    | inl hnew => exact hkey stage hnew
    | inr hold => exact h.key id' stage hold
  · intro id' c hstage
    cases stage_update hstage with
    | inl hnew => exact hname c hnew
    | inr hold => exact (h.name id' c hold).mono hle
  · intro i k n hn
    cases hentries i k n hn with
    | inl hold => exact (h.earned i k n hold).mono hle
    | inr hearned => exact hearned

theorem fcrdnsInv_ptr {s : FcrdnsRun} (h : FcrdnsInv ngx s) (id : Nat) (reply : PtrReply)
    (env : PtrEnv) (now : Int) (slab : Bool) :
    FcrdnsInv ngx (fcrdnsStep ngx s (.ptr id reply env now slab)) := by
  cases fcrdnsStep_ptr_cases ngx s id reply env now slab with
  | inl hsame =>
      rw [hsame]
      exact h
  | inr hrun =>
      obtain ⟨c, hstage, hrun⟩ := hrun
      have hc : sentinelFcrdnsKey ngx c.ss = some c.key := h.key id _ hstage
      have hlast : Answer.ptr c reply ∈ s.log ++ [.ptr c reply] := by simp
      have hgone : ∀ stage, (none : Option Stage) = some stage →
          sentinelFcrdnsKey ngx stage.carrier.ss = some stage.carrier.key :=
        fun _ h => by contradiction
      rw [hrun]
      cases ptrHandler_cases ngx c reply env now slab s.shm with
      | inl hpending =>
          rw [hpending.2, finish_pending]
          exact fcrdnsInv_answer h id h.wf hgone (fun _ h => by contradiction)
            fun i k n hn => .inl hn
      | inr hrest =>
          cases hrest with
          | inl hfailed =>
              obtain ⟨hreply, hr⟩ := hfailed
              obtain ⟨hwf, -, hentries⟩ :=
                finish_spec h.wf c ngxSentinelFcrdnsFailed now slab
              rw [hr]
              refine fcrdnsInv_answer h id hwf hgone (fun _ h => by contradiction) ?_
              intro i k n hn
              refine (hentries i k n hn).imp_right ?_
              intro hset
              obtain ⟨hi, hk, haction⟩ := hset
              refine ⟨c, hi.symm, hk.symm, hk ▸ hc, .inr ⟨haction, .inl ⟨reply, hlast, ?_⟩⟩⟩
              exact hreply
          | inr hforward =>
              obtain ⟨hreply, hr⟩ := hforward
              rw [hr]
              refine fcrdnsInv_answer h id h.wf ?_ ?_ fun i k n hn => .inl hn
              · intro stage hnew
                obtain rfl := Option.some.inj hnew
                exact hc
              · intro c' hnew
                obtain rfl := Stage.fwd.inj (Option.some.inj hnew)
                exact ⟨c, reply, hlast, rfl, hreply⟩

theorem fcrdnsInv_fwd {s : FcrdnsRun} (h : FcrdnsInv ngx s) (id : Nat) (reply : FwdReply)
    (now : Int) (slab : Bool) : FcrdnsInv ngx (fcrdnsStep ngx s (.fwd id reply now slab)) := by
  cases fcrdnsStep_fwd_cases ngx s id reply now slab with
  | inl hsame =>
      rw [hsame]
      exact h
  | inr hrun =>
      obtain ⟨c, hstage, hrun⟩ := hrun
      have hc : sentinelFcrdnsKey ngx c.ss = some c.key := h.key id _ hstage
      have hname := (h.name id c hstage).mono fun a ha =>
        List.mem_append_left [.fwd c reply] ha
      have hlast : Answer.fwd c reply ∈ s.log ++ [.fwd c reply] := by simp
      have hmatch := @fcrdnsMatch_iff ngx c.ss (by rw [hc]; rfl) reply.addrs
      rw [hrun]
      refine fcrdnsInv_answer h id ?_ (fun _ h => by contradiction)
        (fun _ h => by contradiction) ?_
      · simp only [sentinelFcrdnsFwdHandler]
        split
        · exact (finish_spec h.wf c _ now slab).1
        · exact (finish_spec h.wf c _ now slab).1
      · intro i k n hn
        simp only [sentinelFcrdnsFwdHandler] at hn
        by_cases hempty : ¬ reply.ok = true ∨ reply.addrs.length = 0
        · rw [if_pos hempty, finish_pending] at hn
          exact .inl hn
        · have hok : reply.ok = true := by
            by_contra hnot
            exact hempty (.inl hnot)
          have haddrs : reply.addrs ≠ [] := fun hnil => hempty (.inr (by rw [hnil]; rfl))
          rw [if_neg hempty] at hn
          refine ((finish_spec h.wf c _ now slab).2.2 i k n hn).imp_right ?_
          intro hset
          obtain ⟨hi, hk, haction⟩ := hset
          refine ⟨c, hi.symm, hk.symm, hk ▸ hc, ?_⟩
          by_cases hin : c.ss ∈ reply.addrs
          · rw [if_pos (hmatch.mpr hin)] at haction
            exact .inl ⟨haction, hname, reply, hlast, hok, hin⟩
          · rw [if_neg fun hm => hin (hmatch.mp hm)] at haction
            exact .inr ⟨haction, .inr ⟨hname, reply, hlast, hok, haddrs, hin⟩⟩

theorem fcrdnsInv_step {s : FcrdnsRun} (h : FcrdnsInv ngx s) (e : FcrdnsEvent) :
    FcrdnsInv ngx (fcrdnsStep ngx s e) := by
  cases e with
  | request id lcf addrText sockaddr now inputs env =>
      exact fcrdnsInv_request h id lcf addrText sockaddr now inputs env
  | ptr id reply env now slab => exact fcrdnsInv_ptr h id reply env now slab
  | fwd id reply now slab => exact fcrdnsInv_fwd h id reply now slab

/-- What settles nothing changes nothing. -/
theorem inconclusive_step {s : FcrdnsRun} (wf : AllWf ngx s.shm) (e : FcrdnsEvent)
    (h : Inconclusive s e) : (fcrdnsStep ngx s e).shm = s.shm := by
  cases e with
  | request id lcf addrText sockaddr now inputs env => exact h.elim
  | ptr id reply env now slab =>
      cases fcrdnsStep_ptr_cases ngx s id reply env now slab with
      | inl hsame => rw [hsame]
      | inr hrun =>
          obtain ⟨c, hstage, hrun⟩ := hrun
          have hc := h c hstage
          rw [hrun]
          dsimp only
          cases ptrHandler_cases ngx c reply env now slab s.shm with
          | inl hpending => rw [hpending.2, finish_pending]
          | inr hrest =>
              cases hrest with
              | inr hforward => rw [hforward.2]
              | inl hfailed =>
                  obtain ⟨⟨hok, hname, hsuffix⟩, hr⟩ := hfailed
                  have hslab : slab = false ∧ (s.shm c.zone.shm).get c.key = none := by
                    simpa [hok, hname, hsuffix] using hc
                  rw [hr]
                  exact (finish_spec wf c ngxSentinelFcrdnsFailed now slab).2.1 (.inr hslab)
  | fwd id reply now slab =>
      cases fcrdnsStep_fwd_cases ngx s id reply now slab with
      | inl hsame => rw [hsame]
      | inr hrun =>
          obtain ⟨c, hstage, hrun⟩ := hrun
          have hc := h c hstage
          rw [hrun]
          simp only [sentinelFcrdnsFwdHandler]
          split
          · exact finish_pending c now slab s.shm
          next hanswer =>
            have hslab : slab = false ∧ (s.shm c.zone.shm).get c.key = none := by
              refine (hc.resolve_left fun hok => hanswer (.inl (by simp [hok]))).resolve_left ?_
              intro hnil
              exact hanswer (.inr (by rw [hnil]; rfl))
            exact (finish_spec wf c _ now slab).2.1 (.inr hslab)

/-- In every run each verdict in the cache is earned by two answers of the
resolver or refuted by one, and what settles nothing leaves the cache alone. -/
theorem fcrdns_verdicts_earned (ngx : NgxCore) (events : List FcrdnsEvent) :
    let s := Run.exec (fcrdnsStep ngx) fcrdnsStart events
    (∀ i key n, (s.shm i).get key = some n → Earned ngx s.log i key n.csAction) ∧
      ∀ e, Inconclusive s e → (fcrdnsStep ngx s e).shm = s.shm := by
  intro s
  have hstep : ∀ s e, FcrdnsInv ngx s → FcrdnsInv ngx (fcrdnsStep ngx s e) :=
    fun _ e h => fcrdnsInv_step h e
  have h : FcrdnsInv ngx s := Run.exec_invariant hstep fcrdnsInv_start events
  exact ⟨h.earned, fun e he => inconclusive_step h.wf e he⟩

/-- A name that is no part of the domain passes for one when the suffix has no
dot in front. -/
theorem suffix_without_dot :
    let lcf : FcrdnsConf := ⟨some ⟨3, some ⟨3600, 0, 0⟩⟩, 3600, [str "googlebot.com"]⟩
    let client : SockAddr := .inet [1, 2, 3, 4] rfl
    let crawler : Inputs := { noInputs with knownGoodUa := true }
    let s := Run.exec (fcrdnsStep Ref.ngx) fcrdnsStart
      [.request 1 lcf (str "1.2.3.4") client 100 crawler ⟨true, true, true, true, true⟩,
       .ptr 1 ⟨true, str "evilgooglebot.com"⟩ ⟨true, true, true⟩ 101 true,
       .fwd 1 ⟨true, [client]⟩ 102 true]
    (((s.shm 3).get (sentinelFeedDigest Ref.ngx [1, 2, 3, 4])).map Node.csAction =
        some ngxSentinelFcrdnsVerified) ∧
      ¬ EndsAtLabel (str "evilgooglebot.com") (str "googlebot.com") := by
  decide +kernel

end Invariant
end Sentinel
