import Sentinel.Window

/-!
How long a ban in the error-rate store lasts. A burst ban is only ever set on a
key that is not banned, and the eviction leaves a banned node alone; a soft-ban
writes its own end over the one that is there, earlier or later.
-/

namespace Sentinel

section Held
variable {ngx : NgxCore} {zone : Zone} {sh : Shctx} {k : Key} {bound now : Int}

/-- `k` has a ban that lasts at least until `bound`. -/
def Held (sh : Shctx) (k : Key) (bound : Int) : Prop :=
  ∃ n, sh.get k = some n ∧ bound ≤ n.blockedUntil

/-- A banned node is not dead. -/
theorem get_expire_banned (zone : Zone) (wf : sh.Wf ngx) {n : Node} (hn : sh.get k = some n)
    (ht : now < n.blockedUntil) :
    (sentinelShmExpire ngx zone now ngxSentinelExpireBatch sh).get k = some n := by
  cases (expire_get zone now ngxSentinelExpireBatch wf).2 k with
  | inl hsame => exact hsame.trans hn
  | inr hgone =>
      obtain ⟨-, m, hm, hdead⟩ := hgone
      have hnm : m = n := Option.some.inj (hm.symm.trans hn)
      have hle : m.blockedUntil ≤ now := hdead.1
      rw [hnm] at hle
      omega

end Held

section Step
variable {ngx : NgxCore} {zone : Zone} {sh : Shctx} {k : Key} {bound : Int}

/-- What a call at `now` leaves under its key, given what the eviction has left
there. -/
inductive CallLeaves (zone : Zone) (key : Key) (now : Int) (found : Option Node) :
    StoreOp → Option Node → Prop where
  | absent : found = none → CallLeaves zone key now found .lookup none
  | lookup (n : Node) : found = some n →
      CallLeaves zone key now found .lookup
        (some (errrateLookupNode zone { n with lastSeen := now } now).2)
  | first (n : Node) : found = none → n.key = key → n.blockedUntil = 0 → n.eventCount = 0 →
      CallLeaves zone key now found .record (some (errrateRecordNode zone n now).2)
  | record (n : Node) : found = some n →
      CallLeaves zone key now found .record
        (some (errrateRecordNode zone { n with lastSeen := now } now).2)
  | softban (ttl : Int) (n : Node) : 0 < ttl → n.key = key →
      CallLeaves zone key now found (.softban ttl) (some (softbanNode n now ttl))

/-- A call evicts, and then changes no key but its own; a soft-ban of no length
does nothing. -/
theorem storeStep_cases (zone : Zone) (wf : sh.Wf ngx) (c : StoreCall) :
    let sh₁ := sentinelShmExpire ngx zone c.now ngxSentinelExpireBatch sh
    let sh' := (storeStep ngx zone sh c).2
    sh'.Wf ngx ∧
      ((∃ ttl, c.op = .softban ttl ∧ ttl ≤ 0) ∧ sh' = sh ∨
        ∃ o, CallLeaves zone c.key c.now (sh₁.get c.key) c.op o ∧
          ∀ k, sh'.get k = if k = c.key then o else sh₁.get k) := by
  obtain ⟨now, key, op⟩ := c
  intro sh₁ sh'
  have wf₁ : sh₁.Wf ngx := (expire_get zone now ngxSentinelExpireBatch wf).1
  have hlook := sentinelShmLookup_eq_get wf₁ key
  obtain ⟨m, hcreate, hkey, hhash, hgen, hnew⟩ := createNode_eq ngx zone sh₁ now key
  subst hkey
  cases op with
  | lookup =>
      simp only [sh', storeStep, sentinelShmErrrateLookup]
      cases hget : sh₁.get m.key with
      | none =>
          rw [hget] at hlook
          simp only [sh₁] at hlook
          simp only [hlook]
          refine ⟨wf₁, .inr ⟨none, .absent rfl, fun k => ?_⟩⟩
          by_cases hk : k = m.key
          · rw [if_pos hk, hk]
            exact hget
          · rw [if_neg hk]
      | some n =>
          rw [hget] at hlook
          simp only [sh₁] at hlook
          simp only [hlook]
          obtain ⟨hwf, hafter⟩ := touch_write_sameId wf₁ hget
            (lookupNode_sameId zone now { n with lastSeen := now })
          exact ⟨hwf, .inr ⟨_, .lookup n rfl, hafter⟩⟩
  | record =>
      simp only [sh', storeStep, sentinelShmErrrateRecord]
      cases hget : sh₁.get m.key with
      | none =>
          rw [hget] at hlook
          simp only [sh₁] at hlook hcreate
          simp only [hlook, hcreate]
          obtain ⟨hwf, hafter⟩ := link_write_sameId wf₁ hget hhash hgen
            (recordNode_sameId zone now m)
          exact ⟨hwf, .inr ⟨_, .first m rfl rfl hnew.2.2.1 hnew.2.1, hafter⟩⟩
      | some n =>
          rw [hget] at hlook
          simp only [sh₁] at hlook
          simp only [hlook]
          obtain ⟨hwf, hafter⟩ := touch_write_sameId wf₁ hget
            (recordNode_sameId zone now { n with lastSeen := now })
          exact ⟨hwf, .inr ⟨_, .record n rfl, hafter⟩⟩
  | softban ttl =>
      simp only [sh', storeStep, sentinelShmSoftbanSet]
      by_cases httl : ttl ≤ 0
      · simp only [httl, if_true]
        exact ⟨wf, .inl ⟨⟨ttl, rfl, httl⟩, trivial⟩⟩
      have hpos : 0 < ttl := by omega
      simp only [httl, if_false]
      cases hget : sh₁.get m.key with
      | none =>
          rw [hget] at hlook
          simp only [sh₁] at hlook hcreate
          simp only [hlook, hcreate]
          have hid : (softbanNode m now ttl).SameId m := ⟨rfl, rfl, rfl⟩
          obtain ⟨hwf, hafter⟩ := link_write_sameId wf₁ hget hhash hgen hid
          exact ⟨hwf, .inr ⟨_, .softban ttl m hpos rfl, hafter⟩⟩
      | some n =>
          rw [hget] at hlook
          simp only [sh₁] at hlook
          simp only [hlook]
          have hid : (softbanNode n now ttl).SameId n := ⟨rfl, rfl, rfl⟩
          obtain ⟨hwf, hafter⟩ := touch_write_sameId wf₁ hget hid
          exact ⟨hwf, .inr ⟨_, .softban ttl n hpos (get_key hget), hafter⟩⟩

/-- While a ban lasts, only a soft-ban of the key itself moves its end. -/
theorem ban_step (zone : Zone) (wf : sh.Wf ngx) {n : Node} (hn : sh.get k = some n) (c : StoreCall)
    (ht : c.now < n.blockedUntil) :
    ∃ n', (storeStep ngx zone sh c).2.get k = some n' ∧
      (n'.blockedUntil = n.blockedUntil ∨
        ∃ ttl, c.key = k ∧ c.op = .softban ttl ∧ 0 < ttl ∧ n'.blockedUntil = timeAdd c.now ttl) := by
  obtain ⟨-, hcases⟩ := storeStep_cases zone wf c
  cases hcases with
  | inl hrefused =>
      rw [hrefused.2]
      exact ⟨n, hn, .inl rfl⟩
  | inr hleft =>
      obtain ⟨o, hleaves, hget⟩ := hleft
      have h₁ := get_expire_banned zone wf hn ht
      by_cases hk : k = c.key
      · have hafter := hget k
        rw [if_pos hk] at hafter
        rw [hk] at h₁
        generalize hop : c.op = op at hleaves
        cases hleaves with
        | absent hnone =>
            rw [h₁] at hnone
            contradiction
        | first m hnone =>
            rw [h₁] at hnone
            contradiction
        | lookup m hm =>
            obtain rfl := Option.some.inj (h₁.symm.trans hm)
            refine ⟨_, hafter, .inl ?_⟩
            simp only [errrateLookupNode, ht, if_true]
        | record m hm =>
            obtain rfl := Option.some.inj (h₁.symm.trans hm)
            refine ⟨_, hafter, .inl ?_⟩
            simp only [errrateRecordNode, ht, if_true]
        | softban ttl m hpos => exact ⟨_, hafter, .inr ⟨ttl, hk.symm, rfl, hpos, rfl⟩⟩
      · refine ⟨n, ?_, .inl rfl⟩
        rw [hget, if_neg hk, h₁]

/-- A call keeps a ban that is to last beyond it, a soft-ban of the key itself
excepted. -/
theorem held_step (wf : sh.Wf ngx) (h : Held sh k bound) (c : StoreCall) (ht : c.now < bound)
    (hsoft : ∀ ttl, c.key = k → c.op = .softban ttl → 0 < ttl →
      bound ≤ c.now + ttl ∧ c.now + ttl < 2 ^ 63) :
    Held (storeStep ngx zone sh c).2 k bound := by
  obtain ⟨n, hn, hb⟩ := h
  obtain ⟨n', hn', hend⟩ := ban_step zone wf hn c (by omega)
  refine ⟨n', hn', ?_⟩
  cases hend with
  | inl hsame => omega
  | inr hmoved =>
      obtain ⟨ttl, hk, hop, hpos, hend⟩ := hmoved
      obtain ⟨hlong, hfits⟩ := hsoft ttl hk hop hpos
      rw [hend, timeAdd_eq (by omega) hfits]
      exact hlong

/-- While the ban lasts, a lookup says so. -/
theorem held_lookup (zone : Zone) (wf : sh.Wf ngx) (h : Held sh k bound) {now : Nat}
    (ht : now < bound) :
    (storeStep ngx zone sh ⟨now, k, .lookup⟩).1.rc = .busy ∧
      bound ≤ (storeStep ngx zone sh ⟨now, k, .lookup⟩).1.blockedUntil := by
  have wf₁ := (expire_get zone now ngxSentinelExpireBatch wf).1
  obtain ⟨n, hget, hb⟩ := h
  have hactive : now < n.blockedUntil := by omega
  have hn := get_expire_banned zone wf hget hactive
  have hlook := sentinelShmLookup_eq_get wf₁ k
  rw [hn] at hlook
  simp only [storeStep, sentinelShmErrrateLookup, hlook, errrateLookupNode, hactive, if_true]
  exact ⟨trivial, hb⟩

end Step

section Run
variable {ngx : NgxCore}

/-- The store after a run of calls on a fresh zone. -/
def storeAfter (ngx : NgxCore) (zone : Zone) (calls : List StoreCall) : Shctx :=
  Run.exec (fun sh c => (storeStep ngx zone sh c).2) sentinelShmInitZone calls

theorem wf_storeAfter (zone : Zone) (calls : List StoreCall) :
    (storeAfter ngx zone calls).Wf ngx := by
  have hstep : ∀ sh c, sh.Wf ngx → (storeStep ngx zone sh c).2.Wf ngx :=
    fun _ c wf => (storeStep_cases zone wf c).1
  exact Run.exec_invariant hstep wf_init calls

/-- A ban lasts at least until `bound` if it does so when it is set and every
later soft-ban of the same key does, none of which overflows. -/
theorem ban_lasts (ngx : NgxCore) (zone : Zone) (before after : List StoreCall) (k : Key)
    (n : Node) (bound : Int) (t : Nat) (hmono : ∀ c ∈ after, c.now ≤ t)
    (hset : (storeAfter ngx zone before).get k = some n) (hn : bound ≤ n.blockedUntil)
    (hsoft : ∀ c ∈ after, ∀ ttl, c.key = k → c.op = .softban ttl → 0 < ttl →
      bound ≤ c.now + ttl ∧ c.now + ttl < 2 ^ 63)
    (ht : t < bound) :
    let reply := (storeStep ngx zone (storeAfter ngx zone (before ++ after)) ⟨t, k, .lookup⟩).1
    reply.rc = .busy ∧ bound ≤ reply.blockedUntil := by
  have hstep : ∀ sh (c : StoreCall), (c.now ≤ t ∧ ∀ ttl, c.key = k → c.op = .softban ttl →
      0 < ttl → bound ≤ c.now + ttl ∧ c.now + ttl < 2 ^ 63) → sh.Wf ngx ∧ Held sh k bound →
      (storeStep ngx zone sh c).2.Wf ngx ∧ Held (storeStep ngx zone sh c).2 k bound := by
    intro sh c hc h
    exact ⟨(storeStep_cases zone h.1 c).1, held_step h.1 h.2 c (by omega) hc.2⟩
  have halong := Run.along_of_forall (fun sh c => (storeStep ngx zone sh c).2)
    (storeAfter ngx zone before) fun c hc => And.intro (hmono c hc) (hsoft c hc)
  have hend := Run.exec_invariant_along hstep halong
    ⟨wf_storeAfter zone before, n, hset, hn⟩
  rw [storeAfter, Run.exec_append]
  exact held_lookup zone hend.1 hend.2 ht

/-- A soft-ban of one second over a ban of a hundred. -/
theorem softban_cuts_ban_short :
    let a : Key := ⟨str "a", by decide⟩
    let before : List StoreCall := [⟨10, a, .softban 100⟩]
    let after : List StoreCall := [⟨20, a, .softban 1⟩]
    ((storeAfter Ref.ngx ⟨10, 60, 2⟩ before).get a).map (·.blockedUntil) = some 110 ∧
      (storeStep Ref.ngx ⟨10, 60, 2⟩ (storeAfter Ref.ngx ⟨10, 60, 2⟩ (before ++ after))
        ⟨50, a, .lookup⟩).1 = ⟨.ok, 0, 0⟩ := by
  decide

/-- The same two soft-bans, seen before the second one ends. -/
theorem ban_lasts_until_softban :
    let a : Key := ⟨str "a", by decide⟩
    let before : List StoreCall := [⟨10, a, .softban 100⟩]
    let after : List StoreCall := [⟨20, a, .softban 1⟩]
    let reply := (storeStep Ref.ngx ⟨10, 60, 2⟩
      (storeAfter Ref.ngx ⟨10, 60, 2⟩ (before ++ after)) ⟨20, a, .lookup⟩).1
    reply.rc = .busy ∧ 21 ≤ reply.blockedUntil := by
  intro a before after
  have hset : ((storeAfter Ref.ngx ⟨10, 60, 2⟩ before).get a).map (·.blockedUntil) = some 110 := by
    decide
  obtain ⟨n, hn, hend⟩ := Option.map_eq_some_iff.mp hset
  apply ban_lasts Ref.ngx ⟨10, 60, 2⟩ before after a n 21 20 (by decide) hn (by omega)
  · intro c hc ttl _ hop _
    rw [List.mem_singleton.mp hc] at hop ⊢
    cases hop
    decide
  · decide

end Run
end Sentinel
