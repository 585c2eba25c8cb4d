import Sentinel.FeedReplace
import Sentinel.Lib.Run
import Mathlib.Data.List.Induction

/-!
The loader's timer: when a tick reads the feed file, and what a sequence of ticks
makes of a file that is replaced while they run. A tick compares the file's
`st_mtime`, in whole seconds, with that of the last load, so it overlooks a
replacement within the second of the version it has loaded.
-/

namespace Sentinel

/-- The directives of the location that a timer works for. -/
structure FeedConf where
  csFeed : Bytes
  csZone : Option Zone
  csStaleAfter : Int
  csMaxBytes : Nat
  csDefaultTtl : Int

/-- A file as `stat` and `open` find it. -/
structure FeedFile where
  data : Buffer
  mtime : Int

/-- `sentinel_feed_timer_t`, without the two flags that keep a warning from
being logged twice. -/
structure FeedTimer where
  lastMtime : Int

/-- `sentinel_feed_do_load` up to the opening of the file: the modification time
and the size it goes on with, or `none` where it returns. -/
def feedStat (conf : FeedConf) (t : FeedTimer) (now : Int) (fi : Option FeedFile) :
    Option (Int × Nat) :=
  if conf.csFeed = [] ∨ conf.csZone = none then none
  else
    match fi with
    | none => none
    | some fi =>
        let fsize := fi.data.data.length
        if now - fi.mtime > conf.csStaleAfter then none
        else if t.lastMtime ≠ 0 ∧ fi.mtime = t.lastMtime then none
        else if fsize = 0 then none
        else if fsize > conf.csMaxBytes then none
        else some (fi.mtime, fsize)

/-- The first `n` bytes of a buffer. -/
def Buffer.take (b : Buffer) (n : Nat) : Buffer where
  data := b.data.take n
  len_lt := Nat.lt_of_le_of_lt (List.length_take_le' _ _) b.len_lt

/-- The rest of `sentinel_feed_do_load`: read `fsize` bytes of the file that has
the name now, and load them. -/
def feedRead (ngx : NgxCore) (conf : FeedConf) (t : FeedTimer) (sh : Shctx) (now mtime : Int)
    (fsize : Nat) (file : Option FeedFile) (slab : Nat → Bool) : FeedTimer × Shctx :=
  match file with
  | none => (t, sh)
  | some file =>
      if file.data.data.length < fsize then (t, sh)
      else
        let r := sentinelFeedParse ngx conf.csZone sh (file.data.take fsize) conf.csDefaultTtl
          now slab
        if r.1.rc = .ok then (⟨mtime⟩, r.2) else (t, r.2)

/-- One tick, when the file is not replaced while it runs. -/
def sentinelFeedDoLoad (ngx : NgxCore) (conf : FeedConf) (t : FeedTimer) (sh : Shctx)
    (now : Int) (file : Option FeedFile) (slab : Nat → Bool) : FeedTimer × Shctx :=
  match feedStat conf t now file with
  | none => (t, sh)
  | some (mtime, fsize) => feedRead ngx conf t sh now mtime fsize file slab

/-- What happens to the file and the timer. A replacement is at a time in
nanoseconds; a tick is its `stat` and its read, since the file may be replaced
between the two. -/
inductive FeedEvent where
  | replace (data : Buffer) (ns : Nat)
  | stat (now : Int)
  | read

structure FeedWatch where
  file : Option FeedFile
  timer : FeedTimer
  sh : Shctx
  /-- A tick that is about to read: its time, and what its `stat` found. -/
  pending : Option (Int × Int × Nat)

def feedWatchStep (ngx : NgxCore) (conf : FeedConf) (s : FeedWatch) : FeedEvent → FeedWatch
  | .replace data ns => { s with file := some ⟨data, ((ns / 10 ^ 9 : Nat) : Int)⟩ }
  | .stat now =>
      { s with pending := (feedStat conf s.timer now s.file).map fun fi => (now, fi) }
  | .read =>
      match s.pending with
      | none => s
      | some (now, mtime, fsize) =>
          let r := feedRead ngx conf s.timer s.sh now mtime fsize s.file fun _ => true
          { s with timer := r.1, sh := r.2, pending := none }

/-- A timer that has not loaded anything. -/
def feedWatch (ngx : NgxCore) (conf : FeedConf) (sh : Shctx) (events : List FeedEvent) :
    FeedWatch :=
  Run.exec (feedWatchStep ngx conf) ⟨none, ⟨0⟩, sh, none⟩ events

/-- A tick with the file left alone. -/
def feedTick (now : Int) : List FeedEvent := [.stat now, .read]

def FeedEvent.Replaces : FeedEvent → Prop
  | .replace .. => True
  | _ => False

/-- A tick of the run: its `stat` comes after `before`, its read before `after`,
and all that happens between the two is that the file is replaced. -/
structure ReadBy (events before : List FeedEvent) (now : Int) (after : List FeedEvent) : Prop where
  split : ∃ mid, events = before ++ .stat now :: (mid ++ .read :: after) ∧
    ∀ e ∈ mid, e.Replaces

/-- A tick that has loaded the file: its `stat` found this `st_mtime` and went on,
and its load has put it down. -/
structure LoadedBy (ngx : NgxCore) (conf : FeedConf) (sh : Shctx) (events before : List FeedEvent)
    (now mtime : Int) (after : List FeedEvent) : Prop where
  split : ∃ mid, events = before ++ .stat now :: (mid ++ .read :: after) ∧
    (∀ e ∈ mid, e.Replaces) ∧
    (feedWatch ngx conf sh (before ++ .stat now :: (mid ++ [.read]))).timer.lastMtime = mtime
  stat : ∃ fsize, feedStat conf (feedWatch ngx conf sh before).timer now
    (feedWatch ngx conf sh before).file = some (mtime, fsize)

/-- A tick found a version of this `st_mtime` and loaded the file, and the file was
replaced after that. -/
def SameSecond (ngx : NgxCore) (conf : FeedConf) (sh : Shctx) (events : List FeedEvent)
    (mtime : Int) : Prop :=
  ∃ before now after, LoadedBy ngx conf sh events before now mtime after ∧
    ∃ e ∈ after, e.Replaces

/-- The decisions of the file, as of a tick that read it in its last version. -/
def Reflects (ngx : NgxCore) (conf : FeedConf) (events : List FeedEvent) (file : FeedFile)
    (sh : Shctx) : Prop :=
  ∃ before now after, ReadBy events before now after ∧ (∀ e ∈ after, ¬ e.Replaces) ∧
    ∃ lines trailer, FeedShape file.data.data lines trailer ∧
      TableHolds ngx conf.csDefaultTtl now lines sh

section Read
variable {ngx : NgxCore} {sh : Shctx}

/-- A load that does not fail leaves the decisions of the file, and one that
fails leaves the table. -/
theorem parse_cases (zone : Option Zone) (wf : sh.Wf ngx) (data : Buffer) (ttl now : Int) :
    let r := sentinelFeedParse ngx zone sh data ttl now fun _ => true
    (r.1.rc = .ok ∧ r.2.Wf ngx ∧ ∃ lines trailer, FeedShape data.data lines trailer ∧
      TableHolds ngx ttl now lines r.2) ∨ (r.1.rc ≠ .ok ∧ r.2 = sh) := by
  cases zone with
  | none => exact Or.inr (by simp [sentinelFeedParse])
  | some z =>
      cases hval : feedValidate ngx data.data with
      | none => exact Or.inr (by simp [sentinelFeedParse, hval])
      | some body =>
          obtain ⟨lines, trailer, hshape, rfl, -⟩ := (feedValidate_eq_some_iff ngx data).mp hval
          obtain ⟨hreply, hwf, -, hget⟩ := load_spec z wf hval ttl now fun _ => true
          simp only [Lines.split_join _ hshape.closed, feedFits_of_room (fun _ => rfl)] at hget
          refine Or.inl ⟨by rw [hreply], hwf, lines, trailer, hshape,
            tableHolds_iff.mpr fun k => ?_⟩
          exact (hget k).values

theorem parse_ok {zone : Option Zone} (hzone : zone.isSome) {data : Buffer}
    (haccepted : FeedAccepted ngx data.data) (sh : Shctx) (ttl now : Int) :
    (sentinelFeedParse ngx zone sh data ttl now fun _ => true).1.rc = .ok := by
  obtain ⟨z, rfl⟩ := Option.isSome_iff_exists.mp hzone
  obtain ⟨body, hval⟩ := Option.isSome_iff_exists.mp ((feedAccepted_iff ngx).mp haccepted)
  simp [sentinelFeedParse, hval]

/-- What a read does: it takes the mtime that its tick found together with the
decisions of the file that has the name now, or does nothing. -/
theorem feedRead_cases (conf : FeedConf) (t : FeedTimer) (now mtime : Int) (fsize : Nat)
    (wf : sh.Wf ngx) (file : Option FeedFile) :
    let r := feedRead ngx conf t sh now mtime fsize file fun _ => true
    (r.1.lastMtime = mtime ∧ r.2.Wf ngx ∧ ∃ f lines trailer, file = some f ∧
      FeedShape f.data.data lines trailer ∧ TableHolds ngx conf.csDefaultTtl now lines r.2) ∨
    r = (t, sh) := by
  cases file with
  | none => exact Or.inr rfl
  | some f =>
      simp only [feedRead]
      split
      · exact Or.inr rfl
      · rcases parse_cases conf.csZone wf (f.data.take fsize) conf.csDefaultTtl now with
          ⟨hok, hwf, lines, trailer, hshape, hholds⟩ | ⟨hno, hsh⟩
        · rw [if_pos hok]
          obtain ⟨trailer', hshape'⟩ := hshape.append (f.data.data.drop fsize)
          rw [Buffer.take, List.take_append_drop] at hshape'
          exact Or.inl ⟨rfl, hwf, f, lines, trailer', rfl, hshape', hholds⟩
        · rw [if_neg hno, hsh]
          exact Or.inr rfl

end Read

section Watch
variable {ngx : NgxCore} {conf : FeedConf} {sh : Shctx} {events : List FeedEvent}

theorem watch_snoc (events : List FeedEvent) (e : FeedEvent) :
    feedWatch ngx conf sh (events ++ [e]) =
      feedWatchStep ngx conf (feedWatch ngx conf sh events) e :=
  Run.exec_append _ _ _ _

theorem ReadBy.append {before after : List FeedEvent} {now : Int}
    (h : ReadBy events before now after) (later : List FeedEvent) :
    ReadBy (events ++ later) before now (after ++ later) := by
  obtain ⟨mid, rfl, hmid⟩ := h.split
  exact ⟨mid, by simp, hmid⟩

theorem LoadedBy.append {before after : List FeedEvent} {now mtime : Int}
    (h : LoadedBy ngx conf sh events before now mtime after) (later : List FeedEvent) :
    LoadedBy ngx conf sh (events ++ later) before now mtime (after ++ later) := by
  obtain ⟨⟨mid, rfl, hmid, hloaded⟩, hstat⟩ := h
  exact ⟨⟨mid, by simp, hmid, hloaded⟩, hstat⟩

theorem LoadedBy.readBy {before after : List FeedEvent} {now mtime : Int}
    (h : LoadedBy ngx conf sh events before now mtime after) : ReadBy events before now after := by
  obtain ⟨mid, hsplit, hmid, -⟩ := h.split
  exact ⟨mid, hsplit, hmid⟩

/-- What the run has left behind it: the timer's mtime is that of a version that
a tick has loaded, and the table still holds what this tick read unless the file
has been replaced since. -/
structure WatchInv (ngx : NgxCore) (conf : FeedConf) (sh : Shctx) (events : List FeedEvent) :
    Prop where
  wf : (feedWatch ngx conf sh events).sh.Wf ngx
  loaded : (feedWatch ngx conf sh events).timer.lastMtime ≠ 0 →
    ∃ before now after, LoadedBy ngx conf sh events before now
        (feedWatch ngx conf sh events).timer.lastMtime after ∧
      ((∀ e ∈ after, ¬ e.Replaces) → ∀ cur, (feedWatch ngx conf sh events).file = some cur →
        ∃ lines trailer, FeedShape cur.data.data lines trailer ∧
          TableHolds ngx conf.csDefaultTtl now lines (feedWatch ngx conf sh events).sh)
  pending : ∀ now mtime fsize,
    (feedWatch ngx conf sh events).pending = some (now, mtime, fsize) →
      ∃ before mid, events = before ++ .stat now :: mid ∧ (∀ e ∈ mid, e.Replaces) ∧
        feedStat conf (feedWatch ngx conf sh before).timer now (feedWatch ngx conf sh before).file =
          some (mtime, fsize)

/-- An event that leaves the timer and the table, and the file unless it replaces
it, keeps what was loaded. -/
theorem WatchInv.frame (h : WatchInv ngx conf sh events) {e : FeedEvent} {s : FeedWatch}
    (hs : feedWatch ngx conf sh (events ++ [e]) = s)
    (htimer : s.timer = (feedWatch ngx conf sh events).timer)
    (hsh : s.sh = (feedWatch ngx conf sh events).sh)
    (hfile : ¬ e.Replaces → s.file = (feedWatch ngx conf sh events).file)
    (hpending : ∀ now mtime fsize, s.pending = some (now, mtime, fsize) →
      ∃ before mid, events ++ [e] = before ++ .stat now :: mid ∧ (∀ e ∈ mid, e.Replaces) ∧
        feedStat conf (feedWatch ngx conf sh before).timer now (feedWatch ngx conf sh before).file =
          some (mtime, fsize)) :
    WatchInv ngx conf sh (events ++ [e]) := by
  subst hs
  refine ⟨hsh ▸ h.wf, fun hne => ?_, hpending⟩
  rw [htimer] at hne ⊢
  obtain ⟨before, now, after, hloaded, hholds⟩ := h.loaded hne
  refine ⟨before, now, after ++ [e], hloaded.append [e], fun hafter cur hcur => ?_⟩
  simp only [List.mem_append, List.mem_singleton, or_imp, forall_and, forall_eq] at hafter
  rw [hsh]
  exact hholds hafter.1 cur (hfile hafter.2 ▸ hcur)

theorem WatchInv.replace (h : WatchInv ngx conf sh events) (data : Buffer) (ns : Nat) :
    WatchInv ngx conf sh (events ++ [.replace data ns]) := by
  refine h.frame (watch_snoc _ _) rfl rfl (fun hno => absurd trivial hno) ?_
  intro now mtime fsize hpend
  obtain ⟨before, mid, hsplit, hmid, hstat⟩ := h.pending now mtime fsize hpend
  refine ⟨before, mid ++ [.replace data ns], by simp [hsplit], ?_, hstat⟩
  intro e he
  cases List.mem_append.mp he with
  | inl he => exact hmid e he
  | inr he =>
      rw [List.mem_singleton.mp he]
      trivial

theorem WatchInv.stat (h : WatchInv ngx conf sh events) (now : Int) :
    WatchInv ngx conf sh (events ++ [.stat now]) := by
  refine h.frame (watch_snoc _ _) rfl rfl (fun _ => rfl) ?_
  intro now' mtime fsize hpend
  simp only [feedWatchStep, Option.map_eq_some_iff, Prod.mk.injEq] at hpend
  obtain ⟨fi, hstat, rfl, rfl⟩ := hpend
  exact ⟨events, [], rfl, by simp, hstat⟩

theorem WatchInv.read (h : WatchInv ngx conf sh events) :
    WatchInv ngx conf sh (events ++ [.read]) := by
  have hsnoc : feedWatch ngx conf sh (events ++ [.read]) =
      feedWatchStep ngx conf (feedWatch ngx conf sh events) .read := watch_snoc _ _
  rw [feedWatchStep] at hsnoc
  cases hp : (feedWatch ngx conf sh events).pending with
  | none =>
      rw [hp] at hsnoc
      refine h.frame hsnoc rfl rfl (fun _ => rfl) fun now mtime fsize hpend => ?_
      rw [hp] at hpend
      contradiction
  | some p =>
      obtain ⟨now, mtime, fsize⟩ := p
      rw [hp] at hsnoc
      rcases feedRead_cases conf (feedWatch ngx conf sh events).timer now mtime fsize h.wf
        (feedWatch ngx conf sh events).file with
        ⟨hmtime, hwf, cur, lines, trailer, hcur, hshape, hholds⟩ | hsame
      · -- the tick has loaded what it found, so the run starts over from it
        obtain ⟨before, mid, rfl, hmid, hstat⟩ := h.pending now mtime fsize hp
        have hput :
            (feedWatch ngx conf sh (before ++ .stat now :: mid ++ [.read])).timer.lastMtime =
              mtime := by
          rw [hsnoc]
          exact hmtime
        refine ⟨hsnoc ▸ hwf, fun _ => ⟨before, now, [], ⟨⟨mid, by simp, hmid, ?_⟩, ?_⟩, ?_⟩, ?_⟩
        · simp only [List.append_assoc, List.cons_append]
        · exact ⟨fsize, hput.symm ▸ hstat⟩
        · intro _ cur' hcur'
          rw [hsnoc] at hcur' ⊢
          obtain rfl : cur = cur' := Option.some.inj (hcur.symm.trans hcur')
          exact ⟨lines, trailer, hshape, hholds⟩
        · intro now mtime fsize hpend
          rw [hsnoc] at hpend
          contradiction
      · simp only [hsame] at hsnoc
        exact h.frame hsnoc rfl rfl (fun _ => rfl) fun now mtime fsize hpend => by
          contradiction

theorem watchInv (wf : sh.Wf ngx) (events : List FeedEvent) : WatchInv ngx conf sh events := by
  induction events using List.reverseRecOn with
  | nil =>
      refine ⟨wf, fun hne => absurd rfl hne, fun now mtime fsize hpend => ?_⟩
      contradiction
  | append_singleton events e ih =>
      cases e with
      | replace data ns => exact ih.replace data ns
      | stat now => exact ih.stat now
      | read => exact ih.read

theorem feedTick_quiet {now : Int} {e : FeedEvent} (he : e ∈ feedTick now) : ¬ e.Replaces := by
  simp only [feedTick, List.mem_cons, List.not_mem_nil, or_false] at he
  cases he with
  | inl heq =>
      obtain rfl := heq
      exact id
  | inr heq =>
      obtain rfl := heq
      exact id

theorem watch_tick (now : Int) :
    feedWatch ngx conf sh (events ++ feedTick now) =
      let s := feedWatch ngx conf sh events
      let r := sentinelFeedDoLoad ngx conf s.timer s.sh now s.file fun _ => true
      { s with timer := r.1, sh := r.2, pending := none } := by
  rw [feedWatch, Run.exec_append]
  simp only [feedTick, Run.exec_cons, Run.exec_nil, feedWatchStep, sentinelFeedDoLoad, feedWatch]
  cases feedStat conf _ now _ <;> rfl

/-- A tick leaves the decisions of the file, unless the gate takes the version it
finds for an earlier one of the same second. -/
theorem reflects_after_tick (wf : sh.Wf ngx) {f : FeedFile} {now : Int}
    (hfile : (feedWatch ngx conf sh events).file = some f)
    (hfeed : conf.csFeed ≠ []) (hzone : conf.csZone.isSome)
    (haccepted : FeedAccepted ngx f.data.data) (hsize : f.data.data.length ≤ conf.csMaxBytes)
    (hfresh : now - f.mtime ≤ conf.csStaleAfter)
    (hsep : ¬ SameSecond ngx conf sh events f.mtime) :
    Reflects ngx conf (events ++ feedTick now) f
      (feedWatch ngx conf sh (events ++ feedTick now)).sh := by
  have hinv : WatchInv ngx conf sh events := watchInv wf events
  have hpos : f.data.data.length ≠ 0 := by
    obtain ⟨lines, trailer, hshape, -⟩ := haccepted.exists_shape
    obtain ⟨rest, hdata, -⟩ := hshape.cut
    simp [hdata]
  have hzone' : conf.csZone ≠ none := Option.isSome_iff_ne_none.mp hzone
  rw [watch_tick]
  simp only [hfile, sentinelFeedDoLoad]
  by_cases hgate : (feedWatch ngx conf sh events).timer.lastMtime ≠ 0 ∧
      f.mtime = (feedWatch ngx conf sh events).timer.lastMtime
  · -- the tick is skipped: what the table holds was read from this very version
    have hstat : feedStat conf (feedWatch ngx conf sh events).timer now (some f) = none := by
      simp only [feedStat]
      rw [if_neg (by simp [hfeed, hzone']), if_neg (by omega), if_pos hgate]
    obtain ⟨before, now', after, hloaded, hholds⟩ := hinv.loaded hgate.1
    have hquiet : ∀ e ∈ after, ¬ e.Replaces := fun e he hrep =>
      hsep ⟨before, now', after, hgate.2 ▸ hloaded, e, he, hrep⟩
    rw [hstat]
    refine ⟨before, now', after ++ feedTick now, hloaded.readBy.append _, ?_,
      hholds hquiet f hfile⟩
    intro e he
    cases List.mem_append.mp he with
    | inl he => exact hquiet e he
    | inr he => exact feedTick_quiet he
  · have hstat : feedStat conf (feedWatch ngx conf sh events).timer now (some f) =
        some (f.mtime, f.data.data.length) := by
      simp only [feedStat]
      rw [if_neg (by simp [hfeed, hzone']), if_neg (by omega), if_neg hgate, if_neg hpos,
        if_neg (by omega)]
    have hwhole : f.data.take f.data.data.length = f.data := by
      simp [Buffer.take]
    have hok := parse_ok hzone haccepted (feedWatch ngx conf sh events).sh conf.csDefaultTtl now
    rw [hstat]
    simp only [feedRead, lt_irrefl, if_false, hwhole, if_pos hok]
    rcases parse_cases conf.csZone hinv.wf f.data conf.csDefaultTtl now with
      ⟨-, -, hholds⟩ | ⟨hno, -⟩
    · exact ⟨events, now, [], ⟨[], rfl, by simp⟩, by simp, hholds⟩
    · exact absurd hok hno

/-- A file left alone over two ticks is the one in the table, unless an earlier
tick had loaded another version of the same whole second. -/
theorem feed_fresh_unless_same_second (wf : sh.Wf ngx) {f : FeedFile} {now₁ now₂ : Int}
    (hfile : (feedWatch ngx conf sh events).file = some f)
    (hfeed : conf.csFeed ≠ []) (hzone : conf.csZone.isSome)
    (haccepted : FeedAccepted ngx f.data.data) (hsize : f.data.data.length ≤ conf.csMaxBytes)
    (hfresh : now₂ - f.mtime ≤ conf.csStaleAfter)
    (hsep : ¬ SameSecond ngx conf sh (events ++ feedTick now₁ ++ feedTick now₂) f.mtime) :
    Reflects ngx conf (events ++ feedTick now₁ ++ feedTick now₂) f
      (feedWatch ngx conf sh (events ++ feedTick now₁ ++ feedTick now₂)).sh := by
  have hfile' : (feedWatch ngx conf sh (events ++ feedTick now₁)).file = some f := by
    rw [watch_tick]
    exact hfile
  refine reflects_after_tick wf hfile' hfeed hzone haccepted hsize hfresh ?_
  intro ⟨before, now, after, hloaded, e, he, hrep⟩
  exact hsep ⟨before, now, after ++ feedTick now₂, hloaded.append _, e,
    List.mem_append_left _ he, hrep⟩

/-- A replacement a second later. -/
theorem feed_fresh_second_later :
    let a : Buffer := ⟨str "# sentinel-crowdsec-feed v1\n1.2.3.4 ban 100\n%%EOF 1 9eb69a54\n",
      by decide⟩
    let b : Buffer := ⟨str "# sentinel-crowdsec-feed v1\n9.9.9.9 ban 100\n%%EOF 1 bd545d27\n",
      by decide⟩
    let conf : FeedConf := ⟨str "/run/feed", some ⟨0, 0, 0⟩, 600, 1000, 3600⟩
    let events := FeedEvent.replace a 10200000000 :: feedTick 10 ++
      [FeedEvent.replace b 11500000000]
    let run := events ++ feedTick 12 ++ feedTick 13
    Reflects Ref.ngx conf run ⟨b, 11⟩ (feedWatch Ref.ngx conf sentinelShmInitZone run).sh := by
  intro a b conf events run
  refine feed_fresh_unless_same_second (f := ⟨b, 11⟩) wf_init ?_ (by decide) rfl
    ((feedAccepted_iff Ref.ngx).mpr (by decide +kernel)) (by decide) (by decide) ?_
  · rw [watch_snoc]
    rfl
  · rintro ⟨before, now, after, ⟨⟨mid, hrun, -⟩, fsize, hstat⟩, e, he, hrep⟩
    simp only [events, feedTick, List.cons_append, List.nil_append] at hrun
    rcases before with _ | ⟨e₀, _ | ⟨e₁, _ | ⟨e₂, _ | ⟨e₃, before⟩⟩⟩⟩
    · contradiction
    · obtain ⟨-, hrest⟩ := List.cons.inj hrun
      obtain ⟨hnow, -⟩ := List.cons.inj hrest
      obtain rfl := FeedEvent.stat.inj hnow
      obtain ⟨rfl, -⟩ := List.cons.inj hrun
      have hfound : some (10, a.data.length) = some ((11 : Int), fsize) := hstat
      simp at hfound
    · simp at hrun
    · simp at hrun
    · simp only [List.cons_append, List.cons.injEq] at hrun
      have hticks : e ∈ feedTick 12 ++ feedTick 13 := by
        simp only [feedTick, List.cons_append, List.nil_append, hrun.2.2.2.2]
        simp [he]
      cases List.mem_append.mp hticks with
      | inl h => exact feedTick_quiet h hrep
      | inr h => exact feedTick_quiet h hrep

/-- A replacement in the second of the version that was loaded is not seen. -/
theorem same_second_replacement_overlooked :
    let a : Buffer := ⟨str "# sentinel-crowdsec-feed v1\n1.2.3.4 ban 100\n%%EOF 1 9eb69a54\n",
      by decide⟩
    let b : Buffer := ⟨str "# sentinel-crowdsec-feed v1\n9.9.9.9 ban 100\n%%EOF 1 bd545d27\n",
      by decide⟩
    let conf : FeedConf := ⟨str "/run/feed", some ⟨0, 0, 0⟩, 600, 1000, 3600⟩
    let events := FeedEvent.replace a 10200000000 :: feedTick 10 ++
      [FeedEvent.replace b 10500000000]
    let run := events ++ feedTick 11 ++ feedTick 12
    FeedAccepted Ref.ngx a.data ∧ FeedAccepted Ref.ngx b.data ∧
      (feedWatch Ref.ngx conf sentinelShmInitZone events).file = some ⟨b, 10⟩ ∧
      ¬ Reflects Ref.ngx conf run ⟨b, 10⟩ (feedWatch Ref.ngx conf sentinelShmInitZone run).sh := by
  intro a b conf events run
  have hval : feedValidate Ref.ngx b.data = some (str "9.9.9.9 ban 100\n") := by decide +kernel
  refine ⟨(feedAccepted_iff Ref.ngx).mpr (by decide +kernel),
    (feedAccepted_iff Ref.ngx).mpr (by decide +kernel), ?_, ?_⟩
  · rw [watch_snoc]
    rfl
  · rintro ⟨before, now, after, ⟨mid, hrun, -⟩, -, lines, trailer, hshape, hholds⟩
    let k := sentinelFeedDigest Ref.ngx (str "1.2.3.4")
    have hheld : ((feedWatch Ref.ngx conf sentinelShmInitZone run).sh.get k).isSome := by
      decide +kernel
    obtain ⟨line, hline, e, he, hk⟩ := (hholds.1 k).mp hheld
    have hlisted : Listed Ref.ngx b conf.csDefaultTtl now k :=
      ⟨lines, trailer, hshape, line, hline, e, he, hk⟩
    have hnow : FeedEvent.stat now ∈ run := by
      rw [hrun]
      simp
    simp only [run, events, feedTick, List.cons_append, List.nil_append, List.mem_cons,
      List.not_mem_nil, or_false, reduceCtorEq, false_or, FeedEvent.stat.injEq] at hnow
    rw [listed_iff hval] at hlisted
    rcases hnow with rfl | rfl | rfl
    · exact absurd hlisted (by decide +kernel)
    · exact absurd hlisted (by decide +kernel)
    · exact absurd hlisted (by decide +kernel)

end Watch
end Sentinel
