import Sentinel.PowGate
import Sentinel.RedisState

/-!
The cursor of a `SCAN` pass. Its parser means to end the pass on a number that
64 bits do not hold; its guard stands before the multiplication only, so that a
number from 2^64 on may come out as its remainder instead.
-/

namespace Sentinel

/-- What the parser is for: the number that the leading digits spell, and zero, the
end of the scan, for a number out of range. -/
def cursorValue (s : Bytes) : Nat :=
  let n := decimal (s.takeWhile isDigit)
  if n < 2 ^ 64 then n else 0

/-- The digits that get past the guard with a number out of range: it is never met by
what the digits before spell, modulo 2^64, and the remainder is not zero. -/
def CursorSlips (digits : Bytes) : Prop :=
  2 ^ 64 ≤ decimal digits ∧ decimal digits % 2 ^ 64 ≠ 0 ∧
    ∀ p c t, digits = p ++ c :: t → decimal p % 2 ^ 64 ≤ (2 ^ 64 - 1) / 10

/-- The worker is connected, and hiredis takes its `SCAN`. -/
def RedisWorld.maySend (w : RedisWorld) (io : RedisIo) : Prop :=
  w.rc.state = .up ∧ io.scan = true ∧
    ∃ c, w.context = some c ∧ w.rc.ac = some c.id ∧ c.closing = false

/-- The command that goes on from a cursor. -/
def scanCommand (n : Nat) (io : RedisIo) (w : RedisWorld) : RedisCommand :=
  .scan (ngxPrint n) (redisPattern w.rc.lcf.keyPrefix io.stack) ngxSentinelRedisScanCount

/-- The `GET` commands for the keys of one reply. -/
def KeyRequests (log : List RedisLog) : Prop :=
  ∀ e ∈ log, ∃ id key, e = .issued id (.get key)

/-- The pass is over: its keys are asked for, and no further `SCAN` goes out. -/
def ScanEnds (w w' : RedisWorld) : Prop :=
  ∃ gets, KeyRequests gets ∧ w'.log = w.log ++ gets ∧ w'.rc.pullInflight = false

/-- The pass goes on: its keys are asked for, and then what comes after `n`. -/
def ScanGoesOn (n : Nat) (io : RedisIo) (w w' : RedisWorld) : Prop :=
  ∃ gets id, KeyRequests gets ∧ w.rc.ac = some id ∧
    w'.log = w.log ++ gets ++ [.issued id (scanCommand n io w)]

/-- What a reply with the cursor `n` is to lead to. -/
def ScanFollows (n : Nat) (io : RedisIo) (w w' : RedisWorld) : Prop :=
  (n ≠ 0 ∧ w.maySend io → ScanGoesOn n io w w') ∧ (¬ (n ≠ 0 ∧ w.maySend io) → ScanEnds w w')

section Parser

theorem cursorGuard_iff (v : UInt64) : v > (0 - 1) / 10 ↔ (2 ^ 64 - 1) / 10 < v.toNat :=
  UInt64.lt_iff_toNat_lt

theorem cursorDigit_toNat (v : UInt64) {c : UInt8} (hc : isDigit c = true) :
    (v * 10 + (c - ch '0').toUInt64).toNat = (v.toNat * 10 + (c.toNat - 48)) % 2 ^ 64 := by
  simp only [isDigit, Bool.and_eq_true, decide_eq_true_eq] at hc
  have hlo : (ch '0').toNat ≤ c.toNat := hc.1
  have hdigit : (c - ch '0').toNat = c.toNat - 48 := UInt8.toNat_sub_of_le _ _ hlo
  rw [UInt64.toNat_add, UInt64.toNat_mul, UInt8.toNat_toUInt64, hdigit]
  simp

/-- The loop is the guarded reading of the leading digits. -/
theorem parseCursorLoop_toNat (s : Bytes) (v : UInt64) :
    (parseCursorLoop v s).toNat =
      Numeral.readGuarded (fun c => c.toNat - 48) (2 ^ 64) ((2 ^ 64 - 1) / 10) v.toNat
        (s.takeWhile isDigit) := by
  induction s generalizing v with
  | nil => rfl
  | cons c s ih =>
      rw [parseCursorLoop]
      by_cases hc : isDigit c = true
      · have hrange : ¬ (c < ch '0' ∨ c > ch '9') := by
          simp only [isDigit, Bool.and_eq_true, decide_eq_true_eq] at hc
          simp only [not_or, UInt8.not_lt]
          exact hc
        rw [if_neg hrange, List.takeWhile_cons_of_pos hc, Numeral.readGuarded,
          ← cursorDigit_toNat v hc]
        by_cases hguard : v > (0 - 1) / 10
        · rw [if_pos hguard, if_pos ((cursorGuard_iff v).mp hguard)]
          rfl
        · rw [if_neg hguard, if_neg (mt (cursorGuard_iff v).mpr hguard), ih]
      · have hrange : c < ch '0' ∨ c > ch '9' := by
          simp only [isDigit, Bool.and_eq_true, decide_eq_true_eq, not_and_or,
            UInt8.not_le] at hc
          exact hc
        rw [if_pos hrange, List.takeWhile_cons_of_neg hc]
        rfl

theorem decimal_append_le (p t : Bytes) : decimal p ≤ decimal (p ++ t) :=
  Numeral.read_append_le p t

theorem decimal_snoc (p : Bytes) (c : UInt8) :
    decimal (p ++ [c]) = decimal p * 10 + (c.toNat - 48) :=
  Numeral.read_append p c

/-- One digit more takes what meets the guard out of range. -/
theorem decimal_met {p t : Bytes} {c : UInt8} (h : (2 ^ 64 - 1) / 10 < decimal p % 2 ^ 64) :
    2 ^ 64 ≤ decimal (p ++ c :: t) := by
  have hmod : decimal p % 2 ^ 64 ≤ decimal p := Nat.mod_le _ _
  have hle := decimal_append_le (p ++ [c]) t
  rw [decimal_snoc, List.append_assoc, List.singleton_append] at hle
  omega

/-- The parser is right on a text exactly if its digits do not slip through. -/
theorem parseCursor_toNat_iff (s : Bytes) :
    (sentinelRedisParseCursor s).toNat = cursorValue s ↔ ¬ CursorSlips (s.takeWhile isDigit) := by
  rw [sentinelRedisParseCursor, parseCursorLoop_toNat, cursorValue]
  generalize s.takeWhile isDigit = digits
  cases @Numeral.readGuarded_eq_zero_or _ (fun c : UInt8 => c.toNat - 48) (2 ^ 64)
      ((2 ^ 64 - 1) / 10) digits (by omega) with
  | inl h =>
      -- the guard is met: the answer is zero, and the number is out of range
      obtain ⟨hzero, p, c, t, hsplit, hmet⟩ := h
      have hout : 2 ^ 64 ≤ decimal digits := by
        rw [hsplit]
        exact decimal_met hmet
      have hkept : ¬ CursorSlips digits := by
        intro hslips
        have hunmet := hslips.2.2 p c t hsplit
        exact absurd hmet (Nat.not_lt.mpr hunmet)
      refine iff_of_true ?_ hkept
      rw [if_neg (Nat.not_lt.mpr hout)]
      exact hzero
  | inr h =>
      -- it is never met: the answer is the remainder
      obtain ⟨hread, hunmet⟩ := h
      have hvalue : Numeral.readGuarded (fun c : UInt8 => c.toNat - 48) (2 ^ 64)
          ((2 ^ 64 - 1) / 10) 0 digits = decimal digits % 2 ^ 64 := hread
      change Numeral.readGuarded _ _ _ 0 digits = _ ↔ _
      rw [hvalue]
      by_cases hrange : decimal digits < 2 ^ 64
      · rw [if_pos hrange, Nat.mod_eq_of_lt hrange]
        exact iff_of_true rfl fun hslips => absurd hrange (Nat.not_lt.mpr hslips.1)
      · rw [if_neg hrange]
        constructor
        · intro hzero hslips
          exact hslips.2.1 hzero
        · intro hkept
          by_contra hne
          exact hkept ⟨Nat.not_lt.mp hrange, hne, hunmet⟩

/-- Whatever slips through starts with one of four numbers. -/
theorem CursorSlips.starts {digits : Bytes} (hdigits : digits.all isDigit = true)
    (h : CursorSlips digits) :
    ∃ p t, digits = p ++ t ∧ 2 ^ 64 ≤ decimal p ∧ decimal p < 2 ^ 64 + 4 := by
  obtain ⟨p, c, t, hsplit, hlt, hle⟩ := Numeral.exists_crossing (by omega) h.1
  have hunmet := h.2.2 p c t hsplit
  have hp : decimal p < 2 ^ 64 := hlt
  rw [Nat.mod_eq_of_lt hp] at hunmet
  have hc : isDigit c = true := List.all_eq_true.mp hdigits c (by simp [hsplit])
  obtain ⟨d, hd, rfl⟩ := isDigit_iff.mp hc
  refine ⟨p ++ [ch d.digitChar], t, by simp [hsplit], hle, ?_⟩
  rw [decimal_snoc, digitCode.dec_enc d hd]
  omega

end Parser
section Scan
variable {w w' w'' : RedisWorld}

/-- What the requests for keys leave as it was. -/
structure GetsOnly (w w' : RedisWorld) : Prop where
  rc : w'.rc = w.rc
  maySend : ∀ io, w'.maySend io ↔ w.maySend io
  log : ∃ gets, KeyRequests gets ∧ w'.log = w.log ++ gets

theorem GetsOnly.refl (w : RedisWorld) : GetsOnly w w :=
  ⟨rfl, fun _ => Iff.rfl, [], by simp [KeyRequests], by simp⟩

theorem GetsOnly.trans (h : GetsOnly w w') (h' : GetsOnly w' w'') : GetsOnly w w'' := by
  obtain ⟨gets, hgets, hlog⟩ := h.log
  obtain ⟨gets', hgets', hlog'⟩ := h'.log
  refine ⟨h'.rc.trans h.rc, fun io => (h'.maySend io).trans (h.maySend io), gets ++ gets', ?_, ?_⟩
  · intro e he
    cases List.mem_append.mp he with
    | inl he => exact hgets e he
    | inr he => exact hgets' e he
  · rw [hlog', hlog, List.append_assoc]

theorem getsOnly_command (w : RedisWorld) (ok : Bool) (ipcopy key : Bytes) :
    GetsOnly w (redisAsyncCommand w ok (.get ipcopy) (.get key)).2 := by
  cases redisAsyncCommand_cases w ok (.get ipcopy) (.get key) with
  | inl hrefused =>
      rw [hrefused]
      exact .refl w
  | inr hissued =>
      obtain ⟨c, hcontext, -, -, hissued⟩ := hissued
      rw [hissued]
      refine ⟨rfl, ?_, [.issued c.id (.get key)], ?_, rfl⟩
      · intro io
        simp only [RedisWorld.maySend, hcontext, Option.some.injEq, exists_eq_left']
      · intro e he
        exact ⟨c.id, key, List.mem_singleton.mp he⟩

theorem getsOnly_scanKeys (plen : Nat) (io : RedisIo) (keys : List RedisReply) (w : RedisWorld)
    (i : Nat) : GetsOnly w (scanKeys plen io w i keys) := by
  refine scanKeys_keeps (P := GetsOnly w) ?_ plen io keys (.refl w)
  intro w' ok ipcopy key h
  exact h.trans (getsOnly_command w' ok ipcopy key)

theorem pullStep_eq (w : RedisWorld) (io : RedisIo) :
    sentinelRedisPullStep w io =
      if w.rc.ac = none ∨ w.rc.state ≠ .up then
        { w with rc := { w.rc with pullInflight := false } }
      else
        let r := redisAsyncCommand w io.scan .scan (scanCommand w.rc.scanCursor.toNat io w)
        if r.1 then r.2 else { r.2 with rc := { r.2.rc with pullInflight := false } } := rfl

/-- A pull step that may send goes on from the cursor it has. -/
theorem pullStep_sent {io : RedisIo} (h : w.maySend io) :
    ∃ id, w.rc.ac = some id ∧ (sentinelRedisPullStep w io).log =
      w.log ++ [.issued id (scanCommand w.rc.scanCursor.toNat io w)] := by
  obtain ⟨hup, hscan, c, hcontext, hac, hopen⟩ := h
  have hready : ¬ (w.rc.ac = none ∨ w.rc.state ≠ .up) := by simp [hac, hup]
  have hissued : redisAsyncCommand w io.scan .scan (scanCommand w.rc.scanCursor.toNat io w) =
      (true, { w with
        context := some { c with replies := c.replies ++ [.scan] }
        log := w.log ++ [.issued c.id (scanCommand w.rc.scanCursor.toNat io w)] }) := by
    rw [redisAsyncCommand, hcontext]
    exact if_pos ⟨hac, hopen, hscan⟩
  refine ⟨c.id, hac, ?_⟩
  rw [pullStep_eq, if_neg hready, hissued]
  rfl

/-- A pull step that may not ends the pass. -/
theorem pullStep_refused {io : RedisIo} (h : ¬ w.maySend io) :
    (sentinelRedisPullStep w io).log = w.log ∧
      (sentinelRedisPullStep w io).rc.pullInflight = false := by
  rw [pullStep_eq]
  split
  · exact ⟨rfl, rfl⟩
  next hready =>
    simp only [not_or, Classical.not_not] at hready
    have hrefused : redisAsyncCommand w io.scan .scan
        (scanCommand w.rc.scanCursor.toNat io w) = (false, w) := by
      rw [redisAsyncCommand]
      cases hcontext : w.context with
      | none => rfl
      | some c =>
          refine if_neg fun htaken => h ?_
          exact ⟨hready.2, htaken.2.2, c, hcontext, htaken.1, htaken.2.1⟩
    rw [hrefused]
    exact ⟨rfl, rfl⟩

/-- A reply to `SCAN` leads to what its cursor, as parsed, is to lead to. -/
theorem scanReply_follows (w : RedisWorld) (cur keys : RedisReply) (io : RedisIo) :
    ScanFollows cur.cursor.toNat io w
      (sentinelRedisScanReply w (some (.array [cur, keys])) io) := by
  simp only [sentinelRedisScanReply]
  have hasked := getsOnly_scanKeys (redisPlen w.rc.lcf.keyPrefix) io keys.elements
    { w with rc := { w.rc with scanCursor := cur.cursor } } 0
  generalize scanKeys (redisPlen w.rc.lcf.keyPrefix) io
    { w with rc := { w.rc with scanCursor := cur.cursor } } 0 keys.elements = asked at hasked ⊢
  obtain ⟨gets, hgets, hlog⟩ := hasked.log
  have hcursor : asked.rc.scanCursor = cur.cursor := by rw [hasked.rc]
  have hmay : asked.maySend io ↔ w.maySend io := hasked.maySend io
  have hcommand : scanCommand asked.rc.scanCursor.toNat io asked =
      scanCommand cur.cursor.toNat io w := by
    rw [hcursor, scanCommand, hasked.rc]
    rfl
  have hzero : asked.rc.scanCursor ≠ 0 ↔ cur.cursor.toNat ≠ 0 := by
    rw [hcursor, ne_eq, ← UInt64.toNat_inj]
    rfl
  constructor
  · intro h
    rw [if_pos (hzero.mpr h.1)]
    obtain ⟨id, hac, hsent⟩ := pullStep_sent (hmay.mpr h.2)
    rw [hcommand, hlog] at hsent
    rw [hasked.rc] at hac
    exact ⟨gets, id, hgets, hac, hsent⟩
  · intro h
    by_cases hmore : asked.rc.scanCursor ≠ 0
    · rw [if_pos hmore]
      have hrefused : ¬ asked.maySend io :=
        fun hsend => h ⟨hzero.mp hmore, hmay.mp hsend⟩
      obtain ⟨hsame, hover⟩ := pullStep_refused hrefused
      exact ⟨gets, hgets, hsame.trans hlog, hover⟩
    · rw [if_neg hmore]
      exact ⟨gets, hgets, hlog, rfl⟩

/-- In plain digits, the cursor that goes out is the one that came in. -/
theorem cursor_echoed {s : Bytes} (hs : Numeral.Canonical ch s) (hrange : decimal s < 2 ^ 64) :
    ngxPrint (cursorValue s) = s := by
  have hall : s.takeWhile isDigit = s := by
    rw [List.takeWhile_eq_self_iff]
    exact List.all_eq_true.mp (allDigits_iff.mpr hs.digits)
  rw [cursorValue, hall]
  simp only [hrange, if_true]
  exact Numeral.write_read digitCode hs

/-- The parser returns the value of the digits, or zero out of range, and the scan
goes on or ends accordingly, exactly for the texts whose digits do not slip through
the guard. -/
theorem parseCursor_follows_iff (s : Bytes) :
    ((sentinelRedisParseCursor s).toNat = cursorValue s ∧
        ∀ w keys io, ScanFollows (cursorValue s) io w
          (sentinelRedisScanReply w (some (.array [.string s, keys])) io)) ↔
      ¬ CursorSlips (s.takeWhile isDigit) := by
  constructor
  · intro h
    exact (parseCursor_toNat_iff s).mp h.1
  · intro h
    have hvalue := (parseCursor_toNat_iff s).mpr h
    refine ⟨hvalue, ?_⟩
    intro w keys io
    rw [← hvalue]
    exact scanReply_follows w (.string s) keys io

/-- The remainder of 2^64 + 1 is taken for a cursor. -/
theorem parseCursor_wraps :
    ¬ ((sentinelRedisParseCursor (str "18446744073709551617")).toNat =
        cursorValue (str "18446744073709551617") ∧
      ∀ w keys io, ScanFollows (cursorValue (str "18446744073709551617")) io w
        (sentinelRedisScanReply w
          (some (.array [.string (str "18446744073709551617"), keys])) io)) := by
  intro h
  exact absurd h.1 (by decide +kernel)

end Scan
end Sentinel
