import Maais.Market.Recovery
import Mathlib.Data.Int.ConditionallyCompleteOrder

/-!
# Gap recovery

`prepare` takes a closed bar that does not follow its cursor, or a recovery that is already stored,
to the bars that have to be dispatched. Every state of the recovery is saved before the next
backfill call, so the table is returned also when `prepare` raises.

* `Prepared`  what `prepare` promises;
* `prepare_active_iff`  when a stored recovery keeps that promise for a later bar of its stream.
-/

namespace Maais
open Lib

/-- the clock, the venue and the retry limit of a recovery manager -/
structure RecoveryEnv where
  /-- the answer of the venue to the `n`-th backfill call -/
  backfill : Nat → Except BackfillError (List ObservedMarketEvent)
  now : Nat → Time
  maxAttempts : Nat

structure RecoveryPreparation where
  recovery : RecoveryState
  batch : BackfillBatch
  candidate : ObservedMarketEvent
deriving DecidableEq

def followsGap (gap : GapRange) (candidate : ObservedMarketEvent) (bar : ClosedBarPayload) : Prop :=
  candidate.venue = gap.venue ∧ candidate.stream = gap.stream ∧ candidate.symbol = gap.symbol ∧
    bar.timeframe = gap.timeframe ∧ bar.barOpenAt = gap.endOpenAtExclusive ∧
    candidate.sequence = some gap.endSequenceExclusive

instance {g : GapRange} {c : ObservedMarketEvent} {b : ClosedBarPayload} :
    Decidable (followsGap g c b) := by
  unfold followsGap
  infer_instance

/-- `GapRecoveryFailed(recovery)` -/
def failedError (r : RecoveryState) : PyError :=
  .gapRecoveryFailed ("closed-bar recovery failed after " ++ toString r.attempt ++ " attempts: " ++
    r.failureReason.getD "None")

namespace RecoveryPreparation

def postInit (p : RecoveryPreparation) (bar : ClosedBarPayload) : Py RecoveryPreparation := do
  raiseIf (p.recovery.status ≠ .backfilling)
    (.valueError "prepared recovery must still be backfilling")
  raiseIf (p.recovery.gap ≠ p.batch.gap) (.valueError "prepared recovery and backfill gap differ")
  raiseIf (bar.closed = false) (.valueError "recovery candidate must be a closed bar")
  raiseIf (¬ followsGap p.recovery.gap p.candidate bar)
    (.valueError "recovery candidate does not immediately follow the gap")
  return p

def dispatchEvents (p : RecoveryPreparation) : List ObservedMarketEvent :=
  (p.batch.events ++ [p.candidate]).filter (fun event =>
    ∃ s ∈ event.sequence, ∀ d ∈ p.recovery.dispatchedThrough, d.1 < s)

end RecoveryPreparation

namespace RecoveryEnv

variable (env : RecoveryEnv)

def fetch (gap : GapRange) (call : Nat) : Except BackfillError BackfillBatch :=
  match env.backfill call with
  | .error e => .error e
  | .ok events =>
    match validateBackfill gap events with
    | .error message => .error ⟨"BackfillValidationError", message⟩
    | .ok batch => .ok batch

def saved (table : RecoveryTable)
    (changed : Py RecoveryState) : Py (RecoveryTable × RecoveryState) := do
  let r ← changed
  let table ← recordRecovery table r
  return (table, r)

/-- the head of the loop: a detected recovery begins the next attempt -/
def begun (tick : Nat) (table : RecoveryTable) (r : RecoveryState) :
    Py (RecoveryTable × RecoveryState × Nat) :=
  if r.status = .detected then do
    let saved ← saved table (r.beginBackfill (env.now tick))
    return (saved.1, saved.2, tick + 1)
  else .ok (table, r, tick)

/-- the loop of `prepare`; `fuel` bounds the number of backfill calls -/
def attempts (candidate : ObservedMarketEvent) (bar : ClosedBarPayload) :
    Nat → Nat → Nat → RecoveryTable → RecoveryState → RecoveryTable × Py RecoveryPreparation
  | 0, _, _, table, _ => (table, .error (.runtimeError "out of attempts"))
  | fuel + 1, call, tick, table, r =>
    match env.begun tick table r with
    | .error e => (table, .error e)
    | .ok (table, r, tick) =>
      match env.fetch r.gap call with
      | .ok batch => (table, RecoveryPreparation.postInit ⟨r, batch, candidate⟩ bar)
      | .error e =>
        if env.maxAttempts ≤ r.attempt then
          match saved table (r.fail e.reason (env.now tick)) with
          | .error e => (table, .error e)
          | .ok (table, r) => (table, .error (failedError r))
        else
          match saved table (r.retry e.reason (env.now tick)) with
          | .error e => (table, .error e)
          | .ok (table, r) => attempts candidate bar fuel (call + 1) (tick + 1) table r

def nextAttempt (r : RecoveryState) : Nat := if r.status = .detected then
    r.attempt + 1 else r.attempt

def callsLeft (r : RecoveryState) : Nat := env.maxAttempts - nextAttempt r + 1

/-- the part of `prepare` after the recovery is known -/
def resume (candidate : ObservedMarketEvent) (bar : ClosedBarPayload) (tick : Nat)
    (table : RecoveryTable) (r : RecoveryState) : RecoveryTable × Py (Option RecoveryPreparation) :=
  if r.status = .completed then
    (table,
      .error (.gapRecoveryConflict "completed recovery was encountered behind the current cursor"))
  else if r.status = .failed then (table, .error (failedError r))
  else
    let out := env.attempts candidate bar (env.callsLeft r) 0 tick table r
    (out.1, out.2.map some)

end RecoveryEnv

/-! ## the stored recovery of a cursor -/

def activeFor (table : RecoveryTable) (cursor : MarketCursor) : List RecoveryState :=
  table.values.filter (fun r => r.status.active ∧ r.gap.ofStream cursor)

def loadActive (table : RecoveryTable) (cursor : MarketCursor) : Py (Option RecoveryState) := do
  raiseIf (1 < (activeFor table cursor).length)
    (.runtimeError "multiple active recoveries exist for one cursor")
  return (activeFor table cursor).head?

def progressMatches (r : RecoveryState) (cursor : MarketCursor) : Prop :=
  match r.dispatchedThrough with
  | none => cursor.sequence + 1 = r.gap.startSequence
  | some d => cursor.sequence = d.1 ∧ cursor.eventId = d.2

instance {r : RecoveryState} {c : MarketCursor} : Decidable (progressMatches r c) := by
  unfold progressMatches
  cases r.dispatchedThrough <;> infer_instance

def requireActiveCursorMatches (r : RecoveryState) (cursor : MarketCursor) : Py Unit := do
  raiseIf (¬ (r.experimentId = cursor.experimentId ∧ r.gap.ofStream cursor))
    (.gapRecoveryConflict "active recovery belongs to another cursor")
  raiseIf (r.dispatchedThrough = none ∧ ¬ progressMatches r cursor)
    (.gapRecoveryNotCaughtUp "cursor advanced without matching persisted recovery progress")
  raiseIf (¬ progressMatches r cursor)
    (.gapRecoveryNotCaughtUp "cursor and persisted recovery dispatch progress differ")

def recoveryIdForGap (gap : GapRange) : UUID :=
  .uuid5 ("maais://market-recovery/" ++ gap.experimentId.text ++ "/" ++ gap.venue ++ "/" ++
    gap.stream ++ "/" ++ gap.symbol ++ "/" ++ gap.timeframe ++ "/" ++ toString gap.startSequence ++
    "/" ++ toString gap.endSequenceExclusive ++ "/" ++ toString gap.startOpenAt ++ "/" ++
    toString gap.endOpenAtExclusive)

namespace RecoveryEnv

variable (env : RecoveryEnv)

/-- the branch of `prepare` for a gap that is not stored as active -/
def detected (table : RecoveryTable) (cursor : MarketCursor) (candidate : ObservedMarketEvent)
    (bar : ClosedBarPayload) (gap : GapRange) : RecoveryTable × Py (Option RecoveryPreparation) :=
  match table.get? (recoveryIdForGap gap) with
  | some r =>
    if r.gap ≠ gap ∨ r.experimentId ≠ cursor.experimentId then
      (table,
        .error (.gapRecoveryConflict "persisted recovery identity differs from the detected gap"))
    else env.resume candidate bar 0 table r
  | none =>
    let r := RecoveryState.create (recoveryIdForGap gap) cursor.experimentId gap (env.now 0)
    match saved table (.ok r) with
    | .error e => (table, .error e)
    | .ok (table, r) => env.resume candidate bar 1 table r

def prepare (table : RecoveryTable) (cursor : MarketCursor) (candidate : ObservedMarketEvent)
    (bar : ClosedBarPayload) : RecoveryTable × Py (Option RecoveryPreparation) :=
  match loadActive table cursor with
  | .error e => (table, .error e)
  | .ok (some r) =>
    match requireActiveCursorMatches r cursor with
    | .error e => (table, .error e)
    | .ok _ => env.resume candidate bar 0 table r
  | .ok none =>
    match detectClosedBarGap cursor candidate bar with
    | .error e => (table, .error e)
    | .ok none => (table, .ok none)
    | .ok (some gap) => env.detected table cursor candidate bar gap

end RecoveryEnv

/-! ## what a valid batch is -/

def openAt (e : ObservedMarketEvent) : Option Time :=
  match e.payload with
  | .closedBar bar => some bar.barOpenAt
  | _ => none

def GapRange.openTime (g : GapRange) (s : Nat) : Time :=
  g.startOpenAt + g.interval * ((s : Int) - g.startSequence)

variable {gap : GapRange}

theorem backfillBar_eq {e : ObservedMarketEvent} {b : Time × Nat}
    (h : backfillBar gap e = .ok b) : openAt e = some b.1 ∧ e.sequence = some b.2 := by
  unfold backfillBar at h
  split at h
  · rename_i bar hp
    simp only [bind_eq_ok, orRaise_eq_ok, pure_ok_iff] at h
    obtain ⟨_, _, _, _, s, hs, rfl⟩ := h
    exact ⟨by simp [openAt, hp], hs⟩
  · cases h

theorem mapM_backfillBar {l : List ObservedMarketEvent} {bars : List (Time × Nat)}
    (h : l.mapM (backfillBar gap) = .ok bars) :
    l.map openAt = bars.map (fun b => some b.1) ∧
      l.map (·.sequence) = bars.map (fun b => some b.2) := by
  induction l generalizing bars with
  | nil =>
    simp only [List.mapM_nil, pure_ok_iff] at h
    subst h
    exact ⟨rfl, rfl⟩
  | cons e l ih =>
    simp only [List.mapM_cons, bind_eq_ok, pure_ok_iff] at h
    obtain ⟨b, hb, bs, hbs, rfl⟩ := h
    obtain ⟨h1, h2⟩ := backfillBar_eq hb
    obtain ⟨h3, h4⟩ := ih hbs
    exact ⟨by simp [h1, h3], by simp [h2, h4]⟩

theorem missingOpenTimes_eq (g : GapRange) :
    g.missingOpenTimes = g.missingSequences.map g.openTime := by
  unfold GapRange.missingOpenTimes GapRange.missingSequences
  rw [g.missingCount_eq, List.range'_eq_map_range, List.map_map]
  refine List.map_congr_left fun i _ => ?_
  simp [GapRange.openTime]

variable {events : List ObservedMarketEvent}

theorem validateBackfill_eq {batch : BackfillBatch} (h : validateBackfill gap events = .ok batch) :
    batch = ⟨gap, events⟩ ∧ events.map (·.sequence) = gap.missingSequences.map some ∧
      events.map openAt = gap.missingSequences.map (fun s => some (gap.openTime s)) := by
  simp only [validateBackfill, bind_eq_ok, raiseIf_eq_ok, pure_ok_iff, ne_eq,
    not_not] at h
  obtain ⟨_, _, bars, hb, _, _, _, _, _, ht, _, hs, rfl⟩ := h
  obtain ⟨h1, h2⟩ := mapM_backfillBar hb
  refine ⟨rfl, ?_, ?_⟩
  · rw [h2, ← hs, List.map_map]
    rfl
  · have : bars.map (fun b => some b.1) = (bars.map (·.1)).map some := by
      rw [List.map_map]
      rfl
    rw [h1, this, ht, missingOpenTimes_eq, List.map_map]
    rfl

/-! ## the loop -/

structure RecoveryState.Advances (r q : RecoveryState) : Prop where
  recoveryId : q.recoveryId = r.recoveryId
  experimentId : q.experimentId = r.experimentId
  gap : q.gap = r.gap
  startedAt : q.startedAt = r.startedAt
  dispatchedThrough : q.dispatchedThrough = r.dispatchedThrough
  version : q.version = r.version + 1

theorem RecoveryState.advance_ok {r : RecoveryState} {t : Time} (status : RecoveryStatus)
    (attempt : Nat) (reason : Option String) (h : r.changedAt ≤ t) :
    ∃ q, r.advance status attempt reason t = .ok q ∧ r.Advances q ∧ q.status = status ∧
      q.attempt = attempt ∧ q.changedAt = t := by
  unfold RecoveryState.advance
  rw [dif_neg (not_lt.mpr h)]
  exact ⟨_, rfl, ⟨rfl, rfl, rfl, rfl, rfl, rfl⟩, rfl, rfl, rfl⟩

namespace RecoveryEnv
variable {env : RecoveryEnv} {table : RecoveryTable} {r q : RecoveryState}

theorem saved_ok (hr : table.get? r.recoveryId = some r) (h : r.Advances q) :
    saved table (.ok q) = .ok (table.set q.recoveryId q, q) := by
  have hid : ¬ (r.experimentId ≠ q.experimentId ∨ r.gap ≠ q.gap ∨ r.startedAt ≠ q.startedAt) := by
    simp [h.experimentId, h.gap, h.startedAt]
  have hold : ¬ q.version < r.version := by
    have := h.version
    omega
  have hsame : ¬ (q.version = r.version ∧ r ≠ q) := by
    have := h.version
    omega
  simp only [saved, ok_bind, recordRecovery, h.recoveryId, hr, updateRecovery, raiseIf_bind_neg hid,
    raiseIf_bind_neg hold, raiseIf_bind_neg hsame, pure_eq_ok]

/-- a recovery that is about to call the venue: stored, backfilling, and not ahead of the clock -/
structure Calling (env : RecoveryEnv) (r₀ : RecoveryState) (table : RecoveryTable)
    (r : RecoveryState) (tick : Nat) : Prop where
  stored : table.get? r₀.recoveryId = some r
  recoveryId : r.recoveryId = r₀.recoveryId
  gap : r.gap = r₀.gap
  dispatchedThrough : r.dispatchedThrough = r₀.dispatchedThrough
  status : r.status = .backfilling
  attempt : r.attempt = nextAttempt r₀
  clock : r.changedAt ≤ env.now tick

theorem begun_ok (hmono : Monotone env.now) {tick : Nat} (hact : r.status.active)
    (hr : table.get? r.recoveryId = some r) (ht : r.changedAt ≤ env.now tick) :
    ∃ table' q tick', env.begun tick table r = .ok (table', q, tick') ∧
        Calling env r table' q tick' := by
  by_cases hd : r.status = .detected
  · obtain ⟨q, hq, hadv, hs, hatt, hch⟩ :=
      RecoveryState.advance_ok .backfilling (r.attempt + 1) r.failureReason ht
    refine ⟨table.set q.recoveryId q, q, tick + 1, ?_, ?_⟩
    · rw [begun, if_pos hd, RecoveryState.beginBackfill, raiseIf_not_bind hd, hq,
        saved_ok hr hadv]
      rfl
    · exact ⟨by rw [hadv.recoveryId, Dict.get?_set_self], hadv.recoveryId, hadv.gap,
        hadv.dispatchedThrough, hs, by rw [hatt, nextAttempt, if_pos hd],
        hch.le.trans (hmono (Nat.le_succ tick))⟩
  · refine ⟨table, r, tick, by rw [begun, if_neg hd], ?_⟩
    have hb : r.status = .backfilling := hact.resolve_left hd
    exact ⟨hr, rfl, rfl, rfl, hb, by rw [nextAttempt, if_neg hd], ht⟩

theorem reason_ne (e : BackfillError) : e.reason ≠ "" := by
  intro h
  have := congrArg String.length h
  simp [BackfillError.reason] at this

/-- one turn of the loop: the answer is valid, or it was the last call, or the loop goes on -/
theorem attempts_turn (hmono : Monotone env.now) (candidate : ObservedMarketEvent)
    (bar : ClosedBarPayload) (fuel call : Nat) {tick : Nat} (hact : r.status.active)
    (hr : table.get? r.recoveryId = some r) (ht : r.changedAt ≤ env.now tick) :
    ∃ table' q tick', env.begun tick table r = .ok (table', q, tick') ∧
      Calling env r table' q tick' ∧
          ((∃ batch, env.fetch r.gap call = .ok batch ∧
          env.attempts candidate bar (fuel + 1) call tick table r =
          (table', RecoveryPreparation.postInit ⟨q, batch, candidate⟩ bar)) ∨
        (∃ e f, env.fetch r.gap call = .error e ∧ env.maxAttempts ≤ q.attempt ∧ q.Advances f ∧
          f.status = .failed ∧ f.attempt = q.attempt ∧
          saved table' (q.fail e.reason (env.now tick')) = .ok (table'.set f.recoveryId f, f) ∧
          env.attempts candidate bar (fuel + 1) call tick table r =
            (table'.set f.recoveryId f, .error (failedError f))) ∨
        ∃ e s, env.fetch r.gap call = .error e ∧ q.attempt < env.maxAttempts ∧ q.Advances s ∧
          s.status = .detected ∧ s.attempt = q.attempt ∧ s.changedAt ≤ env.now (tick' + 1) ∧
          saved table' (q.retry e.reason (env.now tick')) = .ok (table'.set s.recoveryId s, s) ∧
          env.attempts candidate bar (fuel + 1) call tick table r =
            env.attempts candidate bar fuel (call + 1) (tick' + 1)
            (table'.set s.recoveryId s) s) := by
  obtain ⟨table', q, tick', hb, hc⟩ := begun_ok hmono hact hr ht
  have hstored : table'.get? q.recoveryId = some q := by rw [hc.recoveryId]; exact hc.stored
  refine ⟨table', q, tick', hb, hc, ?_⟩
  rw [attempts, ← hc.gap]
  cases hf : env.fetch q.gap call with
  | ok batch => exact Or.inl ⟨batch, rfl, by simp only [hb, hf]⟩
  | error e =>
    by_cases hlast : env.maxAttempts ≤ q.attempt
    · obtain ⟨f, hfail, hadv, hs, hatt, _⟩ :=
        RecoveryState.advance_ok .failed q.attempt (some e.reason) hc.clock
      have hact : q.status.active := Or.inr hc.status
      have hsave : saved table' (q.fail e.reason (env.now tick')) =
          .ok (table'.set f.recoveryId f, f) := by
        rw [RecoveryState.fail, raiseIf_not_bind hact, raiseIf_bind_neg (reason_ne e), hfail,
          saved_ok hstored hadv]
      exact Or.inr (Or.inl ⟨e, f, rfl, hlast, hadv, hs, hatt,
        hsave, by simp only [hb, hf, if_pos hlast, hsave]⟩)
    · obtain ⟨s, hretry, hadv, hs, hatt, hch⟩ :=
        RecoveryState.advance_ok .detected q.attempt q.failureReason hc.clock
      have hsave : saved table' (q.retry e.reason (env.now tick')) =
          .ok (table'.set s.recoveryId s, s) := by
        rw [RecoveryState.retry, raiseIf_not_bind hc.status, raiseIf_bind_neg (reason_ne e),
          hretry, saved_ok hstored hadv]
      exact Or.inr (Or.inr ⟨e, s, rfl, not_le.mp hlast, hadv, hs, hatt,
        hch.le.trans (hmono (Nat.le_succ _)), hsave, by simp only [hb, hf, if_neg hlast, hsave]⟩)

/-- how a recovery that may still call the venue `n + 1` times ends: with the batch of its first
valid answer, or stored as failed after all of them -/
theorem attempts_cases (hmono : Monotone env.now) (candidate : ObservedMarketEvent)
    (bar : ClosedBarPayload) (n call tick : Nat) (hact : r.status.active)
    (hr : table.get? r.recoveryId = some r) (ht : r.changedAt ≤ env.now tick)
    (hn : env.maxAttempts - nextAttempt r = n) :
    (∃ i ≤ n, ∃ batch q, env.fetch r.gap (call + i) = .ok batch ∧ q.gap = r.gap ∧
        q.dispatchedThrough = r.dispatchedThrough ∧ q.status = .backfilling ∧
        (env.attempts candidate bar (n + 1) call tick table r).2 =
        RecoveryPreparation.postInit ⟨q, batch, candidate⟩ bar) ∨
      ((∀ i ≤ n, ∃ e, env.fetch r.gap (call + i) = .error e) ∧
        ∃ f, (env.attempts candidate bar (n + 1) call tick table r).2 = .error (failedError f) ∧
        (env.attempts candidate bar (n + 1) call tick table r).1.get? r.recoveryId = some f ∧
        f.status = .failed) := by
  induction n generalizing call tick table r with
  | zero =>
    obtain ⟨table', q, tick', _, hc, ⟨batch, hf, hout⟩ | ⟨e, f, hf, _, hadv, hs, _, _, hout⟩ |
      ⟨_, _, _, hmore, _⟩⟩ := attempts_turn hmono candidate bar 0 call hact hr ht
    · exact Or.inl ⟨0, le_rfl, batch, q, hf, hc.gap, hc.dispatchedThrough, hc.status, by rw [hout]⟩
    · refine Or.inr ⟨fun i hi => ⟨e, by rw [Nat.le_zero.mp hi]; exact hf⟩, f, by rw [hout], ?_, hs⟩
      rw [hout, hadv.recoveryId, hc.recoveryId, Dict.get?_set_self]
    · rw [hc.attempt] at hmore
      omega
  | succ n ih =>
    obtain ⟨table', q, tick', _, hc, ⟨batch, hf, hout⟩ | ⟨_, _, _, hlast, _⟩ |
      ⟨e, s, hf, _, hadv, hs, hatt, hclock, _, hout⟩⟩ :=
      attempts_turn hmono candidate bar (n + 1) call hact hr ht
    · exact Or.inl ⟨0, Nat.zero_le _, batch, q, hf, hc.gap, hc.dispatchedThrough,
        hc.status, by rw [hout]⟩
    · rw [hc.attempt] at hlast
      omega
    · have hid : s.recoveryId = r.recoveryId := hadv.recoveryId.trans hc.recoveryId
      have hsg : s.gap = r.gap := hadv.gap.trans hc.gap
      have hleft : env.maxAttempts - nextAttempt s = n := by
        rw [nextAttempt, if_pos hs, hatt, hc.attempt]
        omega
      rw [hout, ← hsg, ← hid]
      rcases ih (call + 1) (tick' + 1) (Or.inl hs) (Dict.get?_set_self _ _ _) hclock hleft with
        ⟨i, hi, batch, p, hfetch, hpg, hpd, hps, hres⟩ | ⟨hall, f, hres, hget, hfs⟩
      · refine Or.inl ⟨i + 1, Nat.succ_le_succ hi, batch, p, ?_, hpg,
          hpd.trans (hadv.dispatchedThrough.trans hc.dispatchedThrough), hps, hres⟩
        rw [show call + (i + 1) = call + 1 + i by omega]
        exact hfetch
      · refine Or.inr ⟨?_, f, hres, hget, hfs⟩
        intro i hi
        cases i with
        | zero => exact ⟨e, hsg ▸ hf⟩
        | succ i =>
          obtain ⟨e', he'⟩ := hall i (Nat.le_of_succ_le_succ hi)
          exact ⟨e', by rw [show call + (i + 1) = call + 1 + i by omega]; exact he'⟩

theorem fetch_eq {gap : GapRange} {call : Nat} {batch : BackfillBatch}
    (h : env.fetch gap call = .ok batch) :
    batch.gap = gap ∧ batch.events.map (·.sequence) = gap.missingSequences.map some ∧
      batch.events.map openAt = gap.missingSequences.map (fun s => some (gap.openTime s)) := by
  unfold fetch at h
  split at h
  · cases h
  · split at h
    · cases h
    · rename_i events _ _ b hv
      cases h
      obtain ⟨rfl, h1, h2⟩ := validateBackfill_eq hv
      exact ⟨rfl, h1, h2⟩

end RecoveryEnv

theorem filter_range'_lt {a n c : Nat} (h : a ≤ c + 1) :
    (List.range' a n).filter (fun s => c < s) = List.range' (c + 1) (a + n - (c + 1)) := by
  rcases le_total (a + n) (c + 1) with hle | hle
  · rw [Nat.sub_eq_zero_of_le hle, List.range'_zero, List.filter_eq_nil_iff]
    intro s hs
    have := List.mem_range'_1.mp hs
    simp only [decide_eq_true_eq]
    omega
  · have hsplit : List.range' a n = List.range' a (c + 1 - a) ++
        List.range' (c + 1) (a + n - (c + 1)) := by
      have := List.range'_append_1 (s := a) (m := c + 1 - a) (n := a + n - (c + 1))
      rw [show a + (c + 1 - a) = c + 1 by omega, show c + 1 - a + (a + n - (c + 1)) =
        n by omega] at this
      exact this.symm
    rw [hsplit, List.filter_append, List.filter_eq_nil_iff.mpr, List.filter_eq_self.mpr,
      List.nil_append]
    · intro s hs
      have := List.mem_range'_1.mp hs
      simp only [decide_eq_true_eq]
      omega
    · intro s hs
      have := List.mem_range'_1.mp hs
      simp only [decide_eq_true_eq]
      omega
/-- the events continue the cursor bar by bar up to the candidate -/
structure Continues (gap : GapRange) (cursor : MarketCursor) (candidate : ObservedMarketEvent)
    (events : List ObservedMarketEvent) : Prop where
  sequences : ∃ n, candidate.sequence = some n ∧ cursor.sequence ≤ n ∧
    events.map (·.sequence) = (List.range' (cursor.sequence + 1) (n - cursor.sequence)).map some
  openTimes : ∀ e ∈ events, ∀ s, e.sequence = some s → openAt e = some (gap.openTime s)

theorem GapRange.openTime_end (g : GapRange) :
    g.openTime g.endSequenceExclusive = g.endOpenAtExclusive := by
  have h := Int.mul_ediv_add_emod (g.endOpenAtExclusive - g.startOpenAt) g.interval
  rw [g.aligned, ← g.covers, add_zero] at h
  unfold GapRange.openTime
  rw [h]
  ring

theorem sequences_append {candidate : ObservedMarketEvent}
    (h : events.map (·.sequence) = gap.missingSequences.map some)
    (hc : candidate.sequence = some gap.endSequenceExclusive) :
    (events ++ [candidate]).map (·.sequence) =
      (List.range' gap.startSequence (gap.endSequenceExclusive + 1 - gap.startSequence)).map
      some := by
  have hlt := gap.sequence_lt
  have hlen : gap.endSequenceExclusive + 1 - gap.startSequence =
      gap.endSequenceExclusive - gap.startSequence + 1 := by omega
  rw [List.map_append, h, hlen, List.range'_1_concat, List.map_append, GapRange.missingSequences,
    show gap.startSequence + (gap.endSequenceExclusive - gap.startSequence) =
      gap.endSequenceExclusive by omega]
  simp [hc]

variable {p : RecoveryPreparation} {bar : ClosedBarPayload}

theorem dispatchEvents_continues {cursor : MarketCursor}
    (hseq : p.batch.events.map (·.sequence) = p.recovery.gap.missingSequences.map some)
    (hopen : p.batch.events.map openAt =
      p.recovery.gap.missingSequences.map (fun s => some (p.recovery.gap.openTime s)))
    (hbar : p.candidate.payload = .closedBar bar) (hf : followsGap p.recovery.gap p.candidate bar)
    (hp : progressMatches p.recovery cursor) :
    Continues p.recovery.gap cursor p.candidate p.dispatchEvents := by
  obtain ⟨_, _, _, _, hbo, hcs⟩ := hf
  have hall := sequences_append hseq hcs
  have hlt := p.recovery.gap.sequence_lt
  refine ⟨⟨p.recovery.gap.endSequenceExclusive, hcs, ?_, ?_⟩, ?_⟩
  · unfold progressMatches at hp
    split at hp
    · omega
    · rename_i d hd
      have := p.recovery.dispatched_in d (by rw [hd]; rfl)
      omega
  · -- the filter looks at the sequences only
    have hmap : p.dispatchEvents.map (·.sequence) =
        ((p.batch.events ++ [p.candidate]).map (·.sequence)).filter (fun o =>
          ∃ s ∈ o, ∀ d ∈ p.recovery.dispatchedThrough, d.1 < s) := by
      rw [List.filter_map]
      rfl
    rw [hmap, hall, List.filter_map]
    congr 1
    unfold progressMatches at hp
    split at hp
    · rename_i hd
      rw [List.filter_eq_self.mpr (by simp [hd])]
      rw [hp, show p.recovery.gap.endSequenceExclusive + 1 - p.recovery.gap.startSequence =
        p.recovery.gap.endSequenceExclusive - cursor.sequence by omega]
    · rename_i d hd
      have hin := p.recovery.dispatched_in d (by rw [hd]; rfl)
      have hfilter := filter_range'_lt (a := p.recovery.gap.startSequence)
        (n := p.recovery.gap.endSequenceExclusive + 1 - p.recovery.gap.startSequence)
          (c := d.1) (by omega)
      rw [hp.1, show p.recovery.gap.endSequenceExclusive - d.1 =
        p.recovery.gap.startSequence +
          (p.recovery.gap.endSequenceExclusive + 1 - p.recovery.gap.startSequence)
            - (d.1 + 1) by omega,
        ← hfilter]
      refine List.filter_congr fun s _ => ?_
      simp [hd]
  · intro e he s hs
    have hmem := (List.mem_filter.mp he).1
    rcases List.mem_append.mp hmem with hb | hb
    · obtain ⟨i, hi, rfl⟩ := List.mem_iff_getElem.mp hb
      have h1 := congrArg (fun l => l[i]?) hseq
      have h2 := congrArg (fun l => l[i]?) hopen
      simp only [List.getElem?_map, List.getElem?_eq_getElem hi, Option.map_some] at h1 h2
      cases hm : p.recovery.gap.missingSequences[i]? with
      | none => simp [hm] at h1
      | some n =>
        simp only [hm, Option.map_some, Option.some.injEq] at h1 h2
        rw [hs, Option.some.injEq] at h1
        rw [h2, h1]
    · have hec : e = p.candidate := by simpa using hb
      subst hec
      rw [hcs, Option.some.injEq] at hs
      rw [← hs, GapRange.openTime_end, ← hbo]
      simp [openAt, hbar]

/-- what a caller of `prepare` is promised: the bars from the cursor up to the candidate, or a
recovery stored as failed -/
def Prepared (cursor : MarketCursor) (candidate : ObservedMarketEvent) (r : RecoveryState)
    (out : RecoveryTable × Py (Option RecoveryPreparation)) : Prop :=
  (∃ p, out.2 = .ok (some p) ∧ Continues r.gap cursor candidate p.dispatchEvents) ∨
    ∃ f, out.2 = .error (failedError f) ∧ out.1.get? r.recoveryId = some f ∧ f.status = .failed

theorem postInit_preparation (hs : p.recovery.status = .backfilling)
    (hg : p.recovery.gap = p.batch.gap) (hc : bar.closed = true) :
    (followsGap p.recovery.gap p.candidate bar ∧ p.postInit bar = .ok p) ∨
    (¬ followsGap p.recovery.gap p.candidate bar ∧ p.postInit bar =
      .error (.valueError "recovery candidate does not immediately follow the gap")) := by
  have h3 : ¬ bar.closed = false := by simp [hc]
  rw [RecoveryPreparation.postInit, raiseIf_not_bind hs, raiseIf_not_bind hg,
    raiseIf_bind_neg h3]
  by_cases hf : followsGap p.recovery.gap p.candidate bar
  · exact Or.inl ⟨hf, by rw [raiseIf_not_bind hf, pure_eq_ok]⟩
  · exact Or.inr ⟨hf, by rw [raiseIf_bind_pos hf]⟩

namespace RecoveryEnv

variable {cursor : MarketCursor}

theorem loadActive_some {table : RecoveryTable} {r : RecoveryState}
    (h : loadActive table cursor = .ok (some r)) : r.status.active := by
  simp only [loadActive, bind_eq_ok, pure_ok_iff] at h
  obtain ⟨_, _, hhead⟩ := h
  have := (List.mem_filter.mp (List.mem_of_mem_head? hhead)).2
  simp only [decide_eq_true_eq] at this
  exact this.1

variable {candidate : ObservedMarketEvent} {bar : ClosedBarPayload}

theorem resume_active {env : RecoveryEnv} {table : RecoveryTable} {r : RecoveryState} (tick : Nat)
    (hact : r.status.active) : env.resume candidate bar tick table r =
      ((env.attempts candidate bar (env.callsLeft r) 0 tick table r).1,
        (env.attempts candidate bar (env.callsLeft r) 0 tick table r).2.map some) := by
  have h1 : r.status ≠ .completed := by rcases hact with h | h <;> simp [h]
  have h2 : r.status ≠ .failed := by rcases hact with h | h <;> simp [h]
  simp only [resume, if_neg h1, if_neg h2]

theorem prepare_stored {env : RecoveryEnv} {table : RecoveryTable} {r : RecoveryState}
    (hactive : loadActive table cursor = .ok (some r))
    (hmatch : requireActiveCursorMatches r cursor = .ok ()) :
    env.prepare table cursor candidate bar =
      ((env.attempts candidate bar (env.callsLeft r) 0 0 table r).1,
        (env.attempts candidate bar (env.callsLeft r) 0 0 table r).2.map some) := by
  simp only [prepare, hactive, hmatch, resume_active 0 (loadActive_some hactive)]

/-- **a stored recovery and a later bar**: `prepare` keeps its promise exactly when the bar is the
one at the end of the stored gap, or when no backfill call that is left gets a valid answer -/
theorem prepare_active_iff (env : RecoveryEnv) (hclock : Monotone env.now) (table : RecoveryTable)
    (cursor : MarketCursor) (r : RecoveryState) (candidate : ObservedMarketEvent)
    (bar : ClosedBarPayload) (hactive : loadActive table cursor = .ok (some r))
    (hstored : table.get? r.recoveryId = some r) (hchanged : r.changedAt ≤ env.now 0)
    (hmatch : requireActiveCursorMatches r cursor = .ok ())
    (hbar : candidate.payload = .closedBar bar) (hclosed : bar.closed = true) :
    Prepared cursor candidate r (env.prepare table cursor candidate bar) ↔
      followsGap r.gap candidate bar ∨ ∀ i < env.callsLeft r, ∃ e,
      env.fetch r.gap i = .error e := by
  have hact := loadActive_some hactive
  have hprogress : progressMatches r cursor := by
    simp only [requireActiveCursorMatches, bind_eq_ok, raiseIf_eq_ok, not_not] at hmatch
    obtain ⟨_, _, _, _, h⟩ := hmatch
    exact h
  rw [prepare_stored hactive hmatch]
  rcases attempts_cases hclock candidate bar (env.maxAttempts - nextAttempt r) 0 0 hact hstored
      hchanged rfl with ⟨i, hi, batch, q, hfetch, hqg, hqd, hqs, hres⟩ | ⟨hall, f, hres, hget, hfs⟩
  · -- some answer is valid: everything depends on the candidate
    obtain ⟨hbg, hseq, hopen⟩ := fetch_eq hfetch
    have hnotall : ¬ ∀ i < env.callsLeft r, ∃ e, env.fetch r.gap i = .error e := by
      intro h
      obtain ⟨e, he⟩ := h i (Nat.lt_succ_of_le hi)
      rw [Nat.zero_add] at hfetch
      rw [hfetch] at he
      cases he
    have hqm : progressMatches q cursor := by
      unfold progressMatches at hprogress ⊢
      rw [hqd, hqg]
      exact hprogress
    unfold callsLeft
    rcases postInit_preparation (p := ⟨q, batch, candidate⟩) hqs (hqg.trans hbg.symm) hclosed with
      ⟨hf, hp⟩ | ⟨hf, hp⟩
    · refine iff_of_true (Or.inl ⟨⟨q, batch, candidate⟩, by rw [hres, hp]; rfl, ?_⟩)
        (Or.inl (hqg ▸ hf))
      rw [← hqg]
      exact dispatchEvents_continues (by rw [← hqg] at hseq; exact hseq)
        (by rw [← hqg] at hopen; exact hopen) hbar hf hqm
    · refine iff_of_false ?_ (not_or.mpr ⟨hqg ▸ hf, hnotall⟩)
      rintro (⟨p, hok, _⟩ | ⟨f, herr, _⟩)
      · rw [hres, hp] at hok
        cases hok
      · rw [hres, hp] at herr
        simp [failedError, Except.map] at herr
  · -- no answer is valid: the recovery ends as failed
    refine iff_of_true (Or.inr ⟨f, by unfold callsLeft; rw [hres]; rfl, hget, hfs⟩) (Or.inr ?_)
    intro i hi
    obtain ⟨e, he⟩ := hall i (Nat.le_of_lt_succ hi)
    exact ⟨e, by rw [Nat.zero_add] at he; exact he⟩

end RecoveryEnv

/-! ## a restart inside a gap -/

theorem gapSix_interval_pos : (0 : Time) < 60 := by decide
theorem minuteBar_timeframe_ne : "1m" ≠ "" := by decide
theorem minuteBar_open_lt (k : ℕ) : (60 * k : Time) < 60 * k + 60 :=
  Int.lt_add_of_pos_right _ gapSix_interval_pos
theorem minuteEvent_venue_ne : "binance" ≠ "" := by decide
theorem minuteEvent_symbol_ne : "BTCUSDT" ≠ "" := by decide

def minuteBar (k : Nat) : ClosedBarPayload :=
  { timeframe := "1m", barOpenAt := 60 * k, barCloseAt := 60 * k + 60, closed := true,
    timeframe_ne := minuteBar_timeframe_ne, open_lt := minuteBar_open_lt k }

def minuteEvent (k : Nat) : ObservedMarketEvent :=
  { venue := "binance", stream := "kline", symbol := "BTCUSDT", eventId := "bar-" ++ toString k,
    venueEventAt := 60 * k + 60, observedAt := 60 * k + 61, sequence := some k,
    payload := .closedBar (minuteBar k), venue_ne := minuteEvent_venue_ne, stream_ne := by decide,
    symbol_ne := minuteEvent_symbol_ne
    eventId_ne := fun h => by simpa using congrArg String.toList h }

def cursorFive : MarketCursor :=
  { experimentId := ⟨"uuid:experiment"⟩, venue := "binance", stream := "kline", symbol := "BTCUSDT",
    timeframe := "1m", eventId := "bar-5", sequence := 5, venueEventAt := 360, observedAt := 361,
    barCloseAt := 360, version := 6, updatedAt := 361 }

def gapSix : GapRange :=
  { experimentId := ⟨"uuid:experiment"⟩, venue := "binance", stream := "kline", symbol := "BTCUSDT",
    timeframe := "1m", startSequence := 6, endSequenceExclusive := 8, startOpenAt := 360,
    endOpenAtExclusive := 480, interval := 60, interval_pos := gapSix_interval_pos,
    sequence_lt := by decide, open_lt := by decide, aligned := by decide, covers := by decide }

def recoverySix : RecoveryState := .create (recoveryIdForGap gapSix) ⟨"uuid:experiment"⟩ gapSix 541

def answering : RecoveryEnv :=
  { backfill := fun _ => .ok [minuteEvent 6, minuteEvent 7], now := fun _ => 700, maxAttempts := 3 }

def tableSix : RecoveryTable := Dict.empty.set recoverySix.recoveryId recoverySix

namespace RecoveryEnv

/-- with the bar that revealed the gap the recovery goes on -/
theorem prepare_active_original :
    Prepared cursorFive (minuteEvent 8) recoverySix
      (answering.prepare tableSix cursorFive (minuteEvent 8) (minuteBar 8)) :=
  (prepare_active_iff answering monotone_const tableSix cursorFive recoverySix (minuteEvent 8)
    (minuteBar 8) (by decide +kernel) (by decide +kernel) (by decide) (by decide +kernel) rfl
    rfl).mpr (Or.inl (by decide +kernel))

/-- after a restart that missed it, the next bar raises and the recovery stays active -/
theorem prepare_later_bar :
    (answering.prepare tableSix cursorFive (minuteEvent 9) (minuteBar 9)).2 =
        .error (.valueError "recovery candidate does not immediately follow the gap") ∧
      ∃ r, (answering.prepare tableSix cursorFive (minuteEvent 9) (minuteBar 9)).1.get?
        recoverySix.recoveryId = some r ∧ r.status.active := by
  refine ⟨by decide +kernel, ?_⟩
  have h : ∃ r ∈ (answering.prepare tableSix cursorFive (minuteEvent 9) (minuteBar 9)).1.get?
      recoverySix.recoveryId, r.status.active := by decide +kernel
  exact h

end RecoveryEnv

end Maais
