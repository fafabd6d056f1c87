import Maais.Lib.Dict
import Maais.Market.Events

/-!
# Cursors, gaps and their recovery

* `MarketCursor`  how far the closed bars of one stream have been dispatched;
* `GapRange`  a run of missing bars; its time and its sequence coverage agree;
* `validateBackfill`  a batch that covers a gap exactly;
* `RecoveryState`  the life of one recovery, `recordRecovery` and `recordCursor` how it is stored.

A transition of a recovery appends one event to its history; the version counts them.
-/

namespace Maais
open Lib

/-! ## cursors -/

structure MarketCursor where
  experimentId : UUID
  venue : String
  stream : String
  symbol : String
  timeframe : String
  eventId : String
  sequence : Nat
  venueEventAt : Time
  observedAt : Time
  barCloseAt : Time
  version : Nat
  updatedAt : Time
deriving DecidableEq

namespace MarketCursor

def postInit (c : MarketCursor) : Py MarketCursor := do
  raiseIf (c.venueEventAt > c.observedAt ∨ c.barCloseAt > c.observedAt)
    (.valueError "cursor observation cannot precede venue event or bar close")
  raiseIf (c.updatedAt < c.observedAt) (.valueError "cursor update cannot precede observation")
  return c

def create (experimentId : UUID) (event : ObservedMarketEvent) (bar : ClosedBarPayload) :
    Py MarketCursor := do
  let sequence ← orRaise event.sequence (.valueError "closed-bar cursor requires a sequence")
  postInit
    { experimentId, venue := event.venue, stream := event.stream, symbol := event.symbol,
      timeframe := bar.timeframe, eventId := event.eventId, sequence,
      venueEventAt := event.venueEventAt, observedAt := event.observedAt,
      barCloseAt := bar.barCloseAt, version := 1, updatedAt := event.observedAt }

def follows (c : MarketCursor) (event : ObservedMarketEvent) (bar : ClosedBarPayload) : Prop :=
  event.venue = c.venue ∧ event.stream = c.stream ∧ event.symbol = c.symbol ∧
    bar.timeframe = c.timeframe

instance {c : MarketCursor} {e : ObservedMarketEvent} {b : ClosedBarPayload} :
    Decidable (c.follows e b) := by
  unfold follows
  infer_instance

def advanceClosedBar (c : MarketCursor) (event : ObservedMarketEvent) (bar : ClosedBarPayload) :
    Py MarketCursor := do
  raiseIf (¬ c.follows event bar) (.valueError "cursor and closed-bar identity differ")
  raiseIf (bar.closed = false) (.valueError "cursor cannot advance from an open bar")
  let sequence ← orRaise event.sequence (.valueError "closed-bar cursor requires a sequence")
  raiseIf (sequence ≤ c.sequence ∨ bar.barCloseAt ≤ c.barCloseAt)
    (.valueError "cursor regression or duplicate")
  raiseIf (sequence ≠ c.sequence + 1) (.valueError "cursor sequence gap requires recovery")
  raiseIf (bar.barOpenAt ≠ c.barCloseAt) (.valueError "cursor bar gap requires recovery")
  postInit
    { c with
      eventId := event.eventId, sequence, venueEventAt := event.venueEventAt,
      observedAt := event.observedAt, barCloseAt := bar.barCloseAt, version := c.version + 1,
      updatedAt := event.observedAt }

end MarketCursor

/-! ## gaps -/

@[ext] structure GapRange where
  experimentId : UUID
  venue : String
  stream : String
  symbol : String
  timeframe : String
  startSequence : Nat
  endSequenceExclusive : Nat
  startOpenAt : Time
  endOpenAtExclusive : Time
  interval : Time
  interval_pos : 0 < interval
  sequence_lt : startSequence < endSequenceExclusive
  open_lt : startOpenAt < endOpenAtExclusive
  aligned : (endOpenAtExclusive - startOpenAt) % interval = 0
  covers : (endSequenceExclusive : Int) - startSequence =
    (endOpenAtExclusive - startOpenAt) / interval

instance : DecidableEq GapRange := fun _ _ => decidable_of_iff _ GapRange.ext_iff.symm

namespace GapRange

/-- the constructor, with the checks of `__post_init__` -/
def make (experimentId : UUID) (venue stream symbol timeframe : String)
    (startSequence endSequenceExclusive : Nat) (startOpenAt endOpenAtExclusive interval : Time) :
    Py GapRange :=
  if h₁ : interval ≤ 0 then .error (.valueError "gap interval must be positive")
  else if h₂ : endSequenceExclusive ≤ startSequence then
    .error (.valueError "gap sequence range must contain at least one event")
  else if h₃ : endOpenAtExclusive ≤ startOpenAt then
    .error (.valueError "gap range must contain at least one interval")
  else if h₄ : (endOpenAtExclusive - startOpenAt) % interval ≠ 0 then
    .error (.valueError "gap range must align to its interval")
  else if h₅ : (endSequenceExclusive : Int) - startSequence ≠
      (endOpenAtExclusive - startOpenAt) / interval then
    .error (.valueError "gap time and sequence coverage differ")
  else .ok
    { experimentId, venue, stream, symbol, timeframe, startSequence, endSequenceExclusive,
      startOpenAt, endOpenAtExclusive, interval, interval_pos := not_le.mp h₁,
      sequence_lt := not_le.mp h₂, open_lt := not_le.mp h₃, aligned := not_not.mp h₄,
      covers := not_not.mp h₅ }

variable (g : GapRange)

def missingCount : Nat := ((g.endOpenAtExclusive - g.startOpenAt) / g.interval).toNat

def missingOpenTimes : List Time :=
  (List.range g.missingCount).map (fun (index : Nat) => g.startOpenAt + g.interval * (index : Int))

def missingSequences : List Nat :=
  List.range' g.startSequence (g.endSequenceExclusive - g.startSequence)

theorem missingCount_eq : g.missingCount = g.endSequenceExclusive - g.startSequence := by
  have h := g.covers
  have hlt := g.sequence_lt
  unfold missingCount
  omega

def ofStream (c : MarketCursor) : Prop :=
  g.venue = c.venue ∧ g.stream = c.stream ∧ g.symbol = c.symbol ∧ g.timeframe = c.timeframe

instance {c : MarketCursor} : Decidable (g.ofStream c) := by
  unfold ofStream
  infer_instance

end GapRange

def detectClosedBarGap (cursor : MarketCursor) (candidate : ObservedMarketEvent)
    (bar : ClosedBarPayload) : Py (Option GapRange) := do
  raiseIf (¬ cursor.follows candidate bar) (.valueError "candidate and cursor identity differ")
  raiseIf (bar.closed = false) (.valueError "gap detection requires a closed candidate bar")
  raiseIf (bar.barOpenAt < cursor.barCloseAt) (.valueError "candidate bar regresses behind cursor")
  let sequence ← orRaise (candidate.sequence.filter (fun s => cursor.sequence < s))
    (.valueError "candidate sequence regresses behind cursor")
  if bar.barOpenAt = cursor.barCloseAt ∧ sequence = cursor.sequence + 1 then return none
  else
    raiseIf (bar.barOpenAt = cursor.barCloseAt)
      (.valueError "sequence gap exists without a closed-bar time gap")
    let gap ← GapRange.make cursor.experimentId cursor.venue cursor.stream cursor.symbol
      cursor.timeframe (cursor.sequence + 1) sequence cursor.barCloseAt bar.barOpenAt
      (bar.barCloseAt - bar.barOpenAt)
    return some gap

/-! ## backfills -/

structure BackfillBatch where
  gap : GapRange
  events : List ObservedMarketEvent
deriving DecidableEq

/-- the type and the text of an exception a backfill attempt ended with -/
structure BackfillError where
  typeName : String
  message : String

/-- `_failure_reason` -/
def BackfillError.reason (e : BackfillError) : String :=
  e.typeName ++ ":" ++ (if e.message = "" then "no detail" else e.message)

def backfillBar (gap : GapRange) (event : ObservedMarketEvent) : Except String (Time × Nat) :=
  match event.payload with
  | .closedBar bar => do
    raiseIf (¬ (event.venue = gap.venue ∧ event.stream = gap.stream ∧ event.symbol = gap.symbol ∧
      bar.timeframe = gap.timeframe)) "backfill identity differs from the gap"
    raiseIf (bar.closed = false) "backfill contains an open rather than closed bar"
    let sequence ← orRaise event.sequence "backfill contains an event without a sequence"
    return (bar.barOpenAt, sequence)
  | _ => .error "backfill contains a non-bar event"

/-- the checks of `validate_backfill`; the text of a raise is returned -/
def validateBackfill (gap : GapRange) (events : List ObservedMarketEvent) :
    Except String BackfillBatch := do
  raiseIf (events.length ≠ gap.missingCount)
    ("backfill coverage differs: expected " ++ toString gap.missingCount ++ ", got " ++
      toString events.length)
  let bars ← events.mapM (backfillBar gap)
  let actualOpenTimes := bars.map (·.1)
  let actualSequences := bars.map (·.2)
  raiseIf (¬ actualOpenTimes.Pairwise (· ≤ ·)) "backfill events are not ordered"
  raiseIf (¬ actualOpenTimes.Nodup) "backfill contains duplicate bar opens"
  raiseIf (actualOpenTimes ≠ gap.missingOpenTimes)
    "backfill coverage does not exactly match the gap"
  raiseIf (actualSequences ≠ gap.missingSequences)
    "backfill sequence coverage does not exactly match the gap"
  return ⟨gap, events⟩

/-! ## recoveries -/

inductive RecoveryStatus
  | detected | backfilling | completed | failed
deriving DecidableEq

def RecoveryStatus.active (s : RecoveryStatus) : Prop := s = .detected ∨ s = .backfilling

instance (s : RecoveryStatus) : Decidable s.active := by
  unfold RecoveryStatus.active
  infer_instance

@[ext] structure RecoveryState where
  recoveryId : UUID
  experimentId : UUID
  gap : GapRange
  status : RecoveryStatus
  attempt : Nat
  /-- the hash of a batch is represented by the batch -/
  sourceHash : Option BackfillBatch
  failureReason : Option String
  startedAt : Time
  changedAt : Time
  completedAt : Option Time
  version : Nat
  /-- the last dispatched bar: its sequence and its event id -/
  dispatchedThrough : Option (Nat × String)
  started_le : startedAt ≤ changedAt
  dispatched_in : ∀ d ∈ dispatchedThrough, gap.startSequence ≤ d.1 ∧ d.1 ≤ gap.endSequenceExclusive

instance : DecidableEq RecoveryState := fun _ _ => decidable_of_iff _ RecoveryState.ext_iff.symm

namespace RecoveryState

def create (recoveryId experimentId : UUID) (gap : GapRange) (startedAt : Time) : RecoveryState :=
  { recoveryId, experimentId, gap, status := .detected, attempt := 0, sourceHash := none,
    failureReason := none, startedAt, changedAt := startedAt, completedAt := none, version := 1,
    dispatchedThrough := none, started_le := le_refl _, dispatched_in := by simp }

variable (r : RecoveryState)

/-- `_advance`: one more event, no earlier than the last -/
def advance (status : RecoveryStatus) (attempt : Nat) (failureReason : Option String)
    (eventAt : Time) : Py RecoveryState :=
  if h : eventAt < r.changedAt then .error (.valueError "recovery event time cannot regress")
  else .ok
    { r with
      status, attempt, failureReason, changedAt := eventAt, version := r.version + 1,
      started_le := le_trans r.started_le (not_lt.mp h) }

/-- `begin` -/
def beginBackfill (changedAt : Time) : Py RecoveryState := do
  raiseIf (r.status ≠ .detected) (.runtimeError "only detected recovery can begin backfilling")
  r.advance .backfilling (r.attempt + 1) r.failureReason changedAt

def retry (reason : String) (retryAt : Time) : Py RecoveryState := do
  raiseIf (r.status ≠ .backfilling)
    (.runtimeError "only a backfilling recovery can schedule a retry")
  raiseIf (reason = "") (.valueError "recovery retry reason is required")
  r.advance .detected r.attempt r.failureReason retryAt

def fail (reason : String) (failedAt : Time) : Py RecoveryState := do
  raiseIf (¬ r.status.active) (.runtimeError "only an active recovery can fail")
  raiseIf (reason = "") (.valueError "recovery failure reason is required")
  r.advance .failed r.attempt (some reason) failedAt

def expectedSequence : Nat :=
  match r.dispatchedThrough with
  | none => r.gap.startSequence
  | some d => d.1 + 1

theorem start_le_expected : r.gap.startSequence ≤ r.expectedSequence := by
  unfold expectedSequence
  split
  · exact le_refl _
  · rename_i d hd
    have := (r.dispatched_in d (by rw [hd]; rfl)).1
    omega

def recordDispatch (cursor : MarketCursor) (changedAt : Time) : Py RecoveryState :=
  if r.status ≠ .backfilling then
    .error (.runtimeError "only a backfilling recovery can record dispatch progress")
  else if ¬ (cursor.experimentId = r.experimentId ∧ r.gap.ofStream cursor) then
    .error (.valueError "recovery dispatch cursor identity differs")
  else if h : cursor.sequence ≠ r.expectedSequence ∨
      r.gap.endSequenceExclusive < cursor.sequence then
    .error (.valueError "recovery dispatch cursor is not the next expected event")
  else if ht : changedAt < r.changedAt then
    .error (.valueError "recovery event time cannot regress")
  else .ok
    { r with
      changedAt, version := r.version + 1,
      dispatchedThrough := some (cursor.sequence, cursor.eventId),
      started_le := le_trans r.started_le (not_lt.mp ht)
      dispatched_in := by
        rw [not_or, not_not, not_lt] at h
        intro d hd
        cases hd
        exact ⟨h.1 ▸ r.start_le_expected, h.2⟩ }

/-- `complete`: every bar of the gap and the candidate were dispatched -/
def complete (batch : BackfillBatch) (completedAt : Time) : Py RecoveryState := do
  raiseIf (r.status ≠ .backfilling) (.runtimeError "only backfilling recovery can complete")
  raiseIf (batch.gap ≠ r.gap) (.valueError "backfill batch belongs to another gap")
  match validateBackfill r.gap batch.events with
  | .error message => .error (.valueError message)
  | .ok validated => do
    raiseIf (validated ≠ batch) (.valueError "backfill batch content hash is invalid")
    raiseIf (r.dispatchedThrough.map (·.1) ≠ some r.gap.endSequenceExclusive)
      (.runtimeError "recovery cannot complete before every event is dispatched")
    let advanced ← r.advance .completed r.attempt r.failureReason completedAt
    return { advanced with sourceHash := some batch, completedAt := some completedAt }

end RecoveryState

/-! ## storing them -/

abbrev RecoveryTable := Dict UUID RecoveryState

/-- another active recovery of the same stream, which the partial index refuses -/
def conflictsWith (r other : RecoveryState) : Prop :=
  r.status.active ∧ other.status.active ∧ other.experimentId = r.experimentId ∧
    other.gap.venue = r.gap.venue ∧ other.gap.stream = r.gap.stream ∧
    other.gap.symbol = r.gap.symbol ∧ other.gap.timeframe = r.gap.timeframe

instance {r other : RecoveryState} : Decidable (conflictsWith r other) := by
  unfold conflictsWith
  infer_instance

/-- `record_recovery` on a stored recovery -/
def updateRecovery (table : RecoveryTable) (r existing : RecoveryState) : Py RecoveryTable := do
  raiseIf (existing.experimentId ≠ r.experimentId ∨ existing.gap ≠ r.gap ∨
      existing.startedAt ≠ r.startedAt)
    (.operationalStateConflict "recovery immutable identity has changed")
  raiseIf (r.version < existing.version)
    (.staleOperationalState "recovery state is older than persisted state")
  raiseIf (r.version = existing.version ∧ existing ≠ r)
    (.operationalStateConflict "recovery version has different content")
  return table.set r.recoveryId r

def recordRecovery (table : RecoveryTable) (r : RecoveryState) : Py RecoveryTable :=
  match table.get? r.recoveryId with
  | some existing => updateRecovery table r existing
  | none => do
    raiseIf (∃ other ∈ table.values, conflictsWith r other)
      (.activeRecoveryConflict "another recovery is active for this cursor")
    return table.set r.recoveryId r

abbrev CursorKey := String × String × String × String

def cursorKey (c : MarketCursor) : CursorKey := (c.venue, c.stream, c.symbol, c.timeframe)

abbrev CursorTable := Dict CursorKey MarketCursor

/-- `record_cursor` on a stored cursor -/
def updateCursor (table : CursorTable) (c existing : MarketCursor) : Py CursorTable := do
  raiseIf (c.version < existing.version)
    (.staleOperationalState "cursor state is older than persisted state")
  raiseIf (c.version = existing.version ∧ existing ≠ c)
    (.operationalStateConflict "cursor version has different content")
  raiseIf (c.version ≠ existing.version ∧ c.version ≠ existing.version + 1)
    (.staleOperationalState "cursor versions must be contiguous")
  raiseIf (c.version ≠ existing.version ∧ c.sequence ≠ existing.sequence + 1)
    (.staleOperationalState "cursor source sequences must be contiguous")
  raiseIf (c.version ≠ existing.version ∧ c.barCloseAt ≤ existing.barCloseAt)
    (.staleOperationalState "cursor bar close time must advance")
  return table.set (cursorKey c) c

def recordCursor (table : CursorTable) (c : MarketCursor) : Py CursorTable :=
  match table.get? (cursorKey c) with
  | some existing => updateCursor table c existing
  | none => .ok (table.set (cursorKey c) c)

end Maais
