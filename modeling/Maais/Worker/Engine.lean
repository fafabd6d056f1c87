import Maais.Lib.Outcome
import Maais.Worker.Entry

/-!
# The dispatch engine

One worker with its database: the observation buffer, the journal of events, the cursors and the
queue of events that wait for their dispatch. A transaction that raises leaves the database as it
was, and the transactions before it stay: `Turn` is the world after a call together with what the
call returned.
-/

namespace Maais
open Lib

/-- what the supervisor lets a worker do: commands only, everything, the rest of its queue,
nothing -/
inductive WorkerMode
  | standby | running | stopping | halted
deriving DecidableEq

structure World where
  workerId : UUID
  db : Database
  observations : ObservationBuffer
  journal : List ObservedMarketEvent
  cursors : CursorTable
  queue : List ObservedMarketEvent
  /-- when the components were last seen alive: at the last closed bar -/
  heartbeatAt : Option Time
  mode : WorkerMode

structure DispatchInput where
  arriving : Nat → List ObservedMarketEvent
  /-- what the decision chain makes of the `k`-th dispatched bar -/
  cycles : Nat → CycleInput
  backfill : Nat → Except BackfillError (List ObservedMarketEvent)
  now : Nat → Time
  progressAt : Nat → Time

abbrev Turn (α : Type) := Outcome World PyError α

structure EngineConfig where
  experimentId : UUID
  symbols : List String
  journalCapacity : Nat
  maxRecoveryAttempts : Nat

def WorkerConfig.engine (cfg : WorkerConfig) : EngineConfig :=
  ⟨cfg.manifest.experimentId, cfg.manifest.symbols, cfg.journalCapacity, cfg.maxRecoveryAttempts⟩

namespace MarketEventJournal

def trim (capacity : Nat) (events : List ObservedMarketEvent) (symbol : String) :
    List ObservedMarketEvent :=
  if capacity < (events.filter (fun e => e.symbol = symbol)).length then
    events.eraseP (fun e => e.symbol = symbol)
  else events

/-- `append`; `none` when the event is already there -/
def append (cfg : EngineConfig) (journal : List ObservedMarketEvent) (event : ObservedMarketEvent) :
    Py (Option (List ObservedMarketEvent)) := do
  raiseIf (event.symbol ∉ cfg.symbols)
    (.workerEventConflict ("event symbol is not configured: " ++ event.symbol))
  match journal.find? (fun e => e.identity = event.identity) with
  | some existing => do
    raiseIf (existing ≠ event) (.workerEventConflict "event identity has different content")
    return none
  | none => return some (trim cfg.journalCapacity (journal ++ [event]) event.symbol)

end MarketEventJournal

namespace World

variable (cfg : WorkerConfig) (w : World)

abbrev attempt {α : Type} (x : Py α) : Turn α := Outcome.attempt w x

def commit (x : Py Database) : Turn Unit :=
  match x with
  | .error e => (w, .error e)
  | .ok db => ({ w with db }, .ok ())

def arrive (events : List ObservedMarketEvent) : Turn Unit :=
  match w.observations.observeAll cfg events with
  | .error e => (w, .error e)
  | .ok observations => ({ w with observations, queue := w.queue ++ events }, .ok ())

def appendJournal (event : ObservedMarketEvent) : Py (Option World) := do
  let journal ← MarketEventJournal.append cfg.engine w.journal event
  return journal.map fun journal => { w with journal }

/-! ## closed bars -/

/-- one bar through the dispatcher; the cursor moves when its transaction is committed -/
def dispatchBar (i : DispatchInput) (k : Nat) (event : ObservedMarketEvent) (bar : ClosedBarPayload)
    (target : MarketCursor) (progress : Option RecoveryState) : Turn Unit :=
  (w.arrive cfg (i.arriving k)).andThen fun w _ =>
    (w.commit (w.db.dispatch cfg w.observations event bar (i.cycles k) target progress)).andThen
        fun w _ =>
      ({ w with cursors := w.cursors.set (cursorKey target) target }, .ok ())

/-- a recovered bar enters the journal, unless it is the candidate itself -/
def appendRecovered (candidate event : ObservedMarketEvent) : Py World :=
  if event.identity = candidate.identity then .ok w
  else do
    let appended ← w.appendJournal cfg event
    return appended.getD w

def barOf (event : ObservedMarketEvent) : Py ClosedBarPayload :=
  match event.payload with
  | .closedBar bar => .ok bar
  | _ => .error (.valueError "cycle dispatcher requires a closed-bar event")

def recoverBar (i : DispatchInput) (candidate : ObservedMarketEvent) (k : Nat)
    (p : RecoveryPreparation) (cursor : MarketCursor) (event : ObservedMarketEvent) :
    Turn (RecoveryPreparation × MarketCursor) :=
  (w.attempt (w.appendRecovered cfg candidate event)).andThen fun _ w =>
    (w.attempt (barOf event)).andThen fun w bar =>
      (w.attempt (cursor.advanceClosedBar event bar)).andThen fun w target =>
        (w.attempt (p.recovery.recordDispatch target (i.progressAt k))).andThen fun w progressed =>
          (w.dispatchBar cfg i k event bar target (some progressed)).andThen fun w _ =>
            (w, .ok ({ p with recovery := progressed }, target))

def recoverBars (i : DispatchInput) (candidate : ObservedMarketEvent) :
    Nat → List ObservedMarketEvent → World → RecoveryPreparation → MarketCursor →
      Turn (RecoveryPreparation × MarketCursor)
  | _, [], w, p, cursor => (w, .ok (p, cursor))
  | k, event :: rest, w, p, cursor =>
    (w.recoverBar cfg i candidate k p cursor event).andThen fun w next =>
      recoverBars i candidate (k + 1) rest w next.1 next.2

def requireCaughtUp (p : RecoveryPreparation) (bar : ClosedBarPayload) (cursor : MarketCursor) :
    Py Unit := do
  raiseIf (¬ (cursor.experimentId = p.recovery.experimentId ∧ cursor.follows p.candidate bar ∧
      cursor.eventId = p.candidate.eventId ∧ some cursor.sequence = p.candidate.sequence ∧
      cursor.barCloseAt = bar.barCloseAt))
    (.gapRecoveryNotCaughtUp "recovery cannot complete before the candidate cursor is durable")
  raiseIf (p.recovery.dispatchedThrough ≠ some (cursor.sequence, cursor.eventId))
    (.gapRecoveryNotCaughtUp "recovery progress was not persisted through the candidate cursor")

/-- `complete` of the manager and of its store -/
def completeRecovery (p : RecoveryPreparation) (bar : ClosedBarPayload) (cursor : MarketCursor)
    (completedAt : Time) : Py Database := do
  requireCaughtUp p bar cursor
  let completed ← p.recovery.complete p.batch completedAt
  let persisted ← orRaise (w.db.cursors.get? (cursorKey cursor))
    (.gapRecoveryNotCaughtUp "recovery cursor does not exist at completion")
  raiseIf (persisted ≠ cursor)
    (.gapRecoveryNotCaughtUp "persisted recovery cursor differs from the caught-up cursor")
  let recoveries ← recordRecovery w.db.recoveries completed
  return { w.db with recoveries }

def recover (i : DispatchInput) (bar : ClosedBarPayload) (p : RecoveryPreparation)
    (cursor : MarketCursor) : Turn Unit :=
  (recoverBars cfg i p.candidate 0 p.dispatchEvents w p cursor).andThen fun w done =>
    w.commit (w.completeRecovery done.1 bar done.2 (i.progressAt p.dispatchEvents.length))

def recoveryEnv (i : DispatchInput) : RecoveryEnv :=
  { backfill := i.backfill, now := i.now, maxAttempts := cfg.maxRecoveryAttempts }

/-- the part of `_dispatch_closed_bar` behind `prepare` -/
def dispatchPrepared (i : DispatchInput) (candidate : ObservedMarketEvent) (bar : ClosedBarPayload)
    (cursor : MarketCursor) (prepared : Option RecoveryPreparation) : Turn Unit :=
  match prepared with
  | none =>
    (w.attempt (cursor.advanceClosedBar candidate bar)).andThen fun w target =>
      w.dispatchBar cfg i 0 candidate bar target none
  | some p => w.recover cfg i bar p cursor

/-- a bar of a stream with a cursor; the recovery is saved also when `prepare` raises -/
def dispatchAfter (i : DispatchInput) (candidate : ObservedMarketEvent) (bar : ClosedBarPayload)
    (cursor : MarketCursor) : Turn Unit :=
  let prepared := (recoveryEnv cfg i).prepare w.db.recoveries cursor candidate bar
  let w : World := { w with db := { w.db with recoveries := prepared.1 } }
  (w.attempt prepared.2).andThen fun w prepared =>
    w.dispatchPrepared cfg i candidate bar cursor prepared

def dispatchClosedBar (i : DispatchInput) (candidate : ObservedMarketEvent)
    (bar : ClosedBarPayload) : Turn Unit :=
  if bar.closed = false then
    (w, .error (.workerEventConflict "closed-bar dispatch requires a final bar payload"))
  else
    match w.cursors.get? (candidate.venue, candidate.stream, candidate.symbol, bar.timeframe) with
    | none =>
      (w.attempt (MarketCursor.create cfg.manifest.experimentId candidate bar)).andThen
          fun w target =>
        w.dispatchBar cfg i 0 candidate bar target none
    | some cursor => w.dispatchAfter cfg i candidate bar cursor

/-! ## every event -/

def processNew (i : DispatchInput) (event : ObservedMarketEvent) : Turn Unit :=
  match event.payload with
  | .closedBar bar => w.dispatchClosedBar cfg i event bar
  | _ =>
    let before := w.observations
    (w.arrive cfg (i.arriving 0)).andThen fun w _ =>
      w.commit (w.db.observe cfg before w.observations event)

/-- a call that raised takes its events out of the journal again -/
def rollbackJournal (journal : List ObservedMarketEvent) (t : Turn Unit) : Turn Unit :=
  match t.2 with
  | .ok _ => t
  | .error e =>
    ({ t.1 with journal := t.1.journal.filter (fun event => event ∈ journal) }, .error e)

/-- `ClosedBarDispatchEngine.process` -/
def processEvent (i : DispatchInput) (event : ObservedMarketEvent) : Turn Unit :=
  match w.appendJournal cfg event with
  | .error e => (w, .error e)
  | .ok none => (w, .ok ())
  | .ok (some appended) => rollbackJournal w.journal (appended.processNew cfg i event)

/-- the heartbeats of the mandatory components, all at the observation of a closed bar -/
def heartbeat (event : ObservedMarketEvent) : Py World :=
  match event.payload with
  | .closedBar _ => do
    raiseIf (∃ t ∈ w.heartbeatAt, event.observedAt < t)
      (.runtimeObservationConflict "runtime health observation regressed")
    return { w with heartbeatAt := some event.observedAt }
  | _ => .ok w

/-- `HealthAwareDispatchEngine.process` -/
def process (i : DispatchInput) (event : ObservedMarketEvent) : Turn Unit :=
  match w.heartbeat event with
  | .error e => (w, .error e)
  | .ok alive => alive.processEvent cfg i event

end World

end Maais
