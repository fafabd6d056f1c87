import Maais.Worker.Flatten
import Maais.Lib.Run

/-!
# The supervised worker

Dispatch and command polling share one lock, so each of them is one step of the system; a step that
raises halts the worker, which fails the experiment and engages the kill switch.

* `World.step`  one input of the system;
* `World.Reaches`  the worlds of all runs from the creation of the experiment.
-/

namespace Maais
open Lib

def failureDetail (e : PyError) : String :=
  if strip e.parts.2 = "" then e.parts.1 else e.parts.1 ++ ":" ++ strip e.parts.2

structure PollInput where
  now : Nat → Time
  plannedAt : Time
  /-- the events that arrive while a flatten waits for books -/
  arriving : List ObservedMarketEvent

inductive Input
  | start (workerId : UUID) (startedAt haltedAt : Time)
  | ingest (event : ObservedMarketEvent) (haltedAt : Time)
  | dispatch (i : DispatchInput) (haltedAt : Time)
  | enqueue (command : OperatorCommand)
  | poll (i : PollInput) (haltedAt : Time)
  | fail (e : PyError) (haltedAt : Time)

/-! ## halting -/

namespace Database

variable (cfg : WorkerConfig) (db : Database)

def failRunning (reason : String) : Py Database :=
  if db.experiment.status = .running ∨ db.experiment.status = .paused then do
    let failed ← db.changeExperiment (·.failActive cfg.manifest reason)
    return failed.1
  else .ok db

/-- the transaction of `_halt` -/
def haltForFailure (e : PyError) (haltedAt : Time) : Py Database := do
  let failed ← db.failRunning cfg ("paper_worker:" ++ failureDetail e)
  let halted ← failed.haltControl ("paper_worker:" ++ failureDetail e) haltedAt "paper_worker"
  return halted.1

variable {cfg db} in
theorem haltForFailure_eq {e : PyError} {t : Time} {db' : Database}
    (h : db.haltForFailure cfg e t = .ok db') : ∃ c halted, db.control = some c ∧
      c.halt ("paper_worker:" ++ failureDetail e) t "paper_worker" = .ok halted ∧
      db' = { db with control := some halted, experiment := db'.experiment } ∧
      (db'.experiment = db.experiment ∨ ∃ b, db.experiment.failActive cfg.manifest
        ("paper_worker:" ++ failureDetail e) = .ok (db'.experiment, b)) := by
  simp only [haltForFailure, failRunning, bind_eq_ok, pure_eq_ok, Except.ok.injEq] at h
  obtain ⟨failed, hf, halted, hh, rfl⟩ := h
  obtain ⟨c, hc, hd, heq⟩ := haltControl_eq hh
  split at hf
  · simp only [bind_eq_ok, Except.ok.injEq] at hf
    obtain ⟨changed, hch, rfl⟩ := hf
    obtain ⟨row, hrow, hdb⟩ := changeExperiment_eq hch
    rw [hdb] at hc heq
    exact ⟨c, halted.2, hc, hd, by rw [heq], Or.inr ⟨changed.2, by rw [heq]; exact hrow⟩⟩
  · cases hf
    exact ⟨c, halted.2, hc, hd, by rw [heq], Or.inl (by rw [heq])⟩

/-! ## starting -/

def auditRecoveredState : Py Unit := do
  let account ← db.loadAccount cfg
  raiseIf (account.leverage ≠ cfg.policy.leverage)
    (.paperWorkerHalt "restored account leverage differs from run policy")
  let pending ← db.loadPendingOrders cfg
  raiseIf (pending ≠ [])
    (.paperWorkerHalt "pending paper orders require explicit startup reconciliation")
  let plans := db.execution.loadOpenExitPlans cfg.idOrder
  raiseIf (¬ (plans.map (·.positionId)).Nodup)
    (.paperWorkerHalt "protective exit plans are duplicated by position")
  raiseIf (¬ plansMatch cfg ⟨account, plans, [], 0⟩)
    (.paperWorkerHalt "every open paper position requires exactly one protective exit plan")
  raiseIf (∃ plan ∈ plans, plan.status = .triggered)
    (.paperWorkerHalt "triggered protective exits require explicit startup reconciliation")

def startMode : Py WorkerMode :=
  match db.experiment.status with
  | .created => .ok .standby
  | .running | .paused => .ok .running
  | status =>
    .error (.paperWorkerHalt ("paper worker cannot recover experiment from " ++ status.value))

end Database

namespace World

variable (cfg : WorkerConfig) (w : World)

def config : WorkerConfig := { cfg with workerId := w.workerId }

/-- `_halt` -/
def haltWorker (e : PyError) (haltedAt : Time) : World :=
  { (w.commit (w.db.haltForFailure cfg e haltedAt)).1 with mode := .halted }

def settle {α : Type} (t : Turn α) (haltedAt : Time) (f : World → α → World) : World :=
  match t.2 with
  | .ok a => f t.1 a
  | .error e => t.1.haltWorker cfg e haltedAt

/-- a new worker process: nothing is left of the memory of the last one -/
def fresh (workerId : UUID) : World :=
  { workerId, db := w.db, observations := .empty, journal := [], cursors := w.db.cursors,
    queue := [], heartbeatAt := none, mode := .halted }

/-- `_start_persistence` -/
def start (startedAt : Time) : Turn WorkerMode :=
  (w.commit (w.db.initControl startedAt (w.config cfg).workerName)).andThen fun w _ =>
    (w.attempt (w.db.auditRecoveredState cfg)).andThen fun w _ => w.attempt w.db.startMode

/-! ## polling -/

def commitCommand (x : Py (Database × OperatorCommandExecution)) :
    Turn (Option OperatorCommandExecution) :=
  match x with
  | .error e => (w, .error e)
  | .ok done => ({ w with db := done.1 }, .ok (some done.2))

/-- a planned flatten is recorded, one that cannot be planned is rejected -/
def finishFlatten (i : PollInput) (q : OperatorCommand) (plan : Py FlattenPlan) :
    Turn (Option OperatorCommandExecution) :=
  match plan with
  | .ok plan => w.commitCommand (w.db.completeFlatten (w.config cfg) q plan (i.now 1) (i.now 2))
  | .error (.flattenPlanningError reasonCode detail) =>
    w.commitCommand (w.db.rejectCommand (w.config cfg) q (i.now 1) reasonCode detail)
  | .error e => (w, .error e)

def claimFlatten (i : PollInput) (first : OperatorCommand) : Py (Database × OperatorCommand) := do
  let claimed ← w.db.claim (w.config cfg) (i.now 0)
  let q ← orRaise (claimed.2.filter (fun q => q.commandId = first.commandId))
    (.runtimeError "accepted flatten command changed during recovery")
  return (claimed.1, q)

def continueFlatten (i : PollInput) (first : OperatorCommand) :
    Turn (Option OperatorCommandExecution) :=
  match w.claimFlatten cfg i first with
  | .error e => (w, .error e)
  | .ok claimed =>
    let before := w.observations
    let w : World := { w with db := claimed.1 }
    (w.arrive cfg i.arriving).andThen fun w _ =>
      w.finishFlatten cfg i claimed.2
        (w.db.prepareFlatten (w.config cfg) claimed.2 i.plannedAt before w.observations)

def executeRequested (i : PollInput) : Turn (Option OperatorCommandExecution) :=
  match w.db.execute (w.config cfg) i.now with
  | .error e => (w, .error e)
  | .ok done => ({ w with db := done.1 }, .ok done.2)

def executeNext (i : PollInput) : Turn (Option OperatorCommandExecution) :=
  match w.db.acceptedFlattens with
  | [] => w.executeRequested cfg i
  | [first] => w.continueFlatten cfg i first
  | _ => (w, .error (.runtimeError "multiple accepted flatten commands violate serialization"))

def supervise (execution : Option OperatorCommandExecution) : World :=
  match execution with
  | none => w
  | some x =>
    if x.stopWorker = true then { w with mode := .stopping }
    else if x.activateWorker = true then { w with mode := .running }
    else w

/-! ## steps -/

def dispatchNext (i : DispatchInput) (haltedAt : Time) : World :=
  match w.queue with
  | [] => w
  | event :: rest =>
    let w : World := { w with queue := rest }
    settle cfg (w.process cfg i event) haltedAt fun w _ => w

def step (w : World) (input : Input) : World :=
  match input with
  | .start workerId startedAt haltedAt =>
    if w.mode = .halted then
      let w := w.fresh workerId
      settle cfg (w.start cfg startedAt) haltedAt fun w mode => { w with mode }
    else w
  | .ingest event haltedAt =>
    if w.mode = .running then settle cfg (w.arrive cfg [event]) haltedAt fun w _ => w else w
  | .dispatch i haltedAt =>
    if w.mode = .running ∨ w.mode = .stopping then w.dispatchNext cfg i haltedAt else w
  | .enqueue command =>
    match w.db.commands.enqueue command with
    | .error _ => w
    | .ok commands => { w with db := { w.db with commands } }
  | .poll i haltedAt =>
    if w.mode = .standby ∨ w.mode = .running then
      settle cfg (w.executeNext cfg i) haltedAt supervise
    else w
  | .fail e haltedAt => if w.mode = .halted then w else w.haltWorker cfg e haltedAt

structure Created (w : World) : Prop where
  id : w.db.experiment.id = cfg.manifest.experimentId
  manifestHash : w.db.experiment.manifestHash = cfg.manifest.manifestHash
  status : w.db.experiment.status = .created
  capital : 0 < w.db.experiment.initialCapital
  currency : w.db.experiment.currency ≠ ""
  control : w.db.control = none
  incidents : w.db.incidents = .empty
  commands : w.db.commands = .empty
  execution : w.db.execution = .empty
  cursors : w.db.cursors = .empty
  recoveries : w.db.recoveries = .empty
  mode : w.mode = .halted

def Reaches (w : World) : Prop := ∃ w₀, Created cfg w₀ ∧ Reachable (step cfg) w₀ w

end World

end Maais
