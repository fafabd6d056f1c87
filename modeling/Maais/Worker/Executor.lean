import Maais.Worker.Engine

/-!
# Operator commands

One requested command is claimed, applied and finished inside one transaction; `execute` is that
transaction, with one definition for every type of command. A flatten is only accepted here: its
orders are planned and recorded by the next poll.
-/

namespace Maais
open Lib

structure OperatorCommandExecution where
  command : OperatorCommand
  stopWorker : Bool
  activateWorker : Bool

namespace OperatorCommand

variable (q : OperatorCommand)

def payloadInt (key : String) : Option Int :=
  match q.payload.get? key with
  | some (.int i) => some i
  | _ => none

def payloadText (key : String) : Option String :=
  match q.payload.get? key with
  | some (.str s) => if s = "" then none else some s
  | _ => none

def resolutionText : Option String :=
  ((q.payloadText "resolution").map strip).filter (fun s => s ≠ "")

/-- `expected_control_version` and `expected_reason` -/
def resetPayload : Option (Int × String) := do
  let version ← q.payloadInt "expected_control_version"
  let reason ← q.payloadText "expected_reason"
  return (version, reason)

end OperatorCommand

namespace Database

variable (cfg : WorkerConfig) (db : Database)

/-- `commands.complete`, and the result handed to the supervisor -/
def completeCommand (q : OperatorCommand) (completedAt : Time) (result : CommandResult)
    (stopWorker activateWorker : Bool) : Py (Database × OperatorCommandExecution) := do
  let done ← db.commands.complete q.commandId cfg.workerName completedAt result
  return ({ db with commands := done.1 }, ⟨done.2, stopWorker, activateWorker⟩)

/-- `commands.reject` -/
def rejectCommand (q : OperatorCommand) (completedAt : Time) (reasonCode detail : String) :
    Py (Database × OperatorCommandExecution) := do
  let done ← db.commands.reject q.commandId cfg.workerName completedAt reasonCode detail
  return ({ db with commands := done.1 }, ⟨done.2, false, false⟩)

def controlResult (q : OperatorCommand) (status : ExperimentStatus)
    (control : TradingControlSnapshot) :
    ControlResult :=
  ⟨q.commandType, status, control.killSwitchActive, control.version⟩

/-! ## one type of command each -/

section
variable (q : OperatorCommand) (now : Nat → Time)

def flattenReason (commandId : UUID) : String := "operator_flatten:" ++ commandId.text

/-- a claimed flatten engages the kill switch and pauses the experiment -/
def acceptFlatten : Py (Database × OperatorCommandExecution) := do
  let control ← db.currentControl
  if control.killSwitchActive = true ∧ control.reason = some (flattenReason q.commandId) then
    return (db, ⟨q, false, false⟩)
  else
    let halted ← db.haltControl (flattenReason q.commandId) (now 1) cfg.workerName
    let paused ← halted.1.changeExperiment (·.pauseActive cfg.manifest)
    return (paused.1, ⟨q, false, false⟩)

/-- `platform.activate_run`, when a platform run is configured -/
def activatePlatform (commandId : UUID) (startedAt : Time) : Py Unit :=
  match cfg.activateRun with
  | none => .ok ()
  | some activate => activate commandId startedAt

def executeStart : Py (Database × OperatorCommandExecution) := do
  let control ← db.currentControl
  if control.killSwitchActive = true then
    db.rejectCommand cfg q (now 1) "start_blocked_by_kill_switch"
      "start requires an inactive persistent kill switch"
  else
    let started ← db.changeExperiment (·.ensureRunning cfg.manifest)
    activatePlatform cfg q.commandId (now 1)
    started.1.completeCommand cfg q (now 1) (.control (controlResult q .running control))
      false started.2

def completeIncident (incidentId : UUID) (changed : IncidentState) (completedAt : Time) :
    Py (Database × OperatorCommandExecution) := do
  let incidents ← recordIncident db.incidents changed
  completeCommand cfg { db with incidents } q completedAt
    (.incident q.commandType incidentId changed.status changed.version) false false

def changeIncident (incidentId : UUID) (incident : IncidentState) :
    Py (Database × OperatorCommandExecution) :=
  if q.commandType = .acknowledgeIncident then do
    let changed ← incident.acknowledge q.actor (now 1)
    db.completeIncident cfg q incidentId changed (now 2)
  else
    match q.resolutionText with
    | none => db.rejectCommand cfg q (now 1) "invalid_command_payload"
        "incident resolution requires nonempty resolution text"
    | some resolution => do
      let changed ← incident.resolve q.actor resolution (now 1) q.operatorConfirmed
      db.completeIncident cfg q incidentId changed (now 2)

def executeIncident : Py (Database × OperatorCommandExecution) :=
  match cfg.parseUUID (q.payload.get? "incident_id") with
  | none => db.rejectCommand cfg q (now 1) "invalid_command_payload"
      "incident action requires a valid incident_id"
  | some incidentId => do
    let incident ← getIncident db.incidents incidentId
    if incident.experimentId ≠ cfg.manifest.experimentId then
      db.rejectCommand cfg q (now 1) "incident_scope_mismatch"
        "incident does not belong to the command experiment"
    else db.changeIncident cfg q now incidentId incident

def stopReason (commandId : UUID) : String := "operator_stop:" ++ commandId.text

def stopFlat : Py (Database × OperatorCommandExecution) := do
  let halted ← db.haltControl (stopReason q.commandId) (now 1) cfg.workerName
  let stopped ← halted.1.changeExperiment (·.stopActive cfg.manifest)
  stopped.1.completeCommand cfg q (now 3) (.stop (controlResult q .stopped halted.2) 0 0) true false

def executeStop : Py (Database × OperatorCommandExecution) := do
  let account ← db.loadAccount cfg
  let pending ← db.loadPendingOrders cfg
  if account.openPositions cfg.arith ≠ [] ∨ pending ≠ [] then
    db.rejectCommand cfg q (now 1) "open_state_requires_flatten"
      "stop requires zero open positions and pending paper orders"
  else db.stopFlat cfg q now

structure ResetAllowed (control : TradingControlSnapshot) (account : AccountState)
    (pending : List (PaperOrder × ExchangeFilterSnapshot)) (version : Int)
    (reason : String) : Prop where
  paused : db.experiment.status = .paused
  exactState : control.killSwitchActive = true ∧ (control.version : Int) = version ∧
    control.reason = some reason
  flat : account.openPositions cfg.arith = []
  noPending : pending = []
  noRecoveries : db.blockingRecoveries = []
  noIncidents : blockingIncidents db.incidents = []

instance {c : TradingControlSnapshot} {a : AccountState}
    {p : List (PaperOrder × ExchangeFilterSnapshot)} {v : Int} {r : String} :
    Decidable (db.ResetAllowed cfg c a p v r) :=
  decidable_of_iff
    (db.experiment.status = .paused ∧ (c.killSwitchActive = true ∧ (c.version : Int) = v ∧
      c.reason = some r) ∧ a.openPositions cfg.arith = [] ∧ p = [] ∧ db.blockingRecoveries = [] ∧
      blockingIncidents db.incidents = [])
    ⟨fun ⟨h1, h2, h3, h4, h5, h6⟩ => ⟨h1, h2, h3, h4, h5, h6⟩,
      fun h => ⟨h.1, h.2, h.3, h.4, h.5, h.6⟩⟩

def resetFor (version : Int) (reason : String) : Py (Database × OperatorCommandExecution) := do
  let control ← db.currentControl
  let account ← db.loadAccount cfg
  let pending ← db.loadPendingOrders cfg
  if db.ResetAllowed cfg control account pending version reason then
    let reset ← db.resetControl (now 1) cfg.workerName version reason
    reset.1.completeCommand cfg q (now 2)
      (.reset (controlResult q .paused reset.2) 0 0 0 0) false false
  else
    db.rejectCommand cfg q (now 1) "unsafe_kill_switch_reset"
      ("reset requires exact paused control state, flat account, no pending orders, recoveries, or "
        ++ "unresolved review incidents")

def executeReset : Py (Database × OperatorCommandExecution) :=
  match q.resetPayload with
  | none => db.rejectCommand cfg q (now 1) "invalid_command_payload"
      "kill-switch reset requires expected_control_version and expected_reason"
  | some payload => db.resetFor cfg q now payload.1 payload.2

def pausePrefix : String := "operator_pause:"

def pausedByOperator (control : TradingControlSnapshot) : Prop :=
  ∃ reason ∈ control.reason, startsWith reason pausePrefix = true

instance (control : TradingControlSnapshot) : Decidable (pausedByOperator control) := by
  unfold pausedByOperator
  infer_instance

def clearPause (control : TradingControlSnapshot) (version : Int) :
    Py (Database × TradingControlSnapshot) :=
  if control.killSwitchActive = true then db.resetControl (now 1) cfg.workerName version pausePrefix
  else .ok (db, control)

def resumeReading (control : TradingControlSnapshot) : Nat :=
  if control.killSwitchActive = true then 3 else 2

def resumeFor (version : Int) : Py (Database × OperatorCommandExecution) := do
  let control ← db.currentControl
  if (control.version : Int) ≠ version then
    db.rejectCommand cfg q (now 1) "control_version_changed"
      "kill-switch state changed after operator confirmation"
  else if control.killSwitchActive = true ∧ ¬ pausedByOperator control then
    db.rejectCommand cfg q (now 1) "resume_requires_operator_pause"
      "resume cannot clear an emergency or system halt"
  else
    let cleared ← db.clearPause cfg now control version
    let resumed ← cleared.1.changeExperiment (·.resumePaused cfg.manifest)
    resumed.1.completeCommand cfg q (now (resumeReading control))
      (.control (controlResult q .running cleared.2)) false false

def executeResume : Py (Database × OperatorCommandExecution) :=
  match q.payloadInt "expected_control_version" with
  | none => db.rejectCommand cfg q (now 1) "invalid_command_payload"
      "resume requires integer expected_control_version"
  | some version => db.resumeFor cfg q now version

def haltReasonOf : String :=
  (if q.commandType = .pause then "operator_pause" else "operator_emergency_halt") ++ ":" ++
    q.commandId.text

/-- `PAUSE` and `EMERGENCY_HALT` -/
def executeHalt : Py (Database × OperatorCommandExecution) := do
  let halted ← db.haltControl (haltReasonOf q) (now 1) cfg.workerName
  let paused ← halted.1.changeExperiment (·.pauseActive cfg.manifest)
  paused.1.completeCommand cfg q (now 3) (.control (controlResult q .paused halted.2)) false false

def applyCommand : Py (Database × OperatorCommandExecution) :=
  match q.commandType with
  | .flatten => db.acceptFlatten cfg q now
  | .start => db.executeStart cfg q now
  | .acknowledgeIncident | .resolveIncident => db.executeIncident cfg q now
  | .stop => db.executeStop cfg q now
  | .resetKillSwitch => db.executeReset cfg q now
  | .resume => db.executeResume cfg q now
  | .pause | .emergencyHalt => db.executeHalt cfg q now

end

/-- `claim_next` -/
def claim (acceptedAt : Time) : Py (Database × Option OperatorCommand) := do
  let claimed ← CommandTable.claimNext cfg.idOrder db.commands cfg.workerName acceptedAt
  return ({ db with commands := claimed.1 }, claimed.2)

/-- the main transaction of `execute_next` -/
def execute (now : Nat → Time) : Py (Database × Option OperatorCommandExecution) := do
  let claimed ← db.claim cfg (now 0)
  match claimed.2 with
  | none => return (claimed.1, none)
  | some q => do
    let done ← claimed.1.applyCommand cfg q now
    return (done.1, some done.2)

/-! ## what a command changes -/

section
variable {cfg db} {q : OperatorCommand} {now : Nat → Time}
  {out : Database × OperatorCommandExecution} {t : Time}

theorem completeCommand_eq {result : CommandResult} {stop activate : Bool}
    (h : db.completeCommand cfg q t result stop activate = .ok out) :
    db.commands.complete q.commandId cfg.workerName t result = .ok (out.1.commands, out.2.command) ∧
      out.1 = { db with commands := out.1.commands } ∧ out.2.stopWorker = stop ∧
      out.2.activateWorker = activate := by
  simp only [completeCommand, bind_eq_ok, pure_ok_iff] at h
  obtain ⟨done, hd, rfl⟩ := h
  exact ⟨hd, rfl, rfl, rfl⟩

theorem rejectCommand_eq {reasonCode detail : String}
    (h : db.rejectCommand cfg q t reasonCode detail = .ok out) :
    db.commands.reject q.commandId cfg.workerName t reasonCode detail =
      .ok (out.1.commands, out.2.command) ∧
      out.1 = { db with commands := out.1.commands } ∧ out.2.stopWorker = false ∧
      out.2.activateWorker = false := by
  simp only [rejectCommand, bind_eq_ok, pure_ok_iff] at h
  obtain ⟨done, hd, rfl⟩ := h
  exact ⟨hd, rfl, rfl, rfl⟩

theorem claim_eq {claimed : Database} {q : Option OperatorCommand}
    (h : db.claim cfg t = .ok (claimed, q)) :
    CommandTable.claimNext cfg.idOrder db.commands cfg.workerName t = .ok (claimed.commands, q) ∧
      claimed = { db with commands := claimed.commands } := by
  simp only [claim, bind_eq_ok, pure_ok_iff, Prod.mk.injEq] at h
  obtain ⟨c, hc, rfl, rfl⟩ := h
  exact ⟨hc, rfl⟩

theorem execute_cases {db' : Database} {x : Option OperatorCommandExecution}
    (h : db.execute cfg now = .ok (db', x)) : (x = none ∧ db.claim cfg (now 0) = .ok (db', none)) ∨
      ∃ claimed q done, db.claim cfg (now 0) = .ok (claimed, some q) ∧
        claimed.applyCommand cfg q now = .ok (db', done) ∧ x = some done := by
  simp only [execute, bind_eq_ok] at h
  obtain ⟨claimed, hc, h⟩ := h
  split at h
  · rename_i hn
    cases h
    exact Or.inl ⟨rfl, by rw [hc, ← hn]⟩
  · rename_i q hs
    simp only [bind_eq_ok, pure_ok_iff, Prod.mk.injEq] at h
    obtain ⟨done, hd, rfl, rfl⟩ := h
    exact Or.inr ⟨claimed.1, q, done.2, by rw [hc, ← hs], hd, rfl⟩

end

end Database

end Maais
