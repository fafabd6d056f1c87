import Maais.Control.State

/-!
# Operator commands and their inbox

A command is requested, accepted by a worker, then completed or rejected.  `claimNext` hands a
worker the next command: an accepted one first, then the oldest requested one.
-/

namespace Maais
open Lib

inductive CommandType
  | start | pause | resume | stop | emergencyHalt | flatten | acknowledgeIncident | resolveIncident
  | resetKillSwitch
deriving DecidableEq

def CommandType.value : CommandType → String
  | .start => "start"
  | .pause => "pause"
  | .resume => "resume"
  | .stop => "stop"
  | .emergencyHalt => "emergency_halt"
  | .flatten => "flatten"
  | .acknowledgeIncident => "acknowledge_incident"
  | .resolveIncident => "resolve_incident"
  | .resetKillSwitch => "reset_kill_switch"

inductive CommandStatus
  | requested | accepted | completed | rejected
deriving DecidableEq

/-- `_SAFETY_CRITICAL`: every type but the acknowledgement of an incident -/
def CommandType.safetyCritical (t : CommandType) : Prop := t ≠ .acknowledgeIncident

instance (t : CommandType) : Decidable t.safetyCritical := by
  unfold CommandType.safetyCritical
  infer_instance

def confirmationPhrase (t : CommandType) : String := "CONFIRM " ++ t.value.toUpper

/-- a value of a command payload; `other` stands for numbers with a fraction, arrays and objects -/
inductive JsonValue
  | null
  | bool (b : Bool)
  | int (i : Int)
  | str (s : String)
  | other (text : String)
deriving DecidableEq

abbrev Document := Dict String JsonValue

/-! ## results -/

structure ControlResult where
  command : CommandType
  experimentStatus : ExperimentStatus
  killSwitchActive : Bool
  controlVersion : Nat
deriving DecidableEq

structure FlattenedOrder where
  orderId : UUID
  symbol : String
  side : PaperOrderSide
  quantity : ℚ
  fillId : UUID
  marketEventId : String
  fillAt : Time
  price : ℚ
  fee : ℚ
  triggerMarkEventId : String
  triggerMarkObservedAt : Time
  triggerMarkPrice : ℚ
  eligibleAfter : Time
deriving DecidableEq

inductive CommandResult
  | rejection (reasonCode detail : String)
  | control (r : ControlResult)
  | incident (command : CommandType) (incidentId : UUID) (incidentStatus : IncidentStatus)
    (incidentVersion : Nat)
  | stop (r : ControlResult) (openPositions pendingOrders : Nat)
  | reset (r : ControlResult)
    (openPositions pendingOrders blockingRecoveries blockingIncidents : Nat)
  | flatten (r : ControlResult) (sourceAccountVersion finalAccountVersion flattenedPositions : Nat)
    (orders : List FlattenedOrder) (plannedAt : Time)
  | document (d : Document)
deriving DecidableEq

/-! ## commands -/

/-- an idempotency key: 8 to 128 characters, trimmed -/
def ValidKey (s : String) : Prop := Trimmed s ∧ 8 ≤ s.length ∧ s.length ≤ 128

instance (s : String) : Decidable (ValidKey s) := by
  unfold ValidKey
  infer_instance

/-- version, acceptance and completion that belong to a status -/
def CommandShape (status : CommandStatus) (version : Nat) (accepted : Option (Time × String))
    (completed : Option (Time × CommandResult)) : Prop :=
  match status with
  | .requested => version = 1 ∧ accepted = none ∧ completed = none
  | .accepted => 2 ≤ version ∧ accepted ≠ none ∧ completed = none
  | .completed | .rejected => 3 ≤ version ∧ accepted ≠ none ∧ completed ≠ none

structure OperatorCommand where
  commandId : UUID
  experimentId : UUID
  commandType : CommandType
  status : CommandStatus
  idempotencyKey : String
  actor : String
  reason : String
  payload : Dict String JsonValue
  operatorConfirmed : Bool
  requestedAt : Time
  version : Nat
  /-- `accepted_at`, `accepted_by` -/
  accepted : Option (Time × String)
  /-- `completed_at`, `result` -/
  completed : Option (Time × CommandResult)
  key_valid : ValidKey idempotencyKey
  actor_trimmed : Trimmed actor
  reason_trimmed : Trimmed reason
  confirmed : commandType.safetyCritical → operatorConfirmed = true
  shape : CommandShape status version accepted completed
  accepted_le : ∀ a ∈ accepted, requestedAt ≤ a.1
  completed_le : ∀ c ∈ completed, ∃ a ∈ accepted, a.1 ≤ c.1
deriving DecidableEq

theorem requested_shape : CommandShape .requested 1 none none := ⟨rfl, rfl, rfl⟩

theorem none_completed : ∀ c ∈ (none : Option (Time × CommandResult)),
    ∃ a ∈ (none : Option (Time × String)), a.1 ≤ c.1 := by
  simp

namespace OperatorCommand

def request (commandId experimentId : UUID) (commandType : CommandType)
    (idempotencyKey actor reason : String) (payload : Dict String JsonValue)
    (confirmation : Option String) (requestedAt : Time) : Py OperatorCommand :=
  if h : commandType.safetyCritical ∧ confirmation ≠ some (confirmationPhrase commandType) then
    .error (.valueError ("command requires exact confirmation: " ++ confirmationPhrase commandType))
  else if hk : ¬ ValidKey idempotencyKey then
    .error (.valueError "idempotency key must be 8-128 trimmed characters")
  else if ha : ¬ Trimmed actor then
    .error (.valueError "operator command actor must be nonempty and trimmed")
  else if hr : ¬ Trimmed reason then
    .error (.valueError "operator command reason must be nonempty and trimmed")
  else .ok
    { commandId, experimentId, commandType, status := .requested, idempotencyKey, actor, reason,
      payload, operatorConfirmed := decide (confirmation = some (confirmationPhrase commandType)),
      requestedAt, version := 1, accepted := none, completed := none, key_valid := not_not.mp hk
      actor_trimmed := not_not.mp ha, reason_trimmed := not_not.mp hr
      confirmed := fun hs => decide_eq_true (not_not.mp (not_and.mp h hs))
      shape := requested_shape, accepted_le := by simp, completed_le := none_completed }

variable (q : OperatorCommand)

/-- `accept`, with the check of the acceptance time that `__post_init__` makes -/
def accept (acceptedAt : Time) (workerId : String) : Py OperatorCommand :=
  if q.status = .accepted then
    if q.accepted.map (·.2) = some workerId then .ok q
    else .error (.valueError "operator command was accepted by a different worker")
  else if hs : q.status ≠ .requested then
    .error (.valueError "only a requested operator command can be accepted")
  else if ht : acceptedAt < q.requestedAt then
    .error (.valueError "operator command acceptance time cannot regress")
  else .ok
    { q with
      status := .accepted, version := 2, accepted := some (acceptedAt, workerId), completed := none
      shape := ⟨le_refl 2, by simp, rfl⟩
      accepted_le := by simpa using not_lt.mp ht
      completed_le := by simp }

def takeOver (workerId : String) : Py OperatorCommand :=
  if hs : q.status = .accepted then
    match ha : q.accepted with
    | none => .ok q
    | some (at', by') =>
      if by' = workerId then .ok q
      else .ok
        { q with
          version := q.version + 1, accepted := some (at', workerId)
          shape := by
            have h := q.shape
            rw [hs] at h ⊢
            exact ⟨Nat.le_succ_of_le h.1, by simp, h.2.2⟩
          accepted_le := by
            have h := q.accepted_le (at', by') (by simp [ha])
            simpa using h
          completed_le := by
            have h := q.shape
            rw [hs] at h
            simp [h.2.2] }
  else .error (.valueError "only an accepted operator command can be taken over")

/-- the shared end of `complete` and `reject`: the completion, with the check of its time -/
def finish (status : CommandStatus) (hf : status = .completed ∨ status = .rejected)
    (completedAt : Time) (result : CommandResult) (verb : String) : Py OperatorCommand :=
  if hs : q.status ≠ .accepted then
    .error (.valueError ("only an accepted operator command can be " ++ verb))
  else if ht : ∃ a ∈ q.accepted, completedAt < a.1 then
    .error (.valueError "operator command completion time cannot regress")
  else .ok
    { q with
      status := status, version := q.version + 1, completed := some (completedAt, result)
      shape := by
        have h := q.shape
        rw [not_not.mp hs] at h
        rcases hf with rfl | rfl <;> exact ⟨Nat.succ_le_succ h.1, h.2.1, by simp⟩
      completed_le := by
        have h := q.shape
        rw [not_not.mp hs] at h
        obtain ⟨a, ha⟩ := Option.ne_none_iff_exists'.mp h.2.1
        push Not at ht
        rintro c ⟨⟩
        exact ⟨a, by simp [ha], ht a (by simp [ha])⟩ }

def complete (completedAt : Time) (result : CommandResult) : Py OperatorCommand :=
  if q.status = .completed then
    if q.completed.map (·.2) = some result then .ok q
    else .error (.valueError "operator command is already completed with a different result")
  else q.finish .completed (Or.inl rfl) completedAt result "completed"

def reject (completedAt : Time) (reasonCode detail : String) : Py OperatorCommand :=
  if ¬ Trimmed reasonCode then
    .error (.valueError "command rejection reason code must be nonempty and trimmed")
  else if ¬ Trimmed detail then
    .error (.valueError "command rejection detail must be nonempty and trimmed")
  else if q.status = .rejected then
    if q.completed.map (·.2) = some (.rejection reasonCode detail) then .ok q
    else .error (.valueError "operator command is already rejected with a different result")
  else q.finish .rejected (Or.inr rfl) completedAt (.rejection reasonCode detail) "rejected"

structure SameRequest (a b : OperatorCommand) : Prop where
  commandId : b.commandId = a.commandId
  experimentId : b.experimentId = a.experimentId
  commandType : b.commandType = a.commandType
  idempotencyKey : b.idempotencyKey = a.idempotencyKey
  actor : b.actor = a.actor
  reason : b.reason = a.reason
  payload : b.payload = a.payload
  operatorConfirmed : b.operatorConfirmed = a.operatorConfirmed
  requestedAt : b.requestedAt = a.requestedAt

theorem SameRequest.refl (q : OperatorCommand) : SameRequest q q :=
  ⟨rfl, rfl, rfl, rfl, rfl, rfl, rfl, rfl, rfl⟩

variable {q} {q' : OperatorCommand} {t : Time}

theorem accept_eq {worker : String} (hs : q.status = .requested) (h : q.accept t worker = .ok q') :
    SameRequest q q' ∧ q'.status = .accepted ∧ q'.accepted = some (t, worker) ∧
    q.requestedAt ≤ t := by
  unfold accept at h
  rw [if_neg (by rw [hs]; decide), dif_neg (not_not.mpr hs)] at h
  split at h
  · cases h
  · rename_i ht
    cases h
    exact ⟨⟨rfl, rfl, rfl, rfl, rfl, rfl, rfl, rfl, rfl⟩, rfl, rfl, not_lt.mp ht⟩

theorem takeOver_eq {worker : String} (h : q.takeOver worker = .ok q') :
    SameRequest q q' ∧ q'.status = .accepted ∧ q'.accepted.map (·.1) = q.accepted.map (·.1) ∧
      q'.accepted.map (·.2) = some worker := by
  unfold takeOver at h
  split at h
  · rename_i hs
    have hshape := q.shape
    rw [hs] at hshape
    split at h
    · rename_i ha
      exact absurd ha hshape.2.1
    · rename_i at' by' ha
      split at h
      · rename_i hb
        cases h
        exact ⟨.refl _, hs, rfl, by simp [ha, hb]⟩
      · cases h
        exact ⟨⟨rfl, rfl, rfl, rfl, rfl, rfl, rfl, rfl, rfl⟩, hs, by simp [ha], rfl⟩
  · cases h

variable {result : CommandResult}

theorem finish_eq {status : CommandStatus} {hf : status = .completed ∨ status = .rejected}
    {verb : String} (h : q.finish status hf t result verb = .ok q') : SameRequest q q' ∧
    q'.status = status := by
  unfold finish at h
  split at h
  · cases h
  · split at h
    · cases h
    · cases h
      exact ⟨⟨rfl, rfl, rfl, rfl, rfl, rfl, rfl, rfl, rfl⟩, rfl⟩

theorem complete_eq (h : q.complete t result = .ok q') :
    SameRequest q q' ∧ q'.status = .completed := by
  unfold complete at h
  split at h
  · rename_i hs
    split at h
    · cases h
      exact ⟨.refl _, hs⟩
    · cases h
  · exact finish_eq h

theorem reject_eq {reasonCode detail : String} (h : q.reject t reasonCode detail = .ok q') :
    SameRequest q q' ∧ q'.status = .rejected := by
  unfold reject at h
  split at h
  · cases h
  · split at h
    · cases h
    · split at h
      · rename_i hs
        split at h
        · cases h
          exact ⟨.refl _, hs⟩
        · cases h
      · exact finish_eq h

end OperatorCommand

/-! ## the inbox -/

abbrev CommandTable := Dict UUID OperatorCommand

namespace CommandTable

variable (idOrder : UUID → Nat) (table : CommandTable)

/-- `enqueue`: a repeated idempotency key returns the stored command of the same request -/
def enqueue (q : OperatorCommand) : Py CommandTable := do
  raiseIf (q.status ≠ .requested)
    (.valueError "only a requested operator command can enter the inbox")
  match table.values.find? (fun other => other.idempotencyKey = q.idempotencyKey) with
  | some other => do
    raiseIf (¬ (other.commandType = q.commandType ∧ other.actor = q.actor ∧
        other.reason = q.reason ∧ other.payload = q.payload ∧
        other.operatorConfirmed = q.operatorConfirmed))
      (.operatorCommandConflict "idempotency key was already used for a different operator request")
    return table
  | none => do
    raiseIf (table.get? q.commandId ≠ none)
      (.operatorCommandConflict "operator command identity already exists")
    return table.set q.commandId q

def claimable : List OperatorCommand :=
  table.values.filter (fun q => q.status = .accepted ∨ q.status = .requested)

def claimOrder (a b : OperatorCommand) : Prop :=
  toLex (if a.status = .accepted then 0 else 1, toLex (a.requestedAt, idOrder a.commandId)) ≤
    toLex (if b.status = .accepted then 0 else 1, toLex (b.requestedAt, idOrder b.commandId))

instance : DecidableRel (claimOrder idOrder) := fun a b => by
  unfold claimOrder
  infer_instance

def nextCommand : Option OperatorCommand :=
  (table.claimable.insertionSort (claimOrder idOrder)).head?

/-- `claim_next`: the table after it and the claimed command -/
def claimNext (workerId : String) (acceptedAt : Time) :
    Py (CommandTable × Option OperatorCommand) :=
  match nextCommand idOrder table with
  | none => .ok (table, none)
  | some q => do
    let claimed ← if q.status = .accepted then q.takeOver workerId else q.accept acceptedAt workerId
    return (table.set claimed.commandId claimed, some claimed)

def finishCommand (commandId : UUID) (workerId : String)
    (change : OperatorCommand → Py OperatorCommand) : Py (CommandTable × OperatorCommand) := do
  let current ← orRaise (table.get? commandId) (.lookupError "operator command does not exist")
  raiseIf (current.accepted.map (·.2) ≠ some workerId)
    (.operatorCommandConflict "operator command belongs to a different worker")
  let changed ← change current
  return (table.set commandId changed, changed)

def complete (commandId : UUID) (workerId : String) (completedAt : Time) (result : CommandResult) :
    Py (CommandTable × OperatorCommand) :=
  table.finishCommand commandId workerId (·.complete completedAt result)

def reject (commandId : UUID) (workerId : String) (completedAt : Time)
    (reasonCode detail : String) : Py (CommandTable × OperatorCommand) :=
  table.finishCommand commandId workerId (·.reject completedAt reasonCode detail)

variable {idOrder table}

theorem nextCommand_mem {q : OperatorCommand} (h : nextCommand idOrder table = some q) :
    q ∈ table.claimable :=
  (List.mem_insertionSort (claimOrder idOrder)).mp (List.mem_of_mem_head? h)

theorem nextCommand_status {q : OperatorCommand} (h : nextCommand idOrder table = some q) :
    q.status = .accepted ∨ q.status = .requested := by
  have hmem := nextCommand_mem h
  rw [claimable, List.mem_filter, decide_eq_true_eq] at hmem
  exact hmem.2

variable {worker : String}

theorem claimNext_cases {t : Time} {table' : CommandTable} {claimed : Option OperatorCommand}
    (h : claimNext idOrder table worker t = .ok (table', claimed)) :
    (claimed = none ∧ table' = table ∧ nextCommand idOrder table = none) ∨
      ∃ q q', nextCommand idOrder table = some q ∧ claimed = some q' ∧ q.SameRequest q' ∧
        q'.status = .accepted ∧ q'.accepted.map (·.2) = some worker ∧
        table' = table.set q'.commandId q' := by
  unfold claimNext at h
  split at h
  · rename_i hn
    cases h
    exact Or.inl ⟨rfl, rfl, hn⟩
  · rename_i q hq
    split at h
    · simp only [bind_eq_ok, pure_ok_iff, Prod.mk.injEq] at h
      obtain ⟨q', hc, rfl, rfl⟩ := h
      obtain ⟨hsame, hs, _, hw⟩ := OperatorCommand.takeOver_eq hc
      exact Or.inr ⟨q, q', hq, rfl, hsame, hs, hw, rfl⟩
    · rename_i hna
      simp only [bind_eq_ok, pure_ok_iff, Prod.mk.injEq] at h
      obtain ⟨q', hc, rfl, rfl⟩ := h
      have hr := (nextCommand_status hq).resolve_left hna
      obtain ⟨hsame, hs, ha, _⟩ := OperatorCommand.accept_eq hr hc
      exact Or.inr ⟨q, q', hq, rfl, hsame, hs, by rw [ha]; rfl, rfl⟩

variable {commandId : UUID} {out : CommandTable × OperatorCommand}

theorem finishCommand_eq {change : OperatorCommand → Py OperatorCommand}
    (h : table.finishCommand commandId worker change = .ok out) :
    ∃ q, table.get? commandId = some q ∧ q.accepted.map (·.2) = some worker ∧
      change q = .ok out.2 ∧ out.1 = table.set commandId out.2 := by
  simp only [finishCommand, bind_eq_ok, orRaise_eq_ok, raiseIf_eq_ok, ne_eq, not_not, pure_eq_ok,
    Except.ok.injEq] at h
  obtain ⟨q, hq, _, ha, changed, hc, rfl⟩ := h
  exact ⟨q, hq, ha, hc, rfl⟩

/-- the inbox after a finished command: the same request, completed or rejected -/
structure Finished (table : CommandTable) (commandId : UUID)
    (out : CommandTable × OperatorCommand) : Prop where
  status : out.2.status = .completed ∨ out.2.status = .rejected
  stored : ∃ q, table.get? commandId = some q ∧ q.SameRequest out.2
  table_eq : out.1 = table.set commandId out.2

theorem complete_finished {t : Time} {result : CommandResult}
    (h : table.complete commandId worker t result = .ok out) : Finished table commandId out := by
  obtain ⟨q, hq, _, hc, ht⟩ := finishCommand_eq h
  obtain ⟨hsame, hs⟩ := OperatorCommand.complete_eq hc
  exact ⟨Or.inl hs, ⟨q, hq, hsame⟩, ht⟩

theorem reject_finished {t : Time} {reasonCode detail : String}
    (h : table.reject commandId worker t reasonCode detail = .ok out) :
    Finished table commandId out := by
  obtain ⟨q, hq, _, hc, ht⟩ := finishCommand_eq h
  obtain ⟨hsame, hs⟩ := OperatorCommand.reject_eq hc
  exact ⟨Or.inr hs, ⟨q, hq, hsame⟩, ht⟩

end CommandTable

end Maais
