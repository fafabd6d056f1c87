import Maais.Worker.Executor

/-!
# Flattening

An accepted flatten closes every open position: `prepareFlatten` plans one emergency exit for each,
from the latest mark and the books after it, and `completeFlatten` records them in one transaction.
-/

namespace Maais
open Lib

structure FlattenTrigger where
  symbol : String
  positionId : UUID
  exitPlanId : UUID
  markEventId : String
  markObservedAt : Time
  markPrice : ℚ
  eligibleAfter : Time
deriving DecidableEq

structure FlattenPlan where
  commandId : UUID
  sourceAccount : AccountState
  executions : List PaperExecutionRecord
  plannedAt : Time
  triggers : List FlattenTrigger
deriving DecidableEq

structure FlattenSource where
  account : AccountState
  exitPlans : List ExitPlan
  entryProposalIds : List (UUID × UUID)
  pendingOrderCount : Nat

structure FlattenInput where
  exitPlan : ExitPlan
  proposalId : UUID
  trigger : FlattenTrigger

namespace FlattenTrigger

def postInit (t : FlattenTrigger) : Py FlattenTrigger := do
  raiseIf (t.symbol = "" ∨ t.markEventId = "") (.valueError "flatten trigger identity is required")
  raiseIf (t.eligibleAfter ≤ t.markObservedAt)
    (.valueError "flatten liquidity eligibility must follow the causal mark")
  raiseIf (t.markPrice ≤ 0) (.valueError "flatten mark price must be positive and finite")
  return t

end FlattenTrigger

namespace FlattenPlan

variable (A : Arith)

def checkExecution (account : AccountState) (pair : FlattenTrigger × PaperExecutionRecord) :
    Py AccountState := do
  pair.2.validate A
  let next ← orRaise pair.2.account (.valueError "flatten execution requires an account result")
  raiseIf (pair.2.order.experimentId ≠ account.experimentId)
    (.valueError "flatten execution belongs to another experiment")
  raiseIf (¬ (pair.2.order.symbol = pair.1.symbol ∧ ∃ plan ∈ pair.2.exitPlan,
      plan.planId = pair.1.exitPlanId ∧ plan.positionId = pair.1.positionId))
    (.valueError "flatten trigger and execution identities differ")
  raiseIf (next.version ≠ account.version + 1)
    (.valueError "flatten execution account versions are not contiguous")
  return next

def postInit (p : FlattenPlan) : Py FlattenPlan := do
  raiseIf (p.triggers.length ≠ p.executions.length)
    (.valueError "flatten triggers and executions must align")
  let account ← (p.triggers.zip p.executions).foldlM (checkExecution A) p.sourceAccount
  raiseIf (account.openPositions A ≠ []) (.valueError "flatten plan must close every open position")
  return p

end FlattenPlan

namespace Database

variable (cfg : WorkerConfig) (db : Database)

/-- `PostgresFlattenSourceLoader.load` -/
def loadFlattenSource : Py FlattenSource := do
  let account ← db.loadAccount cfg
  let exitPlans := db.execution.loadOpenExitPlans cfg.idOrder
  let pending ← db.loadPendingOrders cfg
  let entryProposalIds ← (account.openPositions cfg.arith).mapM (fun p => do
    let proposalId ← db.execution.loadPositionEntryProposalId cfg.idOrder p.positionId
    return (p.positionId, proposalId))
  return ⟨account, exitPlans, entryProposalIds, pending.length⟩

def flattenPositions (account : AccountState) : List PositionState :=
  (account.openPositions cfg.arith).insertionSort (fun a b => a.symbol ≤ b.symbol)

def plansMatch (source : FlattenSource) : Prop :=
  (source.exitPlans.map (·.positionId)).Nodup ∧
    (∀ plan ∈ source.exitPlans,
      plan.positionId ∈ (source.account.openPositions cfg.arith).map (·.positionId)) ∧
    ∀ p ∈ source.account.openPositions cfg.arith, p.positionId ∈ source.exitPlans.map (·.positionId)

instance {s : FlattenSource} : Decidable (plansMatch cfg s) := by
  unfold plansMatch
  infer_instance

def flattenInput (source : FlattenSource) (observations : ObservationBuffer) (plannedAt : Time)
    (position : PositionState) : Py FlattenInput := do
  let exitPlan ← orRaise
    (source.exitPlans.find? (fun plan => plan.positionId = position.positionId))
    (.lookupError position.positionId.text)
  raiseIf (exitPlan.status ≠ .active)
    (.flattenPlanningError "flatten_exit_already_triggered"
      "flatten requires an active, untriggered exit plan")
  let proposal ← orRaise (source.entryProposalIds.find? (fun e => e.1 = position.positionId))
    (.flattenPlanningError "flatten_missing_entry_lineage"
      "open position has no original entry proposal lineage")
  let mark ← orRaise (observations.latestMark position.symbol plannedAt)
    (.flattenPlanningError "flatten_missing_causal_mark"
      ("no causal mark is available for " ++ position.symbol))
  let trigger ← FlattenTrigger.postInit
    { symbol := position.symbol, positionId := position.positionId, exitPlanId := exitPlan.planId,
      markEventId := mark.2.eventId, markObservedAt := mark.2.observedAt, markPrice := mark.1,
      eligibleAfter := plannedAt + cfg.policy.executionLatency }
  return ⟨exitPlan, proposal.2, trigger⟩

/-- `except EligibleBookTimeout` around the wait for every symbol -/
def flattenBooks (observations : ObservationBuffer) (trigger : FlattenTrigger) :
    Py (List BookSnapshot) :=
  match observations.booksAfter trigger.symbol trigger.eligibleAfter with
  | .ok books => .ok books
  | .error (.eligibleBookTimeout message) =>
    .error (.flattenPlanningError "flatten_eligible_book_timeout" message)
  | .error e => .error e

def flattenCommand (commandId : UUID) (plannedAt : Time) (input : FlattenInput)
    (intent : ExitIntent) :
    MarketExitCommand :=
  { orderId := idOf "flatten-order" [commandId.text, input.trigger.positionId.text]
    fillId := idOf "flatten-fill" [commandId.text, input.trigger.positionId.text]
    experimentId := cfg.manifest.experimentId
    proposalId := input.proposalId
    clientOrderId := "paper-flatten-" ++ commandId.text ++ "-" ++ input.trigger.positionId.text
    symbol := input.trigger.symbol
    decisionExecutablePrice := input.trigger.markPrice
    executionLatency := cfg.policy.executionLatency
    createdAt := plannedAt
    expiresAt := plannedAt + cfg.policy.proposalTtl
    takerFeeRate := cfg.policy.takerFeeRate
    intent
    exchangeFilters := cfg.filters input.trigger.symbol }

/-- `except ExitExecutionHalt` of the planner -/
def catchHalt {α : Type} (symbol : String) : Py α → Py α
  | .error (.exitExecutionHalt reason marketEventId) =>
    .error (.flattenPlanningError "flatten_exit_unfillable"
      (symbol ++ " exit was unfillable: " ++ reason ++ "; market_event_id=" ++
        marketEventId.getD "none"))
  | x => x

/-- one turn of the planning loop: the account after the exit, and the records so far -/
def flattenStep (commandId : UUID) (plannedAt : Time)
    (done : AccountState × List PaperExecutionRecord) (input : FlattenInput × List BookSnapshot) :
    Py (AccountState × List PaperExecutionRecord) := do
  let evaluation ← input.1.exitPlan.emergencyFlatten plannedAt input.1.trigger.markPrice
  let intent ← orRaise evaluation.intent
    (.runtimeError "emergency flatten did not produce an exit intent")
  let result ← catchHalt input.1.trigger.symbol
    (cfg.broker.executeMarketExit cfg.arith (flattenCommand cfg commandId plannedAt input.1 intent)
      done.1 evaluation.plan input.2)
  let account ← orRaise result.record.account
    (.runtimeError "flatten execution did not produce an account")
  return (account, done.2 ++ [result.record])

def planExits (commandId : UUID) (plannedAt : Time) (before after : ObservationBuffer)
    (source : FlattenSource) : Py FlattenPlan := do
  raiseIf (¬ plansMatch cfg source)
    (.flattenPlanningError "flatten_exit_plan_mismatch"
      "every open paper position requires exactly one exit plan")
  let inputs ← (flattenPositions cfg source.account).mapM (flattenInput cfg source before plannedAt)
  let books ← inputs.mapM (fun input => flattenBooks after input.trigger)
  let done ← (inputs.zip books).foldlM (flattenStep cfg commandId plannedAt) (source.account, [])
  FlattenPlan.postInit cfg.arith
    ⟨commandId, source.account, done.2, plannedAt, inputs.map (·.trigger)⟩

/-- `LivePaperFlattenPlanner.prepare`: `before` is the buffer at planning time, `after` the one at
the end of the wait for books -/
def prepareFlatten (q : OperatorCommand) (plannedAt : Time) (before after : ObservationBuffer) :
    Py FlattenPlan := do
  raiseIf (¬ (q.experimentId = cfg.manifest.experimentId ∧ q.commandType = .flatten ∧
      q.status = .accepted))
    (.valueError "flatten planner requires the accepted manifest command")
  let source ← db.loadFlattenSource cfg
  raiseIf (source.account.experimentId ≠ cfg.manifest.experimentId)
    (.flattenPlanningError "flatten_account_scope_mismatch"
      "paper account does not belong to the flatten experiment")
  raiseIf (source.pendingOrderCount ≠ 0)
    (.flattenPlanningError "flatten_pending_orders" "flatten requires zero pending paper orders")
  if flattenPositions cfg source.account = [] then
    FlattenPlan.postInit cfg.arith ⟨q.commandId, source.account, [], plannedAt, []⟩
  else planExits cfg q.commandId plannedAt before after source

/-! ## completion -/

def recordFlatten (done : ExecutionTables × AccountState) (r : PaperExecutionRecord) :
    Py (ExecutionTables × AccountState) := do
  let recorded ← done.1.record cfg.arith r
  let account ← orRaise r.account (.runtimeError "AssertionError")
  return (recorded.1, account)

def flattenedOrder (pair : FlattenTrigger × PaperExecutionRecord) : Option FlattenedOrder :=
  pair.2.fills.head?.map (fun fill =>
    { orderId := pair.2.order.orderId, symbol := pair.2.order.symbol, side := pair.2.order.side,
      quantity := pair.2.order.quantity, fillId := fill.id, marketEventId := fill.marketEventId,
      fillAt := fill.fillAt, price := fill.price, fee := fill.fee,
      triggerMarkEventId := pair.1.markEventId, triggerMarkObservedAt := pair.1.markObservedAt,
      triggerMarkPrice := pair.1.markPrice, eligibleAfter := pair.1.eligibleAfter })

def flattenResult (q : OperatorCommand) (plan : FlattenPlan) (status : ExperimentStatus)
    (control : TradingControlSnapshot) (account finalAccount : AccountState) : CommandResult :=
  .flatten (controlResult q status control) account.version finalAccount.version
    plan.executions.length
    ((plan.triggers.zip plan.executions).filterMap flattenedOrder) plan.plannedAt

/-- the transaction of `_complete_flatten` behind its claim -/
def recordFlattenPlan (q : OperatorCommand) (plan : FlattenPlan) (completedAt : Time) :
    Py (Database × OperatorCommandExecution) := do
  let control ← db.currentControl
  raiseIf (¬ (db.experiment.status = .paused ∧ control.killSwitchActive = true ∧
      control.reason = some (flattenReason q.commandId)))
    (.runtimeError "flatten safety state changed before persistence")
  let account ← db.loadAccount cfg
  raiseIf (account ≠ plan.sourceAccount)
    (.runtimeError "paper account changed while flatten was being prepared")
  let pending ← db.loadPendingOrders cfg
  raiseIf (pending ≠ []) (.runtimeError "flatten cannot proceed with pending paper orders")
  let done ← plan.executions.foldlM (recordFlatten cfg) (db.execution, account)
  raiseIf (done.2.openPositions cfg.arith ≠ [])
    (.runtimeError "flatten persistence left an open paper position")
  completeCommand cfg { db with execution := done.1 } q completedAt
    (flattenResult q plan db.experiment.status control account done.2) false false

def completeFlatten (q : OperatorCommand) (plan : FlattenPlan) (claimedAt completedAt : Time) :
    Py (Database × OperatorCommandExecution) := do
  raiseIf (plan.commandId ≠ q.commandId)
    (.runtimeError "flatten planner returned a different command identity")
  let claimed ← db.claim cfg claimedAt
  raiseIf (claimed.2.map (·.commandId) ≠ some q.commandId)
    (.runtimeError "flatten command changed before atomic persistence")
  claimed.1.recordFlattenPlan cfg q plan completedAt

def acceptedFlattens : List OperatorCommand :=
  db.commands.values.filter (fun q => q.status = .accepted ∧ q.commandType = .flatten)

variable {cfg db}

structure FlattenRecorded (cfg : WorkerConfig) (db : Database) (q : OperatorCommand)
    (plan : FlattenPlan) (completedAt : Time) (control : TradingControlSnapshot)
    (account finalAccount : AccountState) (out : Database × OperatorCommandExecution) : Prop where
  current : db.control = some control
  safety : db.experiment.status = .paused ∧ control.killSwitchActive = true ∧
    control.reason = some (flattenReason q.commandId)
  loaded : db.loadAccount cfg = .ok account
  source : account = plan.sourceAccount
  pending : db.loadPendingOrders cfg = .ok []
  recorded : plan.executions.foldlM (recordFlatten cfg) (db.execution, account) =
    .ok (out.1.execution, finalAccount)
  flat : finalAccount.openPositions cfg.arith = []
  completed : completeCommand cfg { db with execution := out.1.execution } q completedAt
    (flattenResult q plan db.experiment.status control account finalAccount) false false = .ok out

variable {q : OperatorCommand} {plan : FlattenPlan} {out : Database × OperatorCommandExecution}
  {t : Time}

theorem recordFlattenPlan_cases (h : db.recordFlattenPlan cfg q plan t = .ok out) :
    ∃ control account finalAccount,
    FlattenRecorded cfg db q plan t control account finalAccount out := by
  simp only [recordFlattenPlan, bind_eq_ok, raiseIf_eq_ok, currentControl_eq_ok,
    ne_eq, not_not] at h
  obtain ⟨control, hc, _, hs, account, ha, _, hsrc, pending, hp, _, rfl, done, hd, _, hflat, h⟩ := h
  have heq := (completeCommand_eq h).2.1
  have hex : out.1.execution = done.1 := by rw [heq]
  exact ⟨control, account, done.2, hc, hs, ha, hsrc, hp, by rw [hex]; exact hd,
    hflat, by rw [hex]; exact h⟩

theorem completeFlatten_cases {t' : Time} (h : db.completeFlatten cfg q plan t t' = .ok out) :
    plan.commandId = q.commandId ∧ ∃ claimed q', db.claim cfg t = .ok (claimed, some q') ∧
      q'.commandId = q.commandId ∧ claimed.recordFlattenPlan cfg q plan t' = .ok out := by
  simp only [completeFlatten, bind_eq_ok, raiseIf_eq_ok, ne_eq, not_not,
    Option.map_eq_some_iff] at h
  obtain ⟨_, hid, claimed, hc, _, ⟨q', hq', hid'⟩, h⟩ := h
  exact ⟨hid, claimed.1, q', by rw [hc, ← hq'], hid', h⟩

theorem completeFlatten_frame {t' : Time} (h : db.completeFlatten cfg q plan t t' = .ok out) :
    out.1.control = db.control ∧ out.1.experiment = db.experiment ∧ out.1.incidents = db.incidents ∧
      out.1.cursors = db.cursors ∧ out.1.recoveries = db.recoveries := by
  obtain ⟨_, claimed, q', hc, _, h⟩ := completeFlatten_cases h
  obtain ⟨control, account, finalAccount, hr⟩ := recordFlattenPlan_cases h
  have heq := (completeCommand_eq hr.completed).2.1
  have hclaim := (claim_eq hc).2
  rw [heq, hclaim]
  exact ⟨rfl, rfl, rfl, rfl, rfl⟩

end Database

end Maais
