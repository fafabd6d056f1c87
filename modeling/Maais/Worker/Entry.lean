import Maais.Paper.Sensitivity
import Maais.Worker.Continuous

/-!
# Decision cycles

* `buildContext`  the entry context of an admitted bar, with its checks on the stored state;
* `decideEntry`, `processAdmitted`  the outcome of the cycle: an executed entry, or none;
* `dispatch`  one closed bar: context, decision, and one transaction that records both with the
  cursor.

The frame, its features, the agents and the risk engine are read through `CycleInput`: what they
came to for this bar. So are the counterfactuals of the symbol, which the same transaction updates:
where one of them raises, nothing is recorded.
-/

namespace Maais
open Lib

/-- what the decision chain computed for a bar, apart from the gates that read the stored state -/
structure CycleAnalysis where
  direction : Direction
  executablePrice : ℚ
  risk : Option (ℚ × ℚ)
  exitLoss : ℚ
  exitGain : ℚ
  /-- every gate but the kill switch, the exchange filters, the leverage and the broker capacity -/
  gatesPassed : Bool
  gateChainHash : Digest
  executablePrice_pos : 0 < executablePrice

inductive CycleInput
  | quarantined (expectedWarmup : Bool)
  | featuresMissing
  | agentsFailed
  | analysed (a : CycleAnalysis)
  /-- the frame cannot be built, or a counterfactual refuses the bar -/
  | raised (e : PyError)

def CycleInput.admitted : CycleInput → Prop
  | .quarantined _ => False
  | .raised _ => False
  | _ => True

instance (i : CycleInput) : Decidable i.admitted := by
  cases i <;> unfold CycleInput.admitted <;> infer_instance

def Direction.entrySide (d : Direction) : PaperOrderSide := if d = .long then .buy else .sell

/-! ## the entry context -/

structure EntryDecisionContext where
  control : TradingControlSnapshot
  account : AccountState
  books : List BookSnapshot
  activeExitPlan : Option ExitPlan

namespace Database

variable (cfg : WorkerConfig) (db : Database)

def checkOpenPosition (plans : List ExitPlan) (position : PositionState) : Py Unit := do
  let plan ← orRaise (plans.find? (fun plan => plan.positionId = position.positionId))
    (.runtimeStateConflict "open paper position has no protective exit plan")
  raiseIf (cfg.arith.mul (position.quantity cfg.arith)
      (cfg.arith.abs (cfg.arith.sub position.averageEntry plan.stopPrice)) ≤ 0)
    (.runtimeStateConflict "open position has no positive loss at stop")

/-- the checks of `build` on the stored account, orders and plans -/
def checkStoredState (account : AccountState) (pending : List (PaperOrder × ExchangeFilterSnapshot))
    (plans : List ExitPlan) : Py Unit := do
  raiseIf (pending ≠ [])
    (.runtimeStateConflict "pending paper orders require explicit startup reconciliation")
  raiseIf (account.leverage ≠ cfg.policy.leverage)
    (.runtimeStateConflict "restored account leverage differs from run policy")
  raiseIf (¬ (plans.map (·.positionId)).Nodup)
    (.runtimeStateConflict "open exit plans are duplicated by position")
  (account.openPositions cfg.arith).forM (checkOpenPosition cfg plans)
  raiseIf (∃ plan ∈ plans, plan.positionId ∉ (account.openPositions cfg.arith).map (·.positionId))
    (.runtimeStateConflict "protective exit plan has no open paper position")

def activeExitPlan (account : AccountState) (plans : List ExitPlan)
    (symbol : String) : Option ExitPlan := do
  let position ← openPosition cfg account symbol
  plans.find? (fun plan => plan.positionId = position.positionId)

def buildContext (after : ObservationBuffer) (symbol : String)
    (at_ : Time) : Py EntryDecisionContext := do
  raiseIf (symbol ∉ cfg.manifest.symbols) (.valueError "entry context frame differs from manifest")
  let account ← db.loadAccount cfg
  let pending ← db.loadPendingOrders cfg
  let plans := db.execution.loadOpenExitPlans cfg.idOrder
  checkStoredState cfg account pending plans
  let control ← db.currentControl
  raiseIf (control.experimentId ≠ cfg.manifest.experimentId)
    (.runtimeStateConflict "trading control belongs to another experiment")
  raiseIf (∃ plan ∈ plans, plan.status = .triggered)
    (.runtimeStateConflict "triggered protective exits require explicit startup reconciliation")
  let books ← after.booksAfter symbol (at_ + cfg.policy.executionLatency)
  raiseIf (control.changedAt > at_) (.valueError "kill switch state cannot come from the future")
  return ⟨control, account, books, activeExitPlan cfg account plans symbol⟩

end Database

/-! ## the decision -/

structure CycleOutcome where
  direction : Direction
  approved : Bool
  execution : Option PaperExecutionRecord
  incident : Option IncidentState

namespace WorkerConfig

variable (cfg : WorkerConfig)

def frameId (event : ObservedMarketEvent) (bar : ClosedBarPayload) : UUID :=
  .uuid5 ("maais://market-frame/" ++ cfg.manifest.experimentId.text ++ "/" ++
    cfg.strategyVersionId.text ++ "/" ++ event.symbol ++ "/" ++ bar.timeframe ++ "/" ++
    toString bar.barCloseAt)

/-- `_incident` of the orchestration service -/
def cycleIncident (frameId : UUID) (component reason : String) (severity : IncidentSeverity)
    (detectedAt : Time) : IncidentState :=
  let deduplicationKey := component ++ ":" ++ reason ++ ":" ++ frameId.text
  .create (idOf "incident" [cfg.manifest.experimentId.text, deduplicationKey])
    cfg.manifest.experimentId deduplicationKey severity component reason true detectedAt

def withoutEntry (incident : Option IncidentState) : CycleOutcome :=
  ⟨.neutral, false, none, incident⟩

def prepareEntry (symbol : String) (a : CycleAnalysis) : Py (Option PreparedOrder) :=
  match a.risk.filter (fun r => 0 < r.1) with
  | none => .ok none
  | some risk =>
    match (cfg.filters symbol).prepare cfg.arith a.direction.entrySide .market risk.1 risk.1
        (some a.executablePrice) risk.2 with
    | .ok prepared => .ok (some prepared)
    | .error (.filterRejection _) => .ok none
    | .error e => .error e

def capacityPassed (ctx : EntryDecisionContext) (symbol : String) (a : CycleAnalysis)
    (prepared : PreparedOrder) : Prop :=
  ctx.books ≠ [] ∧
    (∀ p ∈ ctx.account.positions.get? symbol, p.isFlat cfg.arith ∨ p.side = a.direction) ∧
    cfg.arith.add (cfg.arith.div prepared.notional ctx.account.leverage)
      (cfg.arith.mul prepared.notional cfg.policy.takerFeeRate) ≤ ctx.account.freeMargin cfg.arith

instance {ctx : EntryDecisionContext} {s : String} {a : CycleAnalysis} {p : PreparedOrder} :
    Decidable (cfg.capacityPassed ctx s a p) := by
  unfold capacityPassed
  infer_instance

def allGatesPassed (ctx : EntryDecisionContext) (symbol : String) (a : CycleAnalysis)
    (prepared : PreparedOrder) : Prop :=
  a.gatesPassed = true ∧ ctx.control.killSwitchActive = false ∧ ctx.account.leverage = 1 ∧
    cfg.capacityPassed ctx symbol a prepared

instance {ctx : EntryDecisionContext} {s : String} {a : CycleAnalysis} {p : PreparedOrder} :
    Decidable (cfg.allGatesPassed ctx s a p) := by
  unfold allGatesPassed
  infer_instance

def entryPositionId (account : AccountState) (symbol : String) : UUID :=
  match account.positions.get? symbol with
  | some p => p.positionId
  | none => idOf "paper-position" [cfg.manifest.experimentId.text, symbol]

def cycleId (frameId : UUID) : UUID := idOf "decision-cycle" [frameId.text]
def proposalId (frameId : UUID) : UUID := idOf "trade-proposal" [(cycleId frameId).text]

def entryClaims (frameId : UUID) (symbol : String) (a : CycleAnalysis) (prepared : PreparedOrder)
    (completedAt : Time) : AuthorizationClaims :=
  { experimentId := cfg.manifest.experimentId, decisionCycleId := cycleId frameId,
    proposalId := proposalId frameId, gateChainHash := a.gateChainHash, symbol,
    side := a.direction.entrySide, quantity := prepared.quantity,
    approvedNotional := cfg.arith.mul prepared.quantity a.executablePrice, issuedAt := completedAt,
    expiresAt := completedAt + cfg.policy.proposalTtl }

def entryCommand (frameId : UUID) (account : AccountState) (symbol : String) (a : CycleAnalysis)
    (prepared : PreparedOrder) (completedAt : Time) (capability : ExecutionCapability) :
    MarketEntryCommand :=
  { orderId := idOf "paper-order" [(proposalId frameId).text, "entry"]
    fillId := idOf "paper-fill" [(proposalId frameId).text, "entry"]
    positionId := cfg.entryPositionId account symbol
    exitPlanId := idOf "exit-plan" [(cfg.entryPositionId account symbol).text]
    experimentId := cfg.manifest.experimentId
    decisionCycleId := cycleId frameId
    proposalId := proposalId frameId
    gateChainHash := a.gateChainHash
    clientOrderId := "paper-" ++ (proposalId frameId).text
    symbol
    side := a.direction.entrySide
    requestedQuantity := prepared.quantity
    approvedQuantity := prepared.quantity
    approvedNotional := cfg.arith.mul prepared.quantity a.executablePrice
    decisionExecutablePrice := a.executablePrice
    decisionCompletedAt := completedAt
    executionLatency := cfg.policy.executionLatency
    createdAt := completedAt
    expiresAt := completedAt + cfg.policy.proposalTtl
    takerFeeRate := cfg.policy.takerFeeRate
    expectedLossFraction := a.exitLoss
    expectedGainFraction := a.exitGain
    capability
    exchangeFilters := cfg.filters symbol }

/-- an approved entry: executed, or halted with an incident whatever the broker raised -/
def executeEntry (frameId : UUID) (ctx : EntryDecisionContext) (symbol : String) (a : CycleAnalysis)
    (prepared : PreparedOrder) (completedAt : Time) : Py CycleOutcome := do
  let claims ← (cfg.entryClaims frameId symbol a prepared completedAt).postInit
  let capability ← cfg.broker.authorizer.issue claims true
  match cfg.broker.enter cfg.arith
      (cfg.entryCommand frameId ctx.account symbol a prepared completedAt capability) ctx.account
      ctx.books ctx.activeExitPlan with
  | .ok (r, _) => return ⟨a.direction, true, some r.record, none⟩
  | .error _ => return ⟨a.direction, true, none,
      some (cfg.cycleIncident frameId "paper_execution" "approved_entry_execution_failed" .critical
        completedAt)⟩

/-- `_admitted` -/
def decideEntry (frameId : UUID) (ctx : EntryDecisionContext) (symbol : String) (a : CycleAnalysis)
    (completedAt : Time) : Py CycleOutcome :=
  if a.direction = .neutral then .ok (withoutEntry none)
  else do
    let prepared ← cfg.prepareEntry symbol a
    match prepared.filter (fun p => cfg.allGatesPassed ctx symbol a p) with
    | none => return ⟨a.direction, false, none, none⟩
    | some prepared => cfg.executeEntry frameId ctx symbol a prepared completedAt

/-- `OfficialOrchestrationService.process` of a bar that was not quarantined -/
def processAdmitted (frameId : UUID) (ctx : EntryDecisionContext) (symbol : String)
    (completedAt : Time) : CycleInput → Py CycleOutcome
  | .quarantined _ => .ok (withoutEntry none)
  | .featuresMissing => .ok (withoutEntry (some
      (cfg.cycleIncident frameId "features" "feature_history_insufficient" .critical completedAt)))
  | .agentsFailed => .ok (withoutEntry (some
      (cfg.cycleIncident frameId "agents" "mandatory_agent_failure" .critical completedAt)))
  | .analysed a => cfg.decideEntry frameId ctx symbol a completedAt
  | .raised e => .error e

/-- `_quarantined` -/
def quarantine (frameId : UUID) (expectedWarmup : Bool) (completedAt : Time) : CycleOutcome :=
  withoutEntry (if expectedWarmup then none else
    some (cfg.cycleIncident frameId "market_data" "market_frame_quarantined" .error completedAt))

end WorkerConfig

/-! ## one bar -/

namespace Database

variable (cfg : WorkerConfig) (db : Database)

def recordOptionalExecution : Option PaperExecutionRecord → Py ExecutionTables
  | none => .ok db.execution
  | some r => do
    let recorded ← db.execution.record cfg.arith r
    return recorded.1

def recordOptionalRecovery (table : RecoveryTable) : Option RecoveryState → Py RecoveryTable
  | none => .ok table
  | some r => recordRecovery table r

/-- the transaction of `dispatch`: `record_outcome` with the cursor, and the progress of a
recovery -/
def recordOutcome (o : CycleOutcome) (cursor : MarketCursor) (progress : Option RecoveryState) :
    Py Database := do
  let execution ← db.recordOptionalExecution cfg o.execution
  let incidents ← recordOptionalIncident db.incidents o.incident
  let cursors ← recordCursor db.cursors cursor
  let recoveries ← recordOptionalRecovery db.recoveries progress
  return { db with execution, incidents, cursors, recoveries }

def cycleOutcome (after : ObservationBuffer) (event : ObservedMarketEvent) (bar : ClosedBarPayload)
    (input : CycleInput) : Py CycleOutcome :=
  match input with
  | .quarantined expectedWarmup =>
    .ok (cfg.quarantine (cfg.frameId event bar) expectedWarmup event.observedAt)
  | .raised e => .error e
  | input => do
    let ctx ← db.buildContext cfg after event.symbol event.observedAt
    cfg.processAdmitted (cfg.frameId event bar) ctx event.symbol event.observedAt input

def cursorOf (target : MarketCursor) (event : ObservedMarketEvent)
    (bar : ClosedBarPayload) : Prop :=
  target.experimentId = cfg.manifest.experimentId ∧ target.venue = event.venue ∧
    target.stream = event.stream ∧ target.symbol = event.symbol ∧ target.timeframe = bar.timeframe ∧
    target.eventId = event.eventId ∧ some target.sequence = event.sequence ∧
    target.venueEventAt = event.venueEventAt ∧ target.observedAt = event.observedAt ∧
    target.barCloseAt = bar.barCloseAt

instance {t : MarketCursor} {e : ObservedMarketEvent} {b : ClosedBarPayload} :
    Decidable (cursorOf cfg t e b) := by
  unfold cursorOf
  infer_instance

def dispatch (after : ObservationBuffer) (event : ObservedMarketEvent) (bar : ClosedBarPayload)
    (input : CycleInput) (target : MarketCursor) (progress : Option RecoveryState) :
    Py Database := do
  raiseIf (¬ cursorOf cfg target event bar)
    (.valueError "target cursor does not represent the dispatched closed bar")
  raiseIf (∃ r ∈ progress, r.experimentId ≠ cfg.manifest.experimentId ∨
      r.dispatchedThrough ≠ some (target.sequence, target.eventId))
    (.valueError "recovery progress does not match the target cursor")
  let outcome ← db.cycleOutcome cfg after event bar input
  db.recordOutcome cfg outcome target progress

/-! ## what a bar changes -/

variable {cfg db}

structure CycleRecorded (cfg : WorkerConfig) (db : Database) (o : CycleOutcome)
    (target : MarketCursor) (progress : Option RecoveryState) (db' : Database) : Prop where
  execution : db.recordOptionalExecution cfg o.execution = .ok db'.execution
  incidents : recordOptionalIncident db.incidents o.incident = .ok db'.incidents
  cursors : recordCursor db.cursors target = .ok db'.cursors
  recoveries : recordOptionalRecovery db.recoveries progress = .ok db'.recoveries
  experiment : db'.experiment = db.experiment
  control : db'.control = db.control
  commands : db'.commands = db.commands

theorem dispatch_cases {after : ObservationBuffer} {event : ObservedMarketEvent}
    {bar : ClosedBarPayload} {input : CycleInput} {target : MarketCursor}
    {progress : Option RecoveryState} {db' : Database}
    (h : db.dispatch cfg after event bar input target progress = .ok db') :
    ∃ o, db.cycleOutcome cfg after event bar input = .ok o ∧
    CycleRecorded cfg db o target progress db' := by
  simp only [dispatch, recordOutcome, bind_eq_ok, pure_ok_iff] at h
  obtain ⟨_, _, _, _, o, ho, execution, he, incidents, hi, cursors, hc, recoveries, hr, rfl⟩ := h
  exact ⟨o, ho, he, hi, hc, hr, rfl, rfl, rfl⟩

end Database

end Maais
