import Maais.Orchestration.Gates
import Maais.Research.Counterfactuals

/-!
# The orchestration service

* `evaluateGates`  monitoring, risk, prepared order and the chain of gates of a directional frame;
* `approve`  a frame whose gates passed: signed, sent to the broker, and executed or halted;
* `reject`  a frame with a failed gate: its proposal is followed as a counterfactual;
* `admitted`  the outcome of an admitted frame.
-/

namespace Maais.Orchestration
open Lib

inductive DecisionStatus
  | completed | rejected
deriving DecidableEq

inductive Disposition
  | neutral | rejected | approved
deriving DecidableEq

inductive OrchestrationDisposition
  | halted | neutral | rejected | executed
deriving DecidableEq

/-! ## records -/

structure DecisionCycle where
  id : UUID
  experimentId : UUID
  symbol : String
  status : DecisionStatus
  direction : Direction
  disposition : Disposition
  reasonCode : ReasonCode
deriving DecidableEq

structure TradeProposalRecord where
  id : UUID
  decisionCycleId : UUID
  experimentId : UUID
  symbol : String
  direction : Direction
  status : ProposalStatus
  reasonCode : ReasonCode
  proposedAt : Time
  expiresAt : Time
  executablePrice : ℚ
  side : PaperOrderSide
  gateChainHash : Digest
  filterCapturedAt : Time
  stopPrice : ℚ
  targetPrice : ℚ
  expectedLossFraction : ℚ
  expectedGainFraction : ℚ
  approvedQuantity : Option ℚ
  approvedNotional : Option ℚ
  riskAtStop : Option ℚ
deriving DecidableEq

def TradeProposalRecord.postInit (p : TradeProposalRecord) : Py TradeProposalRecord := do
  raiseIf (p.expiresAt ≤ p.proposedAt) (.valueError "proposal expiry must follow proposal time")
  raiseIf (∃ x ∈ p.approvedQuantity, x < 0) (.valueError "approved_quantity cannot be negative")
  raiseIf (∃ x ∈ p.approvedNotional, x < 0) (.valueError "approved_notional cannot be negative")
  raiseIf (∃ x ∈ p.riskAtStop, x < 0) (.valueError "risk_at_stop cannot be negative")
  return p

structure DecisionBundle where
  cycle : DecisionCycle
  gates : List GateEvaluationRecord
  proposal : Option TradeProposalRecord
deriving DecidableEq

namespace DecisionBundle

variable (b : DecisionBundle)

def checkGates (cycleId : UUID) : Bool → List GateEvaluationRecord → Py Bool
  | failureSeen, [] => .ok failureSeen
  | failureSeen, gate :: rest => do
    raiseIf (gate.decisionCycleId ≠ cycleId) (.valueError "gate references another decision cycle")
    raiseIf (failureSeen = true ∧ gate.passed = true) (.valueError "a gate passed after failure")
    checkGates cycleId (failureSeen || !gate.passed) rest

def proposalMatches (p : TradeProposalRecord) : Prop :=
  p.decisionCycleId = b.cycle.id ∧ p.experimentId = b.cycle.experimentId ∧
    p.symbol = b.cycle.symbol ∧ p.direction = b.cycle.direction

instance proposalMatches.decidable {p : TradeProposalRecord} : Decidable (b.proposalMatches p) := by
  unfold proposalMatches
  infer_instance

def checkProposal : Py Unit :=
  match b.cycle.disposition with
  | .neutral => raiseIf (b.cycle.direction ≠ .neutral ∨ b.proposal ≠ none)
      (.valueError "neutral cycle cannot create a synthetic proposal")
  | disposition => do
    raiseIf (b.cycle.direction = .neutral) (.valueError "directional cycle requires a proposal")
    let p ← orRaise b.proposal (.valueError "directional cycle requires a proposal")
    raiseIf (¬ b.proposalMatches p) (.valueError "proposal identity does not match decision cycle")
    raiseIf (p.status ≠ if disposition = .approved then .approved else .rejected)
      (.valueError "proposal status does not match disposition")

/-- `validate`, after the frame, the agents and the summary -/
def validate : Py Unit := do
  raiseIf (b.gates.map (·.sequence) ≠ List.range' 1 b.gates.length)
    (.valueError "gate sequences must be contiguous from one")
  raiseIf (¬ (b.gates.map (·.gateType)).Nodup) (.valueError "gate types cannot repeat")
  let failureSeen ← checkGates b.cycle.id false b.gates
  b.checkProposal
  raiseIf (b.cycle.disposition = .approved ∧ failureSeen = true)
    (.valueError "approved decision cannot contain a failed gate")
  raiseIf (b.cycle.disposition = .rejected ∧ failureSeen = false)
    (.valueError "rejected decision requires a failed gate")

end DecisionBundle

structure OrchestrationOutcome where
  disposition : OrchestrationDisposition
  bundle : DecisionBundle
  incident : Option IncidentState
  counterfactual : Option CounterfactualState
  capability : Option ExecutionCapability
  execution : Option PaperExecutionRecord
  sensitivities : List SensitivityOutcome
deriving DecidableEq

namespace OrchestrationOutcome

variable (A : Arith) (o : OrchestrationOutcome)

def proposalStatus : Option ProposalStatus := o.bundle.proposal.map (·.status)

def checkExecution : Py Unit :=
  match o.execution with
  | none => .ok ()
  | some execution => do
    execution.validate A
    raiseIf (o.capability = none ∨ o.bundle.proposal = none)
      (.valueError "paper execution requires its approved capability")

def threeScenarios : Prop :=
  o.sensitivities.length = 3 ∧
    ∀ s ∈ [SensitivityScenario.optimistic, .conservative, .stress],
    s ∈ o.sensitivities.map (·.scenario)

instance threeScenarios.decidable : Decidable o.threeScenarios := by
  unfold threeScenarios
  infer_instance

/-- `OrchestrationOutcome.__post_init__`, with what the other records of the bundle returned -/
def postInit (records : Py Unit) : Py OrchestrationOutcome := do
  records
  o.bundle.validate
  raiseIf (∃ i ∈ o.incident, i.experimentId ≠ o.bundle.cycle.experimentId)
    (.valueError "incident and decision bundle experiment differ")
  raiseIf (o.disposition = .halted ∧ o.incident = none)
    (.valueError "halted outcomes require an incident")
  raiseIf (∃ c ∈ o.counterfactual, o.proposalStatus ≠ some .rejected ∨
      o.bundle.proposal.map (·.id) ≠ some c.proposalId)
    (.valueError "counterfactual requires the matching rejected proposal")
  raiseIf (o.capability ≠ none ∧ o.proposalStatus ≠ some .approved)
    (.valueError "execution capability requires an approved proposal")
  o.checkExecution A
  raiseIf (o.sensitivities ≠ [] ∧ (o.execution = none ∨ ¬ o.threeScenarios))
    (.valueError "execution requires exactly three sensitivity scenarios")
  raiseIf (o.disposition = .executed ∧ (o.execution = none ∨ o.incident ≠ none))
    (.valueError "executed outcome must have execution and no incident")
  raiseIf (o.disposition = .rejected ∧
    (o.proposalStatus ≠ some .rejected ∨ o.counterfactual = none))
    (.valueError "directional rejection requires a proposal and counterfactual")
  return o

end OrchestrationOutcome

/-! ## prices -/

def executablePrice (A : Arith) (frame : FrameView) : Py ℚ :=
  match frame.markPrice.filter (fun mark => 0 < mark) with
  | some mark => .ok mark
  | none =>
    match frame.bestBid, frame.bestAsk with
    | some bid, some ask => do
      raiseIf (¬ (0 < bid ∧ bid < ask))
        (.valueError "admitted frame has no executable mark or midpoint")
      return A.div (A.add bid ask) 2
    | _, _ => .error (.valueError "admitted frame has no executable mark or midpoint")

def side : Direction → Py PaperOrderSide
  | .long => .ok .buy
  | .short => .ok .sell
  | .neutral => .error (.valueError "neutral direction has no paper order side")

def stopPrice (A : Arith) (direction : Direction) (price loss : ℚ) : ℚ :=
  if direction = .long then A.mul price (A.sub 1 loss) else A.mul price (A.add 1 loss)

def targetPrice (A : Arith) (direction : Direction) (price gain : ℚ) : ℚ :=
  if direction = .long then A.mul price (A.add 1 gain) else A.mul price (A.sub 1 gain)

def researchQuantity (A : Arith) (context : EntryDecisionContext) (price : ℚ) : Py ℚ := do
  let filters := context.exchangeFilters
  let targetNotional := max filters.minimumNotional (A.mul (context.account.equity A) (1 / 1000))
  let raw := min (max filters.minimumQuantity (A.div targetNotional price)) filters.maximumQuantity
  let quantity ← filters.quantizeQuantity A raw
  return if quantity ≤ 0 then filters.minimumQuantity else quantity

/-! ## the service -/

/-- the policies of the service and the broker it was composed with; the authorizer of the service
is the broker's -/
structure Service where
  admission : OfficialAdmissionPolicy
  riskPolicy : OfficialRiskPolicy
  broker : Option PaperBroker

structure Evidence where
  voting : List String
  analysis : OfficialDecisionAnalysis
  /-- the records of the frame, the cycle, the agents and the summary, built and validated -/
  records : Py Unit
  /-- the same for a frame that is halted without an entry context; its agents are recorded as not
  asked -/
  haltRecords : Py Unit
  gateChainHash : List GateEvaluationRecord → Digest

structure Evaluated where
  monitoring : MonitoringAdmissionDecision
  risk : Option OfficialRiskDecision
  prepared : Option PreparedOrder
  gates : List GateEvaluationRecord

def Evaluated.allPassed (e : Evaluated) : Prop := ∀ gate ∈ e.gates, gate.passed = true

instance Evaluated.allPassed.decidable (e : Evaluated) : Decidable e.allPassed := by
  unfold Evaluated.allPassed
  infer_instance

namespace Service

variable (A : Arith) (s : Service) (command : OrchestrationCommand) (evidence : Evidence)

/-- `_cycle_id` and the identities made from it -/
def cycleId : UUID := idOf "decision-cycle" [command.frame.frameId.text]
def proposalId : UUID := idOf "trade-proposal" [(cycleId command).text]

/-- the request of `_risk_decision` -/
def riskRequest (context : EntryDecisionContext) (price : ℚ) : OfficialRiskRequest :=
  let a := evidence.analysis
  { symbol := command.frame.key.symbol, direction := a.direction,
    capital := context.account.equity A, executablePrice := price,
    stopPrice := stopPrice A a.direction price a.expectedLoss, pWin := a.consensusProbability,
    expectedGainFraction := a.expectedGain, expectedLossFraction := a.expectedLoss,
    entryFeeFraction := context.takerFeeRate, leverage := context.account.leverage,
    drawdown := context.drawdown, openPositions := context.openPositions,
    correlations := context.correlations, evaluatedAt := command.evaluatedAt }

def riskDecision (context : EntryDecisionContext) (price : ℚ) : Py (Option OfficialRiskDecision) :=
  if evidence.analysis.expectedLoss ≤ 0 ∨ evidence.analysis.expectedGain ≤ 0 then .ok none
  else do
    let request ← (riskRequest A command evidence context price).postInit
    let decision ← OfficialRiskEngine.evaluate A s.riskPolicy request
    return some decision

/-- the order the exchange filters leave of the risk decision, and the reason of its gate -/
def prepareOrder (context : EntryDecisionContext) (side : PaperOrderSide) (price : ℚ)
    (risk : Option OfficialRiskDecision) : Py (Option PreparedOrder × String) :=
  match risk.filter (fun r => 0 < r.quantity) with
  | none => .ok (none, "risk_quantity_unavailable")
  | some r =>
    match context.exchangeFilters.prepare A side .market r.quantity r.quantity (some price)
        r.notional with
    | .ok prepared => .ok (some prepared, "exchange_filters_passed")
    | .error (.filterRejection reason) => .ok (none, reason)
    | .error e => .error e

def evaluateGates (context : EntryDecisionContext) (side : PaperOrderSide)
    (price : ℚ) : Py Evaluated := do
  let monitoring := s.admission.evaluate A context.monitoring
  let risk ← s.riskDecision A command evidence context price
  let (prepared, filterReason) ← prepareOrder A context side price risk
  let gates ← gateRecords (cycleId command) command.completedAt
    (gateFacts A s.broker.isSome command
      { voting := evidence.voting, analysis := evidence.analysis, monitoring := some monitoring,
        risk, prepared, filterReason })
  return ⟨monitoring, risk, prepared, gates⟩

def cycle (status : DecisionStatus) (direction : Direction) (disposition : Disposition)
    (reasonCode : ReasonCode) :
    DecisionCycle :=
  { id := cycleId command, experimentId := command.frame.key.experimentId,
    symbol := command.frame.key.symbol, status, direction, disposition, reasonCode }

def incident (component reason : String) : IncidentState :=
  let deduplicationKey := component ++ ":" ++ reason ++ ":" ++ command.frame.frameId.text
  .create (idOf "incident" [command.manifest.experimentId.text, deduplicationKey])
    command.manifest.experimentId deduplicationKey .critical component reason true
    command.completedAt

def rejection (gates : List GateEvaluationRecord) : Option (GateEvaluationRecord × List GateType) :=
  (gates.find? (fun gate => gate.passed = false)).map (fun gate =>
    (gate, (gates.take (gates.findIdx (fun g => g.passed = false) + 1)).map (·.gateType)))

def proposal (context : EntryDecisionContext) (side : PaperOrderSide) (price quantity : ℚ)
    (e : Evaluated) :
    TradeProposalRecord :=
  let a := evidence.analysis
  { id := proposalId command, decisionCycleId := cycleId command,
    experimentId := command.manifest.experimentId, symbol := command.frame.key.symbol,
    direction := a.direction, status := if e.allPassed then .approved else .rejected,
    reasonCode := ((rejection e.gates).map (·.1.reasonCode)).getD .accepted,
    proposedAt := command.completedAt, expiresAt := command.completedAt + context.proposalTtl,
    executablePrice := price, side, gateChainHash := evidence.gateChainHash e.gates,
    filterCapturedAt := context.exchangeFilters.capturedAt,
    stopPrice := stopPrice A a.direction price a.researchLoss,
    targetPrice := targetPrice A a.direction price a.researchGain,
    expectedLossFraction := a.researchLoss, expectedGainFraction := a.researchGain,
    approvedQuantity := if e.allPassed then some quantity else none,
    approvedNotional := if e.allPassed then some (A.mul quantity price) else none,
    riskAtStop := if e.allPassed then
    (e.risk.map (·.riskAtStop)).filter (fun x => 0 < x) else none }

def claims (context : EntryDecisionContext) (side : PaperOrderSide) (price : ℚ) (e : Evaluated)
    (prepared : PreparedOrder) : AuthorizationClaims :=
  { experimentId := command.manifest.experimentId, decisionCycleId := cycleId command,
    proposalId := proposalId command, gateChainHash := evidence.gateChainHash e.gates,
    symbol := command.frame.key.symbol, side, quantity := prepared.quantity,
    approvedNotional := A.mul prepared.quantity price, issuedAt := command.completedAt,
    expiresAt := command.completedAt + context.proposalTtl }

/-- the position an entry fills: the one of the symbol, open or flat, or a new one -/
def positionId (context : EntryDecisionContext) : UUID :=
  match context.account.positions.get? command.frame.key.symbol with
  | some p => p.positionId
  | none => idOf "paper-position" [command.manifest.experimentId.text, command.frame.key.symbol]

def entryCommand (context : EntryDecisionContext) (side : PaperOrderSide) (price : ℚ)
    (e : Evaluated) (prepared : PreparedOrder) (capability : ExecutionCapability) :
    MarketEntryCommand :=
  { orderId := idOf "paper-order" [(proposalId command).text, "entry"]
    fillId := idOf "paper-fill" [(proposalId command).text, "entry"]
    positionId := positionId command context
    exitPlanId := idOf "exit-plan" [(positionId command context).text]
    experimentId := command.manifest.experimentId
    decisionCycleId := cycleId command
    proposalId := proposalId command
    gateChainHash := evidence.gateChainHash e.gates
    clientOrderId := "paper-" ++ (proposalId command).text
    symbol := command.frame.key.symbol
    side
    requestedQuantity := prepared.quantity
    approvedQuantity := prepared.quantity
    approvedNotional := A.mul prepared.quantity price
    decisionExecutablePrice := price
    decisionCompletedAt := command.completedAt
    executionLatency := context.executionLatency
    createdAt := command.completedAt
    expiresAt := command.completedAt + context.proposalTtl
    takerFeeRate := context.takerFeeRate
    expectedLossFraction := evidence.analysis.researchLoss
    expectedGainFraction := evidence.analysis.researchGain
    capability
    exchangeFilters := context.exchangeFilters }

def bundle (proposal : TradeProposalRecord) (e : Evaluated) : DecisionBundle :=
  { cycle :=
      cycle command (if e.allPassed then .completed else .rejected) evidence.analysis.direction
      (if e.allPassed then .approved else .rejected) proposal.reasonCode
    gates := e.gates, proposal := some proposal }

def approve (context : EntryDecisionContext) (side : PaperOrderSide) (price : ℚ) (e : Evaluated)
    (proposal : TradeProposalRecord) : Py OrchestrationOutcome := do
  let bundle := bundle command evidence proposal e
  let prepared ← orRaise e.prepared
    (.runtimeError "passed broker-capacity gate lacks execution dependencies")
  let broker ← orRaise s.broker
    (.runtimeError "passed broker-capacity gate lacks execution dependencies")
  let claims ← (claims A command evidence context side price e prepared).postInit
  let capability ← broker.authorizer.issue claims true
  match broker.enter A (entryCommand A command evidence context side price e prepared capability)
      context.account context.books context.activeExitPlan with
  | .ok (result, sensitivities) =>
    OrchestrationOutcome.postInit A
      { disposition := .executed, bundle, incident := none, counterfactual := none,
        capability := some capability, execution := some result.record, sensitivities }
        evidence.records
  -- every exception of the broker or of the sensitivities halts the entry
  | .error _ =>
    OrchestrationOutcome.postInit A
      { disposition := .halted, bundle,
        incident := some (incident command "paper_execution" "approved_entry_execution_failed"),
        counterfactual := none, capability := some capability, execution := none,
        sensitivities := [] }
      evidence.records

/-- what the research on a rejected proposal starts from -/
def followRequest (context : EntryDecisionContext) (price quantity : ℚ) (gate : GateType)
    (chain : List GateType) :
    CounterfactualRequest :=
  { counterfactualId := idOf "counterfactual" [(proposalId command).text]
    experimentId := command.manifest.experimentId, proposalId := proposalId command,
    decisionCycleId := cycleId command, symbol := command.frame.key.symbol,
    direction := evidence.analysis.direction, rejectionGate := gate, priorGateChain := chain,
    quantity, decisionExecutablePrice := price,
    eligibleAfter := command.completedAt + context.executionLatency,
    feeRate := context.takerFeeRate, expectedLossFraction := evidence.analysis.researchLoss,
    expectedGainFraction := evidence.analysis.researchGain, createdAt := command.completedAt }

def reject (context : EntryDecisionContext) (price quantity : ℚ) (e : Evaluated)
    (proposal : TradeProposalRecord) : Py OrchestrationOutcome := do
  let bundle := bundle command evidence proposal e
  let failed ← orRaise (rejection e.gates)
    (.runtimeError "rejected directional proposal has no rejection gate")
  let counterfactual ← CounterfactualState.create
    (followRequest command evidence context price quantity failed.1.gateType failed.2)
  OrchestrationOutcome.postInit A
    { disposition := .rejected, bundle, incident := none, counterfactual := some counterfactual,
      capability := none, execution := none, sensitivities := [] } evidence.records

/-- `prepared.quantity`, or a quantity to follow the rejected proposal with -/
def proposedQuantity (context : EntryDecisionContext) (price : ℚ) (e : Evaluated) : Py ℚ :=
  match e.prepared with
  | some prepared => .ok prepared.quantity
  | none => researchQuantity A context price

/-- the directional branch of `_admitted` -/
def directional (context : EntryDecisionContext) (price : ℚ) : Py OrchestrationOutcome := do
  let side ← side evidence.analysis.direction
  let e ← s.evaluateGates A command evidence context side price
  let quantity ← proposedQuantity A context price e
  let proposal ← (proposal A command evidence context side price quantity e).postInit
  if e.allPassed then s.approve A command evidence context side price e proposal
  else reject A command evidence context price quantity e proposal

def neutral : Py OrchestrationOutcome := do
  let gates ← gateRecords (cycleId command) command.completedAt
    (gateFacts A s.broker.isSome command
      { voting := evidence.voting, analysis := evidence.analysis, monitoring := none, risk := none,
        prepared := none, filterReason := "direction_is_neutral" })
  OrchestrationOutcome.postInit A
    { disposition := .neutral,
      bundle := ⟨cycle command .completed .neutral .neutral .neutralConsensus, gates, none⟩,
      incident := none, counterfactual := none, capability := none, execution := none,
      sensitivities := [] }
    evidence.records

/-- `_neutral_halt` of a directional frame without an entry context -/
def contextMissing : Py OrchestrationOutcome :=
  let gate := fun gateType sequence passed reasonCode =>
    GateEvaluationRecord.mk (cycleId command) gateType sequence passed reasonCode none
      command.completedAt
  OrchestrationOutcome.postInit A
    { disposition := .halted,
      bundle := ⟨cycle command .rejected .neutral .neutral .monitoringUnhealthy,
        [gate .dataQuality 1 true .accepted, gate .consensus 2 false .monitoringUnhealthy], none⟩,
      incident := some (incident command "orchestration" "entry_decision_context_missing"),
      counterfactual := none, capability := none, execution := none, sensitivities := [] }
    evidence.haltRecords

def admitted : Py OrchestrationOutcome := do
  let price ← executablePrice A command.frame
  if evidence.analysis.direction = .neutral then s.neutral A command evidence
  else
    match command.entryContext with
    | none => contextMissing A command evidence
    | some context => s.directional A command evidence context price

end Service

end Maais.Orchestration
