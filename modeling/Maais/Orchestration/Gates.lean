import Maais.Control.State
import Maais.Orchestration.Admission
import Maais.Paper.Sensitivity

/-!
# The entry gates

A frame that was admitted is decided by thirteen gates in a fixed order; the first one that fails
blocks the others.

* `gateFacts`  what each gate says on its own;
* `gateRecords`  the chain: nothing passes after a gate that failed;
* `recordsFrom_all_passed_iff`, `recordsFrom_split`  the chain passes when every fact does, and
  stops at the first that does not.

The features, the agents and the analytics of a frame are read through their results.
-/

namespace Maais

@[ext] structure FrameKey where
  experimentId : UUID
  strategyVersionId : UUID
  symbol : String
  timeframe : String
  barCloseAt : Time
  symbol_ne : symbol ≠ ""
  timeframe_ne : timeframe ≠ ""

instance : DecidableEq FrameKey := fun _ _ => decidable_of_iff _ FrameKey.ext_iff.symm

end Maais

namespace Maais.Orchestration
open Lib

/-! ## commands -/

structure FrameView where
  key : FrameKey
  frameId : UUID
  cutoffAt : Time
  bestBid : Option ℚ
  bestAsk : Option ℚ
  markPrice : Option ℚ
deriving DecidableEq

structure EntryDecisionContext where
  monitoring : MonitoringAdmissionContext
  drawdown : DrawdownSnapshot
  openPositions : List OpenRiskPosition
  correlations : List CorrelationObservation
  exchangeFilters : ExchangeFilterSnapshot
  account : AccountState
  books : List BookSnapshot
  activeExitPlan : Option ExitPlan
  proposalTtl : Time
  executionLatency : Time
  takerFeeRate : ℚ
deriving DecidableEq

namespace EntryDecisionContext

variable (A : Arith) (c : EntryDecisionContext)

/-- `risk_positions`: the last position of a symbol stands -/
def riskPositions : Dict String OpenRiskPosition := Dict.empty.setAll (·.symbol)
    (fun p => p) c.openPositions

def accountPositions : List (String × PositionState) :=
  c.account.positions.entries.filter (fun entry => ¬ entry.2.isFlat A)

/-- an open position of the account against what the risk engine is told about it -/
def reconcilePosition (entry : String × PositionState) : Py Unit := do
  let risk ← orRaise (c.riskPositions.get? entry.1) (.lookupError entry.1)
  raiseIf (risk.notional ≠ entry.2.grossNotional A ∨
      risk.margin ≠ A.div (entry.2.grossNotional A) c.account.leverage ∨ risk.lossAtStop ≤ 0)
    (.valueError "open risk position does not reconcile to the paper account")

def checkPlan : Py Unit :=
  match c.activeExitPlan with
  | none => .ok ()
  | some plan => do
    let position ← c.account.position c.exchangeFilters.symbol
    raiseIf (plan.positionId ≠ position.positionId)
      (.valueError "active exit plan belongs to another paper position")

/-- `(observed_at, sequence)` -/
def bookOrder (a b : BookSnapshot) : Prop :=
  a.observedAt < b.observedAt ∨ a.observedAt = b.observedAt ∧ a.sequence ≤ b.sequence

instance bookOrder.decidable : DecidableRel bookOrder := fun a b => by
  unfold bookOrder
  infer_instance

def sorted : EntryDecisionContext :=
  { c with
    openPositions := c.openPositions.insertionSort (fun a b => a.symbol ≤ b.symbol)
    correlations := c.correlations.insertionSort (fun a b => a.otherSymbol ≤ b.otherSymbol)
    books := c.books.insertionSort bookOrder }

def postInit : Py EntryDecisionContext := do
  raiseIf (c.proposalTtl ≤ 0 ∨ c.executionLatency ≤ 0)
    (.valueError "proposal TTL and execution latency must be positive")
  raiseIf (c.takerFeeRate < 0 ∨ c.takerFeeRate > 1)
    (.valueError "taker fee rate must be a finite Decimal in [0, 1]")
  raiseIf (c.drawdown.peakEquity ≠ c.account.peakEquity ∨
    c.drawdown.currentEquity ≠ c.account.equity A)
    (.valueError "drawdown snapshot must reconcile to the paper account")
  raiseIf ((∃ entry ∈ c.accountPositions A, entry.1 ∉ c.riskPositions.keys) ∨
      ∃ symbol ∈ c.riskPositions.keys, symbol ∉ (c.accountPositions A).map Prod.fst)
    (.valueError "open risk positions must cover every non-flat paper position")
  (c.accountPositions A).forM (c.reconcilePosition A)
  raiseIf (c.exchangeFilters.symbol ∈ (c.accountPositions A).map Prod.fst ∧ c.activeExitPlan = none)
    (.valueError "a non-flat paper position requires its active exit plan")
  c.checkPlan
  return c.sorted

end EntryDecisionContext

structure OrchestrationCommand where
  frame : FrameView
  integrityFrameId : UUID
  manifest : ExperimentManifest
  /-- `manifest.fee_policy["taker"]`, when it is a decimal -/
  manifestTakerFee : Option ℚ
  evaluatedAt : Time
  completedAt : Time
  entryContext : Option EntryDecisionContext
deriving DecidableEq

namespace OrchestrationCommand

variable (c : OrchestrationCommand)

def checkContext : Option EntryDecisionContext → Py Unit
  | none => .ok ()
  | some context => do
    raiseIf (context.monitoring.symbol ≠ c.frame.key.symbol ∨
        context.monitoring.timeframe ≠ c.frame.key.timeframe ∨
        context.exchangeFilters.symbol ≠ c.frame.key.symbol ∨
        context.account.experimentId ≠ c.frame.key.experimentId)
      (.valueError "entry context identity differs from the causal frame")
    raiseIf (context.monitoring.evaluatedAt ≠ c.evaluatedAt)
      (.valueError "monitoring and orchestration evaluation times differ")
    raiseIf (context.exchangeFilters.capturedAt > c.completedAt)
      (.valueError "exchange filters cannot be captured after the decision")
    let fee ← orRaise c.manifestTakerFee
      (.valueError "manifest taker fee must be an explicit decimal")
    raiseIf (context.takerFeeRate ≠ fee)
      (.valueError "entry-context taker fee differs from the frozen manifest")

def postInit : Py OrchestrationCommand := do
  raiseIf (c.integrityFrameId ≠ c.frame.frameId)
    (.valueError "integrity assessment belongs to another frame")
  raiseIf (c.manifest.experimentId ≠ c.frame.key.experimentId)
    (.valueError "manifest and frame experiment differ")
  raiseIf (c.frame.key.symbol ∉ c.manifest.symbols)
    (.valueError "frame symbol is not pinned by the experiment manifest")
  raiseIf (c.evaluatedAt < c.frame.cutoffAt ∨ c.completedAt < c.evaluatedAt)
    (.valueError "orchestration times are not causally ordered")
  c.checkContext c.entryContext
  return c

end OrchestrationCommand

/-! ## what the analysis of a frame came to -/

inductive ReasonCode
  | accepted | priorGateFailed | neutralConsensus | incompatibleRegime | adversarialBlocked
    | nonPositiveEv
  | alphaFailed | monitoringUnhealthy | drawdownHalt | correlationBlocked | portfolioRiskExceeded
  | leverageRejected | exchangeFilterRejected | brokerCapacityRejected
deriving DecidableEq

@[ext] structure OfficialDecisionAnalysis where
  direction : Direction
  consensusProbability : ℚ
  consensusPassed : Bool
  consensusReason : String
  challengeBlocked : Bool
  expectedGain : ℚ
  expectedLoss : ℚ
  netEv : ℚ
  evReason : String
  benchmarkAvailable : Bool
  alphaEstimate : ℚ
  alphaReason : String
  probability_range : 0 ≤ consensusProbability ∧ consensusProbability ≤ 1
  expectedGain_nonneg : 0 ≤ expectedGain
  expectedLoss_nonneg : 0 ≤ expectedLoss
  neutral_not_passed : direction = .neutral → consensusPassed = false

instance : DecidableEq OfficialDecisionAnalysis :=
  fun _ _ => decidable_of_iff _ OfficialDecisionAnalysis.ext_iff.symm

namespace OfficialDecisionAnalysis

variable (a : OfficialDecisionAnalysis)

/-- the verdicts the constructor compares with the estimates -/
def evPositive : Bool := decide (0 < a.netEv)
def alphaPositive : Bool := a.benchmarkAvailable && decide (0 < a.alphaEstimate)

/-- `_research_loss`, `_research_gain`: an estimate to eighteen places, or one percent -/
def research (estimate : ℚ) : ℚ :=
  let value := if 0 < estimate then estimate else 1 / 100
  halfEven (value * 10 ^ 18) / 10 ^ 18

def researchLoss : ℚ := research a.expectedLoss
def researchGain : ℚ := research a.expectedGain

end OfficialDecisionAnalysis

/-! ## the facts of the gates -/

/-- `tuple(GateType)` -/
def gateOrder : List GateType :=
  [.dataQuality, .regimeCompatibility, .consensus, .adversarial, .ev, .alpha, .monitoring,
    .drawdown, .correlation, .portfolioRisk, .leverage, .exchangeFilters, .paperBrokerCapacity]

/-- what a gate says on its own, without the snapshots it carries -/
structure GateFact where
  gateType : GateType
  rawPassed : Bool
  reasonCode : ReasonCode
  rawReason : String

def GateFact.of (gateType : GateType) (passed : Bool) (rejected : ReasonCode)
    (rawReason : String) : GateFact :=
  ⟨gateType, passed, if passed then .accepted else rejected, rawReason⟩

/-- `_risk_check`; a decision carries every check, so its gate is found -/
def riskCheck (decision : Option OfficialRiskDecision) (check : RiskCheck) : Bool × String :=
  match decision with
  | none => (false, "risk_decision_unavailable")
  | some d =>
    match d.gate? check with
    | some gate => (decide (gate.status = .passed), gate.reasonCode)
    | none => (false, "")

def portfolioChecks : List RiskCheck :=
  [.kelly, .priceAndStop, .tradeRiskAtStop, .portfolioLossAtStop, .grossNotional]

def portfolioPassed (risk : Option OfficialRiskDecision) : Bool :=
  risk.isSome && portfolioChecks.all (fun check => (riskCheck risk check).1)

def firstRiskReason (risk : Option OfficialRiskDecision) : String :=
  ((portfolioChecks.find? (fun check => (riskCheck risk check).1 = false)).map
    (fun check => (riskCheck risk check).2)).getD "portfolio_risk_within_limit"

def monitoringReason : Option MonitoringAdmissionDecision → String
  | none => "monitoring_context_unavailable"
  | some decision =>
    ((decision.gates.find? (fun gate => gate.status ≠ .passed)).map (·.reasonCode)).getD
      "monitoring_admitted"

section
variable (A : Arith)

def leveragePassed (context : Option EntryDecisionContext) (risk : Option OfficialRiskDecision) :
    Bool :=
  match context with
  | none => false
  | some c => decide (c.account.leverage = 1) && (riskCheck risk .margin).1

def leverageReason (context : Option EntryDecisionContext) (risk : Option OfficialRiskDecision) :
    String :=
  if leveragePassed context risk then "leverage_and_margin_within_limit"
  else if ∃ c ∈ context, c.account.leverage ≠ 1 then "paper_leverage_above_conservative_limit"
  else (riskCheck risk .margin).2

def requiredCapacity (c : EntryDecisionContext) (prepared : PreparedOrder) : ℚ :=
  A.add (A.div prepared.notional c.account.leverage) (A.mul prepared.notional c.takerFeeRate)

def directionCompatible (c : EntryDecisionContext) (symbol : String)
    (direction : Direction) : Prop :=
  ∀ p ∈ c.account.positions.get? symbol, p.isFlat A ∨ p.side = direction

instance directionCompatible.decidable {c : EntryDecisionContext} {symbol : String}
    {direction : Direction} : Decidable (directionCompatible A c symbol direction) := by
  unfold directionCompatible
  infer_instance

def capacity (dependencies : Bool) (symbol : String) (direction : Direction)
    (context : Option EntryDecisionContext) (prepared : Option PreparedOrder) : Bool × String :=
  match context, prepared with
  | some c, some p =>
    if dependencies = false then (false, "paper_execution_dependency_missing")
    else if c.books = [] then (false, "eligible_book_stream_missing")
    else if ¬ directionCompatible A c symbol direction then
      (false, "existing_position_direction_conflict")
    else if requiredCapacity A c p > c.account.freeMargin A then
      (false, "paper_account_capacity_exceeded")
    else (true, "paper_broker_capacity_available")
  | _, _ => (false, "prepared_order_unavailable")

structure GateInputs where
  voting : List String
  analysis : OfficialDecisionAnalysis
  monitoring : Option MonitoringAdmissionDecision
  risk : Option OfficialRiskDecision
  prepared : Option PreparedOrder
  filterReason : String

def gateFacts (dependencies : Bool) (command : OrchestrationCommand) (i : GateInputs) :
    List GateFact :=
  let a := i.analysis
  let context := command.entryContext
  let cap := capacity A dependencies command.frame.key.symbol a.direction context i.prepared
  let voted := !i.voting.isEmpty
  [.of .dataQuality true .accepted "frame_admitted",
    .of .regimeCompatibility voted .incompatibleRegime
      (if voted then "compatible_voting_agents_present" else "no_compatible_voting_agents"),
    .of .consensus a.consensusPassed .neutralConsensus a.consensusReason,
    .of .adversarial (!a.challengeBlocked) .adversarialBlocked
      (if a.challengeBlocked then
      "adversarial_challenge_blocked" else "adversarial_challenge_clear"),
    .of .ev a.evPositive .nonPositiveEv a.evReason,
    .of .alpha a.alphaPositive .alphaFailed a.alphaReason,
    .of .monitoring ((i.monitoring.map (·.allowed)).getD false) .monitoringUnhealthy
    (monitoringReason i.monitoring),
    .of .drawdown (riskCheck i.risk .drawdown).1 .drawdownHalt (riskCheck i.risk .drawdown).2,
    .of .correlation (riskCheck i.risk .correlation).1 .correlationBlocked
    (riskCheck i.risk .correlation).2,
    .of .portfolioRisk (portfolioPassed i.risk) .portfolioRiskExceeded (firstRiskReason i.risk),
    .of .leverage (leveragePassed context i.risk) .leverageRejected (leverageReason context i.risk),
    .of .exchangeFilters i.prepared.isSome .exchangeFilterRejected i.filterReason,
    .of .paperBrokerCapacity cap.1 .brokerCapacityRejected cap.2]

end

/-! ## the chain -/

inductive EffectiveStatus
  | passed | failed | notApplicable
deriving DecidableEq

structure ChainOutput where
  rawPassed : Bool
  rawReason : String
  effectiveStatus : EffectiveStatus
  blockingGate : Option GateType
deriving DecidableEq

structure GateEvaluationRecord where
  decisionCycleId : UUID
  gateType : GateType
  sequence : Nat
  passed : Bool
  reasonCode : ReasonCode
  chain : Option ChainOutput
  evaluatedAt : Time
deriving DecidableEq

section
variable (cycleId : UUID) (evaluatedAt : Time)

def recordOf (sequence : Nat) (blocking : Option GateType) (fact : GateFact) :
    GateEvaluationRecord :=
  let passed := blocking.isNone && fact.rawPassed
  { decisionCycleId := cycleId, gateType := fact.gateType, sequence, passed,
    reasonCode := if blocking.isSome then .priorGateFailed else fact.reasonCode,
    chain := some
      { rawPassed := fact.rawPassed, rawReason := fact.rawReason,
        effectiveStatus := if passed then .passed else if blocking.isNone then
        .failed else .notApplicable, blockingGate := blocking }
    evaluatedAt }

/-- the loop of `_gate_records` -/
def recordsFrom : Nat → Option GateType → List GateFact → List GateEvaluationRecord
  | _, _, [] => []
  | sequence, blocking, fact :: rest =>
    recordOf cycleId evaluatedAt sequence blocking fact ::
      recordsFrom (sequence + 1)
        (if blocking = none ∧ fact.rawPassed = false then some fact.gateType else blocking) rest

def gateRecords (facts : List GateFact) : Py (List GateEvaluationRecord) := do
  raiseIf (facts.map (·.gateType) ≠ gateOrder)
    (.valueError "official orchestration must evaluate every ordered gate")
  return recordsFrom cycleId evaluatedAt 1 none facts

variable {cycleId evaluatedAt} {facts : List GateFact} {n : Nat}

theorem recordsFrom_blocked {gate : GateType} :
    ∀ r ∈ recordsFrom cycleId evaluatedAt n (some gate) facts, r.passed = false ∧
    r.reasonCode = .priorGateFailed := by
  induction facts generalizing n with
  | nil => exact fun r hr => nomatch hr
  | cons fact rest ih =>
    intro r hr
    rcases List.mem_cons.mp hr with rfl | hr
    · exact ⟨rfl, rfl⟩
    · exact ih r hr

/-- **the chain at its first failing fact** -/
theorem recordsFrom_split {before after : List GateFact} {fact : GateFact}
    (hbefore : ∀ f ∈ before, f.rawPassed = true) (hfact : fact.rawPassed = false) :
    recordsFrom cycleId evaluatedAt n none (before ++ fact :: after) =
      recordsFrom cycleId evaluatedAt n none before ++ recordOf cycleId evaluatedAt
        (n + before.length) none fact :: recordsFrom cycleId evaluatedAt (n + before.length + 1)
        (some fact.gateType) after := by
  induction before generalizing n with
  | nil => simp [recordsFrom, hfact]
  | cons f before ih =>
    obtain ⟨hf, hrest⟩ := List.forall_mem_cons.mp hbefore
    have hnext : (if (none : Option GateType) = none ∧ f.rawPassed = false then
        some f.gateType else none) = none := by
      simp [hf]
    rw [List.cons_append, recordsFrom, recordsFrom, hnext, ih hrest, List.length_cons,
      Nat.add_right_comm n 1]
    rfl

/-- **the chain passes when every fact does** -/
theorem recordsFrom_all_passed_iff :
    (∀ r ∈ recordsFrom cycleId evaluatedAt n none facts, r.passed = true) ↔
    ∀ f ∈ facts, f.rawPassed = true := by
  induction facts generalizing n with
  | nil => exact iff_of_true (fun r hr => nomatch hr) (fun f hf => nomatch hf)
  | cons fact rest ih =>
    rw [recordsFrom, List.forall_mem_cons, List.forall_mem_cons]
    cases hraw : fact.rawPassed with
    | false => simp [recordOf, hraw]
    | true => simp [recordOf, hraw, ih]

theorem recordsFrom_fields {blocking : Option GateType} :
    (recordsFrom cycleId evaluatedAt n blocking facts).map (·.sequence) =
      List.range' n facts.length ∧ (recordsFrom cycleId evaluatedAt n blocking facts).map
      (·.gateType) = facts.map (·.gateType) ∧
      ∀ r ∈ recordsFrom cycleId evaluatedAt n blocking facts, r.decisionCycleId = cycleId := by
  induction facts generalizing n blocking with
  | nil => exact ⟨rfl, rfl, fun r hr => nomatch hr⟩
  | cons fact rest ih =>
    rw [recordsFrom]
    obtain ⟨hseq, htypes, hids⟩ :=
      @ih (n + 1) (if blocking = none ∧ fact.rawPassed = false then
      some fact.gateType else blocking)
    refine ⟨?_, ?_, List.forall_mem_cons.mpr ⟨rfl, hids⟩⟩
    · rw [List.map_cons, hseq, List.length_cons, List.range'_succ]
      rfl
    · rw [List.map_cons, htypes, List.map_cons]
      rfl

end

theorem gateFacts_order {A : Arith} {dependencies : Bool} {command : OrchestrationCommand}
    {i : GateInputs} : (gateFacts A dependencies command i).map (·.gateType) = gateOrder := rfl

end Maais.Orchestration
