import Maais.Decision.Official
import Maais.Orchestration.Service

/-!
# The agents of a decision

An admitted frame is put to every agent of the manifest. Each of them leaves a row, the analytics
read the rows, and the bundle of the decision records them.

* `runAgentMatrix`, `matrixRecords`  the rows, and as the bundle records them;
* `BundleRecords.validate`  the part of `DecisionBundle.validate` before the gates;
* `frameRecords_ok_iff`  the records pass unless an agent is both disabled and not for the regime;
* `haltRecords`  those of a halted frame do not depend on the regime.

The registry names every agent once. Of the bar of a frame the record repeats what the bar was
checked for, and the summary repeats the analysis; of both only the identities are kept.
-/

namespace Maais.Orchestration
open Lib

def allAgents : List String :=
  ["momentum", "technical_structure", "liquidity", "order_flow_toxicity", "stop_run_detection",
    "mean_reversion", "carry_yield", "macro_sentiment"]

/-! ## rows -/

@[ext] structure AgentManifestEntry where
  agentName : String
  weight : ℚ
  enabled : Bool
  weight_pos : 0 < weight

instance : DecidableEq AgentManifestEntry :=
  fun _ _ => decidable_of_iff _ AgentManifestEntry.ext_iff.symm

/-- the agents of a manifest, in the order of `ALL_AGENTS` -/
structure AgentManifest where
  agentVersions : List AgentManifestEntry
  names : agentVersions.map (·.agentName) = allAgents

/-- an agent of the registry: the regimes it is for, and what `analyze` comes to on the features at
hand -/
structure BaseAgent where
  compatibleRegimes : List String
  output : Except String Decision.AgentOutputSnapshot

def BaseAgent.isCompatibleWithRegime (agent : BaseAgent) (regime : Option String) : Bool :=
  agent.compatibleRegimes.isEmpty || agent.compatibleRegimes.any fun r => regime = some r

inductive AgentReason
  | agentEvaluated | disabledAgent | incompatibleRegime | agentException
deriving DecidableEq

/-- a row of the agent matrix: what the analytics read of it, and why it is there -/
structure AgentRow where
  evaluation : Decision.AgentEvaluation
  enabled : Bool
  compatible : Bool
  reasonCode : AgentReason
  failureReason : Option String
deriving DecidableEq

/-- `AgentOutputSnapshot.neutral` -/
def neutralOutput : Decision.AgentOutputSnapshot := ⟨.neutral, 1 / 2, 0, by norm_num, by norm_num⟩

def neutralEvaluation (entry : AgentManifestEntry) (compatible : Bool) (reasonCode : AgentReason)
    (failureReason : Option String) : AgentRow :=
  { evaluation :=
    ⟨entry.agentName, entry.weight, false, neutralOutput, entry.weight_pos, fun _ => rfl⟩
    enabled := entry.enabled, compatible, reasonCode, failureReason }

/-- `evaluate` of `run_agent_matrix` -/
def evaluateAgent (registry : String → BaseAgent) (regime : Option String)
    (entry : AgentManifestEntry) : AgentRow :=
  let agent := registry entry.agentName
  let compatible := agent.isCompatibleWithRegime regime
  if entry.enabled = false then neutralEvaluation entry compatible .disabledAgent none
  else if compatible = false then neutralEvaluation entry false .incompatibleRegime none
  else
    match agent.output with
    | .ok output =>
      { evaluation :=
        ⟨entry.agentName, entry.weight, true, output, entry.weight_pos, fun h => nomatch h⟩
        enabled := true, compatible := true, reasonCode := .agentEvaluated, failureReason := none }
    | .error details => neutralEvaluation entry true .agentException (some details)

structure AgentMatrix where
  rows : List AgentRow
  names : rows.map (·.evaluation.agentName) = allAgents
deriving DecidableEq

theorem evaluateAgent_name (registry : String → BaseAgent) (regime : Option String)
    (entry : AgentManifestEntry) : (evaluateAgent registry regime entry).evaluation.agentName =
    entry.agentName := by
  unfold evaluateAgent
  dsimp only
  split
  · rfl
  split
  · rfl
  split
  · rfl
  · rfl

def agentMatrix (registry : String → BaseAgent) (regime : Option String)
    (manifest : AgentManifest) : AgentMatrix where
  rows := manifest.agentVersions.map (evaluateAgent registry regime)
  names := by
    rw [List.map_map, ← manifest.names]
    exact List.map_congr_left fun entry _ => evaluateAgent_name registry regime entry

def runAgentMatrix (registry : String → BaseAgent) (regime : Option String)
    (manifest : AgentManifest) : Py AgentMatrix := do
  let matrix := agentMatrix registry regime manifest
  raiseIf (∃ row ∈ matrix.rows, row.failureReason ≠ none)
    (.runtimeError "one or more mandatory agents failed")
  return matrix

namespace AgentMatrix

variable (m : AgentMatrix)

def forAnalytics (features : Decision.FeatureSet) : Decision.AgentEvaluationMatrix where
  symbol := features.symbol
  timeframe := features.timeframe
  featureAt := features.timestamp
  regime := features.regime
  evaluations := m.rows.map (·.evaluation)
  names_nodup := by
    have hnames : (m.rows.map (·.evaluation)).map (·.agentName) = allAgents := by
      rw [List.map_map]
      exact m.names
    rw [hnames]
    decide

def voting : List String := (m.rows.filter (·.evaluation.voting)).map (·.evaluation.agentName)

end AgentMatrix

/-! ## records -/

inductive AgentRecordReason
  | accepted | disabledAgent | incompatibleRegime | agentFailed | monitoringUnhealthy
deriving DecidableEq

/-- `_record_reasons` -/
def recordReason : AgentReason → AgentRecordReason
  | .agentEvaluated => .accepted
  | .disabledAgent => .disabledAgent
  | .incompatibleRegime => .incompatibleRegime
  | .agentException => .agentFailed

structure AgentEvaluationRecord where
  decisionCycleId : UUID
  agentName : String
  compatible : Bool
  enabled : Bool
  weight : ℚ
  direction : Direction
  probability : ℚ
  confidence : ℚ
  reasonCodes : List AgentRecordReason

def AgentEvaluationRecord.postInit (r : AgentEvaluationRecord) : Py AgentEvaluationRecord := do
  raiseIf (r.weight ≤ 0) (.valueError "agent weight must be positive")
  raiseIf (r.probability < 0 ∨ r.probability > 1) (.valueError "probability must be in [0, 1]")
  raiseIf (r.confidence < 0 ∨ r.confidence > 1) (.valueError "confidence must be in [0, 1]")
  return r

def AgentRow.record (cycleId : UUID) (row : AgentRow) : AgentEvaluationRecord :=
  { decisionCycleId := cycleId, agentName := row.evaluation.agentName, compatible := row.compatible,
    enabled := row.enabled, weight := row.evaluation.weight,
    direction := row.evaluation.output.direction, probability := row.evaluation.output.probability,
    confidence := row.evaluation.output.confidence, reasonCodes := [recordReason row.reasonCode] }

def matrixRecords (cycleId : UUID) (m : AgentMatrix) : Py (List AgentEvaluationRecord) :=
  m.rows.mapM fun row => (row.record cycleId).postInit

/-- the record of an agent that was not asked, as `_neutral_halt` builds it for a frame without an
entry context -/
def AgentManifestEntry.haltRecord (cycleId : UUID) (entry : AgentManifestEntry) :
    AgentEvaluationRecord :=
  { decisionCycleId := cycleId, agentName := entry.agentName, compatible := true,
    enabled := entry.enabled, weight := entry.weight, direction := .neutral, probability := 1 / 2,
    confidence := 0, reasonCodes := if entry.enabled then
    [.monitoringUnhealthy] else [.monitoringUnhealthy, .disabledAgent] }

/-- what the record of a frame takes from its bar and its other sources -/
structure FrameSources where
  venue : String
  barCloseAt : Time
  indexPrice : Option ℚ
  primarySpotPrice : Option ℚ
  secondaryVenuePrice : Option ℚ

def FrameView.recordedPrices (frame : FrameView) (sources : FrameSources) :
    List (String × Option ℚ) :=
  [("best_bid", frame.bestBid), ("best_ask", frame.bestAsk), ("mark_price", frame.markPrice),
    ("index_price", sources.indexPrice), ("primary_spot_price", sources.primarySpotPrice),
    ("secondary_venue_price", sources.secondaryVenuePrice)]

/-- `MarketFrameRecord.__post_init__` -/
def FrameView.record (frame : FrameView) (sources : FrameSources) : Py Unit := do
  raiseIf (frame.key.symbol = "" ∨ frame.key.symbol ≠ upper frame.key.symbol)
    (.valueError "market frame symbol must be uppercase")
  raiseIf (sources.venue = "" ∨ frame.key.timeframe = "")
    (.valueError "venue and timeframe are required")
  raiseIf (frame.cutoffAt < sources.barCloseAt) (.valueError "market frame times are not ordered")
  (frame.recordedPrices sources).forM fun price =>
    raiseIf (∃ x ∈ price.2, x ≤ 0) (.valueError (price.1 ++ " must be positive"))

/-- a frame as the builder of frames makes it: from a named venue, cut off after its bar, at
positive prices -/
structure FrameView.Recordable (frame : FrameView) (sources : FrameSources) : Prop where
  venue : sources.venue ≠ ""
  closed : sources.barCloseAt ≤ frame.cutoffAt
  prices : ∀ price ∈ frame.recordedPrices sources, ∀ x ∈ price.2, 0 < x

structure FrameIdentity where
  experimentId : UUID
  marketFrameId : UUID
  symbol : String
  timeframe : String

structure BundleRecords where
  marketFrame : FrameIdentity
  cycle : FrameIdentity
  cycleId : UUID
  agents : List AgentEvaluationRecord
  summaryCycleId : UUID

def checkAgent (cycleId : UUID) (agent : AgentEvaluationRecord) : Py Unit := do
  raiseIf (agent.decisionCycleId ≠ cycleId) (.valueError "agent references another decision cycle")
  raiseIf (agent.enabled = false ∧ .disabledAgent ∉ agent.reasonCodes)
    (.valueError "disabled_agent reason is required")
  raiseIf (agent.compatible = false ∧ .incompatibleRegime ∉ agent.reasonCodes ∧
    .agentFailed ∉ agent.reasonCodes)
    (.valueError "incompatible or failed-agent reason is required")
  raiseIf ((agent.enabled = false ∨ agent.compatible = false) ∧ agent.direction ≠ .neutral)
    (.valueError "non-voting agents must be neutral")

namespace BundleRecords

variable (b : BundleRecords)

def agentsByName : Dict String AgentEvaluationRecord := Dict.empty.setAll (·.agentName)
    (fun agent => agent) b.agents

def validate : Py Unit := do
  raiseIf (b.marketFrame.experimentId ≠ b.cycle.experimentId)
    (.valueError "market frame and cycle experiment differ")
  raiseIf (b.marketFrame.marketFrameId ≠ b.cycle.marketFrameId)
    (.valueError "cycle does not reference its market frame")
  raiseIf ((b.marketFrame.symbol, b.marketFrame.timeframe) ≠ (b.cycle.symbol, b.cycle.timeframe))
    (.valueError "market frame and cycle identity differ")
  raiseIf (b.agents.length ≠ allAgents.length ∨ (∃ name ∈ b.agentsByName.keys, name ∉ allAgents) ∨
      ∃ name ∈ allAgents, name ∉ b.agentsByName.keys)
    (.valueError "bundle requires exactly one evaluation for each configured agent")
  allAgents.forM fun name => do
    let agent ← orRaise (b.agentsByName.get? name) (.lookupError name)
    checkAgent b.cycleId agent
  raiseIf (b.summaryCycleId ≠ b.cycleId) (.valueError "summary references another decision cycle")

end BundleRecords

def OrchestrationCommand.frameIdentity (command : OrchestrationCommand) : FrameIdentity :=
  ⟨command.frame.key.experimentId, command.frame.frameId, command.frame.key.symbol,
    command.frame.key.timeframe⟩

/-- the records of a frame, built and validated; `featureVersion` is
`component_versions["features"]`, if a text -/
def validated (command : OrchestrationCommand) (sources : FrameSources)
    (featureVersion : Option String) (agents : Py (List AgentEvaluationRecord)) : Py Unit := do
  command.frame.record sources
  let _ ← orRaise (featureVersion.filter (· ≠ ""))
    (.valueError "manifest must pin a feature version")
  let agents ← agents
  BundleRecords.validate
    { marketFrame := command.frameIdentity, cycle := command.frameIdentity,
      cycleId := Service.cycleId command, agents, summaryCycleId := Service.cycleId command }

def frameRecords (command : OrchestrationCommand) (sources : FrameSources)
    (featureVersion : Option String) (m : AgentMatrix) : Py Unit :=
  validated command sources featureVersion (matrixRecords (Service.cycleId command) m)

def haltRecords (command : OrchestrationCommand) (sources : FrameSources)
    (featureVersion : Option String) (manifest : AgentManifest) : Py Unit :=
  validated command sources featureVersion
    (manifest.agentVersions.mapM fun entry => (entry.haltRecord (Service.cycleId command)).postInit)

def evidenceOf (command : OrchestrationCommand) (sources : FrameSources)
    (featureVersion : Option String) (manifest : AgentManifest) (m : AgentMatrix)
    {a : Decision.OfficialDecisionAnalysis} (h : a.Checked)
    (gateChainHash : List GateEvaluationRecord → Digest) : Evidence :=
  { voting := m.voting, analysis := a.forGates h,
    records := frameRecords command sources featureVersion m
    haltRecords := haltRecords command sources featureVersion manifest, gateChainHash }

/-! ## which records pass -/

theorem AgentEvaluationRecord.postInit_eq {r : AgentEvaluationRecord} (hweight : 0 < r.weight)
    (hprobability : 0 ≤ r.probability ∧ r.probability ≤ 1)
    (hconfidence : 0 ≤ r.confidence ∧ r.confidence ≤ 1) : r.postInit = .ok r := by
  rw [postInit, raiseIf_bind_neg (not_le.mpr hweight),
    raiseIf_bind_neg (not_or.mpr ⟨not_lt.mpr hprobability.1, not_lt.mpr hprobability.2⟩),
    raiseIf_bind_neg (not_or.mpr ⟨not_lt.mpr hconfidence.1, not_lt.mpr hconfidence.2⟩)]
  rfl

theorem matrixRecords_eq (cycleId : UUID) (m : AgentMatrix) :
    matrixRecords cycleId m = .ok (m.rows.map (·.record cycleId)) := by
  rw [matrixRecords, mapM_eq_ok, List.forall₂_map_right_iff]
  exact List.forall₂_same.mpr fun row _ =>
    AgentEvaluationRecord.postInit_eq row.evaluation.weight_pos
    row.evaluation.output.probability_range row.evaluation.output.confidence_range

section
variable {b : BundleRecords}

theorem agentsByName_get (hnames : b.agents.map (·.agentName) = allAgents)
    {agent : AgentEvaluationRecord} (hagent : agent ∈ b.agents) :
    b.agentsByName.get? agent.agentName = some agent := by
  have hnodup : (b.agents.map (·.agentName)).Nodup := by
    rw [hnames]
    decide
  exact Dict.get?_setAll_of_mem _ _ _ hnodup hagent

theorem agentsByName_keys (hnames : b.agents.map (·.agentName) = allAgents) (name : String) :
    name ∈ b.agentsByName.keys ↔ name ∈ allAgents := by
  rw [Dict.mem_keys_iff, ← hnames, List.mem_map]
  constructor
  · rintro ⟨agent, hget⟩
    rcases Dict.get?_setAll_cases _ _ _ hget with ⟨found, hmem, hname, _⟩ | hnone
    · exact ⟨found, hmem, hname⟩
    · cases hnone
  · rintro ⟨agent, hmem, rfl⟩
    exact ⟨agent, agentsByName_get hnames hmem⟩

theorem validate_ok_iff (hframe : b.marketFrame = b.cycle)
    (hnames : b.agents.map (·.agentName) = allAgents) (hsummary : b.summaryCycleId = b.cycleId) :
    b.validate = .ok () ↔ ∀ agent ∈ b.agents, checkAgent b.cycleId agent = .ok () := by
  have hlength : b.agents.length = allAgents.length := by
    simpa using congrArg List.length hnames
  have hexactly :
      ¬ (b.agents.length ≠ allAgents.length ∨ (∃ name ∈ b.agentsByName.keys, name ∉ allAgents) ∨
      ∃ name ∈ allAgents, name ∉ b.agentsByName.keys) := by
    simp [hlength, agentsByName_keys hnames]
  have hloop : (allAgents.forM fun name => do
      let agent ← orRaise (b.agentsByName.get? name) (PyError.lookupError name)
      checkAgent b.cycleId agent) = .ok () ↔
          ∀ agent ∈ b.agents, checkAgent b.cycleId agent = .ok () := by
    rw [forM_eq_ok, ← hnames, List.forall_mem_map]
    refine forall₂_congr fun agent hagent => ?_
    rw [agentsByName_get hnames hagent, orRaise_some, ok_bind]
  rw [BundleRecords.validate, raiseIf_bind_neg (by simp [hframe]),
    raiseIf_bind_neg (by simp [hframe]), raiseIf_bind_neg (by simp [hframe]),
    raiseIf_bind_neg hexactly, bind_eq_ok, ← hloop]
  constructor
  · rintro ⟨_, hchecks, _⟩
    exact hchecks
  · exact fun hchecks => ⟨(), hchecks, raiseIf_neg _ (by simp [hsummary])⟩

end

theorem FrameView.record_ok_iff {frame : FrameView} {sources : FrameSources}
    (hupper : frame.key.symbol = upper frame.key.symbol) :
    frame.record sources = .ok () ↔ frame.Recordable sources := by
  rw [record, raiseIf_bind_neg (not_or.mpr ⟨frame.key.symbol_ne, not_not.mpr hupper⟩)]
  simp only [bind_eq_ok, raiseIf_eq_ok, forM_eq_ok, not_or, not_lt, not_exists, not_and, not_le]
  constructor
  · rintro ⟨_, ⟨hvenue, _⟩, _, hclosed, hprices⟩
    exact ⟨hvenue, hclosed, hprices⟩
  · intro h
    exact ⟨(), ⟨h.venue, frame.key.timeframe_ne⟩, (), h.closed, h.prices⟩

variable {command : OrchestrationCommand} {sources : FrameSources} {featureVersion : Option String}

theorem validated_ok_iff {agents : List AgentEvaluationRecord}
    (hnames : agents.map (·.agentName) = allAgents)
    (hupper : command.frame.key.symbol = upper command.frame.key.symbol) :
    validated command sources featureVersion (.ok agents) = .ok () ↔
      command.frame.Recordable sources ∧ (∃ version ∈ featureVersion, version ≠ "") ∧
      ∀ agent ∈ agents, checkAgent (Service.cycleId command) agent = .ok () := by
  have hvalid := validate_ok_iff
    (b := ⟨command.frameIdentity, command.frameIdentity, Service.cycleId command, agents,
    Service.cycleId command⟩)
    rfl hnames rfl
  simp only [validated, bind_eq_ok, orRaise_eq_ok, Option.filter_eq_some_iff, Except.ok.injEq,
    exists_eq_left', hvalid, decide_eq_true_eq, Option.mem_def, ← exists_and_right,
    FrameView.record_ok_iff hupper, exists_const]

variable {registry : String → BaseAgent} {regime : Option String}

/-- a row passes unless its agent is both disabled and not for the regime: it then has only the
first reason -/
theorem checkAgent_evaluateAgent {cycleId : UUID} {entry : AgentManifestEntry} :
    checkAgent cycleId ((evaluateAgent registry regime entry).record cycleId) = .ok () ↔
      entry.enabled = true ∨ (registry entry.agentName).isCompatibleWithRegime regime = true := by
  unfold evaluateAgent
  dsimp only
  split
  case isTrue hdisabled =>
    cases hcompatible : (registry entry.agentName).isCompatibleWithRegime regime with
    | false =>
      simp [checkAgent, AgentRow.record, neutralEvaluation, recordReason, hdisabled, bind_eq_ok]
    | true => simp [checkAgent, AgentRow.record, neutralEvaluation, neutralOutput, recordReason,
      hdisabled, bind_eq_ok]
  case isFalse henabled =>
    have henabled' : entry.enabled = true := Bool.not_eq_false _ ▸ henabled
    split
    · simp [checkAgent, AgentRow.record, neutralEvaluation, neutralOutput, recordReason,
        henabled', bind_eq_ok]
    split
    · simp [checkAgent, AgentRow.record, recordReason, henabled', bind_eq_ok]
    · simp [checkAgent, AgentRow.record, neutralEvaluation, neutralOutput, recordReason,
        henabled', bind_eq_ok]

theorem frameRecords_ok_iff {manifest : AgentManifest}
    (hupper : command.frame.key.symbol = upper command.frame.key.symbol) :
    frameRecords command sources featureVersion (agentMatrix registry regime manifest) = .ok () ↔
      command.frame.Recordable sources ∧ (∃ version ∈ featureVersion, version ≠ "") ∧
        ∀ entry ∈ manifest.agentVersions,
          entry.enabled = true ∨
          (registry entry.agentName).isCompatibleWithRegime regime = true := by
  have hnames :
    ((agentMatrix registry regime manifest).rows.map (·.record (Service.cycleId command))).map
    (·.agentName) =
      allAgents := by
    rw [List.map_map]
    exact (agentMatrix registry regime manifest).names
  rw [frameRecords, matrixRecords_eq, validated_ok_iff hnames hupper, agentMatrix,
    List.forall_mem_map, List.forall_mem_map]
  exact and_congr_right fun _ => and_congr_right fun _ => forall₂_congr fun entry _ =>
    checkAgent_evaluateAgent

end Maais.Orchestration
