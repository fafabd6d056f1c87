import Maais.Orchestration.Gates

/-!
# The official decision analytics

The votes of the agents are weighed, the losing side is heard, and the winning one is priced.

* `consensus`, `dissent`, `estimate`  the three parts of `OfficialDecisionAnalytics.evaluate`;
* `evaluate_exact`  in exact arithmetic a matrix of the features at hand is never refused;
* `forGates`  what the entry gates read of an analysis.

The snapshots and the content hash of an analysis are made of its other fields, the policy and the
hash of the matrix; they are left out.
-/

namespace Maais.Decision
open Lib

/-! ## inputs -/

@[ext] structure AgentOutputSnapshot where
  direction : Direction
  probability : ℚ
  confidence : ℚ
  probability_range : 0 ≤ probability ∧ probability ≤ 1
  confidence_range : 0 ≤ confidence ∧ confidence ≤ 1

instance : DecidableEq AgentOutputSnapshot :=
  fun _ _ => decidable_of_iff _ AgentOutputSnapshot.ext_iff.symm

@[ext] structure AgentEvaluation where
  agentName : String
  weight : ℚ
  voting : Bool
  output : AgentOutputSnapshot
  weight_pos : 0 < weight
  nonvoting_neutral : voting = false → output.direction = .neutral

instance : DecidableEq AgentEvaluation := fun _ _ => decidable_of_iff _ AgentEvaluation.ext_iff.symm

structure AgentEvaluationMatrix where
  symbol : String
  timeframe : String
  featureAt : Time
  regime : Option String
  evaluations : List AgentEvaluation
  names_nodup : (evaluations.map (·.agentName)).Nodup

/-- the features a decision reads, as the decimals they convert to -/
structure FeatureSet where
  symbol : String
  timeframe : String
  timestamp : Time
  regime : Option String
  atr : Option ℚ
  bidAskSpread : Option ℚ
  annualizedFunding : Option ℚ
  fundingBias : Option String

@[ext] structure OfficialDecisionPolicy where
  adversarialBlockThreshold : ℚ
  roundTripFeeFraction : ℚ
  atrSlippageMultiplier : ℚ
  spreadImpactMultiplier : ℚ
  maximumExpectedMoveFraction : ℚ
  minimumDirectionalVoters : Nat
  threshold_range : 0 ≤ adversarialBlockThreshold ∧ adversarialBlockThreshold ≤ 1
  fee_nonneg : 0 ≤ roundTripFeeFraction
  slippage_nonneg : 0 ≤ atrSlippageMultiplier
  spread_nonneg : 0 ≤ spreadImpactMultiplier
  move_nonneg : 0 ≤ maximumExpectedMoveFraction
  voters_pos : 0 < minimumDirectionalVoters

instance : DecidableEq OfficialDecisionPolicy :=
  fun _ _ => decidable_of_iff _ OfficialDecisionPolicy.ext_iff.symm

/-- the policy `conservative` makes of a fee -/
def OfficialDecisionPolicy.forFee (takerFeeFraction : ℚ) (h : 0 ≤ takerFeeFraction) :
    OfficialDecisionPolicy where
  adversarialBlockThreshold := 65 / 100
  roundTripFeeFraction := takerFeeFraction * 2
  atrSlippageMultiplier := 5 / 10
  spreadImpactMultiplier := 3 / 10
  maximumExpectedMoveFraction := 20 / 100
  minimumDirectionalVoters := 2
  threshold_range := by norm_num
  fee_nonneg := by linarith
  slippage_nonneg := by norm_num
  spread_nonneg := by norm_num
  move_nonneg := by norm_num
  voters_pos := by decide

/-- `OfficialDecisionPolicy.conservative` -/
def OfficialDecisionPolicy.conservative (takerFeeFraction : ℚ) : Py OfficialDecisionPolicy :=
  if h : 0 ≤ takerFeeFraction ∧ takerFeeFraction ≤ 1 / 100 then .ok (.forFee takerFeeFraction h.1)
  else .error (.valueError "taker fee fraction must be a finite Decimal in [0, 0.01]")

/-! ## the votes -/

namespace AgentEvaluationMatrix

variable (A : Arith) (m : AgentEvaluationMatrix)

def directional : List AgentEvaluation :=
  m.evaluations.filter fun item =>
    item.voting ∧ (item.output.direction = .long ∨ item.output.direction = .short)

/-- `long_rows` and `short_rows` -/
def rows (d : Direction) : List AgentEvaluation :=
  m.directional.filter fun item => item.output.direction = d

def neutralRows : List AgentEvaluation :=
  m.evaluations.filter fun item => ¬ item.voting ∨ item.output.direction = .neutral

end AgentEvaluationMatrix

section
variable (A : Arith)

def weightOf (rows : List AgentEvaluation) : ℚ := A.sum (rows.map (·.weight))

def meanOf (part : AgentOutputSnapshot → ℚ) (rows : List AgentEvaluation) : ℚ :=
  A.div (A.sum (rows.map fun item => A.mul item.weight (part item.output))) (weightOf A rows)

/-! ## consensus -/

structure Consensus where
  direction : Direction
  reason : String
  probability : ℚ
  confidence : ℚ

def decided (policy : OfficialDecisionPolicy) (m : AgentEvaluationMatrix) : Direction × String :=
  let longWeight := weightOf A (m.rows .long)
  let shortWeight := weightOf A (m.rows .short)
  if m.directional.length < policy.minimumDirectionalVoters then
    (.neutral, "insufficient_directional_voters")
  else if longWeight = shortWeight then (.neutral, "directional_weight_tie")
  else if longWeight > shortWeight then (.long, "long_weight_majority")
  else (.short, "short_weight_majority")

/-- the voters for a direction; for a neutral one these are the short ones -/
def winnersOf (m : AgentEvaluationMatrix) (direction : Direction) : List AgentEvaluation :=
  if direction = .long then m.rows .long else m.rows .short

def consensus (policy : OfficialDecisionPolicy) (m : AgentEvaluationMatrix) : Consensus :=
  let d := decided A policy m
  let winners := winnersOf m d.1
  if d.1 = .neutral ∨ weightOf A winners = 0 then ⟨d.1, d.2, 1 / 2, 0⟩
  else ⟨d.1, d.2, meanOf A (·.probability) winners, meanOf A (·.confidence) winners⟩

/-! ## dissent -/

structure Dissent where
  dissenters : List String
  probability : ℚ
  confidence : ℚ
  challengeBlocked : Bool

/-- the voters against a direction; against a neutral one these are the long ones -/
def dissentersOf (m : AgentEvaluationMatrix) (direction : Direction) : List AgentEvaluation :=
  m.rows (if direction = .long then .short else .long)

def dissent (policy : OfficialDecisionPolicy) (m : AgentEvaluationMatrix)
    (direction : Direction) : Dissent :=
  let rows := dissentersOf m direction
  let silent := direction = .neutral ∨ weightOf A rows = 0
  let confidence := if silent then 0 else meanOf A (·.confidence) rows
  { dissenters := rows.map (·.agentName)
    probability := if silent then 0 else meanOf A (·.probability) rows
    confidence
    challengeBlocked :=
      decide (direction ≠ .neutral) && !rows.isEmpty &&
        decide (policy.adversarialBlockThreshold ≤ confidence) }

/-! ## expected value -/

structure Estimate where
  expectedGain : ℚ
  expectedLoss : ℚ
  grossEv : ℚ
  fundingCarry : ℚ
  estimatedCost : ℚ
  netEv : ℚ
  evReason : String

def fundingCarry (features : FeatureSet) (direction : Direction) : ℚ :=
  match features.annualizedFunding with
  | none => 0
  | some annualized =>
    if features.fundingBias = some "long_heavy" ∨ features.fundingBias = some "short_heavy" then
      let perPeriod := A.div (A.abs annualized) (365 * 3)
      let rewarded := if features.fundingBias = some "long_heavy" then
        direction = .short else direction = .long
      if rewarded then perPeriod else A.neg perPeriod
    else 0

def Estimate.none (reason : String) : Estimate := ⟨0, 0, 0, 0, 0, 0, reason⟩

/-- the estimate of a directional consensus, from an available move and spread -/
def estimateFrom (policy : OfficialDecisionPolicy) (features : FeatureSet)
    (executablePrice atr spread : ℚ) (c : Consensus) : Estimate :=
  let move := A.div atr executablePrice
  let grossEv := A.sub (A.mul c.probability move) (A.mul (A.sub 1 c.probability) move)
  let carry := fundingCarry A features c.direction
  let slippage :=
    A.add (A.mul move policy.atrSlippageMultiplier) (A.mul spread policy.spreadImpactMultiplier)
  let estimatedCost := A.add policy.roundTripFeeFraction slippage
  let netEv := A.sub (A.add grossEv carry) estimatedCost
  ⟨move, move, grossEv, carry, estimatedCost, netEv, if 0 < netEv then
    "positive_ev" else "non_positive_ev"⟩

def estimate (policy : OfficialDecisionPolicy) (features : FeatureSet) (executablePrice : ℚ)
    (c : Consensus) :
    Estimate :=
  if c.direction = .neutral then .none "neutral_consensus"
  else
    match features.atr with
    | Option.none => .none "expected_move_unavailable"
    | some atr =>
      if atr ≤ 0 then .none "expected_move_unavailable"
      else if policy.maximumExpectedMoveFraction < A.div atr executablePrice then
        .none "expected_move_out_of_bounds"
      else
        let move := A.div atr executablePrice
        match features.bidAskSpread with
        | Option.none => ⟨move, move, 0, 0, 0, 0, "cost_inputs_unavailable"⟩
        | some spread =>
          if spread < 0 then ⟨move, move, 0, 0, 0, 0, "cost_inputs_unavailable"⟩
          else estimateFrom A policy features executablePrice atr spread c

end

section
variable {A : Arith}

/-- `expected_move_available`: the move as a fraction of the price, within the bound of the
policy -/
def expectedMove (A : Arith) (policy : OfficialDecisionPolicy) (features : FeatureSet)
    (executablePrice : ℚ) : Option ℚ :=
  (features.atr.filter fun atr => 0 < atr ∧
    A.div atr executablePrice ≤ policy.maximumExpectedMoveFraction).map fun atr =>
    A.div atr executablePrice

theorem estimate_move {policy : OfficialDecisionPolicy} {features : FeatureSet} {price : ℚ}
    {c : Consensus} (hdir : c.direction ≠ .neutral) :
    (estimate A policy features price c).expectedGain =
      (expectedMove A policy features price).getD 0 ∧
      (estimate A policy features price c).expectedLoss =
      (expectedMove A policy features price).getD 0 := by
  unfold estimate expectedMove
  rw [if_neg hdir]
  cases features.atr with
  | none => exact ⟨rfl, rfl⟩
  | some atr =>
    dsimp only
    split
    case isTrue hle =>
      rw [Option.filter_some_neg (by simp [not_lt.mpr hle])]
      exact ⟨rfl, rfl⟩
    case isFalse hle =>
      split
      case isTrue hout =>
        rw [Option.filter_some_neg (by simp [not_le.mpr hout])]
        exact ⟨rfl, rfl⟩
      case isFalse hout =>
        rw [Option.filter_some_pos (by simp [not_le.mp hle, not_lt.mp hout])]
        cases features.bidAskSpread with
        | none => exact ⟨rfl, rfl⟩
        | some spread =>
          dsimp only
          split
          · exact ⟨rfl, rfl⟩
          · exact ⟨rfl, rfl⟩

end

/-! ## the analysis -/

@[ext] structure OfficialDecisionAnalysis where
  direction : Direction
  consensusProbability : ℚ
  consensusConfidence : ℚ
  longWeight : ℚ
  shortWeight : ℚ
  neutralWeight : ℚ
  directionalVoters : Nat
  consensusPassed : Bool
  consensusReason : String
  dissenters : List String
  dissentProbability : ℚ
  dissentConfidence : ℚ
  challengeBlocked : Bool
  expectedGain : ℚ
  expectedLoss : ℚ
  grossEv : ℚ
  fundingCarry : ℚ
  estimatedCost : ℚ
  netEv : ℚ
  evPositive : Bool
  evReason : String
  benchmarkAvailable : Bool
  benchmarkReturn : ℚ
  alphaEstimate : ℚ
  alphaPositive : Bool
  alphaReason : String

instance : DecidableEq OfficialDecisionAnalysis :=
  fun _ _ => decidable_of_iff _ OfficialDecisionAnalysis.ext_iff.symm

namespace OfficialDecisionAnalysis

def requireUnit (value : ℚ) (name : String) : Py Unit :=
  raiseIf (value < 0 ∨ value > 1) (.valueError (name ++ " must be a finite Decimal in [0, 1]"))

def requireFiniteNonnegative (value : ℚ) (name : String) : Py Unit :=
  raiseIf (value < 0) (.valueError (name ++ " must be nonnegative and finite"))

def postInit (a : OfficialDecisionAnalysis) : Py OfficialDecisionAnalysis := do
  requireUnit a.consensusProbability "consensus_probability"
  requireUnit a.consensusConfidence "consensus_confidence"
  requireUnit a.dissentProbability "dissent_probability"
  requireUnit a.dissentConfidence "dissent_confidence"
  requireFiniteNonnegative a.longWeight "long_weight"
  requireFiniteNonnegative a.shortWeight "short_weight"
  requireFiniteNonnegative a.neutralWeight "neutral_weight"
  requireFiniteNonnegative a.expectedGain "expected_gain"
  requireFiniteNonnegative a.expectedLoss "expected_loss"
  requireFiniteNonnegative a.estimatedCost "estimated_cost"
  raiseIf (a.direction = .neutral ∧ a.consensusPassed) (.valueError "neutral consensus cannot pass")
  raiseIf (a.evPositive ≠ decide (0 < a.netEv)) (.valueError "EV verdict differs from net EV")
  raiseIf (a.alphaPositive ≠ (a.benchmarkAvailable && decide (0 < a.alphaEstimate)))
    (.valueError "alpha verdict differs from alpha estimate")
  return a

theorem requireUnit_ok {value : ℚ} (h : 0 ≤ value ∧ value ≤ 1) (name : String) :
    requireUnit value name = .ok () :=
  raiseIf_eq_ok.mpr (not_or.mpr ⟨not_lt.mpr h.1, not_lt.mpr h.2⟩)

theorem requireFiniteNonnegative_ok {value : ℚ} (h : 0 ≤ value) (name : String) :
    requireFiniteNonnegative value name = .ok () :=
  raiseIf_eq_ok.mpr (not_lt.mpr h)

/-- what the constructor asks of an analysis -/
structure Checked (a : OfficialDecisionAnalysis) : Prop where
  probability : 0 ≤ a.consensusProbability ∧ a.consensusProbability ≤ 1
  confidence : 0 ≤ a.consensusConfidence ∧ a.consensusConfidence ≤ 1
  dissentProbability : 0 ≤ a.dissentProbability ∧ a.dissentProbability ≤ 1
  dissentConfidence : 0 ≤ a.dissentConfidence ∧ a.dissentConfidence ≤ 1
  weights : 0 ≤ a.longWeight ∧ 0 ≤ a.shortWeight ∧ 0 ≤ a.neutralWeight
  estimates : 0 ≤ a.expectedGain ∧ 0 ≤ a.expectedLoss ∧ 0 ≤ a.estimatedCost
  neutral : ¬ (a.direction = .neutral ∧ a.consensusPassed)
  ev : a.evPositive = decide (0 < a.netEv)
  alpha : a.alphaPositive = (a.benchmarkAvailable && decide (0 < a.alphaEstimate))

variable {a : OfficialDecisionAnalysis}

theorem Checked.postInit (h : a.Checked) : a.postInit = .ok a := by
  rw [OfficialDecisionAnalysis.postInit, requireUnit_ok h.probability, ok_bind,
    requireUnit_ok h.confidence, ok_bind, requireUnit_ok h.dissentProbability, ok_bind,
    requireUnit_ok h.dissentConfidence, ok_bind, requireFiniteNonnegative_ok h.weights.1, ok_bind,
    requireFiniteNonnegative_ok h.weights.2.1, ok_bind, requireFiniteNonnegative_ok h.weights.2.2,
    ok_bind, requireFiniteNonnegative_ok h.estimates.1, ok_bind,
    requireFiniteNonnegative_ok h.estimates.2.1, ok_bind,
    requireFiniteNonnegative_ok h.estimates.2.2, ok_bind, raiseIf_bind_neg h.neutral,
    raiseIf_not_bind h.ev, raiseIf_not_bind h.alpha]
  rfl

theorem postInit_eq_ok {b : OfficialDecisionAnalysis} (h : a.postInit = .ok b) :
    b = a ∧ a.Checked := by
  simp only [OfficialDecisionAnalysis.postInit, requireUnit, requireFiniteNonnegative, bind_eq_ok,
    raiseIf_eq_ok, pure_ok_iff, not_or, not_lt, ne_eq, not_not] at h
  obtain ⟨_, hp, _, hc, _, hdp, _, hdc, _, hl, _, hs, _, hn, _, hgain, _, hloss, _, hcost, _,
    hneutral, _, hev, _, halpha, heq⟩ := h
  exact ⟨heq.symm, hp, hc, hdp, hdc, ⟨hl, hs, hn⟩, ⟨hgain, hloss, hcost⟩, hneutral, hev, halpha⟩

end OfficialDecisionAnalysis

section
variable (A : Arith)

def analysis (policy : OfficialDecisionPolicy) (features : FeatureSet) (m : AgentEvaluationMatrix)
    (executablePrice : ℚ) (benchmarkReturn : Option ℚ) : OfficialDecisionAnalysis :=
  let c := consensus A policy m
  let d := dissent A policy m c.direction
  let e := estimate A policy features executablePrice c
  let benchmarkValue := benchmarkReturn.getD 0
  let alphaEstimate := A.sub e.netEv benchmarkValue
  let alphaPositive := benchmarkReturn.isSome && decide (0 < alphaEstimate)
  { direction := c.direction
    consensusProbability := c.probability
    consensusConfidence := c.confidence
    longWeight := weightOf A (m.rows .long)
    shortWeight := weightOf A (m.rows .short)
    neutralWeight := weightOf A m.neutralRows
    directionalVoters := m.directional.length
    consensusPassed := decide (c.direction ≠ .neutral)
    consensusReason := c.reason
    dissenters := d.dissenters
    dissentProbability := d.probability
    dissentConfidence := d.confidence
    challengeBlocked := d.challengeBlocked
    expectedGain := e.expectedGain
    expectedLoss := e.expectedLoss
    grossEv := e.grossEv
    fundingCarry := e.fundingCarry
    estimatedCost := e.estimatedCost
    netEv := e.netEv
    evPositive := decide (0 < e.netEv)
    evReason := e.evReason
    benchmarkAvailable := benchmarkReturn.isSome
    benchmarkReturn := benchmarkValue
    alphaEstimate
    alphaPositive
    alphaReason :=
      if benchmarkReturn.isNone then "benchmark_unavailable"
      else if alphaPositive then "positive_alpha" else "non_positive_alpha" }

def SameFrame (features : FeatureSet) (m : AgentEvaluationMatrix) : Prop :=
  m.symbol = features.symbol ∧ m.timeframe = features.timeframe ∧ m.featureAt = features.timestamp ∧
    m.regime = features.regime

instance {features : FeatureSet} {m : AgentEvaluationMatrix} : Decidable
    (SameFrame features m) := by
  unfold SameFrame
  infer_instance

def evaluate (policy : OfficialDecisionPolicy) (features : FeatureSet) (m : AgentEvaluationMatrix)
    (executablePrice : ℚ) (benchmarkReturn : Option ℚ) : Py OfficialDecisionAnalysis := do
  raiseIf (executablePrice ≤ 0) (.valueError "executable price must be a positive finite Decimal")
  raiseIf (¬ SameFrame features m) (.valueError "agent matrix and feature identity differ")
  (analysis A policy features m executablePrice benchmarkReturn).postInit

end

theorem evaluate_eq_ok {A : Arith} {policy : OfficialDecisionPolicy} {features : FeatureSet}
    {m : AgentEvaluationMatrix} {price : ℚ} {benchmark : Option ℚ} {a : OfficialDecisionAnalysis}
    (h : evaluate A policy features m price benchmark = .ok a) :
    a = analysis A policy features m price benchmark ∧ a.Checked := by
  simp only [evaluate, bind_eq_ok, raiseIf_eq_ok] at h
  obtain ⟨_, _, _, _, hpost⟩ := h
  obtain ⟨rfl, hchecked⟩ := OfficialDecisionAnalysis.postInit_eq_ok hpost
  exact ⟨rfl, hchecked⟩

/-! ## exact arithmetic -/

theorem weightOf_nonneg (rows : List AgentEvaluation) : 0 ≤ weightOf .exact rows := by
  rw [weightOf, Arith.exact_sum]
  refine List.sum_nonneg fun x hx => ?_
  obtain ⟨item, _, rfl⟩ := List.mem_map.mp hx
  exact item.weight_pos.le

theorem meanOf_range {part : AgentOutputSnapshot → ℚ} (hpart : ∀ o, 0 ≤ part o ∧ part o ≤ 1)
    (rows : List AgentEvaluation) : 0 ≤ meanOf .exact part rows ∧ meanOf .exact part rows ≤ 1 := by
  have hnonneg : 0 ≤ (rows.map fun item => item.weight * part item.output).sum := by
    refine List.sum_nonneg fun x hx => ?_
    obtain ⟨item, _, rfl⟩ := List.mem_map.mp hx
    exact mul_nonneg item.weight_pos.le (hpart item.output).1
  have hle : (rows.map fun item => item.weight * part item.output).sum ≤
      (rows.map (·.weight)).sum :=
    List.sum_le_sum fun item _ => mul_le_of_le_one_right item.weight_pos.le (hpart item.output).2
  have hweight := weightOf_nonneg rows
  simp only [meanOf, weightOf, Arith.exact_div, Arith.exact_mul, Arith.exact_sum] at hweight ⊢
  exact ⟨div_nonneg hnonneg hweight, div_le_one_of_le₀ hle hweight⟩

section
variable (policy : OfficialDecisionPolicy) (features : FeatureSet) (m : AgentEvaluationMatrix)

theorem consensus_range :
    (0 ≤ (consensus .exact policy m).probability ∧ (consensus .exact policy m).probability ≤ 1) ∧
    0 ≤ (consensus .exact policy m).confidence ∧ (consensus .exact policy m).confidence ≤ 1 := by
  unfold consensus
  dsimp only
  split
  · norm_num
  · exact ⟨meanOf_range AgentOutputSnapshot.probability_range _,
      meanOf_range AgentOutputSnapshot.confidence_range _⟩

theorem dissent_range (direction : Direction) :
    (0 ≤ (dissent .exact policy m direction).probability ∧
    (dissent .exact policy m direction).probability ≤ 1) ∧
    0 ≤ (dissent .exact policy m direction).confidence ∧
    (dissent .exact policy m direction).confidence ≤ 1 := by
  unfold dissent
  dsimp only
  split
  · norm_num
  · exact ⟨meanOf_range AgentOutputSnapshot.probability_range _,
      meanOf_range AgentOutputSnapshot.confidence_range _⟩

variable {price : ℚ}

theorem estimate_nonneg (hprice : 0 < price) (c : Consensus) :
    0 ≤ (estimate .exact policy features price c).expectedGain ∧
    0 ≤ (estimate .exact policy features price c).expectedLoss ∧
    0 ≤ (estimate .exact policy features price c).estimatedCost := by
  have hnone : ∀ reason, 0 ≤ (Estimate.none reason).expectedGain ∧
      0 ≤ (Estimate.none reason).expectedLoss ∧ 0 ≤ (Estimate.none reason).estimatedCost :=
      fun _ => ⟨le_rfl, le_rfl, le_rfl⟩
  unfold estimate
  split
  · exact hnone _
  cases features.atr with
  | none => exact hnone _
  | some atr =>
    dsimp only
    split
    · exact hnone _
    rename_i hatr
    have hmove : 0 ≤ atr / price := div_nonneg (not_le.mp hatr).le hprice.le
    split
    · exact hnone _
    cases features.bidAskSpread with
    | none => exact ⟨hmove, hmove, le_rfl⟩
    | some spread =>
      dsimp only
      split
      · exact ⟨hmove, hmove, le_rfl⟩
      rename_i hspread
      have hslippage := mul_nonneg hmove policy.slippage_nonneg
      have himpact := mul_nonneg (not_lt.mp hspread) policy.spread_nonneg
      exact ⟨hmove, hmove, add_nonneg policy.fee_nonneg (add_nonneg hslippage himpact)⟩

theorem analysis_checked (hprice : 0 < price) (benchmark : Option ℚ) :
    (analysis .exact policy features m price benchmark).Checked where
  probability := (consensus_range policy m).1
  confidence := (consensus_range policy m).2
  dissentProbability := (dissent_range policy m _).1
  dissentConfidence := (dissent_range policy m _).2
  weights := ⟨weightOf_nonneg _, weightOf_nonneg _, weightOf_nonneg _⟩
  estimates := estimate_nonneg policy features hprice _
  neutral := fun h => of_decide_eq_true h.2 h.1
  ev := rfl
  alpha := rfl

theorem evaluate_exact (hprice : 0 < price) (hframe : SameFrame features m) (benchmark : Option ℚ) :
    evaluate .exact policy features m price benchmark =
      .ok (analysis .exact policy features m price benchmark) := by
  rw [evaluate, raiseIf_bind_neg (not_le.mpr hprice), raiseIf_not_bind hframe]
  exact (analysis_checked policy features m hprice benchmark).postInit

end

def OfficialDecisionAnalysis.forGates (a : OfficialDecisionAnalysis) (h : a.Checked) :
    Orchestration.OfficialDecisionAnalysis :=
  { direction := a.direction, consensusProbability := a.consensusProbability,
    consensusPassed := a.consensusPassed
    consensusReason := a.consensusReason, challengeBlocked := a.challengeBlocked,
      expectedGain := a.expectedGain
    expectedLoss := a.expectedLoss, netEv := a.netEv, evReason := a.evReason
    benchmarkAvailable := a.benchmarkAvailable, alphaEstimate := a.alphaEstimate,
      alphaReason := a.alphaReason
    probability_range := h.probability, expectedGain_nonneg := h.estimates.1,
      expectedLoss_nonneg := h.estimates.2.1
    neutral_not_passed := fun hd => Bool.eq_false_iff.mpr fun hp => h.neutral ⟨hd, hp⟩ }

end Maais.Decision
