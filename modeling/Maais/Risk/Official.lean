import Maais.Domain
import Mathlib.Data.List.Sort
import Mathlib.Data.String.Basic
import Mathlib.Tactic.NormNum

/-!
# The official risk engine

An entry is sized by the smallest of four capacities and then checked against each of them; a gate
that fails before the sizing leaves the later ones not applicable.

* `OfficialRiskPolicy`, `OfficialRiskRequest`  the limits and what they are applied to;
* `correlationGate`, `earlyRejection`, `sized`, `evaluate`  the decision, gate by gate;
* `evaluate_gates`  every decision carries the eight checks in order.
-/

namespace Maais
open Lib

inductive QualityStatus
  | passed | failed | notApplicable
deriving DecidableEq

inductive RiskCheck
  | kelly | priceAndStop | drawdown | correlation | tradeRiskAtStop | portfolioLossAtStop
    | grossNotional | margin
deriving DecidableEq

/-- `tuple(RiskCheck)` -/
def RiskCheck.all : List RiskCheck :=
  [.kelly, .priceAndStop, .drawdown, .correlation, .tradeRiskAtStop, .portfolioLossAtStop,
    .grossNotional, .margin]

structure OfficialRiskPolicy where
  maximumKellyFraction : ℚ
  maximumTradeLossFraction : ℚ
  maximumPortfolioLossFraction : ℚ
  maximumGrossNotionalFraction : ℚ
  maximumMarginFraction : ℚ
  minimumAlignedCorrelationReturns : Nat
  correlationReduce20Threshold : ℚ
  correlationReduce40Threshold : ℚ
  correlationBlockThreshold : ℚ
  drawdownReduce25Threshold : ℚ
  drawdownReduce50Threshold : ℚ
  drawdownHaltThreshold : ℚ
  kelly_pos : 0 < maximumKellyFraction
  tradeLoss_pos : 0 < maximumTradeLossFraction
  portfolioLoss_pos : 0 < maximumPortfolioLossFraction
  grossNotional_pos : 0 < maximumGrossNotionalFraction
  margin_pos : 0 < maximumMarginFraction
  returns_two : 2 ≤ minimumAlignedCorrelationReturns
  correlation_ordered : 0 < correlationReduce20Threshold ∧
    correlationReduce20Threshold < correlationReduce40Threshold ∧
    correlationReduce40Threshold < correlationBlockThreshold ∧ correlationBlockThreshold ≤ 1
  drawdown_ordered : 0 < drawdownReduce25Threshold ∧
    drawdownReduce25Threshold < drawdownReduce50Threshold ∧
    drawdownReduce50Threshold < drawdownHaltThreshold ∧ drawdownHaltThreshold < 1

theorem whole_pos : (0 : ℚ) < 1 := by decide

def OfficialRiskPolicy.conservative : OfficialRiskPolicy where
  maximumKellyFraction := 25 / 100
  maximumTradeLossFraction := 2 / 100
  maximumPortfolioLossFraction := 6 / 100
  maximumGrossNotionalFraction := 1
  maximumMarginFraction := 1
  minimumAlignedCorrelationReturns := 60
  correlationReduce20Threshold := 30 / 100
  correlationReduce40Threshold := 60 / 100
  correlationBlockThreshold := 70 / 100
  drawdownReduce25Threshold := 5 / 100
  drawdownReduce50Threshold := 10 / 100
  drawdownHaltThreshold := 20 / 100
  kelly_pos := by norm_num
  tradeLoss_pos := by norm_num
  portfolioLoss_pos := by norm_num
  grossNotional_pos := whole_pos
  margin_pos := whole_pos
  returns_two := by decide
  correlation_ordered := by norm_num
  drawdown_ordered := by norm_num

@[ext] structure DrawdownSnapshot where
  peakEquity : ℚ
  currentEquity : ℚ
  peak_pos : 0 < peakEquity
  current_nonneg : 0 ≤ currentEquity
  current_le : currentEquity ≤ peakEquity

instance : DecidableEq DrawdownSnapshot :=
  fun _ _ => decidable_of_iff _ DrawdownSnapshot.ext_iff.symm

theorem Demo.peak_pos : (0 : ℚ) < 1000 := by decide

def Demo.atPeak : DrawdownSnapshot := ⟨1000, 1000, Demo.peak_pos, by norm_num, by norm_num⟩

def DrawdownSnapshot.drawdownFraction (A : Arith) (d : DrawdownSnapshot) : ℚ :=
  A.div (A.sub d.peakEquity d.currentEquity) d.peakEquity

@[ext] structure OpenRiskPosition where
  symbol : String
  notional : ℚ
  lossAtStop : ℚ
  margin : ℚ
  symbol_ne : symbol ≠ ""
  symbol_upper : symbol = upper symbol
  notional_nonneg : 0 ≤ notional
  lossAtStop_nonneg : 0 ≤ lossAtStop
  margin_nonneg : 0 ≤ margin

instance : DecidableEq OpenRiskPosition :=
  fun _ _ => decidable_of_iff _ OpenRiskPosition.ext_iff.symm

@[ext] structure CorrelationObservation where
  otherSymbol : String
  alignedReturnCount : Nat
  correlation : Option ℚ
  otherSymbol_ne : otherSymbol ≠ ""
  otherSymbol_upper : otherSymbol = upper otherSymbol
  correlation_range : ∀ c ∈ correlation, -1 ≤ c ∧ c ≤ 1

instance : DecidableEq CorrelationObservation :=
  fun _ _ => decidable_of_iff _ CorrelationObservation.ext_iff.symm

structure OfficialRiskRequest where
  symbol : String
  direction : Direction
  capital : ℚ
  executablePrice : ℚ
  stopPrice : ℚ
  pWin : ℚ
  expectedGainFraction : ℚ
  expectedLossFraction : ℚ
  entryFeeFraction : ℚ
  leverage : Nat
  drawdown : DrawdownSnapshot
  openPositions : List OpenRiskPosition
  correlations : List CorrelationObservation
  evaluatedAt : Time

/-- `OfficialRiskRequest.__post_init__`: the positions and the correlations are sorted by symbol -/
def OfficialRiskRequest.postInit (r : OfficialRiskRequest) : Py OfficialRiskRequest := do
  raiseIf (r.symbol = "" ∨ r.symbol ≠ upper r.symbol)
    (.valueError "risk request symbol must be uppercase")
  raiseIf (r.direction = .neutral) (.valueError "risk request direction must be long or short")
  requirePositiveDecimal r.capital "capital"
  requirePositiveDecimal r.executablePrice "executable_price"
  requirePositiveDecimal r.stopPrice "stop_price"
  requirePositiveDecimal r.expectedGainFraction "expected_gain_fraction"
  requirePositiveDecimal r.expectedLossFraction "expected_loss_fraction"
  raiseIf (r.pWin < 0 ∨ 1 < r.pWin) (.valueError "p_win must be a finite Decimal in [0, 1]")
  raiseIf (r.entryFeeFraction < 0 ∨ 1 / 100 < r.entryFeeFraction)
    (.valueError "entry_fee_fraction must be a finite Decimal in [0, 0.01]")
  raiseIf (r.leverage = 0) (.valueError "leverage must be positive")
  raiseIf (¬ (r.openPositions.map (·.symbol)).Nodup)
    (.valueError "open risk positions must be unique by symbol")
  raiseIf (¬ (r.correlations.map (·.otherSymbol)).Nodup)
    (.valueError "correlation observations must be unique by symbol")
  raiseIf (∃ c ∈ r.correlations, c.otherSymbol = r.symbol ∨
    c.otherSymbol ∉ r.openPositions.map (·.symbol))
    (.valueError "correlation observations must belong to open portfolio symbols")
  return { r with
    openPositions := r.openPositions.insertionSort (fun a b => a.symbol ≤ b.symbol)
    correlations := r.correlations.insertionSort (fun a b => a.otherSymbol ≤ b.otherSymbol) }

structure RiskGateResult where
  check : RiskCheck
  status : QualityStatus
  reasonCode : String

structure OfficialRiskDecision where
  quantity : ℚ
  notional : ℚ
  riskAtStop : ℚ
  margin : ℚ
  halfKellyFraction : ℚ
  drawdownMultiplier : ℚ
  correlationMultiplier : ℚ
  gates : List RiskGateResult

namespace OfficialRiskDecision

variable (d : OfficialRiskDecision)

def approved : Bool := decide (∀ gate ∈ d.gates, gate.status = .passed)

/-- the amounts of `OfficialRiskDecision.__post_init__`, by name -/
def amounts : List (ℚ × String) :=
  [(d.quantity, "quantity"), (d.notional, "notional"), (d.riskAtStop, "risk_at_stop"),
    (d.margin, "margin"), (d.halfKellyFraction, "half_kelly_fraction"),
    (d.drawdownMultiplier, "drawdown_multiplier"),
    (d.correlationMultiplier, "correlation_multiplier")]

def postInit : Py OfficialRiskDecision := do
  raiseIf (d.gates.map (·.check) ≠ RiskCheck.all)
    (.valueError "official risk decision must contain every ordered risk gate")
  d.amounts.forM (fun amount => raiseIf (amount.1 < 0)
    (.valueError ("risk decision " ++ amount.2 ++ " must be nonnegative and finite")))
  return d

def gate? (check : RiskCheck) : Option RiskGateResult :=
  d.gates.find? (fun gate => gate.check = check)

end OfficialRiskDecision

namespace OfficialRiskEngine

variable (A : Arith) (policy : OfficialRiskPolicy) (r : OfficialRiskRequest)

def gainLossRatio : ℚ := A.div r.expectedGainFraction r.expectedLossFraction

def fullKelly : ℚ :=
  A.div (A.sub (A.mul r.pWin (gainLossRatio A r)) (A.sub 1 r.pWin)) (gainLossRatio A r)

def halfKelly : ℚ := min (A.div (fullKelly A r) 2) policy.maximumKellyFraction

def stopIsValid : Prop :=
  r.direction = .long ∧ r.stopPrice < r.executablePrice ∨ r.direction = .short ∧
    r.stopPrice > r.executablePrice

instance stopIsValid.decidable : Decidable (stopIsValid r) := by
  unfold stopIsValid
  infer_instance

def stopDistance : ℚ := A.abs (A.sub r.executablePrice r.stopPrice)

def drawdownMultiplier (drawdown : ℚ) : ℚ :=
  if drawdown ≥ policy.drawdownReduce50Threshold then 1 / 2
  else if drawdown ≥ policy.drawdownReduce25Threshold then 3 / 4
  else 1

/-! ## correlation -/

def otherSymbols : List String := (r.openPositions.map (·.symbol)).filter (· ≠ r.symbol)

/-- `observations[symbol]` -/
def observation? (symbol : String) : Option CorrelationObservation :=
  r.correlations.find? (fun c => c.otherSymbol = symbol)

/-- the loop over the correlations of a warm portfolio: the smallest multiplier, `none` at a
blocking one -/
def correlationLoop : List ℚ → ℚ → Option ℚ
  | [], multiplier => some multiplier
  | value :: rest, multiplier =>
    if value ≥ policy.correlationBlockThreshold then none
    else if value ≥ policy.correlationReduce40Threshold then
      correlationLoop rest (min multiplier (6 / 10))
    else if value ≥ policy.correlationReduce20Threshold then
      correlationLoop rest (min multiplier (8 / 10))
    else correlationLoop rest multiplier

/-- the absolute correlations of the other symbols; every one is there once the portfolio is warm -/
def correlationValues : List ℚ :=
  (otherSymbols r).filterMap (fun s => ((observation? r s).bind (·.correlation)).map A.abs)

def correlationGate : ℚ × RiskGateResult :=
  if otherSymbols r = [] then (1, ⟨.correlation, .passed, "single_symbol_or_empty_portfolio"⟩)
  else if ∃ s ∈ otherSymbols r, observation? r s = none then
    (0, ⟨.correlation, .notApplicable, "correlation_observation_missing"⟩)
  else if ∃ s ∈ otherSymbols r, ∃ c ∈ observation? r s,
      c.alignedReturnCount < policy.minimumAlignedCorrelationReturns then
    (0, ⟨.correlation, .notApplicable, "correlation_history_cold"⟩)
  else if ∃ s ∈ otherSymbols r, ∃ c ∈ observation? r s, c.correlation = none then
    (0, ⟨.correlation, .notApplicable, "correlation_unavailable"⟩)
  else
    match correlationLoop policy (correlationValues A r) 1 with
    | none => (0, ⟨.correlation, .failed, "correlation_cluster_blocked"⟩)
    | some multiplier => (multiplier, ⟨.correlation, .passed, "correlation_warm_and_within_limit"⟩)

/-! ## sizing -/

def remaining (limit existing : ℚ) : ℚ := max (A.sub limit existing) 0

def existingLoss : ℚ := A.sum (r.openPositions.map (·.lossAtStop))
def existingNotional : ℚ := A.sum (r.openPositions.map (·.notional))
def existingMargin : ℚ := A.sum (r.openPositions.map (·.margin))
def lossLimit : ℚ := A.mul r.capital policy.maximumPortfolioLossFraction
def notionalLimit : ℚ := A.mul r.capital policy.maximumGrossNotionalFraction
def marginLimit : ℚ := A.mul r.capital policy.maximumMarginFraction

def riskFraction : ℚ := min (halfKelly A policy r) policy.maximumTradeLossFraction

def riskBudget (drawdownMultiplier correlationMultiplier : ℚ) : ℚ :=
  A.mul (A.mul (A.mul r.capital (riskFraction A policy r)) drawdownMultiplier) correlationMultiplier

def marginCostPerQuantity : ℚ :=
  A.mul r.executablePrice (A.add (A.div 1 r.leverage) r.entryFeeFraction)

/-- `quantity_caps`: trade loss, portfolio loss, gross notional, margin and entry fee -/
def quantityCaps (budget : ℚ) : List ℚ :=
  [A.div budget (stopDistance A r),
    A.div (remaining A (lossLimit A policy r) (existingLoss A r)) (stopDistance A r),
    A.div (remaining A (notionalLimit A policy r) (existingNotional A r)) r.executablePrice,
    A.div (remaining A (marginLimit A policy r) (existingMargin A r)) (marginCostPerQuantity A r)]

def quantityFor (budget : ℚ) : ℚ := (quantityCaps A policy r budget).min?.getD 0

def limitGate (check : RiskCheck) (holds : Prop) [Decidable holds] (within exceeded : String) :
    RiskGateResult :=
  if holds then ⟨check, .passed, within⟩ else ⟨check, .failed, exceeded⟩

def sizingGates (budget quantity notional riskAtStop margin : ℚ) : List RiskGateResult :=
  let entryFee := A.mul notional r.entryFeeFraction
  [⟨.tradeRiskAtStop, if quantity > 0 ∧ riskAtStop ≤ budget then .passed else .failed,
      if quantity > 0 then "trade_risk_sized_within_all_caps" else "no_risk_capacity"⟩,
    limitGate .portfolioLossAtStop (A.add (existingLoss A r) riskAtStop ≤ lossLimit A policy r)
      "portfolio_loss_at_stop_within_limit" "portfolio_loss_at_stop_exceeded",
    limitGate .grossNotional (A.add (existingNotional A r) notional ≤ notionalLimit A policy r)
      "gross_notional_within_limit" "gross_notional_exceeded",
    limitGate .margin (A.add (A.add (existingMargin A r) margin) entryFee ≤ marginLimit A policy r)
      "margin_and_entry_fee_within_limit" "margin_and_entry_fee_exceeded"]

/-- the decision after the gates that come before the sizing -/
def sized (before : List RiskGateResult) (drawdownMultiplier correlationMultiplier : ℚ) :
    OfficialRiskDecision :=
  let budget := riskBudget A policy r drawdownMultiplier correlationMultiplier
  let quantity := quantityFor A policy r budget
  let notional := A.mul quantity r.executablePrice
  let riskAtStop := A.mul quantity (stopDistance A r)
  let margin := A.div notional r.leverage
  { quantity, notional, riskAtStop, margin, halfKellyFraction := halfKelly A policy r,
    drawdownMultiplier, correlationMultiplier,
    gates := before ++ sizingGates A policy r budget quantity notional riskAtStop margin }

def earlyRejection (halfKelly : ℚ) (completed : List RiskGateResult) (drawdownMultiplier : ℚ) :
    OfficialRiskDecision :=
  { quantity := 0, notional := 0, riskAtStop := 0, margin := 0, halfKellyFraction := halfKelly,
    drawdownMultiplier, correlationMultiplier := 0,
    gates := completed ++ (RiskCheck.all.drop completed.length).map
      (fun check => ⟨check, .notApplicable, "prior_risk_gate_failed"⟩) }

/-- the gates a request passed on the way to the correlation -/
def kellyPassed : RiskGateResult := ⟨.kelly, .passed, "kelly_positive"⟩
def stopPassed : RiskGateResult := ⟨.priceAndStop, .passed, "executable_price_and_stop_valid"⟩
def drawdownPassed : RiskGateResult := ⟨.drawdown, .passed, "drawdown_within_limit"⟩

def decision : OfficialRiskDecision :=
  let half := halfKelly A policy r
  let drawdown := r.drawdown.drawdownFraction A
  let correlation := correlationGate A policy r
  let multiplier := drawdownMultiplier policy drawdown
  if half ≤ 0 then earlyRejection (max half 0) [⟨.kelly, .failed, "kelly_nonpositive"⟩] 0
  else if ¬ stopIsValid r then
    earlyRejection half [kellyPassed, ⟨.priceAndStop, .failed, "stop_not_protective"⟩] 0
  else if drawdown ≥ policy.drawdownHaltThreshold then
    earlyRejection half [kellyPassed, stopPassed, ⟨.drawdown, .failed, "drawdown_halt"⟩] 0
  else if correlation.2.status ≠ .passed then
    earlyRejection half [kellyPassed, stopPassed, drawdownPassed, correlation.2] multiplier
  else sized A policy r [kellyPassed, stopPassed, drawdownPassed, correlation.2]
    multiplier correlation.1

def evaluate : Py OfficialRiskDecision := (decision A policy r).postInit

/-! ## the gates of a decision -/

section
variable {A policy r}

theorem correlationGate_check (A : Arith) (policy : OfficialRiskPolicy) (r : OfficialRiskRequest) :
    (correlationGate A policy r).2.check = .correlation := by
  unfold correlationGate
  split
  · rfl
  split
  · rfl
  split
  · rfl
  split
  · rfl
  split
  · rfl
  · rfl

theorem limitGate_check {check : RiskCheck} {holds : Prop} [Decidable holds]
    {within exceeded : String} : (limitGate check holds within exceeded).check = check := by
  unfold limitGate
  split
  · rfl
  · rfl

theorem evaluate_gates : (decision A policy r).gates.map (·.check) = RiskCheck.all := by
  have hcorr := correlationGate_check A policy r
  unfold decision
  simp only
  split
  · rfl
  split
  · rfl
  split
  · rfl
  split
  · simp [earlyRejection, kellyPassed, stopPassed, drawdownPassed, hcorr, RiskCheck.all]
  · simp [sized, sizingGates, kellyPassed, stopPassed, drawdownPassed, hcorr,
      limitGate_check, RiskCheck.all]

end

end OfficialRiskEngine

end Maais
