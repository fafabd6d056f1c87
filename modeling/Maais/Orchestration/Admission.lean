import Maais.Risk.Official

/-!
# Monitoring admission

A frame is admitted on what is known when it is decided: the health of the components, the
volatility of the symbol and the return of the benchmark.

* `MonitoringAdmissionContext`  what is known;
* `OfficialAdmissionPolicy.evaluate`  the six checks, in order; an admission is one whose checks all
  passed.
-/

namespace Maais
open Lib

/-! ## observations -/

structure HealthObservation where
  component : String
  healthy : Bool
  observedAt : Time
  error : Option String
deriving DecidableEq

def HealthObservation.postInit (h : HealthObservation) : Py HealthObservation := do
  raiseIf (h.component = "") (.valueError "health component is required")
  raiseIf (h.healthy = true ∧ h.error ≠ none)
    (.valueError "healthy component cannot carry an error")
  return h

structure RollingVolatilityBaseline where
  symbol : String
  timeframe : String
  sampleCount : Nat
  baselineStd : ℚ
  currentStd : ℚ
  spreadFraction : ℚ
  observedAt : Time
deriving DecidableEq

structure BenchmarkObservation where
  symbol : String
  returnFraction : ℚ
  observedAt : Time
  sourceEventId : String
deriving DecidableEq

structure MonitoringAdmissionContext where
  symbol : String
  timeframe : String
  evaluatedAt : Time
  killSwitchActive : Bool
  killSwitchReason : Option String
  killSwitchVersion : Nat
  killSwitchChangedAt : Time
  killSwitchChangedBy : String
  health : List HealthObservation
  volatility : Option RollingVolatilityBaseline
  benchmark : Option BenchmarkObservation
deriving DecidableEq

/-! ## the policy -/

inductive AdmissionCheck
  | killSwitch | health | baselineWarmup | volatility | liquidity | benchmark

structure OfficialAdmissionPolicy where
  mandatoryComponents : List String
  healthMaxAge : Time
  marketObservationMaxAge : Time
  benchmarkMaxAge : Time
  minimumBaselineSamples : Nat
  volatilityMultiplier : ℚ
  maximumSpreadFraction : ℚ
  components_ne : mandatoryComponents ≠ []
  components_nodup : mandatoryComponents.Nodup
  components_named : "" ∉ mandatoryComponents
  ages_pos : 0 < healthMaxAge ∧ 0 < marketObservationMaxAge ∧ 0 < benchmarkMaxAge
  samples_two : 1 < minimumBaselineSamples
  multiplier_pos : 0 < volatilityMultiplier
  spread_pos : 0 < maximumSpreadFraction

def OfficialAdmissionPolicy.conservative : OfficialAdmissionPolicy where
  mandatoryComponents :=
    ["market_data", "feature_pipeline", "agents", "decision", "risk", "execution", "monitoring"]
  healthMaxAge := 10000000
  marketObservationMaxAge := 2000000
  benchmarkMaxAge := 60000000
  minimumBaselineSamples := 60
  volatilityMultiplier := 3 / 2
  maximumSpreadFraction := 5 / 100
  components_ne := by simp
  components_nodup := by decide
  components_named := by decide
  ages_pos := by decide
  samples_two := by decide
  multiplier_pos := by norm_num
  spread_pos := by norm_num

structure AdmissionGateResult where
  check : AdmissionCheck
  status : QualityStatus
  reasonCode : String

structure MonitoringAdmissionDecision where
  allowed : Bool
  gates : List AdmissionGateResult
  blockingChecks : List AdmissionCheck

namespace OfficialAdmissionPolicy

variable (A : Arith) (policy : OfficialAdmissionPolicy) (c : MonitoringAdmissionContext)

/-- `_kill_switch` -/
def killSwitchGate : AdmissionGateResult :=
  if c.killSwitchActive then ⟨.killSwitch, .failed, "kill_switch_active"⟩
  else ⟨.killSwitch, .passed, "kill_switch_clear"⟩

/-- `observations[component]` -/
def observation? (component : String) : Option HealthObservation :=
  c.health.find? (fun o => o.component = component)

def someObserved (state : HealthObservation → Prop) [DecidablePred state] : Prop :=
  ∃ component ∈ policy.mandatoryComponents, ∃ o ∈ observation? c component, state o

instance someObserved.decidable {state : HealthObservation → Prop} [DecidablePred state] :
    Decidable (policy.someObserved c state) := by
  unfold someObserved
  infer_instance

/-- `_health` -/
def healthGate : AdmissionGateResult :=
  if ∃ component ∈ policy.mandatoryComponents, observation? c component = none then
    ⟨.health, .notApplicable, "mandatory_health_missing"⟩
  else if policy.someObserved c (fun o => o.healthy = false) then
    ⟨.health, .failed, "mandatory_health_unhealthy"⟩
  else if policy.someObserved c (fun o => o.observedAt > c.evaluatedAt) then
    ⟨.health, .failed, "mandatory_health_from_future"⟩
  else if policy.someObserved c (fun o => c.evaluatedAt - o.observedAt > policy.healthMaxAge) then
    ⟨.health, .failed, "mandatory_health_stale"⟩
  else ⟨.health, .passed, "mandatory_health_fresh"⟩

/-- `_baseline` -/
def baselineGate : AdmissionGateResult :=
  match c.volatility with
  | none => ⟨.baselineWarmup, .notApplicable, "baseline_missing"⟩
  | some baseline =>
    if (baseline.symbol, baseline.timeframe) ≠ (c.symbol, c.timeframe) then
      ⟨.baselineWarmup, .failed, "baseline_identity_mismatch"⟩
    else if baseline.observedAt > c.evaluatedAt then
      ⟨.baselineWarmup, .failed, "baseline_from_future"⟩
    else if c.evaluatedAt - baseline.observedAt > policy.marketObservationMaxAge then
      ⟨.baselineWarmup, .failed, "baseline_observation_stale"⟩
    else if baseline.sampleCount < policy.minimumBaselineSamples then
      ⟨.baselineWarmup, .notApplicable, "baseline_cold"⟩
    else ⟨.baselineWarmup, .passed, "baseline_warm"⟩

def warmBaseline : Option RollingVolatilityBaseline :=
  if (policy.baselineGate c).status = .passed then c.volatility else none

/-- `_volatility` -/
def volatilityGate : AdmissionGateResult :=
  match policy.warmBaseline c with
  | none => ⟨.volatility, .notApplicable, "baseline_unavailable"⟩
  | some baseline =>
    if baseline.currentStd > A.mul baseline.baselineStd policy.volatilityMultiplier then
      ⟨.volatility, .failed, "volatility_circuit_breaker"⟩
    else ⟨.volatility, .passed, "volatility_within_limit"⟩

/-- `_liquidity` -/
def liquidityGate : AdmissionGateResult :=
  match policy.warmBaseline c with
  | none => ⟨.liquidity, .notApplicable, "liquidity_observation_missing"⟩
  | some baseline =>
    if baseline.spreadFraction > policy.maximumSpreadFraction then
      ⟨.liquidity, .failed, "liquidity_spread_exceeded"⟩
    else ⟨.liquidity, .passed, "liquidity_within_limit"⟩

/-- `_benchmark` -/
def benchmarkGate : AdmissionGateResult :=
  match c.benchmark with
  | none => ⟨.benchmark, .notApplicable, "benchmark_missing"⟩
  | some benchmark =>
    if benchmark.observedAt > c.evaluatedAt then ⟨.benchmark, .failed, "benchmark_from_future"⟩
    else if c.evaluatedAt - benchmark.observedAt > policy.benchmarkMaxAge then
      ⟨.benchmark, .failed, "benchmark_stale"⟩
    else ⟨.benchmark, .passed, "benchmark_explicit_and_fresh"⟩

def gates : List AdmissionGateResult :=
  [killSwitchGate c, policy.healthGate c, policy.baselineGate c, policy.volatilityGate A c,
    policy.liquidityGate c, policy.benchmarkGate c]

def evaluate : MonitoringAdmissionDecision :=
  let gates := policy.gates A c
  let blocking := (gates.filter (fun gate => gate.status ≠ .passed)).map (·.check)
  ⟨blocking.isEmpty, gates, blocking⟩

end OfficialAdmissionPolicy

end Maais
