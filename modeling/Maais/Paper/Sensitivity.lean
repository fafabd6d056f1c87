import Maais.Paper.Broker

/-!
# The sensitivity of a fill

* `calculateSensitivitiesWith`, `calculateSensitivities`  the fill at the best price, as it was, and
  with its slippage doubled;
* `PaperBroker.enter`  an entry with the sensitivities of its fill;
* `calculateSensitivities_exact_iff`  in exact arithmetic it is refused only for a sale whose
  slippage, added once more, leaves no price.
-/

namespace Maais
open Lib

inductive SensitivityScenario
  | optimistic | conservative | stress
deriving DecidableEq

structure SensitivityOutcome where
  scenario : SensitivityScenario
  calculatedAt : Time
  effectiveFillPrice : ℚ
  fee : ℚ
  executionCost : ℚ
  markedPnl : ℚ
deriving DecidableEq

def SensitivityOutcome.postInit (o : SensitivityOutcome) : Py SensitivityOutcome := do
  requirePositiveDecimal o.effectiveFillPrice "effective_fill_price"
  raiseIf (o.fee < 0 ∨ o.executionCost < 0)
    (.valueError "fee and execution_cost must be nonnegative")
  return o

theorem SensitivityOutcome.postInit_ok {o : SensitivityOutcome} (hp : 0 < o.effectiveFillPrice)
    (hf : 0 ≤ o.fee) (hc : 0 ≤ o.executionCost) : o.postInit = .ok o := by
  have hneg : ¬ (o.fee < 0 ∨ o.executionCost < 0) := not_or.mpr ⟨not_lt.mpr hf, not_lt.mpr hc⟩
  rw [postInit, requirePositiveDecimal_eq_ok (u := ()).mpr hp, ok_bind, raiseIf_bind_neg hneg]
  rfl

namespace PaperFill

variable (A : Arith) (fill : PaperFill)

def bestPrice : Option ℚ :=
  match fill.side with
  | .buy => (fill.slices.map (·.price)).min?
  | .sell => (fill.slices.map (·.price)).max?

def additionalStress (stressMultiplier : ℚ) : ℚ :=
  A.mul (A.div (A.abs fill.totalSlippage) fill.quantity) (A.sub stressMultiplier 1)

def stressPrice (stressMultiplier : ℚ) : ℚ :=
  match fill.side with
  | .buy => A.add fill.price (fill.additionalStress A stressMultiplier)
  | .sell => A.sub fill.price (fill.additionalStress A stressMultiplier)

def effectiveFeeRate : ℚ := if 0 < fill.notional then A.div fill.fee fill.notional else 0

/-- one scenario: the fill as if it had been taken at another price -/
def sensitivityAt (markedPrice bestPrice : ℚ) (calculatedAt : Time) (scenario : SensitivityScenario)
    (price : ℚ) : Py SensitivityOutcome :=
  let fee := A.mul (A.mul price fill.quantity) (fill.effectiveFeeRate A)
  let slippage := A.mul (A.abs (A.sub price bestPrice)) fill.quantity
  let gross := A.mul (A.sub markedPrice price) fill.quantity
  SensitivityOutcome.postInit
    { scenario, calculatedAt, effectiveFillPrice := price, fee, executionCost := A.add fee slippage,
      markedPnl := A.sub (match fill.side with | .buy => gross | .sell => A.neg gross) fee }

end PaperFill

/-- `calculate_sensitivities`; `settings.stress_multiplier` is at least one -/
def calculateSensitivitiesWith (A : Arith) (fill : PaperFill) (markedPrice : ℚ)
    (calculatedAt : Time) (stressMultiplier : ℚ) : Py (List SensitivityOutcome) := do
  requirePositiveDecimal markedPrice "marked_price"
  raiseIf (stressMultiplier < 1)
    (.valueError "stress_multiplier must be a finite Decimal at least 1")
  let best ← orRaise fill.bestPrice (.valueError "min() iterable argument is empty")
  requirePositiveDecimal (fill.stressPrice A stressMultiplier) "stress effective fill price"
  let optimistic ← fill.sensitivityAt A markedPrice best calculatedAt .optimistic best
  let conservative ← fill.sensitivityAt A markedPrice best calculatedAt .conservative fill.price
  let stress ← fill.sensitivityAt A markedPrice best calculatedAt .stress
    (fill.stressPrice A stressMultiplier)
  return [optimistic, conservative, stress]

/-- with the default multiplier, as the service calls it -/
def calculateSensitivities (A : Arith) (fill : PaperFill) (markedPrice : ℚ) (calculatedAt : Time) :
    Py (List SensitivityOutcome) :=
  calculateSensitivitiesWith A fill markedPrice calculatedAt 2

def PaperBroker.enter (A : Arith) (broker : PaperBroker) (command : MarketEntryCommand)
    (account : AccountState) (books : List BookSnapshot) (activeExitPlan : Option ExitPlan) :
    Py (PaperBrokerResult × List SensitivityOutcome) := do
  let result ← broker.executeMarketEntry A command account books activeExitPlan
  let sensitivities ← calculateSensitivities A result.fill result.fill.book.markPrice
    result.fill.fillAt
  return (result, sensitivities)

theorem PaperBroker.enter_eq_ok {A : Arith} {broker : PaperBroker} {command : MarketEntryCommand}
    {account : AccountState} {books : List BookSnapshot} {active : Option ExitPlan}
    {r : PaperBrokerResult} {l : List SensitivityOutcome} :
    broker.enter A command account books active = .ok (r, l) ↔
      broker.executeMarketEntry A command account books active = .ok r ∧
        calculateSensitivities A r.fill r.fill.book.markPrice r.fill.fillAt = .ok l := by
  simp only [enter, bind_eq_ok, pure_ok_iff, Prod.mk.injEq]
  constructor
  · rintro ⟨_, hr, _, hl, rfl, rfl⟩
    exact ⟨hr, hl⟩
  · rintro ⟨hr, hl⟩
    exact ⟨r, hr, l, hl, rfl, rfl⟩

/-! ## exact arithmetic -/

namespace PaperFill

variable {fill : PaperFill}

structure Priced (fill : PaperFill) : Prop where
  quantity : 0 < fill.quantity
  price : 0 < fill.price
  notional : 0 < fill.notional
  fee : 0 ≤ fill.fee
  slices : fill.slices ≠ []

theorem Priced.of_fill {A : Arith} {engine : MarketFillEngine} {request : MarketFillRequest}
    {books : List BookSnapshot} (h : engine.fill A request books = .ok fill) : fill.Priced := by
  simp only [MarketFillEngine.fill, bind_eq_ok] at h
  obtain ⟨_, _, _, _, slices, _, h⟩ := h
  simp only [PaperFill.postInit, bind_eq_ok, raiseIf_eq_ok, requirePositiveDecimal_eq_ok,
    pure_eq_ok, Except.ok.injEq] at h
  obtain ⟨_, _, _, hq, _, hp, _, hn, _, hfee, _, hslices, _, _, _, _, _, _, rfl⟩ := h
  exact ⟨hq, hp, hn, not_lt.mp hfee, fun hnil => hslices (Or.inl hnil)⟩

theorem Priced.bestPrice (h : fill.Priced) : ∃ best, fill.bestPrice = some best ∧ 0 < best := by
  have hne : fill.slices.map (·.price) ≠ [] := fun hnil => h.slices (List.map_eq_nil_iff.mp hnil)
  have hpos : ∀ x ∈ fill.slices.map (·.price), 0 < x := by
    intro x hx
    obtain ⟨s, _, rfl⟩ := List.mem_map.mp hx
    exact s.price_pos
  unfold PaperFill.bestPrice
  cases fill.side with
  | buy =>
    obtain ⟨best, hbest⟩ := Option.isSome_iff_exists.mp (List.isSome_min?_of_ne_nil hne)
    exact ⟨best, hbest, hpos best (List.min?_mem hbest)⟩
  | sell =>
    obtain ⟨best, hbest⟩ := Option.isSome_iff_exists.mp (List.isSome_max?_of_ne_nil hne)
    exact ⟨best, hbest, hpos best (List.max?_mem hbest)⟩

theorem Priced.effectiveFeeRate_nonneg (h : fill.Priced) : 0 ≤ fill.effectiveFeeRate .exact := by
  unfold PaperFill.effectiveFeeRate
  split
  · exact div_nonneg h.fee h.notional.le
  · exact le_refl 0

theorem Priced.sensitivityAt_ok (h : fill.Priced) (marked best : ℚ) (at' : Time)
    (scenario : SensitivityScenario) {price : ℚ} (hp : 0 < price) :
    ∃ o, fill.sensitivityAt .exact marked best at' scenario price = .ok o := by
  have hfee : 0 ≤ price * fill.quantity * fill.effectiveFeeRate .exact :=
    mul_nonneg (mul_nonneg hp.le h.quantity.le) h.effectiveFeeRate_nonneg
  have hslip : 0 ≤ |price - best| * fill.quantity := mul_nonneg (abs_nonneg _) h.quantity.le
  exact ⟨_, SensitivityOutcome.postInit_ok hp hfee (add_nonneg hfee hslip)⟩

theorem stressPrice_exact (fill : PaperFill) :
    fill.stressPrice .exact 2 = match fill.side with
      | .buy => fill.price + |fill.totalSlippage| / fill.quantity
      | .sell => fill.price - |fill.totalSlippage| / fill.quantity := by
  have hstress : fill.additionalStress .exact 2 = |fill.totalSlippage| / fill.quantity := by
    simp only [additionalStress, Arith.exact_mul, Arith.exact_div, Arith.exact_abs, Arith.exact_sub]
    ring
  unfold stressPrice
  rw [hstress]
  cases fill.side with
  | buy => rfl
  | sell => rfl

theorem Priced.stressPrice_pos_iff (h : fill.Priced) :
    0 < fill.stressPrice .exact 2 ↔
    (fill.side = .sell → |fill.totalSlippage| < fill.price * fill.quantity) := by
  rw [stressPrice_exact]
  cases fill.side with
  | buy =>
    refine iff_of_true ?_ (fun h => nomatch h)
    exact add_pos_of_pos_of_nonneg h.price (div_nonneg (abs_nonneg _) h.quantity.le)
  | sell =>
    rw [sub_pos, div_lt_iff₀ h.quantity]
    exact ⟨fun hlt _ => hlt, fun hlt => hlt rfl⟩

end PaperFill

theorem calculateSensitivities_exact_iff {fill : PaperFill} (h : fill.Priced) {marked : ℚ}
    (hm : 0 < marked) (at' : Time) :
    (∃ l, calculateSensitivities .exact fill marked at' = .ok l) ↔
      (fill.side = .sell → |fill.totalSlippage| < fill.price * fill.quantity) := by
  obtain ⟨best, hbest, hpos⟩ := h.bestPrice
  rw [← h.stressPrice_pos_iff, calculateSensitivities, calculateSensitivitiesWith,
    requirePositiveDecimal_eq_ok (u := ()).mpr hm, ok_bind, raiseIf_bind_neg (by norm_num), hbest,
    orRaise_some, ok_bind]
  by_cases hstress : 0 < fill.stressPrice .exact 2
  · obtain ⟨o₁, h₁⟩ := h.sensitivityAt_ok marked best at' .optimistic hpos
    obtain ⟨o₂, h₂⟩ := h.sensitivityAt_ok marked best at' .conservative h.price
    obtain ⟨o₃, h₃⟩ := h.sensitivityAt_ok marked best at' .stress hstress
    rw [requirePositiveDecimal_eq_ok (u := ()).mpr hstress, ok_bind, h₁, ok_bind, h₂, ok_bind, h₃]
    exact iff_of_true ⟨_, rfl⟩ hstress
  · rw [requirePositiveDecimal, raiseIf_bind_pos (not_lt.mp hstress)]
    exact iff_of_false (by rintro ⟨_, h⟩; cases h) hstress

end Maais
