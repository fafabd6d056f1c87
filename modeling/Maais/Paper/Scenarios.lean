import Maais.Paper.BestFills
import Maais.Paper.Sensitivity

/-!
# The order of the sensitivity scenarios

The three scenarios take one fill at its best slice price, at its average price and at the stress
price. Away from the best price a buy only gets dearer and a sell only cheaper, and a fee rate of at
most one never turns the lower fee of a cheaper sale into a gain.

* `best_noWorse`, `stress_noWorse`  the prices of the scenarios, one after the other;
* `scenarios_ordered`  execution costs ascend and marked profits descend.
-/

namespace Maais
open Lib MarketFillEngine

namespace PaperFill

section
variable {fill : PaperFill}

/-- what the engine fixed in a fill: the average of its slices and the fee of its notional -/
structure Averaged (fill : PaperFill) (rate : ℚ) : Prop where
  priced : fill.Priced
  quantity : (fill.slices.map (·.quantity)).sum = fill.quantity
  notional : (fill.slices.map fun s => s.quantity * s.price).sum = fill.notional
  price : fill.price = fill.notional / fill.quantity
  fee : fill.fee = fill.notional * rate

theorem Averaged.of_fill {engine : MarketFillEngine} {request : MarketFillRequest}
    {books : List BookSnapshot} (h : engine.fill .exact request books = .ok fill) :
    fill.Averaged request.takerFeeRate := by
  have hpriced := Priced.of_fill h
  simp only [MarketFillEngine.fill, bind_eq_ok] at h
  obtain ⟨_, _, _, _, slices, _, h⟩ := h
  simp only [PaperFill.postInit, bind_eq_ok, raiseIf_eq_ok, pure_ok_iff, not_or, not_not,
    ne_eq, Arith.exact_sum] at h
  obtain ⟨_, _, _, _, _, _, _, _, _, _, _, ⟨_, hquantity, hnotional⟩, _, hprice, _, _, _, _, rfl⟩ :=
    h
  exact ⟨hpriced, hquantity, hnotional, hprice, rfl⟩

variable {rate : ℚ}

theorem Averaged.effectiveFeeRate (h : fill.Averaged rate) :
    fill.effectiveFeeRate .exact = rate := by
  rw [PaperFill.effectiveFeeRate, if_pos h.priced.notional, h.fee, Arith.exact_div,
    mul_div_cancel_left₀ _ h.priced.notional.ne']

variable {best : ℚ}

theorem Averaged.best_noWorse (h : fill.Averaged rate) (hbest : fill.bestPrice = some best) :
    NoWorse fill.side best fill.price := by
  have hat : (fill.slices.map fun s => s.quantity * best).sum = best * fill.quantity := by
    rw [List.sum_map_mul_right, h.quantity, mul_comm]
  have hmem : ∀ s ∈ fill.slices, s.price ∈ fill.slices.map (·.price) :=
    fun s hs => List.mem_map_of_mem hs
  rw [h.price]
  unfold PaperFill.bestPrice at hbest
  cases hside : fill.side with
  | buy =>
    rw [hside] at hbest
    have hle : ∀ s ∈ fill.slices, best ≤ s.price := fun s hs =>
      (List.min?_eq_some_iff.mp hbest).2 s.price (hmem s hs)
    rw [NoWorse, le_div_iff₀ h.priced.quantity, ← hat, ← h.notional]
    exact List.sum_le_sum fun s hs => mul_le_mul_of_nonneg_left (hle s hs) s.quantity_pos.le
  | sell =>
    rw [hside] at hbest
    have hle : ∀ s ∈ fill.slices, s.price ≤ best := fun s hs =>
      (List.max?_eq_some_iff.mp hbest).2 s.price (hmem s hs)
    rw [NoWorse, div_le_iff₀ h.priced.quantity, ← hat, ← h.notional]
    exact List.sum_le_sum fun s hs => mul_le_mul_of_nonneg_left (hle s hs) s.quantity_pos.le

theorem Priced.stress_noWorse (h : fill.Priced) {multiplier : ℚ} (hm : 1 ≤ multiplier) :
    NoWorse fill.side fill.price (fill.stressPrice .exact multiplier) := by
  have hadd : 0 ≤ fill.additionalStress .exact multiplier :=
    mul_nonneg (div_nonneg (abs_nonneg _) h.quantity.le) (sub_nonneg.mpr hm)
  unfold PaperFill.stressPrice
  cases fill.side with
  | buy => exact le_add_of_nonneg_right hadd
  | sell => exact sub_le_self _ hadd

variable {scenario : SensitivityScenario} {o : SensitivityOutcome}

theorem sensitivityAt_eq {marked price : ℚ} {t : Time}
    (h : fill.sensitivityAt .exact marked best t scenario price = .ok o) : o.scenario = scenario ∧
      o.executionCost = price * fill.quantity * fill.effectiveFeeRate .exact + |price - best| *
      fill.quantity ∧ o.markedPnl = (match fill.side with
        | .buy => (marked - price) * fill.quantity
        | .sell => -((marked - price) * fill.quantity)) - price * fill.quantity *
            fill.effectiveFeeRate .exact := by
  simp only [PaperFill.sensitivityAt, SensitivityOutcome.postInit, bind_eq_ok, pure_ok_iff] at h
  obtain ⟨_, _, _, _, rfl⟩ := h
  exact ⟨rfl, rfl, rfl⟩

theorem sensitivityAt_worse {p p' marked : ℚ} {t : Time} {scenario' : SensitivityScenario}
    {o' : SensitivityOutcome} (hq : 0 < fill.quantity) (hrate : fill.effectiveFeeRate .exact = rate)
    (h0 : 0 ≤ rate) (h1 : rate ≤ 1) (hbest : NoWorse fill.side best p)
    (hworse : NoWorse fill.side p p')
    (h : fill.sensitivityAt .exact marked best t scenario p = .ok o)
    (h' : fill.sensitivityAt .exact marked best t scenario' p' = .ok o') :
    o.executionCost ≤ o'.executionCost ∧ o'.markedPnl ≤ o.markedPnl := by
  obtain ⟨_, hcost, hpnl⟩ := sensitivityAt_eq h
  obtain ⟨_, hcost', hpnl'⟩ := sensitivityAt_eq h'
  rw [hcost, hcost', hpnl, hpnl', hrate]
  cases hside : fill.side with
  | buy =>
    rw [hside] at hbest hworse
    have hmove : 0 ≤ (p' - p) * fill.quantity := mul_nonneg (sub_nonneg.mpr hworse) hq.le
    have hfee : 0 ≤ (p' - p) * fill.quantity * rate := mul_nonneg hmove h0
    rw [abs_of_nonneg (sub_nonneg.mpr hbest),
      abs_of_nonneg (sub_nonneg.mpr (le_trans hbest hworse))]
    constructor <;> linarith
  | sell =>
    rw [hside] at hbest hworse
    -- the fee falls with the price, but by no more than the price itself
    have hmove : 0 ≤ (p - p') * fill.quantity := mul_nonneg (sub_nonneg.mpr hworse) hq.le
    have hfee : (p - p') * fill.quantity * rate ≤ (p - p') * fill.quantity :=
      mul_le_of_le_one_right hmove h1
    rw [abs_of_nonpos (sub_nonpos.mpr hbest),
      abs_of_nonpos (sub_nonpos.mpr (le_trans hworse hbest))]
    constructor <;> linarith

end
end PaperFill

/-- **the scenarios are ordered**: for every fill of the engine the execution cost ascends and the
marked profit descends from the optimistic to the conservative to the stress scenario. -/
theorem scenarios_ordered (engine : MarketFillEngine) (request : MarketFillRequest)
    (books : List BookSnapshot) (fill : PaperFill) (marked multiplier : ℚ) (t : Time)
    (hrequest : request.postInit = .ok request)
    (hfill : engine.fill .exact request books = .ok fill) (hmultiplier : 1 ≤ multiplier)
    (hstress : 0 < fill.stressPrice .exact multiplier) (hmarked : 0 < marked) :
    ∃ optimistic conservative stress, calculateSensitivitiesWith .exact fill marked t multiplier =
      .ok [optimistic, conservative, stress] ∧ optimistic.scenario = .optimistic ∧
      conservative.scenario = .conservative ∧ stress.scenario = .stress ∧
      optimistic.executionCost ≤ conservative.executionCost ∧
      conservative.executionCost ≤ stress.executionCost ∧
      conservative.markedPnl ≤ optimistic.markedPnl ∧
      stress.markedPnl ≤ conservative.markedPnl := by
  simp only [MarketFillRequest.postInit, bind_eq_ok, raiseIf_eq_ok, not_not] at hrequest
  obtain ⟨_, _, _, _, _, _, _, ⟨h0, h1⟩, _⟩ := hrequest
  have haveraged := PaperFill.Averaged.of_fill hfill
  have hpriced := haveraged.priced
  obtain ⟨best, hbest, hpos⟩ := hpriced.bestPrice
  obtain ⟨o₁, h₁⟩ := hpriced.sensitivityAt_ok marked best t .optimistic hpos
  obtain ⟨o₂, h₂⟩ := hpriced.sensitivityAt_ok marked best t .conservative hpriced.price
  obtain ⟨o₃, h₃⟩ := hpriced.sensitivityAt_ok marked best t .stress hstress
  have hrun : calculateSensitivitiesWith .exact fill marked t multiplier = .ok [o₁, o₂, o₃] := by
    rw [calculateSensitivitiesWith, requirePositiveDecimal_eq_ok (u := ()).mpr hmarked, ok_bind,
      raiseIf_bind_neg (not_lt.mpr hmultiplier), hbest, orRaise_some, ok_bind,
      requirePositiveDecimal_eq_ok (u := ()).mpr hstress, ok_bind, h₁, ok_bind, h₂, ok_bind, h₃]
    rfl
  have hworse := haveraged.best_noWorse hbest
  have hworse' := hpriced.stress_noWorse hmultiplier
  have hself : NoWorse fill.side best best := noWorse_iff.mpr le_rfl
  obtain ⟨hcost, hpnl⟩ :=
    PaperFill.sensitivityAt_worse hpriced.quantity haveraged.effectiveFeeRate h0 h1
    hself hworse h₁ h₂
  obtain ⟨hcost', hpnl'⟩ :=
    PaperFill.sensitivityAt_worse hpriced.quantity haveraged.effectiveFeeRate h0 h1
    hworse hworse' h₂ h₃
  exact ⟨o₁, o₂, o₃, hrun, (PaperFill.sensitivityAt_eq h₁).1, (PaperFill.sensitivityAt_eq h₂).1,
    (PaperFill.sensitivityAt_eq h₃).1, hcost, hcost', hpnl, hpnl'⟩

namespace PaperFill.Demo

def buyTwoWithFee : MarketFillRequest := ⟨"BTCUSDT", .buy, 2, 10, 100, 1 / 1000⟩

theorem buyTwoWithFee_ordered : buyTwoWithFee.postInit = .ok buyTwoWithFee ∧ ∃ fill,
    MarketFillEngine.Demo.engine.fill .exact buyTwoWithFee [MarketFillEngine.Demo.twoLevelBook 11] =
    .ok fill ∧ 0 < fill.stressPrice .exact 2 ∧ ∃ optimistic conservative stress,
      calculateSensitivitiesWith .exact fill 100 12 2 = .ok [optimistic, conservative, stress] ∧
      optimistic.executionCost ≤ conservative.executionCost := by
  have hrequest : buyTwoWithFee.postInit = .ok buyTwoWithFee :=
    eq_ok_of_toOption (by decide +kernel)
  obtain ⟨fill, hfill, hany⟩ := exists_ok_of_any
    (x := MarketFillEngine.Demo.engine.fill .exact buyTwoWithFee
    [MarketFillEngine.Demo.twoLevelBook 11])
    (p := fun fill => decide (0 < fill.stressPrice .exact 2)) (by decide +kernel)
  have hstress := of_decide_eq_true hany
  obtain ⟨o, c, s, hrun, _, _, _, hcost, _⟩ :=
    scenarios_ordered _ _ _ fill 100 2 12 hrequest hfill (by norm_num) hstress (by norm_num)
  exact ⟨hrequest, fill, hfill, hstress, o, c, s, hrun, hcost⟩

end PaperFill.Demo

end Maais
