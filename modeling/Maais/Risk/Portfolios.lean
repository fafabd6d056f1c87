import Maais.Risk.Official
import Maais.Lib.Digits
import Maais.Lib.Keyed

/-!
# Sizing over two portfolios

What is already open only ever takes capacity away: a portfolio that holds every symbol of another
with at least its amounts is sized no larger, and the order in which positions and correlations are
reported does not matter.

* `Entered`, `decision_entered`  a request that reaches the sizing;
* `evaluate_signed`  an accepted request is decided, whatever rounding keeps the sign;
* `sized_exact`  without rounding the four gates after the sizing pass as soon as the quantity is
  positive;
* `Covers`, `Covers.quantity_le`  the comparison of two portfolios.
-/

namespace Maais
open Lib

/-! ## requests -/

/-- what `OfficialRiskRequest.__post_init__` lets through -/
structure OfficialRiskRequest.Valid (r : OfficialRiskRequest) : Prop where
  symbol_upper : ¬ (r.symbol = "" ∨ r.symbol ≠ upper r.symbol)
  direction_ne : r.direction ≠ .neutral
  capital_pos : 0 < r.capital
  price_pos : 0 < r.executablePrice
  stop_pos : 0 < r.stopPrice
  gain_pos : 0 < r.expectedGainFraction
  loss_pos : 0 < r.expectedLossFraction
  pWin_range : ¬ (r.pWin < 0 ∨ 1 < r.pWin)
  fee_range : ¬ (r.entryFeeFraction < 0 ∨ 1 / 100 < r.entryFeeFraction)
  leverage_ne : r.leverage ≠ 0
  positions_nodup : (r.openPositions.map (·.symbol)).Nodup
  correlations_nodup : (r.correlations.map (·.otherSymbol)).Nodup
  correlations_open :
    ¬ ∃ c ∈ r.correlations, c.otherSymbol = r.symbol ∨
    c.otherSymbol ∉ r.openPositions.map (·.symbol)

def OfficialRiskRequest.sorted (r : OfficialRiskRequest) : OfficialRiskRequest :=
  { r with
    openPositions := r.openPositions.insertionSort (fun a b => a.symbol ≤ b.symbol)
    correlations := r.correlations.insertionSort (fun a b => a.otherSymbol ≤ b.otherSymbol) }

namespace OfficialRiskRequest

variable {r s : OfficialRiskRequest}

theorem postInit_eq_ok : r.postInit = .ok s ↔ r.Valid ∧ s = r.sorted := by
  constructor
  · intro h
    simp only [postInit, bind_eq_ok, raiseIf_eq_ok, requirePositiveDecimal_eq_ok, pure_ok_iff] at h
    obtain ⟨_, h1, _, h2, _, h3, _, h4, _, h5, _, h6, _, h7, _, h8, _, h9, _, h10, _, h11, _, h12,
      _, h13, h⟩ := h
    exact ⟨⟨h1, h2, h3, h4, h5, h6, h7, h8, h9, h10, not_not.mp h11, not_not.mp h12, h13⟩, h.symm⟩
  · rintro ⟨h, rfl⟩
    rw [postInit, raiseIf_bind_neg h.symbol_upper, raiseIf_bind_neg h.direction_ne,
      requirePositiveDecimal_eq_ok (u := ()).mpr h.capital_pos, ok_bind,
      requirePositiveDecimal_eq_ok (u := ()).mpr h.price_pos, ok_bind,
      requirePositiveDecimal_eq_ok (u := ()).mpr h.stop_pos, ok_bind,
      requirePositiveDecimal_eq_ok (u := ()).mpr h.gain_pos, ok_bind,
      requirePositiveDecimal_eq_ok (u := ()).mpr h.loss_pos, ok_bind, raiseIf_bind_neg h.pWin_range,
      raiseIf_bind_neg h.fee_range, raiseIf_bind_neg h.leverage_ne,
      raiseIf_not_bind h.positions_nodup, raiseIf_not_bind h.correlations_nodup,
      raiseIf_bind_neg h.correlations_open]
    rfl

theorem mem_sorted_positions {p : OpenRiskPosition} : p ∈ r.sorted.openPositions ↔
    p ∈ r.openPositions :=
  List.mem_insertionSort _

theorem mem_sorted_correlations {c : CorrelationObservation} : c ∈ r.sorted.correlations ↔
    c ∈ r.correlations :=
  List.mem_insertionSort _

theorem Valid.perm {P : List OpenRiskPosition} {C : List CorrelationObservation} (h : r.Valid)
    (hP : r.openPositions.Perm P) (hC : r.correlations.Perm C) :
    ({ r with openPositions := P, correlations := C } : OfficialRiskRequest).Valid where
  symbol_upper := h.symbol_upper
  direction_ne := h.direction_ne
  capital_pos := h.capital_pos
  price_pos := h.price_pos
  stop_pos := h.stop_pos
  gain_pos := h.gain_pos
  loss_pos := h.loss_pos
  pWin_range := h.pWin_range
  fee_range := h.fee_range
  leverage_ne := h.leverage_ne
  positions_nodup := (hP.map _).nodup_iff.mp h.positions_nodup
  correlations_nodup := (hC.map _).nodup_iff.mp h.correlations_nodup
  correlations_open := by
    rintro ⟨c, hc, hbad⟩
    refine h.correlations_open ⟨c, hC.mem_iff.mpr hc, ?_⟩
    rwa [(hP.map (·.symbol)).mem_iff]

theorem Valid.sorted (h : r.Valid) : r.sorted.Valid :=
  h.perm (List.perm_insertionSort _ _).symm (List.perm_insertionSort _ _).symm

end OfficialRiskRequest

namespace OfficialRiskEngine

variable {A : Arith} {policy : OfficialRiskPolicy} {r s : OfficialRiskRequest}

/-! ## the correlation gate -/

/-- every other symbol has a warm correlation below the blocking one -/
def Uncorrelated (A : Arith) (policy : OfficialRiskPolicy) (r : OfficialRiskRequest) : Prop :=
  ∀ symbol ∈ otherSymbols r, ∃ c ∈ observation? r symbol,
    policy.minimumAlignedCorrelationReturns ≤ c.alignedReturnCount ∧
      ∃ w ∈ c.correlation, A.abs w < policy.correlationBlockThreshold

def Permits (policy : OfficialRiskPolicy) (value x : ℚ) : Prop :=
  (policy.correlationReduce40Threshold ≤ value → x ≤ 6 / 10) ∧
    (policy.correlationReduce20Threshold ≤ value → x ≤ 8 / 10)

theorem correlationLoop_blocked {l : List ℚ} {m : ℚ}
    (h : ∃ v ∈ l, policy.correlationBlockThreshold ≤ v) : correlationLoop policy l m = none := by
  fun_induction correlationLoop policy l m with
  | case1 m => simp at h
  | case2 => rfl
  | case3 v l m hv _ ih => exact ih (by simpa [hv] using h)
  | case4 v l m hv _ _ ih => exact ih (by simpa [hv] using h)
  | case5 v l m hv _ _ ih => exact ih (by simpa [hv] using h)

theorem correlationLoop_clear {l : List ℚ} {m : ℚ}
    (h : ∀ v ∈ l, v < policy.correlationBlockThreshold) : ∃ k, correlationLoop policy l m = some k ∧
    ∀ x, x ≤ k ↔ x ≤ m ∧ ∀ v ∈ l, Permits policy v x := by
  have hlow : policy.correlationReduce20Threshold < policy.correlationReduce40Threshold :=
    policy.correlation_ordered.2.1
  have hcons : ∀ {v : ℚ} {l : List ℚ} {x : ℚ},
      (∀ w ∈ v :: l, Permits policy w x) ↔ Permits policy v x ∧ ∀ w ∈ l, Permits policy w x :=
      List.forall_mem_cons
  fun_induction correlationLoop policy l m with
  | case1 m => exact ⟨m, rfl, by simp⟩
  | case2 v l m hv => exact absurd (h v List.mem_cons_self) (not_lt.mpr hv)
  | case3 v l m _ h40 ih =>
    obtain ⟨k, hk, hspec⟩ := ih fun w hw => h w (List.mem_cons_of_mem v hw)
    refine ⟨k, hk, fun x => ?_⟩
    have hv : Permits policy v x ↔ x ≤ 6 / 10 :=
      ⟨fun hp => hp.1 h40, fun hx => ⟨fun _ => hx, fun _ => hx.trans (by norm_num)⟩⟩
    rw [hspec, hcons, hv, le_min_iff, and_assoc]
  | case4 v l m _ h40 h20 ih =>
    obtain ⟨k, hk, hspec⟩ := ih fun w hw => h w (List.mem_cons_of_mem v hw)
    refine ⟨k, hk, fun x => ?_⟩
    have hv : Permits policy v x ↔ x ≤ 8 / 10 :=
      ⟨fun hp => hp.2 h20, fun hx => ⟨fun hge => absurd hge h40, fun _ => hx⟩⟩
    rw [hspec, hcons, hv, le_min_iff, and_assoc]
  | case5 v l m _ h40 h20 ih =>
    obtain ⟨k, hk, hspec⟩ := ih fun w hw => h w (List.mem_cons_of_mem v hw)
    refine ⟨k, hk, fun x => ?_⟩
    have hv : Permits policy v x := ⟨fun hge => absurd hge h40, fun hge => absurd hge h20⟩
    rw [hspec, hcons, and_iff_right hv]

theorem mem_correlationValues {v : ℚ} : v ∈ correlationValues A r ↔
    ∃ symbol ∈ otherSymbols r, ∃ c ∈ observation? r symbol, ∃ w ∈ c.correlation, v = A.abs w := by
  simp only [correlationValues, List.mem_filterMap, Option.map_eq_some_iff, Option.bind_eq_some_iff,
    Option.mem_def]
  constructor
  · rintro ⟨symbol, hs, w, ⟨c, hc, hw⟩, rfl⟩
    exact ⟨symbol, hs, c, hc, w, hw, rfl⟩
  · rintro ⟨symbol, hs, c, hc, w, hw, rfl⟩
    exact ⟨symbol, hs, w, ⟨c, hc, hw⟩, rfl⟩

theorem correlationGate_cases (A : Arith) (policy : OfficialRiskPolicy) (r : OfficialRiskRequest) :
    Uncorrelated A policy r ∧ (correlationGate A policy r).2.status = .passed ∧
      (∀ x, x ≤ (correlationGate A policy r).1 ↔ x ≤ 1 ∧ ∀ v ∈ correlationValues A r,
      Permits policy v x) ∨
    ¬ Uncorrelated A policy r ∧ (correlationGate A policy r).2.status ≠ .passed := by
  unfold correlationGate
  split
  case isTrue hnone =>
    refine .inl ⟨by simp [Uncorrelated, hnone], rfl, fun x => ?_⟩
    simp [correlationValues, hnone]
  split
  case isTrue hmissing =>
    obtain ⟨symbol, hs, hobs⟩ := hmissing
    refine .inr ⟨fun h => ?_, by simp⟩
    obtain ⟨c, hc, -⟩ := h symbol hs
    rw [hobs] at hc
    cases hc
  split
  case isTrue hcold =>
    obtain ⟨symbol, hs, c, hc, hlt⟩ := hcold
    refine .inr ⟨fun h => ?_, by simp⟩
    obtain ⟨c', hc', hle, -⟩ := h symbol hs
    obtain rfl := Option.mem_unique hc hc'
    omega
  split
  case isTrue hunavailable =>
    obtain ⟨symbol, hs, c, hc, hnone⟩ := hunavailable
    refine .inr ⟨fun h => ?_, by simp⟩
    obtain ⟨c', hc', -, w, hw, -⟩ := h symbol hs
    obtain rfl := Option.mem_unique hc hc'
    rw [hnone] at hw
    cases hw
  case isFalse hothers hmissing hcold hunavailable =>
    by_cases hclear : ∀ v ∈ correlationValues A r, v < policy.correlationBlockThreshold
    · obtain ⟨k, hk, hspec⟩ := correlationLoop_clear (m := 1) hclear
      rw [hk]
      refine .inl ⟨fun symbol hs => ?_, rfl, hspec⟩
      cases hobs : observation? r symbol with
      | none => exact absurd ⟨symbol, hs, hobs⟩ hmissing
      | some c =>
        have hcount : ¬ c.alignedReturnCount < policy.minimumAlignedCorrelationReturns :=
          fun hlt => hcold ⟨symbol, hs, c, hobs, hlt⟩
        refine ⟨c, rfl, not_lt.mp hcount, ?_⟩
        cases hw : c.correlation with
        | none => exact absurd ⟨symbol, hs, c, hobs, hw⟩ hunavailable
        | some w =>
          exact ⟨w, rfl, hclear _ (mem_correlationValues.mpr ⟨symbol, hs, c, hobs, w, hw, rfl⟩)⟩
    · push Not at hclear
      rw [correlationLoop_blocked hclear]
      refine .inr ⟨fun h => ?_, by simp⟩
      obtain ⟨v, hv, hle⟩ := hclear
      obtain ⟨symbol, hs, c, hc, w, hw, rfl⟩ := mem_correlationValues.mp hv
      obtain ⟨c', hc', -, w', hw', hlt⟩ := h symbol hs
      obtain rfl := Option.mem_unique hc hc'
      obtain rfl := Option.mem_unique hw hw'
      exact absurd hle (not_le.mpr hlt)

theorem correlationGate_passed_iff : (correlationGate A policy r).2.status = .passed ↔
    Uncorrelated A policy r := by
  rcases correlationGate_cases A policy r with ⟨h, hpassed, -⟩ | ⟨h, hnot⟩
  · exact iff_of_true hpassed h
  · exact iff_of_false hnot h

theorem le_correlationGate (h : Uncorrelated A policy r) {x : ℚ} :
    x ≤ (correlationGate A policy r).1 ↔ x ≤ 1 ∧ ∀ v ∈ correlationValues A r,
    Permits policy v x := by
  rcases correlationGate_cases A policy r with ⟨-, -, hspec⟩ | ⟨hnot, -⟩
  · exact hspec x
  · exact absurd h hnot

theorem correlationGate_ge (h : Uncorrelated A policy r) :
    6 / 10 ≤ (correlationGate A policy r).1 := by
  refine (le_correlationGate h).mpr ⟨by norm_num,
    fun v _ => ⟨fun _ => le_rfl, fun _ => by norm_num⟩⟩

/-! ## what reaches the sizing -/

structure Entered (A : Arith) (policy : OfficialRiskPolicy) (r : OfficialRiskRequest) : Prop where
  kelly : 0 < halfKelly A policy r
  stop : stopIsValid r
  drawdown : r.drawdown.drawdownFraction A < policy.drawdownHaltThreshold
  uncorrelated : Uncorrelated A policy r

def passedGates (A : Arith) (policy : OfficialRiskPolicy) (r : OfficialRiskRequest) :
    List RiskGateResult :=
  [kellyPassed, stopPassed, drawdownPassed, (correlationGate A policy r).2]

theorem passedGates_passed (h : Uncorrelated A policy r) :
    ∀ gate ∈ passedGates A policy r, gate.status = .passed := by
  simp [passedGates, kellyPassed, stopPassed, drawdownPassed, correlationGate_passed_iff.mpr h]

theorem decision_entered (h : Entered A policy r) :
    decision A policy r = sized A policy r (passedGates A policy r)
    (drawdownMultiplier policy (r.drawdown.drawdownFraction A)) (correlationGate A policy r).1 := by
  unfold decision
  simp only
  rw [if_neg (not_le.mpr h.kelly), if_neg (not_not.mpr h.stop), if_neg (not_le.mpr h.drawdown),
    if_neg (not_not.mpr (correlationGate_passed_iff.mpr h.uncorrelated))]
  rfl

theorem drawdownMultiplier_pos (policy : OfficialRiskPolicy) (x : ℚ) :
    0 < drawdownMultiplier policy x := by
  unfold drawdownMultiplier
  split
  · norm_num
  split
  · norm_num
  · norm_num

theorem decision_stopped (h : ¬ Entered A policy r) :
    ∃ half completed multiplier, 0 ≤ half ∧ 0 ≤ multiplier ∧
      (∃ gate ∈ completed, gate.status ≠ .passed) ∧
      decision A policy r = earlyRejection half completed multiplier := by
  have hmultiplier := (drawdownMultiplier_pos policy (r.drawdown.drawdownFraction A)).le
  unfold decision
  simp only
  split
  · exact ⟨_, _, _, le_max_right _ _, le_rfl, ⟨_, List.mem_cons_self, by simp⟩, rfl⟩
  case isFalse hkelly =>
  have hkelly' := (not_le.mp hkelly).le
  split
  · exact ⟨_, _, _, hkelly', le_rfl, ⟨_, List.mem_cons_of_mem _ List.mem_cons_self, by simp⟩, rfl⟩
  case isFalse hstop =>
  split
  · refine ⟨_, _, _, hkelly', le_rfl, ⟨⟨.drawdown, .failed, "drawdown_halt"⟩, ?_, by simp⟩, rfl⟩
    simp
  case isFalse hdrawdown =>
  split
  case isTrue hcorrelation =>
    exact ⟨_, _, _, hkelly', hmultiplier,
      ⟨(correlationGate A policy r).2, by simp, hcorrelation⟩, rfl⟩
  case isFalse hcorrelation =>
    exact absurd ⟨not_le.mp hkelly, not_not.mp hstop, not_le.mp hdrawdown,
      correlationGate_passed_iff.mp (not_not.mp hcorrelation)⟩ h

theorem evaluate_of_amounts (h : ∀ amount ∈ (decision A policy r).amounts, ¬ amount.1 < 0) :
    evaluate A policy r = .ok (decision A policy r) := by
  have hloop : (decision A policy r).amounts.forM (fun amount => raiseIf (amount.1 < 0)
      (PyError.valueError ("risk decision " ++ amount.2 ++ " must be nonnegative and finite"))) =
      .ok () :=
    forM_eq_ok.mpr fun amount hmem => raiseIf_neg _ (h amount hmem)
  rw [evaluate, OfficialRiskDecision.postInit, raiseIf_not_bind evaluate_gates, hloop]
  rfl

theorem Entered.correlation_pos (he : Entered A policy r) : 0 < (correlationGate A policy r).1 :=
  lt_of_lt_of_le (by norm_num) (correlationGate_ge he.uncorrelated)

/-! ## the smallest capacity -/

theorem le_quantityFor {budget x : ℚ} :
    x ≤ quantityFor A policy r budget ↔ ∀ cap ∈ quantityCaps A policy r budget, x ≤ cap := by
  unfold quantityFor
  cases h : (quantityCaps A policy r budget).min? with
  | none => rw [List.min?_eq_none_iff] at h; cases h
  | some q => exact List.le_min?_iff h

theorem remaining_nonneg (limit existing : ℚ) : 0 ≤ remaining A limit existing := le_max_right _ _

/-! ## sizing under a rounding that keeps the sign -/

section Signed

variable (hA : A.Signed)
include hA

theorem stopDistance_nonneg (r : OfficialRiskRequest) : 0 ≤ stopDistance A r :=
  hA.nonneg (abs_nonneg _)

theorem marginCostPerQuantity_nonneg (h : r.Valid) : 0 ≤ marginCostPerQuantity A r := by
  have hfee : 0 ≤ r.entryFeeFraction := not_lt.mp (not_or.mp h.fee_range).1
  have hshare : 0 ≤ A.div 1 r.leverage := hA.nonneg_div zero_le_one (Nat.cast_nonneg _)
  exact hA.nonneg_mul h.price_pos.le (hA.nonneg (add_nonneg hshare hfee))

theorem riskBudget_pos (h : r.Valid) (he : Entered A policy r) {dd c : ℚ} (hdd : 0 < dd)
    (hc : 0 < c) : 0 < riskBudget A policy r dd c := by
  have hfraction : 0 < riskFraction A policy r := lt_min he.kelly policy.tradeLoss_pos
  exact hA.pos_mul (hA.pos_mul (hA.pos_mul h.capital_pos hfraction) hdd) hc

theorem quantityFor_nonneg (policy : OfficialRiskPolicy) (h : r.Valid) {budget : ℚ}
    (hbudget : 0 ≤ budget) : 0 ≤ quantityFor A policy r budget := by
  have hdistance := stopDistance_nonneg hA r
  refine le_quantityFor.mpr ?_
  simp only [quantityCaps, List.forall_mem_cons, List.not_mem_nil, false_implies,
    implies_true, and_true]
  exact ⟨hA.nonneg_div hbudget hdistance, hA.nonneg_div (remaining_nonneg _ _) hdistance,
    hA.nonneg_div (remaining_nonneg _ _) h.price_pos.le,
    hA.nonneg_div (remaining_nonneg _ _) (marginCostPerQuantity_nonneg hA h)⟩

theorem quantity_nonneg (policy : OfficialRiskPolicy) (h : r.Valid) :
    0 ≤ (decision A policy r).quantity := by
  by_cases he : Entered A policy r
  · rw [decision_entered he]
    exact quantityFor_nonneg hA policy h
      (riskBudget_pos hA h he (drawdownMultiplier_pos policy _) he.correlation_pos).le
  · obtain ⟨half, completed, multiplier, -, -, -, heq⟩ := decision_stopped he
    rw [heq]
    exact le_rfl

theorem notional_pos (h : r.Valid) (hq : 0 < (decision A policy r).quantity) :
    0 < (decision A policy r).notional := by
  by_cases he : Entered A policy r
  · rw [decision_entered he] at hq ⊢
    exact hA.pos_mul hq h.price_pos
  · obtain ⟨half, completed, multiplier, -, -, -, heq⟩ := decision_stopped he
    rw [heq] at hq
    exact absurd hq (lt_irrefl 0)

theorem evaluate_signed (h : r.Valid) : evaluate A policy r = .ok (decision A policy r) := by
  refine evaluate_of_amounts ?_
  by_cases he : Entered A policy r
  · have hq := quantity_nonneg hA policy h
    have hdistance := stopDistance_nonneg hA r
    rw [decision_entered he] at hq ⊢
    have hnotional := hA.nonneg_mul hq h.price_pos.le
    simp only [OfficialRiskDecision.amounts, sized, List.forall_mem_cons, List.not_mem_nil,
      false_implies, implies_true, and_true, not_lt] at hq ⊢
    exact ⟨hq, hnotional, hA.nonneg_mul hq hdistance, hA.nonneg_div hnotional (Nat.cast_nonneg _),
      he.kelly.le, (drawdownMultiplier_pos policy _).le, he.correlation_pos.le⟩
  · obtain ⟨half, completed, multiplier, hhalf, hmultiplier, -, heq⟩ := decision_stopped he
    rw [heq]
    simp only [OfficialRiskDecision.amounts, earlyRejection, List.forall_mem_cons, List.not_mem_nil,
      false_implies, implies_true, and_true, not_lt, le_refl, true_and]
    exact ⟨hhalf, hmultiplier⟩

end Signed

/-! ## sizing without rounding -/

section Exact

theorem stopDistance_pos (h : stopIsValid r) : 0 < stopDistance .exact r := by
  have hne : r.executablePrice - r.stopPrice ≠ 0 := by
    rcases h with ⟨-, h⟩ | ⟨-, h⟩
    · exact (sub_pos.mpr h).ne'
    · exact (sub_neg.mpr h).ne
  simpa [stopDistance] using hne

theorem marginCostPerQuantity_pos (h : r.Valid) : 0 < marginCostPerQuantity .exact r := by
  have hfee : 0 ≤ r.entryFeeFraction := not_lt.mp (not_or.mp h.fee_range).1
  have hleverage : (0 : ℚ) < r.leverage := by exact_mod_cast Nat.pos_of_ne_zero h.leverage_ne
  have hprice := h.price_pos
  simp only [marginCostPerQuantity, Arith.exact_mul, Arith.exact_add, Arith.exact_div]
  positivity

theorem within_of_le_div {q limit existing unit : ℚ} (hunit : 0 < unit) (hq : 0 < q)
    (h : q ≤ remaining .exact limit existing / unit) : existing + q * unit ≤ limit := by
  rw [le_div_iff₀ hunit] at h
  have hpos : 0 < remaining .exact limit existing := (mul_pos hq hunit).trans_le h
  have hleft : remaining .exact limit existing = limit - existing := by
    unfold remaining at hpos ⊢
    rcases lt_max_iff.mp hpos with hlt | hlt
    · exact max_eq_left hlt.le
    · exact absurd hlt (lt_irrefl 0)
  linarith

theorem sized_exact (h : r.Valid) (hstop : stopIsValid r) {before : List RiskGateResult} {dd c : ℚ}
    (hbefore : ∀ gate ∈ before, gate.status = .passed)
    (hq : 0 < (sized .exact policy r before dd c).quantity) :
    (sized .exact policy r before dd c).approved = true := by
  have hdistance := stopDistance_pos hstop
  have hcost := marginCostPerQuantity_pos h
  set budget := riskBudget .exact policy r dd c with hbudget
  set q := quantityFor .exact policy r budget with hqdef
  have hq' : 0 < q := hq
  have hcaps : ∀ cap ∈ quantityCaps .exact policy r budget, q ≤ cap := le_quantityFor.mp le_rfl
  simp only [quantityCaps, Arith.exact_div, List.forall_mem_cons, List.not_mem_nil, false_implies,
    implies_true, and_true] at hcaps
  obtain ⟨htrade, hloss, hnotional, hmargin⟩ := hcaps
  have h1 : q * stopDistance .exact r ≤ budget := (le_div_iff₀ hdistance).mp htrade
  have h2 := within_of_le_div hdistance hq' hloss
  have h3 := within_of_le_div h.price_pos hq' hnotional
  have h4 := within_of_le_div hcost hq' hmargin
  have h4' : existingMargin .exact r + q * r.executablePrice / r.leverage +
      q * r.executablePrice * r.entryFeeFraction ≤ marginLimit .exact policy r := by
    refine le_of_eq_of_le ?_ h4
    simp only [marginCostPerQuantity, Arith.exact_mul, Arith.exact_add, Arith.exact_div]
    ring
  refine decide_eq_true fun gate hgate => ?_
  rcases List.mem_append.mp hgate with hgate | hgate
  · exact hbefore gate hgate
  · simp only [sizingGates, List.mem_cons, List.not_mem_nil, or_false, ← hbudget, ← hqdef,
      Arith.exact_mul, Arith.exact_add, Arith.exact_div, limitGate, if_pos h2, if_pos h3,
      if_pos h4', if_pos (And.intro hq' h1)] at hgate
    rcases hgate with rfl | rfl | rfl | rfl
    · rfl
    · rfl
    · rfl
    · rfl

theorem rejected_quantity (h : r.Valid) (hno : (decision .exact policy r).approved = false) :
    (decision .exact policy r).quantity = 0 := by
  by_cases he : Entered .exact policy r
  · have hq := quantity_nonneg .exact policy h
    rw [decision_entered he] at hno hq ⊢
    rcases hq.eq_or_lt with hzero | hpos
    · exact hzero.symm
    · rw [sized_exact h he.stop (passedGates_passed he.uncorrelated) hpos] at hno
      cases hno
  · obtain ⟨half, completed, multiplier, -, -, -, heq⟩ := decision_stopped he
    rw [heq]
    rfl

end Exact

/-! ## a larger portfolio -/

def withPortfolio (r : OfficialRiskRequest) (P : List OpenRiskPosition)
    (C : List CorrelationObservation) :
    OfficialRiskRequest :=
  { r with openPositions := P, correlations := C }

/-- every symbol is open in the other portfolio with at least the same amounts, and the correlations
reported for these symbols are the same -/
structure Covers (r : OfficialRiskRequest) (P : List OpenRiskPosition)
    (C : List CorrelationObservation) : Prop where
  positions : ∀ p ∈ r.openPositions, ∃ p' ∈ P, p'.symbol = p.symbol ∧
    p.notional ≤ p'.notional ∧ p.lossAtStop ≤ p'.lossAtStop ∧ p.margin ≤ p'.margin
  correlations : ∀ c : CorrelationObservation, c.otherSymbol ∈ r.openPositions.map (·.symbol) →
    (c ∈ C ↔ c ∈ r.correlations)

section Larger

variable {P : List OpenRiskPosition} {C : List CorrelationObservation}

theorem Covers.otherSymbols_subset (hc : Covers r P C) {symbol : String}
    (h : symbol ∈ otherSymbols r) : symbol ∈ otherSymbols (withPortfolio r P C) := by
  simp only [otherSymbols, List.mem_filter, List.mem_map] at h ⊢
  obtain ⟨⟨p, hp, rfl⟩, hne⟩ := h
  obtain ⟨p', hp', hsymbol, -⟩ := hc.positions p hp
  exact ⟨⟨p', hp', hsymbol⟩, hne⟩

theorem Covers.observation_eq (hc : Covers r P C) (h : r.Valid) (h' : (withPortfolio r P C).Valid)
    {symbol : String} (hs : symbol ∈ otherSymbols r) :
    observation? (withPortfolio r P C) symbol = observation? r symbol := by
  have hopen : symbol ∈ r.openPositions.map (·.symbol) := (List.mem_filter.mp hs).1
  refine Option.ext fun c => ?_
  have hl := find?_key_eq_some (k := symbol) (a := c) h'.correlations_nodup
  have hr := find?_key_eq_some (k := symbol) (a := c) h.correlations_nodup
  refine hl.trans (Iff.trans ?_ hr.symm)
  constructor
  · rintro ⟨hmem, rfl⟩
    exact ⟨(hc.correlations c hopen).mp hmem, rfl⟩
  · rintro ⟨hmem, rfl⟩
    exact ⟨(hc.correlations c hopen).mpr hmem, rfl⟩

theorem Covers.uncorrelated (hc : Covers r P C) (h : r.Valid) (h' : (withPortfolio r P C).Valid)
    (hu : Uncorrelated A policy (withPortfolio r P C)) : Uncorrelated A policy r := by
  intro symbol hs
  rw [← hc.observation_eq h h' hs]
  exact hu symbol (hc.otherSymbols_subset hs)

theorem Covers.correlationGate_le (hc : Covers r P C) (h : r.Valid)
    (h' : (withPortfolio r P C).Valid) (hu : Uncorrelated A policy (withPortfolio r P C)) :
    (correlationGate A policy (withPortfolio r P C)).1 ≤ (correlationGate A policy r).1 := by
  obtain ⟨hone, hpermits⟩ := (le_correlationGate hu).mp le_rfl
  refine (le_correlationGate (hc.uncorrelated h h' hu)).mpr ⟨hone, fun v hv => hpermits v ?_⟩
  obtain ⟨symbol, hs, c, hobs, w, hw, rfl⟩ := mem_correlationValues.mp hv
  exact mem_correlationValues.mpr
    ⟨symbol, hc.otherSymbols_subset hs, c, by rwa [hc.observation_eq h h' hs], w, hw, rfl⟩

theorem remaining_anti {limit existing existing' : ℚ} (h : existing ≤ existing') :
    remaining .exact limit existing' ≤ remaining .exact limit existing :=
  max_le_max (sub_le_sub_left h limit) le_rfl

theorem Covers.quantityFor_le (hc : Covers r P C) (h : r.Valid) (hstop : stopIsValid r)
    {budget budget' : ℚ} (hbudget : budget' ≤ budget) :
    quantityFor .exact policy (withPortfolio r P C) budget' ≤
    quantityFor .exact policy r budget := by
  have hdistance := stopDistance_pos hstop
  have hcost := marginCostPerQuantity_pos h
  have hloss : existingLoss .exact r ≤ existingLoss .exact (withPortfolio r P C) := by
    simp only [existingLoss, Arith.exact_sum]
    refine sum_le_of_covered _ h.positions_nodup (fun p _ => p.lossAtStop_nonneg) fun p hp => ?_
    obtain ⟨p', hp', hsymbol, -, hle, -⟩ := hc.positions p hp
    exact ⟨p', hp', hsymbol, hle⟩
  have hnotional : existingNotional .exact r ≤ existingNotional .exact (withPortfolio r P C) := by
    simp only [existingNotional, Arith.exact_sum]
    refine sum_le_of_covered _ h.positions_nodup (fun p _ => p.notional_nonneg) fun p hp => ?_
    obtain ⟨p', hp', hsymbol, hle, -, -⟩ := hc.positions p hp
    exact ⟨p', hp', hsymbol, hle⟩
  have hmargin : existingMargin .exact r ≤ existingMargin .exact (withPortfolio r P C) := by
    simp only [existingMargin, Arith.exact_sum]
    refine sum_le_of_covered _ h.positions_nodup (fun p _ => p.margin_nonneg) fun p hp => ?_
    obtain ⟨p', hp', hsymbol, -, -, hle⟩ := hc.positions p hp
    exact ⟨p', hp', hsymbol, hle⟩
  have hcaps :=
    le_quantityFor.mp (le_refl (quantityFor .exact policy (withPortfolio r P C) budget'))
  refine le_quantityFor.mpr ?_
  simp only [quantityCaps, Arith.exact_div, List.forall_mem_cons, List.not_mem_nil, false_implies,
    implies_true, and_true] at hcaps ⊢
  obtain ⟨h1, h2, h3, h4⟩ := hcaps
  exact ⟨h1.trans (div_le_div_of_nonneg_right hbudget hdistance.le),
    h2.trans (div_le_div_of_nonneg_right (remaining_anti hloss) hdistance.le),
    h3.trans (div_le_div_of_nonneg_right (remaining_anti hnotional) h.price_pos.le),
    h4.trans (div_le_div_of_nonneg_right (remaining_anti hmargin) hcost.le)⟩

theorem Covers.quantity_le (hc : Covers r P C) (h : r.Valid) (h' : (withPortfolio r P C).Valid) :
    (decision .exact policy (withPortfolio r P C)).quantity ≤
    (decision .exact policy r).quantity := by
  by_cases he' : Entered .exact policy (withPortfolio r P C)
  · -- only the correlation gate reads the portfolio before the sizing
    have he : Entered .exact policy r :=
      ⟨he'.kelly, he'.stop, he'.drawdown, hc.uncorrelated h h' he'.uncorrelated⟩
    rw [decision_entered he, decision_entered he']
    refine hc.quantityFor_le h he.stop ?_
    have hbase : 0 ≤ r.capital * riskFraction .exact policy r *
        drawdownMultiplier policy (r.drawdown.drawdownFraction .exact) :=
      mul_nonneg (mul_nonneg h.capital_pos.le (le_min he.kelly.le policy.tradeLoss_pos.le))
        (drawdownMultiplier_pos policy _).le
    exact mul_le_mul_of_nonneg_left (hc.correlationGate_le h h' he'.uncorrelated) hbase
  · obtain ⟨half, completed, multiplier, -, -, -, heq⟩ := decision_stopped he'
    rw [heq]
    exact quantity_nonneg .exact policy h

theorem Covers.sorted (hc : Covers r P C) :
    Covers r.sorted (P.insertionSort (fun a b => a.symbol ≤ b.symbol))
      (C.insertionSort (fun a b => a.otherSymbol ≤ b.otherSymbol)) where
  positions p hp := by
    obtain ⟨p', hp', hle⟩ := hc.positions p (OfficialRiskRequest.mem_sorted_positions.mp hp)
    exact ⟨p', (List.mem_insertionSort _).mpr hp', hle⟩
  correlations c hopen := by
    rw [List.mem_insertionSort, OfficialRiskRequest.mem_sorted_correlations]
    refine hc.correlations c ?_
    exact ((List.perm_insertionSort _ r.openPositions).map (·.symbol)).mem_iff.mp hopen

/-- **what is open only takes capacity away, whatever the order it is reported in** -/
theorem sizing_antitone (policy : OfficialRiskPolicy) {s s' : OfficialRiskRequest}
    (hs : r.postInit = .ok s) (hs' : (withPortfolio r P C).postInit = .ok s') (hc : Covers r P C) :
    (∃ d d', evaluate .exact policy s = .ok d ∧ evaluate .exact policy s' = .ok d' ∧
      d'.quantity ≤ d.quantity ∧ (d.approved = false → d.quantity = 0) ∧
      (d'.approved = false → d'.quantity = 0)) ∧
    ∀ P₂ C₂, r.openPositions.Perm P₂ → r.correlations.Perm C₂ →
      ((withPortfolio r P₂ C₂).postInit >>= evaluate .exact policy) =
      (r.postInit >>= evaluate .exact policy) := by
  obtain ⟨h, rfl⟩ := OfficialRiskRequest.postInit_eq_ok.mp hs
  obtain ⟨h', rfl⟩ := OfficialRiskRequest.postInit_eq_ok.mp hs'
  constructor
  · exact ⟨_, _, evaluate_signed .exact h.sorted, evaluate_signed .exact h'.sorted,
      hc.sorted.quantity_le h.sorted h'.sorted, rejected_quantity h.sorted,
      rejected_quantity h'.sorted⟩
  · intro P₂ C₂ hP hC
    have hsame : (withPortfolio r P₂ C₂).sorted = r.sorted := by
      simp only [withPortfolio, OfficialRiskRequest.sorted,
        insertionSort_eq_of_perm hP h.positions_nodup,
        insertionSort_eq_of_perm hC h.correlations_nodup]
    have hok : (withPortfolio r P₂ C₂).postInit = .ok r.sorted :=
      OfficialRiskRequest.postInit_eq_ok.mpr ⟨h.perm hP hC, hsame.symm⟩
    rw [hs, hok]

end Larger

namespace Demo

def position (symbol : String) (h : symbol ≠ "" ∧ symbol = upper symbol) (notional : ℚ)
    (hn : 0 ≤ notional) :
    OpenRiskPosition :=
  ⟨symbol, notional, notional / 20, notional, h.1, h.2, hn, div_nonneg hn (by norm_num), hn⟩

def ether (notional : ℚ) (hn : 0 ≤ notional) : OpenRiskPosition :=
  position "ETHUSDT" (by decide) notional hn
def solana : OpenRiskPosition := position "SOLUSDT" (by decide) 100 (by norm_num)

def etherObservation : CorrelationObservation :=
  ⟨"ETHUSDT", 60, some (1 / 10), by decide, by decide, by norm_num⟩
def solanaObservation : CorrelationObservation :=
  ⟨"SOLUSDT", 60, some (1 / 2), by decide, by decide, by norm_num⟩

def request : OfficialRiskRequest where
  symbol := "BTCUSDT"
  direction := .long
  capital := 1000
  executablePrice := 100
  stopPrice := 90
  pWin := 6 / 10
  expectedGainFraction := 2 / 10
  expectedLossFraction := 1 / 10
  entryFeeFraction := 4 / 10000
  leverage := 1
  drawdown := Demo.atPeak
  openPositions := [ether 100 (by norm_num)]
  correlations := [etherObservation]
  evaluatedAt := 0

theorem request_valid : request.Valid where
  symbol_upper := by decide
  direction_ne := by decide
  capital_pos := by norm_num [request]
  price_pos := by norm_num [request]
  stop_pos := by norm_num [request]
  gain_pos := by norm_num [request]
  loss_pos := by norm_num [request]
  pWin_range := by norm_num [request]
  fee_range := by norm_num [request]
  leverage_ne := by decide
  positions_nodup := by decide
  correlations_nodup := by decide
  correlations_open := by decide

def larger : List OpenRiskPosition := [solana, ether 200 (by norm_num)]
def reported : List CorrelationObservation := [solanaObservation, etherObservation]

theorem larger_valid : (withPortfolio request larger reported).Valid :=
  { request_valid with
    positions_nodup := by decide
    correlations_nodup := by decide
    correlations_open := by decide }

theorem larger_covers : Covers request larger reported where
  positions := by
    simp only [request, List.forall_mem_cons, List.not_mem_nil, false_implies,
      implies_true, and_true]
    refine ⟨ether 200 (by norm_num), List.mem_cons_of_mem _ List.mem_cons_self, rfl, ?_⟩
    norm_num [ether, position]
  correlations c hopen := by
    have hsymbol : c.otherSymbol = "ETHUSDT" := by simpa [request, ether, position] using hopen
    simp only [reported, request, List.mem_cons, List.not_mem_nil, or_false, or_iff_right_iff_imp]
    rintro rfl
    simp [solanaObservation] at hsymbol

theorem larger_sized : ∃ d d', evaluate .exact .conservative request.sorted = .ok d ∧
    evaluate .exact .conservative (withPortfolio request larger reported).sorted = .ok d' ∧
    d'.quantity ≤ d.quantity :=
  have ⟨⟨d, d', h, h', hle, _⟩, _⟩ := sizing_antitone .conservative
    (OfficialRiskRequest.postInit_eq_ok.mpr ⟨request_valid, rfl⟩)
    (OfficialRiskRequest.postInit_eq_ok.mpr ⟨larger_valid, rfl⟩) larger_covers
  ⟨d, d', h, h', hle⟩

end Demo

end OfficialRiskEngine

end Maais
