import Maais.Lib.Digits
import Maais.Paper.Closable

/-!
# Quantizing with the default decimal context

A quantity is brought down to its step by a division, a whole part and a multiplication, and the
division and the multiplication are rounded to 28 digits.

* `Promise`  what a prepared order is to keep;
* `WholeSteps`  rounding the quotient leaves its whole part alone, and so many steps have at most 28
  digits;
* `prepare_kept`  the promises that are checked are kept in any arithmetic;
* `promised_iff_wholeSteps`  the others are kept for whole steps, below `10 ^ 27` steps only for
  these.
-/

namespace Maais
open Lib

namespace ExchangeFilterSnapshot

variable {A : Arith} {filters : ExchangeFilterSnapshot} {side : PaperOrderSide}
  {orderType : PaperOrderType} {rq aq an : ℚ} {price : Option ℚ} {p : PreparedOrder}

structure Promise (filters : ExchangeFilterSnapshot) (rq aq an : ℚ) (p : PreparedOrder) : Prop where
  stepped : filters.Stepped p.quantity
  le_requested : p.quantity ≤ rq
  le_approved : p.quantity ≤ aq
  minimum_le : filters.minimumQuantity ≤ p.quantity
  le_maximum : p.quantity ≤ filters.maximumQuantity
  minimumNotional_le : filters.minimumNotional ≤ p.notional
  le_approvedNotional : p.notional ≤ an

theorem prepare_kept (h : prepare A filters side orderType rq aq price an = .ok p) :
    0 < rq ∧ rq ≤ aq ∧ p.quantity = multiple A rq filters.quantityStep .floor ∧
      filters.minimumQuantity ≤ p.quantity ∧ p.quantity ≤ filters.maximumQuantity ∧
      filters.minimumNotional ≤ p.notional ∧ p.notional ≤ an := by
  simp only [prepare, quantizeQuantity, bind_eq_ok, raiseIf_eq_ok, requirePositiveDecimal_eq_ok,
    pure_eq_ok, Except.ok.injEq, not_lt] at h
  obtain ⟨_, _, _, _, _, _, _, _, _, hle, quantity, ⟨_, hpos, rfl⟩, _, hmin, _, hmax, out, _, _,
    hlow, _, hhigh, rfl⟩ := h
  exact ⟨hpos, hle, rfl, hmin, hmax, hlow, hhigh⟩

/-- the promises that are not checked: a whole number of steps, and not more than was asked for -/
theorem promise_iff (h : prepare A filters side orderType rq aq price an = .ok p) :
    filters.Promise rq aq an p ↔ filters.Stepped p.quantity ∧ p.quantity ≤ rq := by
  obtain ⟨_, hle, _, hmin, hmax, hlow, hhigh⟩ := prepare_kept h
  constructor
  · exact fun hp => ⟨hp.stepped, hp.le_requested⟩
  · exact fun ⟨hstep, hrq⟩ => ⟨hstep, hrq, hrq.trans hle, hmin, hmax, hlow, hhigh⟩

structure WholeSteps (filters : ExchangeFilterSnapshot) (quantity : ℚ) : Prop where
  whole : ⌊toDigits 28 (quantity / filters.quantityStep)⌋ = ⌊quantity / filters.quantityStep⌋
  fits : HasDigits 28 (⌊quantity / filters.quantityStep⌋ * filters.quantityStep)

theorem multiple_eq (quantity : ℚ) : multiple decimal28 quantity filters.quantityStep .floor =
    toDigits 28 (⌊toDigits 28 (quantity / filters.quantityStep)⌋ * filters.quantityStep) := rfl

theorem WholeSteps.multiple (h : filters.WholeSteps rq) :
    multiple decimal28 rq filters.quantityStep .floor = ⌊rq / filters.quantityStep⌋ *
    filters.quantityStep := by
  rw [multiple_eq, h.whole, toDigits_of_hasDigits h.fits]

theorem floor_toDigits_cases {x : ℚ} (h0 : 0 ≤ x) (h : x < 10 ^ 27) :
    ⌊toDigits 28 x⌋ = ⌊x⌋ ∨ ⌊toDigits 28 x⌋ = ⌊x⌋ + 1 := by
  have hfixed : ∀ k : ℤ, 0 ≤ k → k ≤ 10 ^ 27 → toDigits 28 (k : ℚ) = k := by
    intro k hk hk'
    refine toDigits_of_hasDigits ⟨k, 0, ?_, by norm_num⟩
    rw [abs_of_nonneg hk]
    exact lt_of_le_of_lt hk' (by norm_num)
  have hk : 0 ≤ ⌊x⌋ := Int.floor_nonneg.mpr h0
  have hk' : ⌊x⌋ < 10 ^ 27 := Int.floor_lt.mpr (by push_cast; exact h)
  have hlow : ((⌊x⌋ : ℤ) : ℚ) ≤ toDigits 28 x := by
    rw [← hfixed _ hk hk'.le]
    exact toDigits_mono (by norm_num) (Int.floor_le x)
  have hhigh : toDigits 28 x ≤ ((⌊x⌋ + 1 : ℤ) : ℚ) := by
    rw [← hfixed (⌊x⌋ + 1) (by omega) (by omega)]
    refine toDigits_mono (by norm_num) ?_
    push_cast
    exact (Int.lt_floor_add_one x).le
  have hfloor : ⌊x⌋ ≤ ⌊toDigits 28 x⌋ := Int.le_floor.mpr hlow
  have hfloor' : ⌊toDigits 28 x⌋ ≤ ⌊x⌋ + 1 := by
    have := (Int.floor_le (toDigits 28 x)).trans hhigh
    exact_mod_cast this
  omega

theorem eq_of_toDigits_steps {u m : ℤ} {step : ℚ} (hstep : 0 < step) (hu : 0 < u)
    (hu' : u ≤ 10 ^ 27) (h : toDigits 28 (u * step) = m * step) : m = u := by
  have hy : (0 : ℚ) < u * step := mul_pos (by exact_mod_cast hu) hstep
  have herr := toDigits_error 28 hy.ne'
  have hscale := lastUnit_mul_pow (show 0 < 28 by norm_num) (u * step)
  have hlog := zpow_log_le hy
  rw [abs_of_pos hy] at hscale
  rw [h, ← sub_mul, abs_mul, abs_of_pos hstep] at herr
  have hone : |((m : ℚ) - u)| < 1 := by
    have hu'' : (u : ℚ) ≤ 10 ^ 27 := by exact_mod_cast hu'
    have hbound : lastUnit 28 (u * step) ≤ step := by
      have hprod : lastUnit 28 (u * step) * 10 ^ 27 ≤ step * 10 ^ 27 := by
        calc lastUnit 28 (u * step) * 10 ^ 27 ≤ u * step := hscale ▸ hlog
          _ ≤ 10 ^ 27 * step := mul_le_mul_of_nonneg_right hu'' hstep.le
          _ = step * 10 ^ 27 := mul_comm _ _
      exact le_of_mul_le_mul_right hprod (by norm_num)
    by_contra hge
    have : step ≤ |((m : ℚ) - u)| * step := le_mul_of_one_le_left hstep.le (not_lt.mp hge)
    linarith
  have hint : |m - u| < 1 := by exact_mod_cast hone
  have := Int.abs_lt_one_iff.mp hint
  omega

theorem promised_iff_wholeSteps (filters : ExchangeFilterSnapshot) (side : PaperOrderSide)
    (orderType : PaperOrderType) (rq aq an : ℚ) (price : Option ℚ) (p : PreparedOrder)
    (h : prepare decimal28 filters side orderType rq aq price an = .ok p) :
    (filters.WholeSteps rq → filters.Promise rq aq an p) ∧
      (rq < 10 ^ 27 * filters.quantityStep →
      (filters.Promise rq aq an p ↔ filters.WholeSteps rq)) := by
  obtain ⟨hpos, _, hq, hmin, _⟩ := prepare_kept h
  have hstep := filters.quantityStep_pos
  have henough : filters.WholeSteps rq → filters.Promise rq aq an p := by
    intro hw
    rw [promise_iff h, hq, hw.multiple]
    exact ⟨⟨_, rfl⟩, (le_div_iff₀ hstep).mp (Int.floor_le _)⟩
  refine ⟨henough, fun hsize => ⟨fun hp => ?_, henough⟩⟩
  obtain ⟨⟨m, hm⟩, hle⟩ := (promise_iff h).mp hp
  set x := rq / filters.quantityStep with hx
  have hx0 : 0 ≤ x := (div_pos hpos hstep).le
  have hx1 : x < 10 ^ 27 := (div_lt_iff₀ hstep).mpr hsize
  set u := ⌊toDigits 28 x⌋ with hu
  have hcases := floor_toDigits_cases hx0 hx1
  rw [← hu] at hcases
  have hk : ⌊x⌋ < 10 ^ 27 := Int.floor_lt.mpr (by push_cast; exact hx1)
  have hk0 : 0 ≤ ⌊x⌋ := Int.floor_nonneg.mpr hx0
  have hprod : toDigits 28 (u * filters.quantityStep) = m * filters.quantityStep := by
    rw [← hm, hq, multiple_eq]
  -- at least one step was found, since the order is not empty
  have hupos : 0 < u := by
    rcases (show 0 ≤ u by omega).lt_or_eq with hlt | heq
    · exact hlt
    · rw [← heq, Int.cast_zero, zero_mul, toDigits_zero] at hprod
      have := filters.minimumQuantity_pos
      linarith
  obtain rfl := eq_of_toDigits_steps hstep hupos (by omega) hprod
  have hwhole : u = ⌊x⌋ := by
    refine le_antisymm (Int.le_floor.mpr ((le_div_iff₀ hstep).mpr ?_)) (by omega)
    rw [← hm]
    exact hle
  exact ⟨hwhole, by rw [← hwhole, ← hprod]; exact hasDigits_toDigits (by norm_num) _⟩

namespace Demo

theorem btc_ne : "BTCUSDT" ≠ "" := by decide
theorem market_ne : [PaperOrderType.market] ≠ [] := by decide
theorem pos5 : (0 : ℚ) < 5 := by decide
theorem pos1000 : (0 : ℚ) < 1000 := by decide
theorem tenth_pos : (0 : ℚ) < 1 / 10 := by decide +kernel

def foursFilters : ExchangeFilterSnapshot :=
  { symbol := "BTCUSDT", status := "TRADING", priceTick := 1 / 10, quantityStep := 4 / 1000,
    minimumQuantity := 4 / 1000, maximumQuantity := 1000, minimumNotional := 5,
    supportedOrderTypes := [.market], capturedAt := 0, symbol_ne := btc_ne,
    priceTick_pos := tenth_pos, quantityStep_pos := by norm_num, minimumQuantity_pos := by norm_num,
    maximumQuantity_pos := pos1000, minimumNotional_pos := pos5, minimum_le_maximum := by norm_num,
    supportedOrderTypes_ne := market_ne }

def shortOfTwo : ℚ := 7999999999999999999999999999 / 10 ^ 30

def twoSteps (rq : ℚ) : PreparedOrder :=
  ⟨"BTCUSDT", .buy, .market, rq, rq, 8 / 1000, none, 800⟩

/-- **the order is larger than what was requested**: the quotient is rounded up to two steps -/
theorem shortOfTwo_exceeded :
    prepare decimal28 foursFilters .buy .market shortOfTwo shortOfTwo (some 100000) 1000 =
      .ok (twoSteps shortOfTwo) ∧ ¬ foursFilters.Promise shortOfTwo shortOfTwo 1000
      (twoSteps shortOfTwo) := by
  refine ⟨eq_ok_of_toOption (by decide +kernel), fun hp => ?_⟩
  exact absurd hp.le_requested (by decide +kernel)

theorem nineThousandths_promised :
    prepare decimal28 foursFilters .buy .market (9 / 1000) (9 / 1000)
      (some 100000) 1000 = .ok (twoSteps (9 / 1000)) ∧ foursFilters.WholeSteps (9 / 1000) ∧
      foursFilters.Promise (9 / 1000) (9 / 1000) 1000 (twoSteps (9 / 1000)) := by
  have hprepared :
      prepare decimal28 foursFilters .buy .market (9 / 1000) (9 / 1000) (some 100000) 1000 =
      .ok (twoSteps (9 / 1000)) := eq_ok_of_toOption (by decide +kernel)
  have hwhole : foursFilters.WholeSteps (9 / 1000) :=
    ⟨by decide +kernel, 8, -3, by decide, by decide +kernel⟩
  exact ⟨hprepared, hwhole,
    (promised_iff_wholeSteps foursFilters .buy .market (9 / 1000) (9 / 1000) 1000 (some 100000)
    (twoSteps (9 / 1000)) hprepared).1 hwhole⟩

end Demo

end ExchangeFilterSnapshot

end Maais
