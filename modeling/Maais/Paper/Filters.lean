import Maais.Domain

/-!
# Exchange filters

* `ExchangeFilterSnapshot`  the pinned rules of a symbol, valid by construction;
* `prepare`  quantizes an order and checks it against the rules;
* `admits`  the rules let an order of exactly this quantity through at this price.
-/

namespace Maais
open Lib

inductive Rounding
  | floor | ceiling

def multiple (A : Arith) (value increment : ℚ) (rounding : Rounding) : ℚ :=
  let units : ℤ :=
    match rounding with
    | .floor => ⌊A.div value increment⌋
    | .ceiling => ⌈A.div value increment⌉
  A.mul units increment

structure PreparedOrder where
  symbol : String
  side : PaperOrderSide
  orderType : PaperOrderType
  requestedQuantity : ℚ
  approvedQuantity : ℚ
  quantity : ℚ
  price : Option ℚ
  notional : ℚ
deriving DecidableEq

@[ext] structure ExchangeFilterSnapshot where
  symbol : String
  status : String
  priceTick : ℚ
  quantityStep : ℚ
  minimumQuantity : ℚ
  maximumQuantity : ℚ
  minimumNotional : ℚ
  supportedOrderTypes : List PaperOrderType
  capturedAt : Time
  symbol_ne : symbol ≠ ""
  priceTick_pos : 0 < priceTick
  quantityStep_pos : 0 < quantityStep
  minimumQuantity_pos : 0 < minimumQuantity
  maximumQuantity_pos : 0 < maximumQuantity
  minimumNotional_pos : 0 < minimumNotional
  minimum_le_maximum : minimumQuantity ≤ maximumQuantity
  supportedOrderTypes_ne : supportedOrderTypes ≠ []

instance : DecidableEq ExchangeFilterSnapshot :=
  fun _ _ => decidable_of_iff _ ExchangeFilterSnapshot.ext_iff.symm

namespace ExchangeFilterSnapshot

variable (A : Arith) (filters : ExchangeFilterSnapshot)

def quantizeQuantity (value : ℚ) : Py ℚ := do
  requirePositiveDecimal value "requested_quantity"
  return multiple A value filters.quantityStep .floor

def quantizePrice (side : PaperOrderSide) (value : ℚ) : Py ℚ := do
  requirePositiveDecimal value "price"
  return multiple A value filters.priceTick (match side with | .buy => .floor | .sell => .ceiling)

/-- the price kept on the order and the notional: a limit order is priced on its own tick -/
def priceAndNotional (side : PaperOrderSide) (orderType : PaperOrderType) (quantity : ℚ)
    (price : Option ℚ) : Py (Option ℚ × ℚ) :=
  match orderType with
  | .limit => do
    let price ← orRaise price (.filterRejection "limit_price_required")
    let quantized ← quantizePrice A filters side price
    return (some quantized, A.mul quantity quantized)
  | _ => do
    let price ← orRaise price (.filterRejection "validation_price_required")
    requirePositiveDecimal price "price"
    return (none, A.mul quantity price)

def prepare (side : PaperOrderSide) (orderType : PaperOrderType)
    (requestedQuantity approvedQuantity : ℚ) (price : Option ℚ) (approvedNotional : ℚ) :
    Py PreparedOrder := do
  raiseIf (filters.status ≠ "TRADING") (.filterRejection "symbol_not_trading")
  raiseIf (orderType ∉ filters.supportedOrderTypes) (.filterRejection "unsupported_order_type")
  requirePositiveDecimal approvedQuantity "approved_quantity"
  requirePositiveDecimal approvedNotional "approved_notional"
  raiseIf (requestedQuantity > approvedQuantity) (.filterRejection "approved_quantity_exceeded")
  let quantity ← quantizeQuantity A filters requestedQuantity
  raiseIf (quantity < filters.minimumQuantity) (.filterRejection "quantity_below_minimum")
  raiseIf (quantity > filters.maximumQuantity) (.filterRejection "quantity_above_maximum")
  let (quantizedPrice, notional) ← priceAndNotional A filters side orderType quantity price
  raiseIf (notional < filters.minimumNotional) (.filterRejection "notional_below_minimum")
  raiseIf (notional > approvedNotional) (.filterRejection "approved_notional_exceeded")
  return { symbol := filters.symbol, side, orderType, requestedQuantity, approvedQuantity, quantity,
           price := quantizedPrice, notional }

def admits (side : PaperOrderSide) (quantity price : ℚ) : Prop :=
  ∃ prepared, prepare A filters side .market quantity quantity (some price) (A.mul quantity price) =
    .ok prepared ∧ prepared.quantity = quantity

variable {A filters} {side : PaperOrderSide}

theorem prepare_quantity_pos {orderType : PaperOrderType} {rq aq : ℚ}
    {price : Option ℚ} {an : ℚ} {p : PreparedOrder}
    (h : prepare A filters side orderType rq aq price an = .ok p) : 0 < p.quantity := by
  simp only [prepare, bind_eq_ok, raiseIf_eq_ok, pure_ok_iff] at h
  obtain ⟨_, _, _, _, _, _, _, _, _, _, quantity, _, _, hmin, _, _, _, _, _, _, _, _, rfl⟩ := h
  exact lt_of_lt_of_le filters.minimumQuantity_pos (not_lt.mp hmin)

theorem prepare_rejects {q n price : ℚ} (hq : 0 < q) (hn : 0 < n) (hprice : 0 < price) :
    RaisesOnly (fun e => ∃ reason, e = PyError.filterRejection reason)
      (prepare A filters side .market q q (some price) n) := by
  have hpriced (quantity : ℚ) : priceAndNotional A filters side .market quantity (some price) =
      .ok (none, A.mul quantity price) := by
    show (requirePositiveDecimal price "price" >>= fun _ => _) = _
    rw [requirePositiveDecimal_eq_ok (u := ()).mpr hprice]
    rfl
  rw [prepare]
  refine .guard ⟨_, rfl⟩ (.guard ⟨_, rfl⟩ ?_)
  rw [requirePositiveDecimal_eq_ok (u := ()).mpr hq, ok_bind,
    requirePositiveDecimal_eq_ok (u := ()).mpr hn, ok_bind]
  refine .guard ⟨_, rfl⟩ ?_
  rw [quantizeQuantity, requirePositiveDecimal_eq_ok (u := ()).mpr hq]
  refine .guard ⟨_, rfl⟩ (.guard ⟨_, rfl⟩ ?_)
  rw [hpriced]
  exact .guard ⟨_, rfl⟩ (.guard ⟨_, rfl⟩ .ok)

end ExchangeFilterSnapshot

end Maais
