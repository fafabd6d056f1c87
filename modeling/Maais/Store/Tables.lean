import Maais.Paper.Orders
import Mathlib.Data.List.Sort
import Mathlib.Data.List.MinMax
import Mathlib.Data.Prod.Lex

/-!
# The execution tables

The rows of one experiment. A money column keeps `A.store x` of a value `x`; a row that breaks a
`CHECK` of its table is refused with the name of the table.
-/

namespace Maais
open Lib

def officialMaintenanceMarginRate : ℚ := 5 / 1000

/-! ## rows -/

inductive PositionStatus
  | open | closed
deriving DecidableEq

structure PositionRow where
  id : UUID
  experimentId : UUID
  symbol : String
  side : Direction
  status : PositionStatus
  quantity : ℚ
  averageEntry : ℚ
  markPrice : ℚ
  initialMargin : ℚ
  maintenanceMargin : ℚ
  leverage : Nat
  unrealizedPnl : ℚ
  realizedPnl : ℚ
  fees : ℚ
  funding : ℚ
  openedAt : Option Time
  closedAt : Option Time
  version : Nat
deriving DecidableEq

structure LotRow where
  positionId : UUID
  lot : PositionLot
deriving DecidableEq

structure ExecutionContent where
  order : PaperOrder
  exchangeFilters : ExchangeFilterSnapshot
  fills : List ExecutionFillRecord
deriving DecidableEq

structure OrderRow where
  id : UUID
  proposalId : UUID
  experimentId : UUID
  clientOrderId : String
  commandHash : CommandContent
  contentHash : ExecutionContent
  symbol : String
  side : PaperOrderSide
  positionEffect : PositionEffect
  orderType : PaperOrderType
  quantity : ℚ
  filledQuantity : ℚ
  limitPrice : Option ℚ
  reduceOnly : Bool
  createdAt : Time
  expiresAt : Time
  status : PaperOrderStatus
  exchangeFilters : ExchangeFilterSnapshot
  version : Nat
deriving DecidableEq

structure SnapshotRow where
  /-- the identity derived from a source event; a row without one has a random identity -/
  sourceId : Option UUID
  accountVersion : Nat
  snapshotAt : Time
  snapshot : AccountSnapshot
  riskAtStop : ℚ
deriving DecidableEq

structure ExecutionTables where
  orders : Dict UUID OrderRow
  /-- `order_events`, with the order each belongs to -/
  orderEvents : List (UUID × OrderTransition)
  fills : Dict UUID ExecutionFillRecord
  positions : Dict UUID PositionRow
  lots : Dict UUID LotRow
  exitPlans : Dict UUID ExitPlan
  snapshots : List SnapshotRow
  fundings : Dict UUID FundingRecord
deriving DecidableEq

def ExecutionTables.empty : ExecutionTables :=
  ⟨.empty, [], .empty, .empty, .empty, .empty, [], .empty⟩

/-! ## stored values -/

section
variable (A : Arith)

/-- `_position_values` -/
def positionRow (p : PositionState) (leverage : Nat) : PositionRow :=
  { id := p.positionId
    experimentId := p.experimentId
    symbol := p.symbol
    side := p.side
    status := if p.isFlat A then .closed else .open
    quantity := A.store (p.quantity A)
    averageEntry := A.store p.averageEntry
    markPrice := A.store p.markPrice
    initialMargin := A.store (A.div (p.grossNotional A) leverage)
    maintenanceMargin := A.store (A.mul (p.grossNotional A) officialMaintenanceMarginRate)
    leverage := leverage
    unrealizedPnl := A.store (p.unrealizedPnl A)
    realizedPnl := A.store p.realizedPnl
    fees := A.store p.fees
    funding := A.store p.funding
    openedAt := p.openedAt
    closedAt := p.closedAt
    version := p.version }

def storedLot (lot : PositionLot) : PositionLot :=
  { lot with
    entryPrice := A.store lot.entryPrice
    originalQuantity := A.store lot.originalQuantity
    remainingQuantity := A.store lot.remainingQuantity
    openingFee := A.store lot.openingFee
    remainingOpeningFee := A.store lot.remainingOpeningFee
    funding := A.store lot.funding }

def LotRow.overwrite (row : LotRow) (lot : PositionLot) : LotRow :=
  { row with
    lot := { row.lot with
      remainingQuantity := A.store lot.remainingQuantity
      remainingOpeningFee := A.store lot.remainingOpeningFee
      funding := A.store lot.funding } }

/-- `_exit_values` -/
def storedPlan (plan : ExitPlan) : ExitPlan :=
  { plan with
    quantity := A.store plan.quantity
    averageEntry := A.store plan.averageEntry
    expectedLossFraction := A.store plan.expectedLossFraction
    expectedGainFraction := A.store plan.expectedGainFraction
    stopPrice := A.store plan.stopPrice
    targetPrice := A.store plan.targetPrice
    triggerPrice := plan.triggerPrice.map A.store
    triggerExecutablePrice := plan.triggerExecutablePrice.map A.store }

def storedSnapshot (s : AccountSnapshot) : AccountSnapshot :=
  { cashBalance := A.store s.cashBalance, equity := A.store s.equity,
    usedMargin := A.store s.usedMargin, freeMargin := A.store s.freeMargin,
    grossNotional := A.store s.grossNotional, unrealizedPnl := A.store s.unrealizedPnl,
    realizedPnl := A.store s.realizedPnl, fees := A.store s.fees, funding := A.store s.funding,
    peakEquity := A.store s.peakEquity, drawdown := A.store s.drawdown }

/-- `_execution_hash` -/
def executionContent (r : PaperExecutionRecord) : ExecutionContent :=
  ⟨r.order, r.exchangeFilters, r.fills⟩

/-- `_order_values` -/
def orderRow (r : PaperExecutionRecord) : OrderRow :=
  { id := r.order.orderId
    proposalId := r.order.proposalId
    experimentId := r.order.experimentId
    clientOrderId := r.order.clientOrderId
    commandHash := r.order.commandHash
    contentHash := executionContent r
    symbol := r.order.symbol
    side := r.order.side
    positionEffect := r.order.positionEffect
    orderType := r.order.orderType
    quantity := A.store r.order.quantity
    filledQuantity := A.store r.order.filledQuantity
    limitPrice := r.order.limitPrice.map A.store
    reduceOnly := r.order.reduceOnly
    createdAt := r.order.createdAt
    expiresAt := r.order.expiresAt
    status := r.order.status
    exchangeFilters := r.exchangeFilters
    version := r.order.version }

/-- `_fill_values` -/
def fillRow (f : ExecutionFillRecord) : ExecutionFillRecord :=
  { f with
    quantity := A.store f.quantity
    price := A.store f.price
    fee := A.store f.fee
    spreadCost := A.store f.spreadCost
    depthSlippage := A.store f.depthSlippage
    latencySlippage := A.store f.latencySlippage
    totalSlippage := A.store f.totalSlippage }

def fundingRow (f : FundingRecord) : FundingRecord :=
  { f with
    rate := A.store f.rate
    markPrice := A.store f.markPrice
    notional := A.store f.notional
    amount := A.store f.amount }

end

/-! ## table checks -/

def PositionRow.Check (r : PositionRow) : Prop :=
  0 ≤ r.quantity ∧ (1 ≤ r.leverage ∧ r.leverage ≤ 5) ∧
    (r.status = .open ∧ 0 < r.quantity ∧ r.side ≠ .neutral ∧ r.closedAt = none ∨
      r.status = .closed ∧ r.quantity = 0 ∧ r.side = .neutral ∧ r.closedAt ≠ none)

def LotRow.Check (r : LotRow) : Prop :=
  0 < r.lot.originalQuantity ∧ 0 ≤ r.lot.remainingQuantity ∧
    r.lot.remainingQuantity ≤ r.lot.originalQuantity ∧ 0 ≤ r.lot.openingFee ∧
    0 ≤ r.lot.remainingOpeningFee ∧ r.lot.remainingOpeningFee ≤ r.lot.openingFee

def ExitPlan.Check (r : ExitPlan) : Prop :=
  0 < r.quantity ∧ 0 < r.maximumBars ∧
    (r.status = .active ∧ r.triggerReason = none ∧ r.triggeredAt = none ∧ r.triggerPrice = none ∧
        r.triggerExecutablePrice = none ∨
      (r.status = .triggered ∨ r.status = .closed) ∧ r.triggerReason ≠ none ∧ r.triggeredAt ≠ none ∧
        (∃ x ∈ r.triggerExecutablePrice, 0 < x) ∨
      r.status = .superseded)

def OrderRow.Check (r : OrderRow) : Prop :=
  0 < r.quantity ∧ (0 ≤ r.filledQuantity ∧ r.filledQuantity ≤ r.quantity) ∧
    r.createdAt < r.expiresAt ∧ 0 < r.version ∧ (r.orderType = .limit ↔ r.limitPrice ≠ none) ∧
    (r.positionEffect = .reduce ↔ r.reduceOnly = true)

def ExecutionFillRecord.Check (r : ExecutionFillRecord) : Prop :=
  0 < r.quantity ∧ 0 < r.price ∧ 0 ≤ r.fee ∧ (r.liquidityRole = "maker" ∨ r.liquidityRole = "taker")

def FundingRecord.Check (r : FundingRecord) : Prop :=
  r.fundingAt ≤ r.observedAt ∧ (r.rateType = "Regular" ∨ r.rateType = "Special") ∧ 0 < r.markPrice

def SnapshotRow.Check (r : SnapshotRow) : Prop := 0 ≤ r.snapshot.drawdown

instance (r : PositionRow) : Decidable r.Check := by unfold PositionRow.Check; infer_instance
instance (r : LotRow) : Decidable r.Check := by unfold LotRow.Check; infer_instance
instance (r : ExitPlan) : Decidable r.Check := by unfold ExitPlan.Check; infer_instance
instance (r : OrderRow) : Decidable r.Check := by unfold OrderRow.Check; infer_instance
instance (r : ExecutionFillRecord) : Decidable r.Check := by
  unfold ExecutionFillRecord.Check; infer_instance
instance (r : FundingRecord) : Decidable r.Check := by unfold FundingRecord.Check; infer_instance
instance (r : SnapshotRow) : Decidable r.Check := by unfold SnapshotRow.Check; infer_instance

/-! ## exact arithmetic stores everything -/

@[simp] theorem storedPlan_exact (plan : ExitPlan) : storedPlan .exact plan = plan := by
  have h : Arith.exact.store = id := rfl
  simp only [storedPlan, h, id_eq, Option.map_id]

end Maais
