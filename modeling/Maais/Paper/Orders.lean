import Maais.Paper.Account
import Maais.Paper.Exits
import Maais.Paper.Filters

/-!
# Paper orders and execution records

* `PaperOrder`  an order with its transitions; the version counts them;
* `applyFill_whole`  one fill of the whole quantity ends the order in status filled;
* `PaperExecutionRecord.validate`  what a record must satisfy before it is stored.
-/

namespace Maais
open Lib

/-! ## orders -/

inductive CommandContent
  | entry (experimentId decisionCycleId proposalId : UUID) (gateChainHash : Digest)
    (symbol : String) (side : PaperOrderSide) (quantity approvedNotional : ℚ)
    (eligibleAfter expiresAt : Time) (filterCapturedAt : Time)
    (filterPriceTick filterQuantityStep : ℚ)
  | exit (positionId exitPlanId : UUID) (exitPlanVersion : Nat) (reason : ExitReason) (quantity : ℚ)
    (eligibleAfter : Time)
deriving DecidableEq

inductive OrderPayload
  | created (clientOrderId : String) (commandHash : CommandContent) (symbol : String)
    (side : PaperOrderSide) (orderType : PaperOrderType) (positionEffect : PositionEffect)
    (quantity : ℚ) (limitPrice : Option ℚ) (reduceOnly : Bool)
  /-- the default payload of `_transition` -/
  | value
  | filled (quantity cumulativeQuantity : ℚ)
  | rejected (reason : String)
deriving DecidableEq

structure OrderTransition where
  sequence : Nat
  eventType : String
  eventAt : Time
  payload : OrderPayload
deriving DecidableEq

structure PaperOrder where
  orderId : UUID
  experimentId : UUID
  proposalId : UUID
  clientOrderId : String
  commandHash : CommandContent
  symbol : String
  side : PaperOrderSide
  orderType : PaperOrderType
  positionEffect : PositionEffect
  quantity : ℚ
  filledQuantity : ℚ
  limitPrice : Option ℚ
  reduceOnly : Bool
  status : PaperOrderStatus
  createdAt : Time
  expiresAt : Time
  version : Nat
  events : List OrderTransition
deriving DecidableEq

/-- `TERMINAL_ORDER_STATUSES` -/
def PaperOrderStatus.terminal (s : PaperOrderStatus) : Prop :=
  s = .filled ∨ s = .canceled ∨ s = .rejected ∨ s = .expired

instance (s : PaperOrderStatus) : Decidable s.terminal := by
  unfold PaperOrderStatus.terminal
  infer_instance

namespace PaperOrder

/-- the price and reduce-only rules of `create` -/
def checkKind (orderType : PaperOrderType) (positionEffect : PositionEffect) (quantity : ℚ)
    (limitPrice : Option ℚ) (reduceOnly : Bool) (openQuantity : ℚ) : Py Unit := do
  raiseIf (orderType = .limit ∧ limitPrice = none) (.valueError "limit orders require limit_price")
  raiseIf (orderType = .limit ∧ ∃ x ∈ limitPrice, x ≤ 0)
    (.valueError "limit_price must be a positive finite Decimal")
  raiseIf (orderType ≠ .limit ∧ limitPrice ≠ none)
    (.valueError "non-limit orders cannot have limit_price")
  raiseIf (positionEffect = .reduce ∧ ¬ reduceOnly)
    (.valueError "reduce position effect requires reduce_only")
  raiseIf (positionEffect = .reduce ∧ quantity > openQuantity)
    (.valueError "reduce-only quantity exceeds open quantity")
  raiseIf (positionEffect ≠ .reduce ∧ reduceOnly)
    (.valueError "open position effect cannot be reduce_only")

def create (orderId experimentId proposalId : UUID) (clientOrderId : String)
    (commandHash : CommandContent) (symbol : String) (side : PaperOrderSide)
    (orderType : PaperOrderType) (positionEffect : PositionEffect) (quantity : ℚ)
    (limitPrice : Option ℚ) (reduceOnly : Bool) (openQuantity : ℚ) (createdAt expiresAt : Time) :
    Py PaperOrder := do
  raiseIf (clientOrderId = "" ∨ symbol = "") (.valueError "client_order_id and symbol are required")
  requirePositiveDecimal quantity "quantity"
  raiseIf (expiresAt ≤ createdAt) (.valueError "expires_at must follow created_at")
  checkKind orderType positionEffect quantity limitPrice reduceOnly openQuantity
  return { orderId, experimentId, proposalId, clientOrderId, commandHash, symbol, side, orderType,
           positionEffect, quantity, filledQuantity := 0, limitPrice, reduceOnly,
           status := .created, createdAt, expiresAt, version := 1,
           events := [⟨1, "order.created", createdAt, .created clientOrderId commandHash symbol side
             orderType positionEffect quantity limitPrice reduceOnly⟩] }

variable (A : Arith) (o : PaperOrder)

def remainingQuantity : ℚ := A.sub o.quantity o.filledQuantity

def transition (status : PaperOrderStatus) (eventType : String) (eventAt : Time)
    (payload : OrderPayload) : Py PaperOrder := do
  raiseIf o.status.terminal (.illegalOrderTransition ("order is terminal in " ++ o.status.value))
  return { o with
    status, version := o.version + 1,
    events := o.events ++ [⟨o.version + 1, eventType, eventAt, payload⟩] }

def authorize (eventAt : Time) : Py PaperOrder := do
  raiseIf (o.status ≠ .created) (.illegalOrderTransition "only created orders can be authorized")
  o.transition .authorized "order.authorized" eventAt .value

def accept (eventAt : Time) : Py PaperOrder := do
  raiseIf (o.status ≠ .authorized)
    (.illegalOrderTransition "only authorized orders can be accepted")
  o.transition .accepted "order.accepted" eventAt .value

def applyFill (quantity : ℚ) (eventAt : Time) : Py PaperOrder := do
  raiseIf (o.status ≠ .accepted ∧ o.status ≠ .partiallyFilled)
    (.illegalOrderTransition "order cannot fill from current status")
  requirePositiveDecimal quantity "fill quantity"
  raiseIf (quantity > o.remainingQuantity A)
    (.valueError "fill quantity exceeds remaining quantity")
  let nextFilled := A.add o.filledQuantity quantity
  let transitioned ←
    o.transition (if nextFilled = o.quantity then .filled else .partiallyFilled)
      (if nextFilled = o.quantity then "order.filled" else "order.partially_filled") eventAt
      (.filled quantity nextFilled)
  return { transitioned with filledQuantity := nextFilled }

/-! ## what the transitions do -/

section
variable {A o} {clientOrderId symbol : String} {commandHash : CommandContent} {n openQuantity : ℚ}
  {u t : Time} {q : PaperOrder} {experimentId : UUID} {side : PaperOrderSide}
  {effect : PositionEffect}

theorem create_eq {orderId proposalId : UUID}
    {orderType : PaperOrderType} {limit : Option ℚ}
    {reduceOnly : Bool}
    (h : create orderId experimentId proposalId clientOrderId commandHash symbol side orderType
      effect n limit reduceOnly openQuantity t u = .ok q) :
    q.orderId = orderId ∧ q.experimentId = experimentId ∧ q.proposalId = proposalId ∧
      q.clientOrderId = clientOrderId ∧ q.commandHash = commandHash ∧ q.symbol = symbol ∧
      q.side = side ∧ q.positionEffect = effect ∧ q.quantity = n ∧ q.filledQuantity = 0 ∧
      q.status = .created ∧ q.version = 1 ∧ t < u ∧ q.createdAt = t ∧ q.expiresAt = u := by
  simp only [create, bind_eq_ok, raiseIf_eq_ok, pure_ok_iff] at h
  obtain ⟨_, _, _, _, _, ht, _, _, rfl⟩ := h
  exact ⟨rfl, rfl, rfl, rfl, rfl, rfl, rfl, rfl, rfl, rfl, rfl, rfl, not_le.mp ht, rfl, rfl⟩

structure SameOrder (o q : PaperOrder) : Prop where
  orderId : q.orderId = o.orderId
  experimentId : q.experimentId = o.experimentId
  proposalId : q.proposalId = o.proposalId
  clientOrderId : q.clientOrderId = o.clientOrderId
  commandHash : q.commandHash = o.commandHash
  symbol : q.symbol = o.symbol
  positionEffect : q.positionEffect = o.positionEffect
  quantity : q.quantity = o.quantity
  createdAt : q.createdAt = o.createdAt

theorem SameOrder.trans {p r : PaperOrder} (h : SameOrder p q) (h' : SameOrder q r) :
    SameOrder p r :=
  ⟨h'.1.trans h.1, h'.2.trans h.2, h'.3.trans h.3, h'.4.trans h.4, h'.5.trans h.5, h'.6.trans h.6,
    h'.7.trans h.7, h'.8.trans h.8, h'.9.trans h.9⟩

theorem transition_eq {status : PaperOrderStatus} {e : String} {payload : OrderPayload}
    (h : o.transition status e t payload = .ok q) : SameOrder o q ∧ q.status = status ∧
      q.version = o.version + 1 ∧ q.filledQuantity = o.filledQuantity := by
  simp only [transition, bind_eq_ok, pure_ok_iff] at h
  obtain ⟨_, _, rfl⟩ := h
  exact ⟨⟨rfl, rfl, rfl, rfl, rfl, rfl, rfl, rfl, rfl⟩, rfl, rfl, rfl⟩

theorem authorize_eq (h : o.authorize t = .ok q) :
    SameOrder o q ∧ q.status = .authorized ∧ q.version = o.version + 1 ∧
      q.filledQuantity = o.filledQuantity := by
  simp only [authorize, bind_eq_ok] at h
  obtain ⟨_, _, h⟩ := h
  exact transition_eq h

theorem accept_eq (h : o.accept t = .ok q) :
    SameOrder o q ∧ q.status = .accepted ∧ q.version = o.version + 1 ∧
      q.filledQuantity = o.filledQuantity := by
  simp only [accept, bind_eq_ok] at h
  obtain ⟨_, _, h⟩ := h
  exact transition_eq h

theorem applyFill_eq (h : o.applyFill A n t = .ok q) :
    SameOrder o q ∧ q.version = o.version + 1 ∧ q.filledQuantity = A.add o.filledQuantity n ∧
      (q.status = .filled ↔ A.add o.filledQuantity n = o.quantity) := by
  simp only [applyFill, bind_eq_ok, pure_ok_iff] at h
  obtain ⟨_, _, _, _, _, _, r, hr, rfl⟩ := h
  obtain ⟨⟨h1, h2, h3, h4, h5, h6, h7, h8, h9⟩, hs, hv, _⟩ := transition_eq hr
  refine ⟨⟨h1, h2, h3, h4, h5, h6, h7, h8, h9⟩, hv, rfl, ?_⟩
  show r.status = .filled ↔ _
  rw [hs]
  split
  · rename_i hq
    simp [hq]
  · rename_i hq
    simp [hq]

def acceptedOrder (orderId experimentId proposalId : UUID) (clientOrderId : String)
    (commandHash : CommandContent) (symbol : String) (side : PaperOrderSide)
    (positionEffect : PositionEffect) (quantity : ℚ) (reduceOnly : Bool) (openQuantity : ℚ)
    (createdAt expiresAt : Time) : Py PaperOrder := do
  let created ← create orderId experimentId proposalId clientOrderId commandHash symbol side .market
    positionEffect quantity none reduceOnly openQuantity createdAt expiresAt
  let authorized ← created.authorize createdAt
  authorized.accept createdAt

/-- a market order with its ids, a positive quantity and a later expiry is accepted; a reducing one
also fits the open quantity -/
theorem acceptedOrder_ok (orderId experimentId proposalId : UUID) (commandHash : CommandContent)
    (side : PaperOrderSide) (hc : clientOrderId ≠ "") (hs : symbol ≠ "") (hn : 0 < n) (ht : t < u)
    (hle : n ≤ openQuantity) :
    ∃ q, acceptedOrder orderId experimentId proposalId clientOrderId commandHash symbol side .reduce
      n true openQuantity t u = .ok q := by
  simp [acceptedOrder, create, checkKind, authorize, accept, transition, raiseIf,
    requirePositiveDecimal, hc, hs, not_le.mpr hn, not_le.mpr ht, not_lt.mpr hle,
    PaperOrderStatus.terminal]

theorem acceptedOrder_open_ok (orderId experimentId proposalId : UUID)
    (commandHash : CommandContent) (side : PaperOrderSide) (openQuantity : ℚ)
    (hc : clientOrderId ≠ "") (hs : symbol ≠ "") (hn : 0 < n) (ht : t < u) :
    ∃ q, acceptedOrder orderId experimentId proposalId clientOrderId commandHash symbol side .open n
      false openQuantity t u = .ok q := by
  simp [acceptedOrder, create, checkKind, authorize, accept, transition, raiseIf,
    requirePositiveDecimal, hc, hs, not_le.mpr hn, not_le.mpr ht, PaperOrderStatus.terminal]

theorem acceptedOrder_eq {orderId proposalId : UUID} {reduceOnly : Bool}
    (h : acceptedOrder orderId experimentId proposalId clientOrderId commandHash symbol side effect
      n reduceOnly openQuantity t u = .ok q) :
    q.orderId = orderId ∧ q.experimentId = experimentId ∧ q.proposalId = proposalId ∧
      q.clientOrderId = clientOrderId ∧ q.commandHash = commandHash ∧ q.symbol = symbol ∧
      q.positionEffect = effect ∧ q.quantity = n ∧ q.filledQuantity = 0 ∧ q.status = .accepted ∧
      q.version = 3 ∧ q.createdAt = t := by
  simp only [acceptedOrder, bind_eq_ok] at h
  obtain ⟨c, hc, z, hz, ha⟩ := h
  obtain ⟨c1, c2, c3, c4, c5, c6, _, c8, c9, c10, _, c12, _, c14, _⟩ := create_eq hc
  obtain ⟨hz1, _, hzv, hzf⟩ := authorize_eq hz
  obtain ⟨ha1, hs, hav, haf⟩ := accept_eq ha
  have hs1 := hz1.trans ha1
  exact ⟨hs1.1.trans c1, hs1.2.trans c2, hs1.3.trans c3, hs1.4.trans c4, hs1.5.trans c5,
    hs1.6.trans c6, hs1.7.trans c8, hs1.8.trans c9, haf.trans (hzf.trans c10),
    hs, by rw [hav, hzv, c12], hs1.9.trans c14⟩

theorem applyFill_whole (t : Time) (hs : o.status = .accepted) (hf : o.filledQuantity = 0)
    (hq : o.quantity = n) (hn : 0 < n) :
    ∃ q, o.applyFill .exact n t = .ok q ∧ q.status = .filled ∧ q.filledQuantity = n := by
  have hrem : ¬ n > o.remainingQuantity .exact := by simp [remainingQuantity, hf, hq]
  have hterm : ¬ o.status.terminal := by simp [PaperOrderStatus.terminal, hs]
  have hstat : ¬ (o.status ≠ .accepted ∧ o.status ≠ .partiallyFilled) := by simp [hs]
  obtain ⟨q, hq'⟩ : ∃ q, o.applyFill .exact n t = .ok q := by
    simp only [applyFill, requirePositiveDecimal, raiseIf_bind_neg hstat,
      raiseIf_bind_neg (not_le.mpr hn), raiseIf_bind_neg hrem, transition, raiseIf_bind_neg hterm,
      pure_eq_ok, ok_bind, Except.ok.injEq, exists_eq']
  obtain ⟨_, _, hfilled, hstatus⟩ := applyFill_eq hq'
  have hsum : Arith.exact.add o.filledQuantity n = n := by simp [hf]
  exact ⟨q, hq', hstatus.mpr (hsum.trans hq.symm), hfilled.trans hsum⟩

end

end PaperOrder

/-! ## records -/

structure MarketSnapshot where
  bookEventId : String
  venueEventAt : Time
  observedAt : Time
  sequence : Nat
  bestBid : ℚ
  bestAsk : ℚ
  markPrice : ℚ
  /-- `trigger_price` and `exit_reason`, on exits only -/
  exit : Option (Option ℚ × ExitReason)
  slices : List (ℚ × ℚ)
deriving DecidableEq

structure ExecutionFillRecord where
  id : UUID
  orderIntentId : UUID
  marketEventId : String
  fillAt : Time
  quantity : ℚ
  price : ℚ
  liquidityRole : String
  fee : ℚ
  feeAsset : String
  spreadCost : ℚ
  depthSlippage : ℚ
  latencySlippage : ℚ
  totalSlippage : ℚ
  marketSnapshot : MarketSnapshot
deriving DecidableEq

def ExecutionFillRecord.postInit (A : Arith)
    (f : ExecutionFillRecord) : Py ExecutionFillRecord := do
  raiseIf (f.marketEventId = "" ∨ f.liquidityRole = "" ∨ f.feeAsset = "")
    (.valueError "market event, liquidity role, and fee asset are required")
  requirePositiveDecimal f.quantity "fill quantity"
  requirePositiveDecimal f.price "fill price"
  raiseIf (f.fee < 0) (.valueError "fee must be nonnegative")
  raiseIf (f.totalSlippage ≠ A.add (A.add f.spreadCost f.depthSlippage) f.latencySlippage)
    (.valueError "total slippage does not reconcile to its components")
  return f

structure PaperExecutionRecord where
  order : PaperOrder
  exchangeFilters : ExchangeFilterSnapshot
  fills : List ExecutionFillRecord
  account : Option AccountState
  exitPlan : Option ExitPlan
deriving DecidableEq

namespace PaperExecutionRecord

/-- the checks of `validate` on the exit plan and the position it protects -/
def validatePlan (A : Arith) (r : PaperExecutionRecord) : Py Unit :=
  match r.exitPlan, r.account with
  | none, _ => .ok ()
  | some _, none => .error (.runtimeError "AssertionError")
  | some plan, some account => do
    let position ← account.position r.order.symbol
    raiseIf (plan.positionId ≠ position.positionId)
      (.valueError "exit plan position identity differs")
    raiseIf (¬ position.isFlat A ∧ plan.quantity ≠ position.quantity A)
      (.valueError "exit plan quantity differs from position")
    raiseIf (position.isFlat A ∧ plan.status ≠ .closed)
      (.valueError "flat position requires a closed exit plan")

def validate (A : Arith) (r : PaperExecutionRecord) : Py Unit := do
  raiseIf (∃ a ∈ r.account, r.order.experimentId ≠ a.experimentId)
    (.valueError "order and account experiment differ")
  raiseIf (r.order.symbol ≠ r.exchangeFilters.symbol)
    (.valueError "order and exchange filter symbol differ")
  raiseIf (∃ f ∈ r.fills, f.orderIntentId ≠ r.order.orderId)
    (.valueError "fill order identity differs")
  raiseIf (A.sum (r.fills.map (·.quantity)) ≠ r.order.filledQuantity)
    (.valueError "fill projection does not match order filled quantity")
  raiseIf (r.fills ≠ [] ∧ r.account = none) (.valueError "filled execution requires account state")
  raiseIf (r.account = none ∧ r.exitPlan ≠ none) (.valueError "exit plan requires account state")
  raiseIf (∃ a ∈ r.account, ¬ (a.reconcile A).ok) (.valueError "account does not reconcile")
  r.validatePlan A

theorem validate_single {A : Arith} {order : PaperOrder} {filters : ExchangeFilterSnapshot}
    {f : ExecutionFillRecord} {account : AccountState} {plan : ExitPlan} {p : PositionState}
    (hexp : order.experimentId = account.experimentId) (hsym : order.symbol = filters.symbol)
    (hfill : f.orderIntentId = order.orderId) (hsum : A.add 0 f.quantity = order.filledQuantity)
    (hrec : (account.reconcile A).ok) (hp : account.positions.get? order.symbol = some p)
    (hid : plan.positionId = p.positionId) (hopen : ¬ p.isFlat A → plan.quantity = p.quantity A)
    (hflat : p.isFlat A → plan.status = .closed) :
    (PaperExecutionRecord.mk order filters [f] (some account) (some plan)).validate A = .ok () := by
  have h1 : ¬ ∃ a ∈ some account, order.experimentId ≠ a.experimentId := by simp [hexp]
  have h3 : ¬ ∃ g ∈ [f], g.orderIntentId ≠ order.orderId := by simp [hfill]
  have h4 : ¬ A.sum ([f].map (·.quantity)) ≠ order.filledQuantity := not_not.mpr hsum
  have h7 : ¬ ∃ a ∈ some account, ¬ (a.reconcile A).ok := by simp [hrec]
  rw [validate, raiseIf_bind_neg h1, raiseIf_not_bind hsym, raiseIf_bind_neg h3,
    raiseIf_bind_neg h4, raiseIf_bind_neg (by simp), raiseIf_bind_neg (by simp),
    raiseIf_bind_neg h7]
  simp only [validatePlan, AccountState.position, hp, orRaise_some, ok_bind]
  rw [raiseIf_not_bind hid,
    raiseIf_bind_neg (fun h => h.2 (hopen h.1)), raiseIf_eq_ok]
  exact fun h => h.2 (hflat h.1)

end PaperExecutionRecord

structure FundingRecord where
  id : UUID
  experimentId : UUID
  positionId : UUID
  marketEventId : String
  fundingAt : Time
  observedAt : Time
  rate : ℚ
  rateType : String
  markPrice : ℚ
  notional : ℚ
  amount : ℚ
deriving DecidableEq

def FundingRecord.postInit (f : FundingRecord) : Py FundingRecord := do
  raiseIf (f.marketEventId = "") (.valueError "market_event_id is required")
  raiseIf (f.observedAt < f.fundingAt)
    (.valueError "funding cannot be observed before its venue timestamp")
  raiseIf (f.rateType ≠ "Regular" ∧ f.rateType ≠ "Special")
    (.valueError "funding rate_type must be Regular or Special")
  requirePositiveDecimal f.markPrice "funding mark price"
  requirePositiveDecimal f.notional "funding notional"
  return f

end Maais
