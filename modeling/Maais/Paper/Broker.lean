import Maais.Paper.Fills
import Maais.Paper.Orders

/-!
# The paper broker

* `executeMarketEntry`  an approved entry: order, fill, account and exit plan in one record;
* `executeMarketExit`  a triggered exit, or the halt that says why it could not be filled;
* `executeMarketEntry_cases`, `executeMarketExit_cases`  what a returned record contains;
* `executeMarketExit_exact`  in exact arithmetic an exit whose first eligible book is usable is
  filled.
-/

namespace Maais
open Lib

/-! ## capabilities -/

structure AuthorizationClaims where
  experimentId : UUID
  decisionCycleId : UUID
  proposalId : UUID
  gateChainHash : Digest
  symbol : String
  side : PaperOrderSide
  quantity : ℚ
  approvedNotional : ℚ
  issuedAt : Time
  expiresAt : Time
deriving DecidableEq

def AuthorizationClaims.postInit (c : AuthorizationClaims) : Py AuthorizationClaims := do
  raiseIf (c.symbol = "") (.valueError "symbol is required")
  requirePositiveDecimal c.quantity "quantity"
  requirePositiveDecimal c.approvedNotional "approved_notional"
  raiseIf (c.expiresAt ≤ c.issuedAt) (.valueError "expires_at must follow issued_at")
  return c

structure Signature where
  key : String
  claims : AuthorizationClaims
deriving DecidableEq

structure ExecutionCapability where
  claims : AuthorizationClaims
  signature : Signature
deriving DecidableEq

structure ExecutionAuthorizer where
  signingKey : String

namespace ExecutionAuthorizer

variable (authorizer : ExecutionAuthorizer)

def sign (claims : AuthorizationClaims) : Signature := ⟨authorizer.signingKey, claims⟩

def issue (claims : AuthorizationClaims) (allGatesPassed : Bool) : Py ExecutionCapability := do
  raiseIf (¬ allGatesPassed) (.permissionError "execution capability requires a passed gate chain")
  return ⟨claims, authorizer.sign claims⟩

def verify (capability : ExecutionCapability) (at_ : Time) : Prop :=
  ¬ (at_ > capability.claims.expiresAt ∨ at_ < capability.claims.issuedAt) ∧
    authorizer.sign capability.claims = capability.signature

instance {c : ExecutionCapability} {t : Time} : Decidable (authorizer.verify c t) := by
  unfold verify
  infer_instance

end ExecutionAuthorizer

/-! ## commands -/

structure MarketEntryCommand where
  orderId : UUID
  fillId : UUID
  positionId : UUID
  exitPlanId : UUID
  experimentId : UUID
  decisionCycleId : UUID
  proposalId : UUID
  gateChainHash : Digest
  clientOrderId : String
  symbol : String
  side : PaperOrderSide
  requestedQuantity : ℚ
  approvedQuantity : ℚ
  approvedNotional : ℚ
  decisionExecutablePrice : ℚ
  decisionCompletedAt : Time
  executionLatency : Time
  createdAt : Time
  expiresAt : Time
  takerFeeRate : ℚ
  expectedLossFraction : ℚ
  expectedGainFraction : ℚ
  capability : ExecutionCapability
  exchangeFilters : ExchangeFilterSnapshot

def MarketEntryCommand.claimsMatch (c : MarketEntryCommand) (quantity : ℚ) : Prop :=
  let claims := c.capability.claims
  claims.experimentId = c.experimentId ∧ claims.decisionCycleId = c.decisionCycleId ∧
    claims.proposalId = c.proposalId ∧ claims.gateChainHash = c.gateChainHash ∧
    claims.symbol = c.symbol ∧ claims.side = c.side ∧ claims.quantity = quantity ∧
    claims.approvedNotional = c.approvedNotional

instance {c : MarketEntryCommand} {q : ℚ} : Decidable (c.claimsMatch q) := by
  unfold MarketEntryCommand.claimsMatch
  infer_instance

structure MarketExitCommand where
  orderId : UUID
  fillId : UUID
  experimentId : UUID
  proposalId : UUID
  clientOrderId : String
  symbol : String
  decisionExecutablePrice : ℚ
  executionLatency : Time
  createdAt : Time
  expiresAt : Time
  takerFeeRate : ℚ
  intent : ExitIntent
  exchangeFilters : ExchangeFilterSnapshot

structure PaperBrokerResult where
  record : PaperExecutionRecord
  fill : PaperFill
deriving DecidableEq

/-- `DeterministicClock.eligibility(...).eligible_at` -/
def eligibility (decidedAt latency : Time) : Py Time := do
  raiseIf (latency ≤ 0) (.valueError "latency must be positive")
  return decidedAt + latency

def defaultMaximumBars : Nat := 60

structure PaperBroker where
  authorizer : ExecutionAuthorizer
  marketFills : MarketFillEngine

def storedFill (fillId orderId : UUID) (currency : String) (fill : PaperFill)
    (exit : Option (Option ℚ × ExitReason)) : ExecutionFillRecord :=
  { id := fillId
    orderIntentId := orderId
    marketEventId := fill.marketEventId
    fillAt := fill.fillAt
    quantity := fill.quantity
    price := fill.price
    liquidityRole := fill.liquidityRole
    fee := fill.fee
    feeAsset := currency
    spreadCost := fill.spreadCost
    depthSlippage := fill.depthSlippage
    latencySlippage := fill.latencySlippage
    totalSlippage := fill.totalSlippage
    marketSnapshot :=
      { bookEventId := fill.book.eventId
        venueEventAt := fill.book.venueEventAt
        observedAt := fill.book.observedAt
        sequence := fill.book.sequence
        bestBid := fill.book.bestBid
        bestAsk := fill.book.bestAsk
        markPrice := fill.book.markPrice
        exit := exit
        slices := fill.slices.map (fun s => (s.price, s.quantity)) } }

/-- `except FilterRejection` of the exit path -/
def catchFilter {α : Type} : Py α → Py α
  | .error (.filterRejection reason) =>
    .error (.exitExecutionHalt ("exchange_filter:" ++ reason) none)
  | x => x

/-- `except FillRejection` of the exit path -/
def catchFill {α : Type} : Py α → Py α
  | .error (.fillRejection reason eventId) => .error (.exitExecutionHalt reason eventId)
  | x => x

namespace PaperBroker

variable (A : Arith) (broker : PaperBroker)

def entryPlan (command : MarketEntryCommand) (position : PositionState) (fillAt : Time) :
    Option ExitPlan → Py ExitPlan
  | none =>
    ExitPlan.create A command.exitPlanId position.positionId position.side (position.quantity A)
      position.averageEntry command.expectedLossFraction command.expectedGainFraction fillAt
      defaultMaximumBars
  | some active => do
    raiseIf (active.positionId ≠ position.positionId)
      (.valueError "active exit plan belongs to another position")
    active.resize A (position.quantity A) position.averageEntry fillAt

def openQuantity (account : AccountState) (symbol : String) : ℚ :=
  ((account.positions.get? symbol).map (·.quantity A)).getD 0

def entryContent (command : MarketEntryCommand) (quantity : ℚ) (eligibleAt : Time) :
    CommandContent :=
  .entry command.experimentId command.decisionCycleId command.proposalId command.gateChainHash
    command.symbol command.side quantity command.approvedNotional eligibleAt command.expiresAt
    command.exchangeFilters.capturedAt command.exchangeFilters.priceTick
    command.exchangeFilters.quantityStep

/-- the end of both paths: the record is validated before it is returned -/
def finish (order : PaperOrder) (filters : ExchangeFilterSnapshot) (stored : ExecutionFillRecord)
    (account : AccountState) (plan : ExitPlan) (fill : PaperFill) : Py PaperBrokerResult := do
  let storedFill ← stored.postInit A
  let record : PaperExecutionRecord :=
    { order, exchangeFilters := filters, fills := [storedFill], account := some account,
      exitPlan := some plan }
  record.validate A
  return ⟨record, fill⟩

def entryRequest (command : MarketEntryCommand) (quantity : ℚ) (eligibleAt : Time) :
    MarketFillRequest :=
  { symbol := command.symbol, side := command.side, quantity, eligibleAfter := eligibleAt,
    decisionExecutablePrice := command.decisionExecutablePrice,
    takerFeeRate := command.takerFeeRate }

/-- the entry path after the fill: the order and the account take it, the plan is made or resized -/
def settleEntry (command : MarketEntryCommand) (account : AccountState)
    (activeExitPlan : Option ExitPlan) (order : PaperOrder) (fill : PaperFill) :
    Py PaperBrokerResult := do
  raiseIf (fill.fillAt ≥ command.expiresAt)
    (.runtimeError "first eligible market fill occurred after order expiry")
  let order ← order.applyFill A fill.quantity fill.fillAt
  let nextAccount ← account.applyFill A command.fillId command.positionId command.symbol
    command.side .open fill.quantity fill.price fill.fee fill.fillAt
  let position ← nextAccount.position command.symbol
  let exitPlan ← entryPlan A command position fill.fillAt activeExitPlan
  finish A order command.exchangeFilters
    (storedFill command.fillId command.orderId account.currency fill none) nextAccount exitPlan fill

def executeMarketEntry (command : MarketEntryCommand) (account : AccountState)
    (books : List BookSnapshot) (activeExitPlan : Option ExitPlan) : Py PaperBrokerResult := do
  raiseIf (account.experimentId ≠ command.experimentId)
    (.valueError "account and command experiment differ")
  raiseIf (command.exchangeFilters.capturedAt > command.decisionCompletedAt)
    (.valueError "exchange filter snapshot cannot be captured after the decision")
  raiseIf (¬ broker.authorizer.verify command.capability command.createdAt)
    (.permissionError "execution capability is invalid or expired")
  let prepared ← command.exchangeFilters.prepare A command.side .market command.requestedQuantity
    command.approvedQuantity (some command.decisionExecutablePrice) command.approvedNotional
  raiseIf (¬ command.claimsMatch prepared.quantity)
    (.permissionError "execution capability does not match prepared order")
  let eligibleAt ← eligibility command.decisionCompletedAt command.executionLatency
  let order ← PaperOrder.acceptedOrder command.orderId command.experimentId command.proposalId
    command.clientOrderId (entryContent command prepared.quantity eligibleAt) command.symbol
    command.side .open prepared.quantity false (openQuantity A account command.symbol)
    command.createdAt command.expiresAt
  let request ← (entryRequest command prepared.quantity eligibleAt).postInit
  let fill ← broker.marketFills.fill A request books
  settleEntry A command account activeExitPlan order fill

def intentMatches (command : MarketExitCommand) (plan : ExitPlan)
    (position : PositionState) : Prop :=
  command.intent.positionId = position.positionId ∧ plan.positionId = position.positionId ∧
    command.intent.quantity = position.quantity A ∧
    command.intent.side = position.side.closingSide ∧ command.intent.reduceOnly = true

instance {c : MarketExitCommand} {plan : ExitPlan} {p : PositionState} :
    Decidable (intentMatches A c plan p) := by
  unfold intentMatches
  infer_instance

def exitRequest (command : MarketExitCommand) (quantity : ℚ) (eligibleAt : Time) :
    MarketFillRequest :=
  { symbol := command.symbol, side := command.intent.side, quantity, eligibleAfter := eligibleAt,
    decisionExecutablePrice := command.decisionExecutablePrice,
    takerFeeRate := command.takerFeeRate }

def exitStored (command : MarketExitCommand) (account : AccountState) (fill : PaperFill) :
    ExecutionFillRecord :=
  storedFill command.fillId command.orderId account.currency fill
    (some (command.intent.triggerPrice, command.intent.reason))

/-- the exit path after the fill: the order, the account and the plan are closed -/
def settleExit (command : MarketExitCommand) (account : AccountState) (exitPlan : ExitPlan)
    (position : PositionState) (order : PaperOrder) (fill : PaperFill) : Py PaperBrokerResult := do
  raiseIf (fill.fillAt ≥ command.expiresAt)
    (.exitExecutionHalt "exit_fill_after_expiry" (some fill.marketEventId))
  let order ← order.applyFill A fill.quantity fill.fillAt
  let nextAccount ← account.applyFill A command.fillId position.positionId command.symbol
    command.intent.side .reduce fill.quantity fill.price fill.fee fill.fillAt
  let closedPlan ← exitPlan.close fill.fillAt
  finish A order command.exchangeFilters (exitStored command account fill) nextAccount
    closedPlan fill

def executeMarketExit (command : MarketExitCommand) (account : AccountState) (exitPlan : ExitPlan)
    (books : List BookSnapshot) : Py PaperBrokerResult := do
  raiseIf (account.experimentId ≠ command.experimentId)
    (.valueError "account and exit command experiment differ")
  let position ← account.position command.symbol
  raiseIf (position.isFlat A) (.valueError "exit command has no open position")
  raiseIf (exitPlan.status ≠ .triggered) (.permissionError "exit plan is not triggered")
  raiseIf (¬ intentMatches A command exitPlan position)
    (.permissionError "exit intent does not match the open position and plan")
  raiseIf (command.exchangeFilters.capturedAt > command.intent.triggeredAt)
    (.exitExecutionHalt "future_exchange_filter_snapshot" none)
  let prepared ← catchFilter (command.exchangeFilters.prepare A command.intent.side .market
    command.intent.quantity (position.quantity A) (some command.decisionExecutablePrice)
    (A.mul (position.quantity A) command.decisionExecutablePrice))
  raiseIf (prepared.quantity ≠ position.quantity A)
    (.exitExecutionHalt "exit_quantization_residual" none)
  let eligibleAt ← eligibility command.intent.triggeredAt command.executionLatency
  let order ← PaperOrder.acceptedOrder command.orderId command.experimentId command.proposalId
    command.clientOrderId
    (.exit position.positionId exitPlan.planId exitPlan.version command.intent.reason
      prepared.quantity eligibleAt)
    command.symbol command.intent.side .reduce prepared.quantity true (position.quantity A)
    command.createdAt command.expiresAt
  let request ← (exitRequest command prepared.quantity eligibleAt).postInit
  let fill ← catchFill (broker.marketFills.fill A request books)
  settleExit A command account exitPlan position order fill

/-! ## what a returned record contains -/

theorem postInit_request {r q : MarketFillRequest} (h : r.postInit = .ok q) :
    q = r ∧ 0 < r.quantity ∧ 0 ≤ r.takerFeeRate := by
  simp only [MarketFillRequest.postInit, bind_eq_ok, raiseIf_eq_ok, requirePositiveDecimal_eq_ok,
    pure_ok_iff, not_not] at h
  obtain ⟨_, _, _, hq, _, _, _, hf, rfl⟩ := h
  exact ⟨rfl, hq, hf.1⟩

theorem postInit_request_ok {r : MarketFillRequest} (hs : r.symbol ≠ "") (hq : 0 < r.quantity)
    (hp : 0 < r.decisionExecutablePrice) (hf : 0 ≤ r.takerFeeRate ∧ r.takerFeeRate ≤ 1) :
    r.postInit = .ok r := by
  rw [MarketFillRequest.postInit, raiseIf_bind_neg hs, requirePositiveDecimal,
    raiseIf_bind_neg (not_le.mpr hq), requirePositiveDecimal, raiseIf_bind_neg (not_le.mpr hp),
    raiseIf_not_bind hf, pure_eq_ok]

theorem eligibility_eq {t latency u : Time} (h : eligibility t latency = .ok u) :
    u = t + latency ∧ 0 < latency := by
  simp only [eligibility, bind_eq_ok, raiseIf_eq_ok, pure_ok_iff] at h
  obtain ⟨_, hl, rfl⟩ := h
  exact ⟨rfl, not_le.mp hl⟩

variable {A broker} {r : PaperBrokerResult}

theorem finish_eq {order : PaperOrder} {filters : ExchangeFilterSnapshot}
    {stored : ExecutionFillRecord} {account : AccountState} {plan : ExitPlan} {fill : PaperFill}
    (h : finish A order filters stored account plan fill = .ok r) :
    r = ⟨⟨order, filters, [stored], some account, some plan⟩, fill⟩ ∧
        r.record.validate A = .ok () := by
  simp only [finish, bind_eq_ok, pure_ok_iff] at h
  obtain ⟨f, hf, _, hv, rfl⟩ := h
  have he : f = stored := by
    simp only [ExecutionFillRecord.postInit, bind_eq_ok, pure_ok_iff] at hf
    obtain ⟨_, _, _, _, _, _, _, _, _, _, rfl⟩ := hf
    rfl
  subst he
  exact ⟨rfl, hv⟩

theorem postInit_stored_ok {f : ExecutionFillRecord}
    (hids : ¬ (f.marketEventId = "" ∨ f.liquidityRole = "" ∨ f.feeAsset = "")) (hq : 0 < f.quantity)
    (hp : 0 < f.price) (hf : 0 ≤ f.fee)
    (hs : f.totalSlippage = A.add (A.add f.spreadCost f.depthSlippage) f.latencySlippage) :
    f.postInit A = .ok f := by
  rw [ExecutionFillRecord.postInit, raiseIf_bind_neg hids, requirePositiveDecimal,
    raiseIf_bind_neg (not_le.mpr hq), requirePositiveDecimal, raiseIf_bind_neg (not_le.mpr hp),
    raiseIf_bind_neg (not_lt.mpr hf), raiseIf_not_bind hs, pure_eq_ok]

theorem stored_ok {engine : MarketFillEngine} {request : MarketFillRequest}
    {books : List BookSnapshot} {fill : PaperFill} (fillId orderId : UUID) {currency : String}
    (exit : Option (Option ℚ × ExitReason)) (h : engine.fill A request books = .ok fill)
    (hc : currency ≠ "") : (storedFill fillId orderId currency fill exit).postInit A =
      .ok (storedFill fillId orderId currency fill exit) := by
  obtain ⟨_, _, _, hev, hrole, hq, hp, hfee, hs⟩ := MarketFillEngine.fill_book h
  refine postInit_stored_ok ?_ hq hp hfee hs
  rintro (h0 | h0 | h0)
  · exact fill.book.eventId_ne (hev.symm.trans h0)
  · exact absurd (hrole.symm.trans h0) (by decide)
  · exact hc h0

structure OrderFilled (A : Arith) (orderId proposalId experimentId : UUID)
    (clientOrderId symbol : String) (effect : PositionEffect) (n : ℚ)
    (order : PaperOrder) : Prop where
  orderId : order.orderId = orderId
  proposalId : order.proposalId = proposalId
  experimentId : order.experimentId = experimentId
  clientOrderId : order.clientOrderId = clientOrderId
  symbol : order.symbol = symbol
  effect : order.positionEffect = effect
  quantity : order.quantity = n
  filledQuantity : order.filledQuantity = A.add 0 n
  status : order.status = .filled ↔ A.add 0 n = n
  version : order.version = 4

theorem orderFilled {orderId experimentId proposalId : UUID} {clientOrderId : String}
    {commandHash : CommandContent} {symbol : String} {side : PaperOrderSide}
    {effect : PositionEffect} {n openQuantity : ℚ} {reduceOnly : Bool} {t u at_ : Time}
    {o q : PaperOrder}
    (ho : PaperOrder.acceptedOrder orderId experimentId proposalId clientOrderId commandHash
      symbol side effect n reduceOnly openQuantity t u = .ok o)
    (hq : o.applyFill A n at_ = .ok q) :
    OrderFilled A orderId proposalId experimentId clientOrderId symbol effect n q := by
  obtain ⟨h1, h2, h3, h4, _, h6, h7, h8, h9, _, hv, _⟩ := PaperOrder.acceptedOrder_eq ho
  obtain ⟨hs, hver, hf, hst⟩ := PaperOrder.applyFill_eq hq
  rw [h9] at hf hst
  rw [h8] at hst
  exact ⟨hs.1.trans h1, hs.3.trans h3, hs.2.trans h2, hs.4.trans h4, hs.6.trans h6, hs.7.trans h7,
    hs.8.trans h8, hf, hst, by rw [hver, hv]⟩

structure EntryFilled (A : Arith) (command : MarketEntryCommand) (account : AccountState)
    (books : List BookSnapshot) (active : Option ExitPlan) (r : PaperBrokerResult)
    (next : AccountState) (p : PositionState) (plan : ExitPlan) : Prop where
  record : r.record.account = some next ∧ r.record.exitPlan = some plan ∧
    r.record.fills = [storedFill command.fillId command.orderId account.currency r.fill none] ∧
    r.record.exchangeFilters = command.exchangeFilters
  order :
    OrderFilled A command.orderId command.proposalId command.experimentId command.clientOrderId
    command.symbol .open r.fill.quantity r.record.order
  filled : account.applyFill A command.fillId command.positionId command.symbol command.side .open
    r.fill.quantity r.fill.price r.fill.fee r.fill.fillAt = .ok next
  position : next.positions.get? command.symbol = some p
  planned : entryPlan A command p r.fill.fillAt active = .ok plan
  valid : r.record.validate A = .ok ()
  book : r.fill.book ∈ books ∧ r.fill.book.symbol = command.symbol ∧
    r.fill.fillAt = r.fill.book.observedAt
  after : command.decisionCompletedAt + command.executionLatency < r.fill.fillAt
  before : r.fill.fillAt < command.expiresAt
  latency : 0 < command.executionLatency
  first : ∀ book ∈ books, book.symbol = command.symbol →
    command.decisionCompletedAt + command.executionLatency < book.observedAt →
    r.fill.fillAt ≤ book.observedAt

theorem executeMarketEntry_cases {command : MarketEntryCommand} {account : AccountState}
    {books : List BookSnapshot} {active : Option ExitPlan}
    (h : broker.executeMarketEntry A command account books active = .ok r) :
    ∃ next position plan, EntryFilled A command account books active r next position plan := by
  simp only [executeMarketEntry, settleEntry, AccountState.position, bind_eq_ok, raiseIf_eq_ok,
    orRaise_eq_ok] at h
  obtain ⟨_, _, _, _, _, _, prepared, _, _, _, eligibleAt, hel, o, ho, req, hreq, fill, hfill, _,
    hexp, o', ho', next, hnext, position, hpos, plan, hplan, hfin⟩ := h
  obtain ⟨rfl, hlat⟩ := eligibility_eq hel
  obtain ⟨rfl, _, _⟩ := postInit_request hreq
  obtain ⟨rfl, hvalid⟩ := finish_eq hfin
  obtain ⟨hearly, hat, hqty, _⟩ := MarketFillEngine.fill_book hfill
  obtain ⟨hmem, hsym, hafter⟩ := MarketFillEngine.earliest_mem hearly
  have hq : fill.quantity = prepared.quantity := hqty
  rw [← hq] at ho
  refine ⟨next, position, plan,
    ⟨⟨rfl, rfl, rfl, rfl⟩, orderFilled ho ho', hnext, hpos, hplan, hvalid, ⟨hmem, hsym, hat⟩, ?_,
    not_le.mp hexp, hlat, fun book hb hs ht => ?_⟩⟩
  · show _ < fill.fillAt
    rw [hat]
    exact hafter
  · show fill.fillAt ≤ _
    rw [hat]
    exact MarketFillEngine.earliest_le hearly (MarketFillEngine.mem_eligible.mpr ⟨hb, hs, ht⟩)

structure ExitFilled (A : Arith) (command : MarketExitCommand) (account : AccountState)
    (exitPlan : ExitPlan) (r : PaperBrokerResult) (p : PositionState) (next : AccountState)
    (closedPlan : ExitPlan) : Prop where
  record : r.record.account = some next ∧ r.record.exitPlan = some closedPlan ∧
    r.record.fills = [exitStored command account r.fill] ∧
    r.record.exchangeFilters = command.exchangeFilters
  order :
    OrderFilled A command.orderId command.proposalId command.experimentId command.clientOrderId
    command.symbol .reduce r.fill.quantity r.record.order
  position : account.positions.get? command.symbol = some p
  isOpen : ¬ p.isFlat A
  matched : intentMatches A command exitPlan p
  quantity : r.fill.quantity = p.quantity A
  filled : account.applyFill A command.fillId p.positionId command.symbol command.intent.side
    .reduce r.fill.quantity r.fill.price r.fill.fee r.fill.fillAt = .ok next
  closed : exitPlan.close r.fill.fillAt = .ok closedPlan
  valid : r.record.validate A = .ok ()
  after : command.intent.triggeredAt + command.executionLatency < r.fill.fillAt
  latency : 0 < command.executionLatency

theorem catchFilter_eq_ok {α : Type} {x : Py α} {a : α} : catchFilter x = .ok a ↔ x = .ok a := by
  unfold catchFilter
  split <;> simp

theorem catchFill_eq_ok {α : Type} {x : Py α} {a : α} : catchFill x = .ok a ↔ x = .ok a := by
  unfold catchFill
  split <;> simp

theorem executeMarketExit_cases {command : MarketExitCommand} {account : AccountState}
    {exitPlan : ExitPlan} {books : List BookSnapshot}
    (h : broker.executeMarketExit A command account exitPlan books = .ok r) :
    ∃ position next closed, ExitFilled A command account exitPlan r position next closed := by
  simp only [executeMarketExit, settleExit, AccountState.position, bind_eq_ok, raiseIf_eq_ok,
    orRaise_eq_ok, catchFilter_eq_ok, catchFill_eq_ok, not_not, ne_eq] at h
  obtain ⟨_, _, position, hpos, _, hflat, _, hst, _, hm, _, _, prepared, _, _, hprep, eligibleAt,
    hel, o, ho, req, hreq, fill, hfill, _, _, o', ho', next, hnext, closed, hclosed, hfin⟩ := h
  obtain ⟨rfl, hlat⟩ := eligibility_eq hel
  obtain ⟨rfl, _, _⟩ := postInit_request hreq
  obtain ⟨rfl, hvalid⟩ := finish_eq hfin
  obtain ⟨_, _, hqty, _⟩ := MarketFillEngine.fill_book hfill
  have hafter := MarketFillEngine.fill_after hfill
  have hq : fill.quantity = prepared.quantity := hqty
  rw [← hq] at ho
  exact ⟨position, next, closed,
    ⟨⟨rfl, rfl, rfl, rfl⟩, orderFilled ho ho', hpos, hflat, hm, hq.trans hprep, hnext, hclosed,
    hvalid, hafter, hlat⟩⟩

/-! ## exits in exact arithmetic -/

structure ExitReady (command : MarketExitCommand) (account : AccountState) (plan : ExitPlan)
    (p : PositionState) : Prop where
  valid : account.Valid
  experiment : account.experimentId = command.experimentId
  position : account.positions.get? command.symbol = some p
  isOpen : ¬ p.isFlat .exact
  status : plan.status = .triggered
  wellFormed : plan.WellFormed
  matched : intentMatches .exact command plan p
  captured : command.exchangeFilters.capturedAt ≤ command.intent.triggeredAt
  filterSymbol : command.exchangeFilters.symbol = command.symbol
  admitted : command.exchangeFilters.admits .exact command.intent.side (p.quantity .exact)
    command.decisionExecutablePrice
  latency : 0 < command.executionLatency
  clientOrderId : command.clientOrderId ≠ ""
  expiry : command.createdAt < command.expiresAt
  fee : 0 ≤ command.takerFeeRate ∧ command.takerFeeRate ≤ 1
  price : 0 < command.decisionExecutablePrice
  currency : account.currency ≠ ""

section
variable {command : MarketExitCommand} {account : AccountState} {plan : ExitPlan}
  {p : PositionState} {books : List BookSnapshot} {book : BookSnapshot}

/-- the request of a ready exit: the whole position, eligible from the trigger time plus the
latency -/
def readyRequest (command : MarketExitCommand) (p : PositionState) : MarketFillRequest :=
  exitRequest command (p.quantity .exact) (command.intent.triggeredAt + command.executionLatency)

theorem ExitReady.quantity_pos (h : ExitReady command account plan p) : 0 < p.quantity .exact :=
  (h.valid.positions _ _ h.position).1.quantity_pos h.isOpen

theorem executeMarketExit_ready (broker : PaperBroker) (books : List BookSnapshot)
    (h : ExitReady command account plan p) :
    ∃ order, order.status = .accepted ∧ order.filledQuantity = 0 ∧
      order.quantity = p.quantity .exact ∧ order.orderId = command.orderId ∧
      order.symbol = command.symbol ∧ order.experimentId = command.experimentId ∧
      broker.executeMarketExit .exact command account plan books =
        (catchFill (broker.marketFills.fill .exact (readyRequest command p) books) >>=
          settleExit .exact command account plan p order) := by
  have hq := h.quantity_pos
  have hsym : command.symbol ≠ "" := h.filterSymbol ▸ command.exchangeFilters.symbol_ne
  obtain ⟨prepared, hprep, hpq⟩ := h.admitted
  obtain ⟨hid, hpid, hiq, hside, hro⟩ := h.matched
  obtain ⟨order, horder⟩ := PaperOrder.acceptedOrder_ok command.orderId command.experimentId
    command.proposalId (.exit p.positionId plan.planId plan.version command.intent.reason
      (p.quantity .exact) (command.intent.triggeredAt + command.executionLatency))
    command.intent.side h.clientOrderId hsym hq h.expiry (le_refl (p.quantity .exact))
  obtain ⟨h1, h2, _, _, _, h6, _, h8, h9, h10, _⟩ := PaperOrder.acceptedOrder_eq horder
  refine ⟨order, h10, h9, h8, h1, h6, h2, ?_⟩
  have hreq : (readyRequest command p).postInit = .ok (readyRequest command p) :=
    postInit_request_ok hsym hq h.price h.fee
  rw [executeMarketExit, raiseIf_not_bind h.experiment, AccountState.position, h.position,
    orRaise_some, ok_bind, raiseIf_bind_neg h.isOpen, raiseIf_not_bind h.status,
    raiseIf_not_bind h.matched, raiseIf_bind_neg (not_lt.mpr h.captured), hiq,
    catchFilter_eq_ok.mpr hprep, ok_bind, raiseIf_not_bind hpq, hpq, eligibility,
    raiseIf_bind_neg (not_le.mpr h.latency), pure_eq_ok, ok_bind, horder, ok_bind]
  change ((readyRequest command p).postInit >>= _) = _
  rw [hreq]
  rfl

theorem executeMarketExit_unusable (h : ExitReady command account plan p)
    (he : MarketFillEngine.earliest (readyRequest command p) books = some book)
    (hu : ¬ MarketFillEngine.Usable broker.marketFills (readyRequest command p) book) :
    ∃ reason, broker.executeMarketExit .exact command account plan books =
      .error (.exitExecutionHalt reason (some book.eventId)) := by
  obtain ⟨order, _, _, _, _, _, _, hx⟩ := executeMarketExit_ready broker books h
  obtain ⟨reason, hr⟩ := MarketFillEngine.fill_exact_rejected h.quantity_pos he hu
  exact ⟨reason, by rw [hx, hr]; rfl⟩

/-- **a ready exit with a usable first book is filled**: the position is flat and the plan closed -/
theorem executeMarketExit_exact (h : ExitReady command account plan p)
    (he : MarketFillEngine.earliest (readyRequest command p) books = some book)
    (hu : MarketFillEngine.Usable broker.marketFills (readyRequest command p) book)
    (hx : book.observedAt < command.expiresAt) :
    ∃ r, broker.executeMarketExit .exact command account plan books = .ok r ∧
        r.fill.book = book := by
  obtain ⟨order, hos, hof, hoq, hoi, hosym, hoe, hr⟩ :=
    executeMarketExit_ready broker books h
  obtain ⟨fill, hfill, hbook⟩ := MarketFillEngine.fill_exact h.quantity_pos h.fee.1 he hu
  obtain ⟨_, hat, hqty, hev, _, _, hprice, hfee, _⟩ := MarketFillEngine.fill_book hfill
  have hq : fill.quantity = p.quantity .exact := hqty
  have hpos := h.quantity_pos
  obtain ⟨order', ho', hos', hof'⟩ := PaperOrder.applyFill_whole fill.fillAt hos hof hoq hpos
  obtain ⟨hsame, _⟩ := PaperOrder.applyFill_eq ho'
  obtain ⟨hid, hpid, hiq, hside, hro⟩ := h.matched
  obtain ⟨next, hnext⟩ := AccountState.applyFill_close_whole command.fillId p.positionId fill.fillAt
    h.valid h.position h.isOpen hprice hfee
  obtain ⟨hnv, q, hq', hflat⟩ := AccountState.applyFill_valid h.valid
    (fun _ p' hp' => by rw [h.position] at hp'; cases hp'; rfl) hnext
  have ⟨hqid, hnexp⟩ : q.positionId = p.positionId ∧ next.experimentId = account.experimentId := by
    obtain ⟨q', cash, hb, _, ⟨he, _⟩ | ⟨_, c, hc, _, _, hcl, _⟩⟩ :=
      AccountState.applyFill_cases hnext
    · cases he
    · rw [h.position] at hc
      cases hc
      rw [hb, AccountState.advance_positions, Dict.get?_set_self] at hq'
      cases hq'
      exact ⟨(PositionState.closeFill_step hcl).1.1, by rw [hb]; rfl⟩
  have hclosed := ExitPlan.close_ok fill.fillAt h.status h.wellFormed
  have hstored := stored_ok command.fillId command.orderId
    (some (command.intent.triggerPrice, command.intent.reason)) hfill h.currency
  have hclosing : q.isFlat .exact := hflat.mpr rfl
  have hvalid : (PaperExecutionRecord.mk order' command.exchangeFilters
      [exitStored command account fill] (some next) (some (plan.closed fill.fillAt))).validate
      .exact = .ok () := by
    refine PaperExecutionRecord.validate_single ?_ ?_ ?_ ?_
      ((AccountState.reconcile_ok_iff _).mpr hnv.reconciles) ?_ (hpid.trans hqid.symm)
      (fun ho => absurd hclosing ho) (fun _ => rfl)
    · rw [hsame.2, hoe, hnexp, h.experiment]
    · rw [hsame.6, hosym, h.filterSymbol]
    · exact (hsame.1.trans hoi).symm
    · rw [hof']
      simp [exitStored, storedFill, hq]
    · rw [hsame.6, hosym]
      exact hq'
  refine ⟨⟨⟨order', command.exchangeFilters, [exitStored command account fill], some next,
    some (plan.closed fill.fillAt)⟩, fill⟩, ?_, hbook⟩
  have hintime : ¬ fill.fillAt ≥ command.expiresAt := by
    rw [hat, hbook]
    exact not_le.mpr hx
  rw [hr, hfill]
  show settleExit .exact command account plan p order fill = _
  rw [settleExit, raiseIf_bind_neg hintime, hq, ho', ok_bind, hside, hnext, ok_bind, hclosed,
    ok_bind, finish, exitStored, hstored, ok_bind]
  exact bind_eq_ok.mpr ⟨(), hvalid, rfl⟩

end

end PaperBroker

end Maais
