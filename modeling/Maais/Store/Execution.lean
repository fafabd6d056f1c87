import Maais.Store.Tables

/-!
# The execution repository

* `record`, `recordAccountState`, `recordFunding`  the three writers, each one transaction;
* `loadAccount`, `loadPendingOrders`, `loadOpenExitPlans`, `loadPositionEntryProposalId`  the
  readers;
* `persistAccount`  the part the writers share.
-/

namespace Maais
open Lib

namespace ExecutionTables

variable (A : Arith) (idOrder : UUID → Nat) (db : ExecutionTables)

/-! ## writing the account -/

/-- one position of the loop over `account.positions` -/
def persistPosition (leverage : Nat) (table : Dict UUID PositionRow) (p : PositionState) :
    Py (Dict UUID PositionRow) := do
  raiseIf (∃ row ∈ table.get? p.positionId, p.version < row.version)
    (.staleExecutionState "position state is older than persisted state")
  raiseIf (¬ (positionRow A p leverage).Check) (.integrityError "positions")
  return table.set p.positionId (positionRow A p leverage)

def lotRow (table : Dict UUID LotRow) (positionId : UUID) (lot : PositionLot) : LotRow :=
  match table.get? lot.lotId with
  | none => ⟨positionId, storedLot A lot⟩
  | some row => row.overwrite A lot

def persistLot (table : Dict UUID LotRow) (entry : UUID × PositionLot) : Py (Dict UUID LotRow) := do
  raiseIf (¬ (lotRow A table entry.1 entry.2).Check) (.integrityError "position_lots")
  return table.set entry.2.lotId (lotRow A table entry.1 entry.2)

def accountLots (account : AccountState) : List (UUID × PositionLot) :=
  account.positions.values.flatMap (fun p => p.lots.map (fun lot => (p.positionId, lot)))

def persistPlan (table : Dict UUID ExitPlan) : Option ExitPlan → Py (Dict UUID ExitPlan)
  | none => .ok table
  | some plan => do
    raiseIf (∃ row ∈ table.get? plan.planId, plan.version < row.version)
      (.staleExecutionState "exit plan is older than persisted state")
    raiseIf (¬ (storedPlan A plan).Check) (.integrityError "exit_plans")
    return table.set plan.planId (storedPlan A plan)

def openPlan (plan : ExitPlan) : Prop := plan.status = .active ∨ plan.status = .triggered

instance (plan : ExitPlan) : Decidable (openPlan plan) := by
  unfold openPlan
  infer_instance

def planRisk (plan : ExitPlan) : ℚ :=
  A.mul (A.abs (A.sub plan.averageEntry plan.stopPrice)) plan.quantity

/-- the risk of one open plan of the account: the given one, else the first stored one -/
def riskAtStop (plans : Dict UUID ExitPlan) (account : AccountState) (plan : Option ExitPlan) : ℚ :=
  match plan.filter (fun x => openPlan x) with
  | some plan => planRisk A plan
  | none =>
    match plans.values.find? (fun row =>
        openPlan row ∧ row.positionId ∈ account.positions.values.map (·.positionId)) with
    | some row => planRisk A row
    | none => 0

def insertSnapshot (row : SnapshotRow) : Py (ExecutionTables × Bool) :=
  if row.accountVersion ∈ db.snapshots.map (·.accountVersion) then .ok (db, false)
  else do
    raiseIf (¬ row.Check) (.integrityError "account_snapshots")
    return ({ db with snapshots := db.snapshots ++ [row] }, true)

/-- `_persist_account`: the tables after it, and whether a new snapshot was written -/
def persistAccount (account : AccountState) (plan : Option ExitPlan) (snapshotId : Option UUID) :
    Py (ExecutionTables × Bool) := do
  let positions ← account.positions.values.foldlM (persistPosition A account.leverage) db.positions
  let lots ← (accountLots account).foldlM (persistLot A) db.lots
  let exitPlans ← persistPlan A db.exitPlans plan
  let snapshotAt ← orRaise account.updatedAt
    (.valueError "persisted account must have an update timestamp")
  let written : ExecutionTables := { db with positions, lots, exitPlans }
  written.insertSnapshot
    { sourceId := snapshotId, accountVersion := account.version, snapshotAt,
      snapshot := storedSnapshot A (account.snapshot A),
      riskAtStop := A.store (riskAtStop A exitPlans account plan) }

def latestSnapshot : Option SnapshotRow := db.snapshots.argmax (·.accountVersion)

/-! ## recording an execution -/

structure PaperExecutionResult where
  created : Bool
  orderIntentId : UUID
  orderVersion : Nat
  contentHash : ExecutionContent

def findClient (clientOrderId : String) : Option OrderRow :=
  db.orders.values.find? (fun row => row.clientOrderId = clientOrderId)

def putOrder (r : PaperExecutionRecord)
    (transitions : List OrderTransition) : Py ExecutionTables := do
  raiseIf (¬ (orderRow A r).Check) (.integrityError "order_intents")
  return { db with
    orders := db.orders.set r.order.orderId (orderRow A r)
    orderEvents := db.orderEvents ++ transitions.map (fun t => (r.order.orderId, t)) }

/-- the order of a client identity that is already stored: `none` when this version is -/
def updateOrder (r : PaperExecutionRecord) (existing : OrderRow) : Py (Option ExecutionTables) := do
  raiseIf (existing.commandHash ≠ r.order.commandHash ∨ existing.id ≠ r.order.orderId)
    (.orderIdentityConflict "client order identity has different command content")
  raiseIf (r.order.version < existing.version)
    (.staleExecutionState "order state is older than the persisted version")
  if r.order.version = existing.version then
    raiseIf (existing.contentHash ≠ executionContent r)
      (.orderIdentityConflict "order version has different execution content")
    return none
  else
    let transitions := r.order.events.filter (fun t => t.sequence > existing.version)
    raiseIf (transitions.head?.map (·.sequence) ≠ some (existing.version + 1))
      (.staleExecutionState "order transition sequence is not contiguous")
    let written ← db.putOrder A r transitions
    return some written

def isNewOrder (r : PaperExecutionRecord) : Prop :=
  db.orders.get? r.order.orderId = none ∧ db.findClient r.order.clientOrderId = none

instance (r : PaperExecutionRecord) : Decidable (db.isNewOrder r) := by
  unfold isNewOrder
  infer_instance

/-- the insert of the order, which does nothing when its id or client identity exists -/
def upsertOrder (r : PaperExecutionRecord) : Py (Option ExecutionTables) :=
  if db.isNewOrder r then do
    let written ← db.putOrder A r r.order.events
    return some written
  else
    match db.findClient r.order.clientOrderId with
    | none =>
      .error (.orderIdentityConflict
        "order id is already assigned to another client order identity")
    | some existing => db.updateOrder A r existing

def putFill (db : ExecutionTables) (f : ExecutionFillRecord) : Py ExecutionTables :=
  match db.fills.get? f.id with
  | some row => do
    raiseIf (row ≠ f) (.orderIdentityConflict "fill identity has different content")
    return db
  | none => do
    raiseIf (∃ row ∈ db.fills.values, row.orderIntentId = f.orderIntentId ∧
        row.marketEventId = f.marketEventId)
      (.integrityError "uq_fill_order_market_event")
    raiseIf (¬ (fillRow A f).Check) (.integrityError "fills")
    return { db with fills := db.fills.set f.id (fillRow A f) }

def persistRecordAccount (r : PaperExecutionRecord) : Py ExecutionTables :=
  match r.account with
  | none => .ok db
  | some account => do
    let written ← db.persistAccount A account r.exitPlan none
    return written.1

def recordFills (r : PaperExecutionRecord) : Py ExecutionTables := do
  let filled ← r.fills.foldlM (putFill A) db
  filled.persistRecordAccount A r

/-- the rest of `record` once the order row is settled -/
def recorded (r : PaperExecutionRecord) : Option ExecutionTables →
    Py (ExecutionTables × PaperExecutionResult)
  | none => .ok (db, ⟨false, r.order.orderId, r.order.version, executionContent r⟩)
  | some ordered => do
    let written ← ordered.recordFills A r
    return (written,
      ⟨decide (db.isNewOrder r), r.order.orderId, r.order.version, executionContent r⟩)

def record (r : PaperExecutionRecord) : Py (ExecutionTables × PaperExecutionResult) := do
  r.validate A
  let ordered ← db.upsertOrder A r
  db.recorded A r ordered

/-! ## recording marks and funding -/

def snapshotSource (experimentId : UUID) (kind eventId : String) : UUID :=
  .uuid5 ("maais://paper-account/" ++ experimentId.text ++ "/" ++ kind ++ "/" ++ eventId)

/-- `record_account_state`: whether the source event was new -/
def recordAccountState (account : AccountState) (plan : ExitPlan) (sourceEventId : String)
    (sourceEventKind : String) : Py (ExecutionTables × Bool) := do
  raiseIf (sourceEventId = "" ∨ sourceEventKind = "")
    (.valueError "account state source identity is required")
  raiseIf (¬ ∃ p ∈ account.positions.values, p.positionId = plan.positionId)
    (.valueError "exit plan position does not exist in account state")
  let snapshotId := snapshotSource account.experimentId sourceEventKind sourceEventId
  if some snapshotId ∈ db.snapshots.map (·.sourceId) then return (db, false)
  else
    raiseIf (¬ ∃ latest ∈ db.latestSnapshot, account.version = latest.accountVersion + 1)
      (.staleExecutionState "account state must advance exactly one version from persisted state")
    let written ← db.persistAccount A account (some plan) (some snapshotId)
    raiseIf (written.2 = false)
      (.staleExecutionState "account source event conflicts with persisted version")
    return (written.1, true)

/-- the checks of `record_funding` against the position it settles -/
def checkFunding (funding : FundingRecord) (account : AccountState) : Py Unit := do
  raiseIf (funding.experimentId ≠ account.experimentId)
    (.valueError "funding and account experiment differ")
  let position ← orRaise
    (account.positions.values.find? (fun p => p.positionId = funding.positionId))
    (.valueError "funding position does not exist in account state")
  raiseIf (funding.markPrice ≠ position.markPrice)
    (.valueError "funding mark price differs from official position mark")
  raiseIf (funding.notional ≠ position.grossNotional A)
    (.valueError "funding notional differs from official position notional")
  let expected := A.mul funding.notional funding.rate
  raiseIf ((if position.side = .long then A.neg expected else expected) ≠ funding.amount)
    (.valueError "funding amount does not match side, notional, and rate")

def findFunding (marketEventId : String) : Option FundingRecord :=
  db.fundings.values.find? (fun row => row.marketEventId = marketEventId)

/-- a settlement that is already stored: the same content counts as recorded -/
def duplicateFunding (funding : FundingRecord)
    (conflict : PyError) : Py (ExecutionTables × Bool) := do
  raiseIf (db.findFunding funding.marketEventId ≠ some funding) conflict
  return (db, false)

def insertFunding (funding : FundingRecord)
    (account : AccountState) : Py (ExecutionTables × Bool) := do
  raiseIf (db.fundings.get? funding.id ≠ none ∨ ¬ (fundingRow A funding).Check)
    (.integrityError "funding_entries")
  let inserted : ExecutionTables :=
    { db with fundings := db.fundings.set funding.id (fundingRow A funding) }
  let written ← inserted.persistAccount A account none none
  raiseIf (written.2 = false) (.staleExecutionState "funding account snapshot already exists")
  return (written.1, true)

/-- `record_funding`: whether the settlement was new -/
def recordFunding (funding : FundingRecord)
    (account : AccountState) : Py (ExecutionTables × Bool) := do
  checkFunding A funding account
  let latest ← orRaise db.latestSnapshot
    (.valueError "funding requires an existing official account snapshot")
  if account.version ≤ latest.accountVersion then
    db.duplicateFunding funding
      (.staleExecutionState "funding account state is not newer than persisted state")
  else
    raiseIf (A.sub (account.funding A) latest.snapshot.funding ≠ funding.amount)
      (.valueError "funding delta does not reconcile to the prior snapshot")
    raiseIf (A.sub account.cashBalance latest.snapshot.cashBalance ≠ funding.amount)
      (.valueError "funding cash delta does not reconcile to the prior snapshot")
    if (db.findFunding funding.marketEventId).isSome then
      db.duplicateFunding funding
        (.orderIdentityConflict "funding market event has different content")
    else db.insertFunding A funding account

/-! ## reading -/

/-- `ORDER BY opened_at, id` -/
def lotBefore (a b : PositionLot) : Prop :=
  toLex (a.openedAt, idOrder a.lotId) ≤ toLex (b.openedAt, idOrder b.lotId)

instance : DecidableRel (lotBefore idOrder) := fun a b => by
  unfold lotBefore
  infer_instance

def sortLots (lots : List PositionLot) : List PositionLot := lots.insertionSort (lotBefore idOrder)

def positionLots (positionId : UUID) : List PositionLot :=
  sortLots idOrder ((db.lots.values.filter (fun row => row.positionId = positionId)).map (·.lot))

def positionState (row : PositionRow) (lots : List PositionLot) : PositionState :=
  { positionId := row.id, experimentId := row.experimentId, symbol := row.symbol, side := row.side,
    markPrice := row.markPrice, averageEntry := row.averageEntry, realizedPnl := row.realizedPnl,
    fees := row.fees, funding := row.funding, lots, openedAt := row.openedAt,
    closedAt := row.closedAt, version := row.version }

def loadPositions : Dict String PositionState :=
  Dict.empty.setAll (·.symbol) (fun row => positionState row (db.positionLots idOrder row.id))
    db.positions.values

structure ExperimentCapital where
  experimentId : UUID
  initialCapital : ℚ
  currency : String

def restoredAccount (experiment : ExperimentCapital) (snapshot : SnapshotRow) : AccountState :=
  { experimentId := experiment.experimentId
    initialCapital := experiment.initialCapital
    currency := experiment.currency
    leverage := (db.positions.values.head?.map (·.leverage)).getD 1
    cashBalance := snapshot.snapshot.cashBalance
    peakEquity := snapshot.snapshot.peakEquity
    positions := db.loadPositions idOrder
    version := snapshot.accountVersion
    updatedAt := some snapshot.snapshotAt }

def loadAccount (experiment : ExperimentCapital) : Py AccountState :=
  match db.latestSnapshot with
  | none =>
    AccountState.create experiment.experimentId experiment.initialCapital experiment.currency 1
  | some snapshot => do
    raiseIf (¬ ((db.restoredAccount idOrder experiment snapshot).reconcile A).ok)
      (.arithmeticError "restored account does not reconcile")
    return db.restoredAccount idOrder experiment snapshot

def pendingStatus (s : PaperOrderStatus) : Prop :=
  s = .created ∨ s = .authorized ∨ s = .accepted ∨ s = .partiallyFilled

instance (s : PaperOrderStatus) : Decidable (pendingStatus s) := by
  unfold pendingStatus
  infer_instance

def eventsOf (orderId : UUID) : List OrderTransition :=
  ((db.orderEvents.filter (fun e => e.1 = orderId)).map (·.2)).insertionSort
    (fun a b => a.sequence ≤ b.sequence)

def pendingOrder (row : OrderRow) : Py PaperOrder := do
  let events := db.eventsOf row.id
  raiseIf (events.map (·.sequence) ≠ (List.range row.version).map (· + 1))
    (.staleExecutionState "pending order event stream is incomplete")
  return { orderId := row.id, experimentId := row.experimentId, proposalId := row.proposalId,
           clientOrderId := row.clientOrderId, commandHash := row.commandHash, symbol := row.symbol,
           side := row.side, orderType := row.orderType, positionEffect := row.positionEffect,
           quantity := row.quantity, filledQuantity := row.filledQuantity,
           limitPrice := row.limitPrice, reduceOnly := row.reduceOnly, status := row.status,
           createdAt := row.createdAt, expiresAt := row.expiresAt, version := row.version, events }

def loadPendingOrders : Py (List (PaperOrder × ExchangeFilterSnapshot)) :=
  ((db.orders.values.filter (fun row => pendingStatus row.status)).insertionSort
    (fun a b => toLex (a.createdAt, idOrder a.id) ≤ toLex (b.createdAt, idOrder b.id))).mapM
    (fun row => do
      let order ← db.pendingOrder row
      return (order, row.exchangeFilters))

def openingOrder (lot : PositionLot) : Option OrderRow := do
  let fill ← db.fills.get? lot.openingFillId
  let order ← db.orders.get? fill.orderIntentId
  if order.positionEffect = .open then some order else none

def loadPositionEntryProposalId (positionId : UUID) : Py UUID :=
  orRaise
    (do
      let row ← db.positions.get? positionId
      if row.status = .open then
        let order ← (db.positionLots idOrder positionId).findSome? db.openingOrder
        some order.proposalId
      else none)
    (.lookupError "open position has no persisted entry proposal lineage")

def openExitPlans : List ExitPlan :=
  db.exitPlans.values.filter (fun plan => openPlan plan ∧
    ∃ row ∈ db.positions.get? plan.positionId, row.status = .open)

def loadOpenExitPlans : List ExitPlan :=
  db.openExitPlans.insertionSort
    (fun a b => toLex (a.createdAt, idOrder a.planId) ≤ toLex (b.createdAt, idOrder b.planId))

end ExecutionTables

end Maais
