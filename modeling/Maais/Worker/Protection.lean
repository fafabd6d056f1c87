import Maais.Worker.Observations

/-!
# Position protection

* `evaluateMark`  a mark of an open position: marked, exited, or halted when the exit cannot be
  filled;
* `applyFunding`  a funding settlement of an open position.
-/

namespace Maais
open Lib

inductive ProtectionDisposition
  | marked | exited | halted

structure ProtectionContext where
  experimentId : UUID
  entryProposalId : UUID
  symbol : String
  account : AccountState
  exitPlan : ExitPlan
  exchangeFilters : ExchangeFilterSnapshot
  books : List BookSnapshot
  executionLatency : Time
  orderTtl : Time
  takerFeeRate : ℚ
  entryAdmissionHalted : Bool

structure ProtectionOutcome where
  disposition : ProtectionDisposition
  marketEventId : String
  account : AccountState
  exitPlan : ExitPlan
  execution : Option PaperExecutionRecord
  incident : Option IncidentState
  requiresPersistentHalt : Bool

namespace ProtectionContext

variable (A : Arith) (ctx : ProtectionContext)

/-- `__post_init__`: the context with its books in the order of observation -/
def postInit : Py ProtectionContext := do
  raiseIf (ctx.account.experimentId ≠ ctx.experimentId)
    (.valueError "protection account and experiment differ")
  raiseIf (ctx.exchangeFilters.symbol ≠ ctx.symbol)
    (.valueError "protection filter and symbol differ")
  let position ← ctx.account.position ctx.symbol
  raiseIf (position.isFlat A ∨ position.positionId ≠ ctx.exitPlan.positionId)
    (.valueError "protection requires the matching non-flat position")
  raiseIf (ctx.exitPlan.status ≠ .active ∧ ctx.exitPlan.status ≠ .triggered)
    (.valueError "protection requires an active or triggered exit plan")
  raiseIf (ctx.executionLatency ≤ 0 ∨ ctx.orderTtl ≤ 0)
    (.valueError "protection latency and order TTL must be positive")
  raiseIf (¬ (0 ≤ ctx.takerFeeRate ∧ ctx.takerFeeRate ≤ 1))
    (.valueError "protection taker fee must be a finite Decimal in [0, 1]")
  return { ctx with books := ctx.books.insertionSort (fun a b => a.order ≤ b.order) }

def triggerExecutablePrice (event : ObservedMarketEvent) (mark : MarkFundingPayload) : Py ℚ :=
  match (ctx.books.filter (fun book =>
      book.symbol = ctx.symbol ∧ book.observedAt ≤ event.observedAt)).getLast? with
  | none => .ok mark.markPrice
  | some book => do
    let position ← ctx.account.position ctx.symbol
    return if position.side = .long then book.bestBid else book.bestAsk

/-- the plan and the intent of a mark; a triggered plan keeps its first intent -/
def evaluation (event : ObservedMarketEvent) (mark : MarkFundingPayload) : Py ExitEvaluation :=
  if ctx.exitPlan.status = .triggered then do
    let intent ← ctx.exitPlan.pendingIntent
    return ⟨ctx.exitPlan, some intent⟩
  else do
    let executablePrice ← ctx.triggerExecutablePrice event mark
    ctx.exitPlan.evaluateMark mark.markPrice event.observedAt (some executablePrice)

def exitCommand (event : ObservedMarketEvent) (plan : ExitPlan) (intent : ExitIntent)
    (executablePrice : ℚ) :
    MarketExitCommand :=
  { orderId := idOf "protective-order" [ctx.experimentId.text, plan.planId.text, event.eventId]
    fillId := idOf "protective-fill" [ctx.experimentId.text, plan.planId.text, event.eventId]
    experimentId := ctx.experimentId
    proposalId := ctx.entryProposalId
    clientOrderId := "paper-protect-" ++ plan.planId.text ++ "-" ++ toString plan.version
    symbol := ctx.symbol
    decisionExecutablePrice := executablePrice
    executionLatency := ctx.executionLatency
    createdAt := event.observedAt
    expiresAt := event.observedAt + ctx.orderTtl
    takerFeeRate := ctx.takerFeeRate
    intent
    exchangeFilters := ctx.exchangeFilters }

def incident (event : ObservedMarketEvent) (reasonCode : String) : IncidentState :=
  let deduplicationKey :=
    "protective-exit:" ++ ctx.experimentId.text ++ ":" ++ ctx.exitPlan.planId.text ++ ":" ++
    event.eventId ++ ":" ++ reasonCode
  .create (idOf "incident" [deduplicationKey]) ctx.experimentId deduplicationKey .critical
    "position_protection" reasonCode true event.observedAt

end ProtectionContext

namespace ProtectionOutcome

variable (A : Arith) (o : ProtectionOutcome)

def shapeOk : Prop :=
  match o.disposition with
  | .marked => o.execution = none ∧ o.incident = none ∧ o.requiresPersistentHalt = false ∧
      o.exitPlan.status = .active
  | .exited => o.execution ≠ none ∧ o.incident = none ∧ o.requiresPersistentHalt = false ∧
      o.exitPlan.status = .closed
  | .halted => o.execution = none ∧ o.incident ≠ none ∧ o.requiresPersistentHalt = true ∧
      o.exitPlan.status = .triggered

instance : Decidable o.shapeOk := by
  unfold shapeOk
  cases o.disposition <;> infer_instance

def shapeError : ProtectionDisposition → String
  | .marked => "marked outcome shape is invalid"
  | .exited => "exited outcome shape is invalid"
  | .halted => "halted protection outcome shape is invalid"

def postInit : Py ProtectionOutcome := do
  raiseIf (o.marketEventId = "") (.valueError "protection outcome requires a market event")
  raiseIf (¬ o.shapeOk) (.valueError (shapeError o.disposition))
  raiseIf (¬ (o.account.reconcile A).ok) (.valueError "protection account does not reconcile")
  raiseIf (∃ r ∈ o.execution, r.account ≠ some o.account ∨ r.exitPlan ≠ some o.exitPlan)
    (.valueError "protection execution differs from official account or exit plan")
  raiseIf (∃ i ∈ o.incident, i.experimentId ≠ o.account.experimentId)
    (.valueError "protection incident and account experiment differ")
  return o

end ProtectionOutcome

/-! ## marks -/

def haltReason : PyError → String
  | .exitExecutionHalt _ _ => "protective_exit_unfillable"
  | _ => "protective_exit_execution_failed"

namespace PositionProtection

variable (A : Arith) (broker : PaperBroker)

def marked (event : ObservedMarketEvent) (account : AccountState) (plan : ExitPlan) :
    Py ProtectionOutcome :=
  ProtectionOutcome.postInit A ⟨.marked, event.eventId, account, plan, none, none, false⟩

def halted (event : ObservedMarketEvent) (ctx : ProtectionContext) (account : AccountState)
    (plan : ExitPlan) (e : PyError) : Py ProtectionOutcome :=
  ProtectionOutcome.postInit A
    ⟨.halted, event.eventId, account, plan, none, some (ctx.incident event (haltReason e)), true⟩

def exited (event : ObservedMarketEvent) (r : PaperExecutionRecord) : Py ProtectionOutcome := do
  let account ← orRaise r.account
    (.runtimeError "protective exit did not produce account and exit state")
  let plan ← orRaise r.exitPlan
    (.runtimeError "protective exit did not produce account and exit state")
  ProtectionOutcome.postInit A ⟨.exited, event.eventId, account, plan, some r, none, false⟩

/-- the exit order of a triggered plan: filled, or halted whatever the broker raised -/
def exit (event : ObservedMarketEvent) (ctx : ProtectionContext) (account : AccountState)
    (plan : ExitPlan) (intent : ExitIntent) : Py ProtectionOutcome := do
  let executablePrice ← orRaise plan.triggerExecutablePrice (.runtimeError "AssertionError")
  match broker.executeMarketExit A (ctx.exitCommand event plan intent executablePrice) account plan
      ctx.books with
  | .error e => halted A event ctx account plan e
  | .ok r => exited A event r.record

/-- the end of `evaluate_mark` -/
def settle (event : ObservedMarketEvent) (ctx : ProtectionContext) (account : AccountState)
    (evaluation : ExitEvaluation) : Py ProtectionOutcome :=
  match evaluation.intent with
  | none => marked A event account evaluation.plan
  | some intent => exit A broker event ctx account evaluation.plan intent

def evaluateMark (event : ObservedMarketEvent) (mark : MarkFundingPayload)
    (ctx : ProtectionContext) : Py ProtectionOutcome := do
  raiseIf (event.symbol ≠ ctx.symbol) (.valueError "protection event and context symbol differ")
  raiseIf (∃ t ∈ ctx.account.updatedAt, event.observedAt < t)
    (.valueError "protection mark would regress official account time")
  let account ← ctx.account.mark A ctx.symbol mark.markPrice event.observedAt
  let evaluation ← ctx.evaluation event mark
  settle A broker event ctx account evaluation

/-! ## what a mark came to -/

variable {A broker} {event : ObservedMarketEvent} {mark : MarkFundingPayload}

/-- the evaluation of a mark: a fired plan keeps its intent, an active one is left alone or fires -/
theorem evaluation_cases {ctx : ProtectionContext} {e : ExitEvaluation}
    (h : ctx.evaluation event mark = .ok e) :
    (ctx.exitPlan.status = .triggered ∧ e.plan = ctx.exitPlan ∧
        ∃ intent, ctx.exitPlan.pendingIntent = .ok intent ∧ e.intent = some intent) ∨
      ctx.exitPlan.status = .active ∧
      (ctx.exitPlan.markReason mark.markPrice = none ∧ e = ⟨ctx.exitPlan, none⟩ ∨
        ∃ reason exec, ctx.exitPlan.markReason mark.markPrice = some reason ∧
        ctx.triggerExecutablePrice event mark = .ok exec ∧
        e = ⟨ctx.exitPlan.triggered reason event.observedAt (some mark.markPrice) exec,
          some (ctx.exitPlan.intentFor reason event.observedAt (some mark.markPrice))⟩) := by
  unfold ProtectionContext.evaluation at h
  split at h
  · rename_i hs
    simp only [bind_eq_ok, pure_ok_iff] at h
    obtain ⟨intent, hi, rfl⟩ := h
    exact Or.inl ⟨hs, rfl, intent, hi, rfl⟩
  · simp only [bind_eq_ok] at h
    obtain ⟨exec, hexec, h⟩ := h
    obtain ⟨ha, _, hcases⟩ := ExitPlan.evaluateMark_cases h
    refine Or.inr ⟨ha, ?_⟩
    obtain ⟨hn, rfl⟩ | ⟨reason, hr, rfl⟩ := hcases
    · exact Or.inl ⟨hn, rfl⟩
    · exact Or.inr ⟨reason, exec, hr, hexec, rfl⟩

theorem outcome_postInit_eq {o o' : ProtectionOutcome} (h : o.postInit A = .ok o') : o' = o := by
  simp only [ProtectionOutcome.postInit, bind_eq_ok, pure_ok_iff] at h
  obtain ⟨_, _, _, _, _, _, _, _, _, _, rfl⟩ := h
  rfl

inductive Outcome (A : Arith) (broker : PaperBroker) (event : ObservedMarketEvent)
    (ctx : ProtectionContext) (account : AccountState) (e : ExitEvaluation) :
    ProtectionOutcome → Prop
  | marked (hi : e.intent = none) : Outcome A broker event ctx account e
      ⟨.marked, event.eventId, account, e.plan, none, none, false⟩
  | halted {intent : ExitIntent} {price : ℚ} {err : PyError} (hi : e.intent = some intent)
      (hp : e.plan.triggerExecutablePrice = some price)
      (hx : broker.executeMarketExit A
        (ctx.exitCommand event e.plan intent price) account e.plan ctx.books = .error err) :
        Outcome A broker event ctx account e
      ⟨.halted, event.eventId, account, e.plan, none,
        some (ctx.incident event (haltReason err)), true⟩
  | exited {intent : ExitIntent} {price : ℚ} {r : PaperBrokerResult} {next : AccountState}
      {plan : ExitPlan} (hi : e.intent = some intent)
      (hp : e.plan.triggerExecutablePrice = some price)
        (hx : broker.executeMarketExit A
        (ctx.exitCommand event e.plan intent price) account e.plan ctx.books = .ok r)
        (ha : r.record.account = some next) (hr : r.record.exitPlan = some plan) :
      Outcome A broker event ctx account e
      ⟨.exited, event.eventId, next, plan, some r.record, none, false⟩

theorem settle_cases {ctx : ProtectionContext} {account : AccountState}
    {e : ExitEvaluation} {o : ProtectionOutcome} (h : settle A broker event ctx account e = .ok o) :
    Outcome A broker event ctx account e o := by
  unfold settle at h
  split at h
  · rename_i hi
    rw [outcome_postInit_eq h]
    exact .marked hi
  · rename_i intent hi
    simp only [exit, bind_eq_ok, orRaise_eq_ok] at h
    obtain ⟨price, hp, h⟩ := h
    split at h
    · rename_i err hx
      rw [outcome_postInit_eq h]
      exact .halted hi hp hx
    · rename_i r hx
      simp only [exited, bind_eq_ok, orRaise_eq_ok] at h
      obtain ⟨next, ha, plan, hr, h⟩ := h
      rw [outcome_postInit_eq h]
      exact .exited hi hp hx ha hr

/-- **what an evaluated mark did**: the account is marked, the plan evaluated, the outcome
settled -/
theorem evaluateMark_cases
    {ctx : ProtectionContext} {o : ProtectionOutcome}
    (h : evaluateMark A broker event mark ctx = .ok o) : event.symbol = ctx.symbol ∧
      (∀ t ∈ ctx.account.updatedAt, t ≤ event.observedAt) ∧
        ∃ account e, ctx.account.mark A ctx.symbol mark.markPrice event.observedAt = .ok account ∧
        ctx.evaluation event mark = .ok e ∧ Outcome A broker event ctx account e o := by
  simp only [evaluateMark, bind_eq_ok, raiseIf_eq_ok, ne_eq, not_not] at h
  obtain ⟨_, hs, _, ht, account, ha, e, he, h⟩ := h
  exact ⟨hs, fun t hm => not_lt.mp fun hlt => ht ⟨t, hm, hlt⟩, account, e, ha, he, settle_cases h⟩

end PositionProtection

/-! ## funding -/

structure FundingSettlementCommand where
  experimentId : UUID
  symbol : String
  marketEventId : String
  fundingAt : Time
  observedAt : Time
  markPrice : ℚ
  rate : ℚ
  rateType : String
  account : AccountState

structure FundingApplicationOutcome where
  record : FundingRecord
  account : AccountState

namespace FundingSettlementCommand

variable (A : Arith) (c : FundingSettlementCommand)

def postInit : Py FundingSettlementCommand := do
  raiseIf (c.symbol = "" ∨ c.marketEventId = "")
    (.valueError "funding settlement identity is required")
  raiseIf (c.account.experimentId ≠ c.experimentId)
    (.valueError "funding account and experiment differ")
  raiseIf (c.observedAt < c.fundingAt)
    (.valueError "funding cannot be observed before venue settlement")
  raiseIf (∃ t ∈ c.account.updatedAt, c.observedAt < t)
    (.valueError "funding settlement would regress official account time")
  requirePositiveDecimal c.markPrice "funding mark_price"
  raiseIf (¬ (c.rateType = "Regular" ∨ c.rateType = "Special"))
    (.valueError "funding rate_type must be Regular or Special")
  let position ← c.account.position c.symbol
  raiseIf (position.isFlat A) (.valueError "funding settlement requires an open position")
  raiseIf (¬ ∃ t ∈ position.openedAt, t ≤ c.fundingAt)
    (.valueError "funding settlement predates the open position")
  return c

/-- `PositionProtectionService.apply_funding` -/
def apply : Py FundingApplicationOutcome := do
  let marked ← c.account.mark A c.symbol c.markPrice c.observedAt
  let position ← marked.position c.symbol
  let funded ← marked.applyFunding A c.symbol c.rate c.observedAt
  let next ← funded.position c.symbol
  let record ← FundingRecord.postInit
    { id := idOf "paper-funding" [c.experimentId.text, c.marketEventId]
      experimentId := c.experimentId
      positionId := position.positionId
      marketEventId := c.marketEventId
      fundingAt := c.fundingAt
      observedAt := c.observedAt
      rate := c.rate
      rateType := c.rateType
      markPrice := c.markPrice
      notional := position.grossNotional A
      amount := A.sub next.funding position.funding }
  raiseIf (¬ (funded.reconcile A).ok) (.valueError "funding outcome account does not reconcile")
  return ⟨record, funded⟩

variable {A c}

theorem postInit_eq {c' : FundingSettlementCommand} (h : c.postInit A = .ok c') :
    c' = c ∧ ∀ t ∈ c.account.updatedAt, t ≤ c.observedAt := by
  simp only [postInit, bind_eq_ok, raiseIf_eq_ok, pure_ok_iff] at h
  obtain ⟨_, _, _, _, _, _, _, ht, _, _, _, _, _, _, _, _, _, _, rfl⟩ := h
  exact ⟨rfl, fun t hm => not_lt.mp fun hlt => ht ⟨t, hm, hlt⟩⟩

theorem apply_cases {o : FundingApplicationOutcome} (h : c.apply A = .ok o) :
    ∃ marked, c.account.mark A c.symbol c.markPrice c.observedAt = .ok marked ∧
      marked.applyFunding A c.symbol c.rate c.observedAt = .ok o.account := by
  simp only [apply, bind_eq_ok, pure_ok_iff] at h
  obtain ⟨marked, hm, _, _, funded, hf, _, _, _, _, _, _, rfl⟩ := h
  exact ⟨marked, hm, hf⟩

end FundingSettlementCommand

end Maais
