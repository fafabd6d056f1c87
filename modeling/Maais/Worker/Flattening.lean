import Maais.Lib.Keyed
import Maais.Worker.Marks
import Mathlib.Data.String.Basic

/-!
# A flatten closes everything or nothing

The planner sends the exits one after the other through one account. In exact arithmetic an exit of
the whole position is refused only by its filters or its first book, and never by the account the
exits before it left.

* `ExitAsked.outcome`  an exit is filled when its filters and its first book allow it, and halts
  otherwise;
* `Exits`  a chain of exits: its accounts follow each other, and its positions are flat at the end;
* `planExits_outcome`  the planner returns such a chain over all open positions, or a planning
  error;
* `prepareFlatten_all_or_nothing`  what a flatten does to the account, and when it is stored.
-/

namespace Maais
open Lib

def PaperExecutionRecord.leg (r : PaperExecutionRecord) : String × List (ℚ × ℚ × ℚ) :=
  (r.order.symbol, r.fills.map (fun f => (f.quantity, f.price, f.fee)))

namespace FlattenPlan

def accounts (plan : FlattenPlan) : List AccountState := plan.executions.filterMap (·.account)

def finalAccount (plan : FlattenPlan) : AccountState := plan.accounts.getLastD plan.sourceAccount

end FlattenPlan

def PositionState.closingGain (p : PositionState) (price : ℚ) : ℚ :=
  (PositionState.closeLots .exact p.side price p.lots (p.quantity .exact) 0).2

/-! ## one exit -/

/-- the filters take the order as it is, and the first eligible book is fresh, deep enough and
before the expiry -/
structure ExitFits (engine : MarketFillEngine) (filters : ExchangeFilterSnapshot)
    (request : MarketFillRequest) (triggeredAt expiresAt : Time) (books : List BookSnapshot)
    (book : BookSnapshot) : Prop where
  captured : filters.capturedAt ≤ triggeredAt
  admitted : filters.admits .exact request.side request.quantity request.decisionExecutablePrice
  first : MarketFillEngine.earliest request books = some book
  usable : engine.Usable request book
  inTime : book.observedAt < expiresAt

structure ExitAsked (command : MarketExitCommand) (account : AccountState) (plan : ExitPlan)
    (p : PositionState) : Prop where
  valid : account.Valid
  experiment : account.experimentId = command.experimentId
  position : account.positions.get? command.symbol = some p
  isOpen : ¬ p.isFlat .exact
  status : plan.status = .triggered
  wellFormed : plan.WellFormed
  matched : PaperBroker.intentMatches .exact command plan p
  filterSymbol : command.exchangeFilters.symbol = command.symbol
  latency : 0 < command.executionLatency
  clientOrderId : command.clientOrderId ≠ ""
  expiry : command.createdAt < command.expiresAt
  fee : 0 ≤ command.takerFeeRate ∧ command.takerFeeRate ≤ 1
  price : 0 < command.decisionExecutablePrice
  currency : account.currency ≠ ""

structure ExitClosed (fill : PaperFill) (planId : UUID) (a : AccountState) (p : PositionState)
    (r : PaperExecutionRecord) (b : AccountState) : Prop where
  account : r.account = some b
  recorded : r.validate .exact = .ok ()
  order : r.order.experimentId = a.experimentId ∧ r.order.symbol = p.symbol
  plan : ∃ closed ∈ r.exitPlan, closed.planId = planId ∧ closed.positionId = p.positionId
  filled : r.fills.map (fun f => (f.quantity, f.price, f.fee)) =
    [(p.quantity .exact, fill.price, fill.fee)]
  valid : b.Valid
  kept : b.experimentId = a.experimentId ∧ b.currency = a.currency
  version : b.version = a.version + 1
  cash : b.cashBalance = a.cashBalance + p.closingGain fill.price - fill.fee
  position : ∃ q, a.Moves p.symbol q b ∧ q.isFlat .exact ∧
    q.realizedPnl = p.realizedPnl + p.closingGain fill.price

section
variable {command : MarketExitCommand} {a b : AccountState} {plan : ExitPlan} {p : PositionState}
  {broker : PaperBroker} {books : List BookSnapshot} {book : BookSnapshot} {r : PaperBrokerResult}

def CommandFits (broker : PaperBroker) (command : MarketExitCommand) (p : PositionState)
    (books : List BookSnapshot) (book : BookSnapshot) : Prop :=
  ExitFits broker.marketFills command.exchangeFilters (PaperBroker.readyRequest command p)
    command.intent.triggeredAt command.expiresAt books book

theorem ExitAsked.quantity_pos (h : ExitAsked command a plan p) : 0 < p.quantity .exact :=
  (h.valid.positions _ _ h.position).1.quantity_pos h.isOpen

theorem ExitAsked.ready (h : ExitAsked command a plan p)
    (hcap : command.exchangeFilters.capturedAt ≤ command.intent.triggeredAt)
    (hadm : command.exchangeFilters.admits .exact command.intent.side (p.quantity .exact)
      command.decisionExecutablePrice) : PaperBroker.ExitReady command a plan p :=
  ⟨h.valid, h.experiment, h.position, h.isOpen, h.status, h.wellFormed, h.matched, hcap,
    h.filterSymbol, hadm, h.latency, h.clientOrderId, h.expiry, h.fee, h.price, h.currency⟩

/-- an order the filters do not take as it is -/
theorem ExitAsked.refused (h : ExitAsked command a plan p) (broker : PaperBroker)
    (books : List BookSnapshot)
    (hno : ¬ (command.exchangeFilters.capturedAt ≤ command.intent.triggeredAt ∧
        command.exchangeFilters.admits .exact command.intent.side
        (p.quantity .exact) command.decisionExecutablePrice)) :
    ∃ reason id, broker.executeMarketExit .exact command a plan books =
        .error (.exitExecutionHalt reason id) := by
  rw [PaperBroker.executeMarketExit, raiseIf_not_bind h.experiment, AccountState.position,
    h.position, orRaise_some, ok_bind, raiseIf_bind_neg h.isOpen, raiseIf_not_bind h.status,
    raiseIf_not_bind h.matched, h.matched.2.2.1]
  by_cases hcap : command.exchangeFilters.capturedAt ≤ command.intent.triggeredAt
  · rw [raiseIf_bind_neg (not_lt.mpr hcap)]
    have hq := h.quantity_pos
    cases hprep :
        command.exchangeFilters.prepare .exact command.intent.side .market (p.quantity .exact)
        (p.quantity .exact) (some command.decisionExecutablePrice)
        (Arith.exact.mul (p.quantity .exact) command.decisionExecutablePrice) with
    | error e =>
      obtain ⟨reason, rfl⟩ :=
        ExchangeFilterSnapshot.prepare_rejects hq (mul_pos hq h.price) h.price e hprep
      exact ⟨_, _, rfl⟩
    | ok prepared =>
      have hresidual : prepared.quantity ≠ p.quantity .exact :=
        fun he => hno ⟨hcap, prepared, hprep, he⟩
      rw [PaperBroker.catchFilter_eq_ok.mpr rfl, ok_bind, raiseIf_bind_pos hresidual]
      exact ⟨_, _, rfl⟩
  · rw [raiseIf_bind_pos (not_le.mp hcap)]
    exact ⟨_, _, rfl⟩

theorem ExitAsked.outcome (h : ExitAsked command a plan p) (broker : PaperBroker)
    (books : List BookSnapshot) : (∃ book r, CommandFits broker command p books book ∧
      broker.executeMarketExit .exact command a plan books = .ok r) ∨
    (¬ ∃ book, CommandFits broker command p books book) ∧
      ∃ reason id, broker.executeMarketExit .exact command a plan books =
      .error (.exitExecutionHalt reason id) := by
  by_cases hfilter : command.exchangeFilters.capturedAt ≤ command.intent.triggeredAt ∧
      command.exchangeFilters.admits .exact command.intent.side (p.quantity .exact)
        command.decisionExecutablePrice
  · have hready := h.ready hfilter.1 hfilter.2
    obtain ⟨order, _, _, _, _, _, _, hx⟩ := PaperBroker.executeMarketExit_ready broker books hready
    cases hfirst : MarketFillEngine.earliest (PaperBroker.readyRequest command p) books with
    | none =>
      refine Or.inr ⟨fun ⟨book, hfits⟩ => (nomatch hfirst.symm.trans hfits.first),
        "no_eligible_book", none, ?_⟩
      rw [hx, MarketFillEngine.fill, hfirst]
      rfl
    | some book =>
      have hsame : ∀ book', CommandFits broker command p books book' → book' = book :=
        fun book' hfits => Option.mem_unique hfits.first hfirst
      by_cases husable : broker.marketFills.Usable (PaperBroker.readyRequest command p) book
      · by_cases htime : book.observedAt < command.expiresAt
        · obtain ⟨r, hr, _⟩ := PaperBroker.executeMarketExit_exact hready hfirst husable htime
          exact Or.inl ⟨book, r, ⟨hfilter.1, hfilter.2, hfirst, husable, htime⟩, hr⟩
        · obtain ⟨fill, hfill, hbook⟩ :=
            MarketFillEngine.fill_exact hready.quantity_pos h.fee.1 hfirst husable
          have hlate : fill.fillAt ≥ command.expiresAt := by
            rw [(MarketFillEngine.fill_book hfill).2.1, hbook]
            exact not_lt.mp htime
          refine Or.inr ⟨fun ⟨book', hfits⟩ => htime (hsame book' hfits ▸ hfits.inTime),
            "exit_fill_after_expiry", some fill.marketEventId, ?_⟩
          rw [hx, hfill]
          show PaperBroker.settleExit .exact command a plan p order fill = _
          rw [PaperBroker.settleExit, raiseIf_bind_pos hlate]
      · obtain ⟨reason, hr⟩ := PaperBroker.executeMarketExit_unusable hready hfirst husable
        exact Or.inr ⟨fun ⟨book', hfits⟩ => husable (hsame book' hfits ▸ hfits.usable), reason, _,
          hr⟩
  · exact Or.inr ⟨fun ⟨_, hfits⟩ => hfilter ⟨hfits.captured, hfits.admitted⟩,
      h.refused broker books hfilter⟩

theorem closeFill_realized {q : PositionState} {price fee : ℚ} {t : Time}
    (h : p.closeFill .exact (p.quantity .exact) price fee t = .ok q) :
    q.realizedPnl = p.realizedPnl + p.closingGain price := by
  simp only [PositionState.closeFill, bind_eq_ok, pure_ok_iff] at h
  obtain ⟨_, _, _, _, _, _, _, _, rfl⟩ := h
  rfl

theorem ExitAsked.closed (h : ExitAsked command a plan p)
    (hfits : CommandFits broker command p books book)
    (hr : broker.executeMarketExit .exact command a plan books = .ok r) :
    broker.marketFills.fill .exact (PaperBroker.readyRequest command p) books = .ok r.fill ∧
      ∃ b, ExitClosed r.fill plan.planId a p r.record b := by
  obtain ⟨order, _, _, _, _, _, _, hx⟩ :=
    PaperBroker.executeMarketExit_ready broker books (h.ready hfits.captured hfits.admitted)
  have hfill : broker.marketFills.fill .exact (PaperBroker.readyRequest command p) books =
      .ok r.fill := by
    rw [hx, bind_eq_ok] at hr
    obtain ⟨fill, hfill, hsettle⟩ := hr
    simp only [PaperBroker.settleExit, bind_eq_ok] at hsettle
    obtain ⟨_, _, _, _, _, _, _, _, hfinish⟩ := hsettle
    rw [(PaperBroker.finish_eq hfinish).1]
    exact PaperBroker.catchFill_eq_ok.mp hfill
  refine ⟨hfill, ?_⟩
  obtain ⟨p', b, closed, hf⟩ := PaperBroker.executeMarketExit_cases hr
  obtain rfl : p' = p := Option.mem_unique hf.position h.position
  have hwhole : ∀ x, a.positions.get? command.symbol = some x →
      r.fill.quantity = x.quantity .exact := by
    intro x hx
    rw [hf.quantity, Option.mem_unique hx h.position]
  obtain ⟨hvalid, q, hq, hflat⟩ := AccountState.applyFill_valid h.valid (fun _ => hwhole) hf.filled
  have hsymbol : p'.symbol = command.symbol := (h.valid.positions _ _ h.position).2.1
  obtain ⟨q', cash, hb, _, ⟨he, _⟩ | ⟨_, c, hc, _, _, hclose, hcash⟩⟩ :=
    AccountState.applyFill_cases hf.filled
  · cases he
  obtain rfl : c = p' := Option.mem_unique hc h.position
  obtain rfl : q = q' := by
    rw [hb, AccountState.advance_positions, Dict.get?_set_self] at hq
    exact (Option.some.inj hq).symm
  rw [hf.quantity] at hclose
  have hgain := closeFill_realized hclose
  refine ⟨b, hf.record.1, hf.valid,
    ⟨hf.order.experimentId.trans h.experiment.symm, hf.order.symbol.trans hsymbol.symm⟩,
    ⟨closed, hf.record.2.1, ?_⟩, ?_, hvalid, ?_, ?_, ?_, q, ?_, hflat.mpr rfl, hgain⟩
  · rw [(ExitPlan.close_eq hf.closed).2]
    exact ⟨rfl, h.matched.2.1⟩
  · rw [hf.record.2.2.1, List.map_singleton, ← hf.quantity]
    rfl
  · rw [hb]
    exact ⟨rfl, rfl⟩
  · rw [hb]
    rfl
  · rw [hb, AccountState.advance_cashBalance, hcash, hgain, Arith.exact_sub, Arith.exact_add,
      Arith.exact_sub, add_sub_cancel_left]
  · rw [hb, hsymbol]
    exact AccountState.advance_moves

end

/-! ## the exits of a flatten -/

namespace Database

section
variable {cfg : WorkerConfig} {source : FlattenSource} {before after : ObservationBuffer} {t : Time}
  {commandId : UUID} {a b : AccountState} {p : PositionState} {l : List PositionState}
  {input : FlattenInput} {inputs : List FlattenInput} {books : List BookSnapshot}

/-- what the planner asks the fill engine for: the whole position, eligible after the latency -/
def flattenRequest (cfg : WorkerConfig) (t : Time) (p : PositionState) (price : ℚ) :
    MarketFillRequest :=
  { symbol := p.symbol, side := p.side.closingSide, quantity := p.quantity .exact,
    eligibleAfter := t + cfg.policy.executionLatency, decisionExecutablePrice := price,
    takerFeeRate := cfg.policy.takerFeeRate }

def flattenEligible (cfg : WorkerConfig) (t : Time) (after : ObservationBuffer)
    (p : PositionState) : List BookSnapshot :=
  after.eligibleBooks p.symbol (t + cfg.policy.executionLatency)

def flattenFill (cfg : WorkerConfig) (t : Time) (before after : ObservationBuffer)
    (p : PositionState) : Option PaperFill := do
  let mark ← before.latestMark p.symbol t
  (cfg.broker.marketFills.fill .exact (flattenRequest cfg t p mark.1)
    (flattenEligible cfg t after p)).toOption

def flattenLeg (cfg : WorkerConfig) (t : Time) (before after : ObservationBuffer)
    (p : PositionState) : String × List (ℚ × ℚ × ℚ) :=
  (p.symbol,
    ((flattenFill cfg t before after p).map (fun f => (p.quantity .exact, f.price, f.fee))).toList)

def MarkFits (cfg : WorkerConfig) (t : Time) (after : ObservationBuffer) (p : PositionState)
    (price : ℚ) (book : BookSnapshot) : Prop :=
  ExitFits cfg.broker.marketFills (cfg.filters p.symbol) (flattenRequest cfg t p price) t
    (t + cfg.policy.proposalTtl) (flattenEligible cfg t after p) book

/-- the plan of the position is active, its symbol has a causal mark, and the exit at that mark can
be filled -/
structure Flattenable (cfg : WorkerConfig) (source : FlattenSource) (t : Time)
    (before after : ObservationBuffer) (p : PositionState) : Prop where
  active : ∀ plan ∈ source.exitPlans, plan.positionId = p.positionId → plan.status = .active
  exit : ∃ price event book, before.latestMark p.symbol t = some (price, event) ∧
    MarkFits cfg t after p price book

/-- a valid account, and for every open position a plan over all of it, made by the time of the
flatten -/
structure FlattenSound (cfg : WorkerConfig) (source : FlattenSource) (t : Time) : Prop where
  valid : source.account.Valid
  currency : source.account.currency ≠ ""
  traded : ∀ p ∈ source.account.openPositions .exact, p.symbol ∈ cfg.manifest.symbols
  planned : ∀ p ∈ source.account.openPositions .exact, ∀ plan ∈ source.exitPlans, plan.positionId =
    p.positionId → plan.side = p.side ∧ plan.quantity = p.quantity .exact ∧ plan.createdAt ≤ t

structure Standing (cfg : WorkerConfig) (source : FlattenSource) (t : Time) (a : AccountState)
    (l : List PositionState) : Prop where
  valid : a.Valid
  experiment : a.experimentId = cfg.manifest.experimentId
  currency : a.currency ≠ ""
  held : ∀ p ∈ l, a.positions.get? p.symbol = some p ∧ ¬ p.isFlat .exact
  symbols : (l.map (·.symbol)).Nodup
  traded : ∀ p ∈ l, p.symbol ∈ cfg.manifest.symbols
  planned : ∀ p ∈ l, ∀ plan ∈ source.exitPlans, plan.positionId = p.positionId →
    plan.side = p.side ∧ plan.quantity = p.quantity .exact ∧ plan.createdAt ≤ t

def Reads (cfg : WorkerConfig) (source : FlattenSource) (before : ObservationBuffer) (t : Time)
    (p : PositionState) (input : FlattenInput) : Prop :=
  InputRead cfg source before t p input ∧ input.trigger.exitPlanId = input.exitPlan.planId

inductive Exits (cfg : WorkerConfig) (t : Time) (before after : ObservationBuffer) :
    AccountState → List PositionState → List FlattenTrigger → List PaperExecutionRecord →
    AccountState → Prop
  | nil {a : AccountState} : Exits cfg t before after a [] [] [] a
  | cons {a b c : AccountState} {p : PositionState} {l : List PositionState}
      {trigger : FlattenTrigger} {triggers : List FlattenTrigger} {r : PaperExecutionRecord}
      {rs : List PaperExecutionRecord} {fill : PaperFill}
      (hfill : flattenFill cfg t before after p = some fill)
      (hclosed : ExitClosed fill trigger.exitPlanId a p r b)
      (htrigger : trigger.symbol = p.symbol ∧ trigger.positionId = p.positionId)
      (rest : Exits cfg t before after b l triggers rs c) : Exits cfg t before after a (p :: l)
      (trigger :: triggers) (r :: rs) c

def Unplanned {α : Type} (x : Py α) : Prop := ∃ code message,
    x = .error (.flattenPlanningError code message)

theorem Unplanned.bind {α β : Type} {x : Py α} {f : α → Py β} (h : Unplanned x) :
    Unplanned (x >>= f) := by
  obtain ⟨code, message, rfl⟩ := h
  exact ⟨code, message, rfl⟩

theorem Standing.asked (h : Standing cfg source t a (p :: l))
    (hin : InputRead cfg source before t p input) (commandId : UUID) :
    ExitAsked (flattenCommand cfg commandId t input (input.exitPlan.intentFor .emergency t none)) a
      (input.exitPlan.triggered .emergency t none input.trigger.markPrice) p := by
  obtain ⟨hheld, hopen⟩ := h.held p List.mem_cons_self
  obtain ⟨hside, hquantity, hcreated⟩ := h.planned p List.mem_cons_self _ hin.plan.1 hin.plan.2
  have hclient :
      (flattenCommand cfg commandId t input
      (input.exitPlan.intentFor .emergency t none)).clientOrderId ≠ "" := by
    intro he
    simp [flattenCommand] at he
  refine
    { valid := h.valid, experiment := h.experiment, position := ?_, isOpen := hopen, status := rfl
      wellFormed := ExitPlan.triggered_wellFormed .emergency hcreated (by simp) hin.price
      matched := ⟨hin.plan.2, hin.plan.2, hquantity, congrArg Direction.closingSide hside, rfl⟩
      filterSymbol := ?_, latency := cfg.policy.executionLatency_pos, clientOrderId := hclient
      expiry := lt_add_of_pos_right _ cfg.policy.proposalTtl_pos,
        fee := cfg.policy.takerFeeRate_range
      price := hin.price, currency := h.currency }
  · show a.positions.get? input.trigger.symbol = some p
    rw [hin.symbol, hheld]
  · show (cfg.filters input.trigger.symbol).symbol = input.trigger.symbol
    rw [hin.symbol]
    exact cfg.filters_symbol _ (h.traded p List.mem_cons_self)

theorem Standing.request (h : Standing cfg source t a (p :: l))
    (hin : InputRead cfg source before t p input) (commandId : UUID) :
    PaperBroker.readyRequest
      (flattenCommand cfg commandId t input (input.exitPlan.intentFor .emergency t none)) p =
      flattenRequest cfg t p input.trigger.markPrice := by
  have hside := (h.planned p List.mem_cons_self _ hin.plan.1 hin.plan.2).1
  simp only [PaperBroker.readyRequest, PaperBroker.exitRequest, flattenCommand, flattenRequest,
    ExitPlan.intentFor, hin.symbol, hside]

theorem Standing.next (h : Standing cfg source t a (p :: l)) {fill : PaperFill} {planId : UUID}
    {r : PaperExecutionRecord} (hc : ExitClosed fill planId a p r b) :
    Standing cfg source t b l := by
  obtain ⟨q, hmoves, _⟩ := hc.position
  have hsymbols := List.nodup_cons.mp h.symbols
  refine ⟨hc.valid, hc.kept.1.trans h.experiment, hc.kept.2 ▸ h.currency, ?_, hsymbols.2,
    fun x hx => h.traded x (List.mem_cons_of_mem p hx),
    fun x hx => h.planned x (List.mem_cons_of_mem p hx)⟩
  intro x hx
  have hne : x.symbol ≠ p.symbol := fun he => hsymbols.1 (List.mem_map.mpr ⟨x, hx, he⟩)
  rw [hmoves.elsewhere _ hne]
  exact h.held x (List.mem_cons_of_mem p hx)

theorem emergencyFlatten_ok {plan : ExitPlan} {price : ℚ} (hactive : plan.status = .active)
    (hcreated : plan.createdAt ≤ t) (hprice : 0 < price) :
    plan.emergencyFlatten t price =
      .ok ⟨plan.triggered .emergency t none price, some (plan.intentFor .emergency t none)⟩ := by
  have hwf : (plan.triggered .emergency t none price).WellFormed :=
    ExitPlan.triggered_wellFormed .emergency hcreated (by simp) hprice
  have hpost := ExitPlan.postInit_eq_ok.mpr ⟨hwf, rfl⟩
  rw [ExitPlan.emergencyFlatten, ExitPlan.requireActive, raiseIf_not_bind hactive,
    requirePositiveDecimal_eq_ok (u := ()).mpr hprice, ok_bind, ExitPlan.trigger, hpost]
  rfl

theorem flattenStep_outcome (hA : cfg.arith = .exact) (h : Standing cfg source t a (p :: l))
    (hin : InputRead cfg source before t p input) (commandId : UUID) (after : ObservationBuffer)
    (done : List PaperExecutionRecord) :
    (∃ book r fill b, MarkFits cfg t after p input.trigger.markPrice book ∧
      flattenFill cfg t before after p = some fill ∧ ExitClosed fill input.exitPlan.planId a p r b ∧
      flattenStep cfg commandId t (a, done) (input, flattenEligible cfg t after p) =
        .ok (b, done ++ [r])) ∨
    (¬ ∃ book, MarkFits cfg t after p input.trigger.markPrice book) ∧
      Unplanned (flattenStep cfg commandId t (a, done) (input, flattenEligible cfg t after p)) := by
  have hasked := h.asked hin commandId
  have hrequest := h.request hin commandId
  have hcreated := (h.planned p List.mem_cons_self _ hin.plan.1 hin.plan.2).2.2
  have hfits (book : BookSnapshot) :
      CommandFits cfg.broker
        (flattenCommand cfg commandId t input (input.exitPlan.intentFor .emergency t none)) p
        (flattenEligible cfg t after p) book ↔
        MarkFits cfg t after p input.trigger.markPrice book := by
    rw [CommandFits, MarkFits, hrequest, ← hin.symbol]
    rfl
  rw [flattenStep, emergencyFlatten_ok hin.active hcreated hin.price, ok_bind,
    orRaise_some, ok_bind, hA]
  rcases hasked.outcome cfg.broker (flattenEligible cfg t after p) with ⟨book, r, hfit, hr⟩ | ⟨hno,
    reason, id, hr⟩
  · obtain ⟨hfill, b, hclosed⟩ := hasked.closed hfit hr
    obtain ⟨event, hmark⟩ := hin.mark
    refine Or.inl ⟨book, r.record, r.fill, b, (hfits book).mp hfit, ?_, hclosed, ?_⟩
    · rw [flattenFill, hmark, Option.bind_eq_bind, Option.bind_some, ← hrequest, hfill]
      rfl
    · rw [catchHalt_eq_ok.mpr hr, ok_bind, hclosed.account]
      rfl
  · refine Or.inr ⟨fun hex => hno (hex.imp fun book => (hfits book).mpr), ?_⟩
    rw [hr]
    exact ⟨_, _, rfl⟩

/-- **the loop of the planner**: a chain of exits, or the planning error of a position that cannot
be filled -/
theorem exits_outcome (hA : cfg.arith = .exact)
    (hreads : List.Forall₂ (Reads cfg source before t) l inputs) (h : Standing cfg source t a l)
    (commandId : UUID) (after : ObservationBuffer) (done : List PaperExecutionRecord) :
    (∃ rs b, (inputs.zip (l.map (flattenEligible cfg t after))).foldlM
        (flattenStep cfg commandId t) (a, done) = .ok (b, done ++ rs) ∧
        Exits cfg t before after a l (inputs.map (·.trigger)) rs b ∧
        ∀ p ∈ l, ∃ price event book, before.latestMark p.symbol t = some (price, event) ∧
        MarkFits cfg t after p price book) ∨
      (∃ p ∈ l, ¬ ∃ price event book, before.latestMark p.symbol t = some (price, event) ∧
        MarkFits cfg t after p price book) ∧
      Unplanned
      ((inputs.zip (l.map (flattenEligible cfg t after))).foldlM (flattenStep cfg commandId t)
        (a, done)) := by
  induction hreads generalizing a done with
  | nil => exact Or.inl ⟨[], a, by rw [List.append_nil]; rfl, .nil, fun p hp => nomatch hp⟩
  | @cons p input l inputs hread hreads ih =>
    rw [List.map_cons, List.zip_cons_cons, List.foldlM_cons]
    obtain ⟨event, hmark⟩ := hread.1.mark
    rcases flattenStep_outcome hA h hread.1 commandId after done with
      ⟨book, r, fill, b, hfits, hfill, hclosed, hstep⟩ | ⟨hno, hraise⟩
    · rw [hstep, ok_bind]
      have hchain {c : AccountState} {rs : List PaperExecutionRecord}
          (hrest : Exits cfg t before after b l (inputs.map (·.trigger)) rs c) :
          Exits cfg t before after a (p :: l) ((input :: inputs).map (·.trigger)) (r :: rs) c :=
        .cons hfill (hread.2.symm ▸ hclosed) ⟨hread.1.symbol, hread.1.positionId⟩ hrest
      rcases ih (h.next hclosed) (done ++ [r]) with ⟨rs, c, hrun, hexits,
        hall⟩ | ⟨⟨p', hp', hno⟩, hraise⟩
      · refine Or.inl ⟨r :: rs, c, ?_, hchain hexits, ?_⟩
        · rw [hrun, List.append_assoc]
          rfl
        · exact List.forall_mem_cons.mpr ⟨⟨_, event, book, hmark, hfits⟩, hall⟩
      · exact Or.inr ⟨⟨p', List.mem_cons_of_mem p hp', hno⟩, hraise⟩
    · refine Or.inr ⟨⟨p, List.mem_cons_self, ?_⟩, hraise.bind⟩
      rintro ⟨price, event', book, hmark', hfits⟩
      obtain ⟨rfl, _⟩ := Prod.ext_iff.mp (Option.mem_unique hmark' hmark)
      exact hno ⟨book, hfits⟩

/-! ## chains of exits -/

def flattenGain (cfg : WorkerConfig) (t : Time) (before after : ObservationBuffer)
    (p : PositionState) : ℚ :=
  ((flattenFill cfg t before after p).map (fun fill => p.closingGain fill.price)).getD 0

def flattenFee (cfg : WorkerConfig) (t : Time) (before after : ObservationBuffer)
    (p : PositionState) : ℚ :=
  ((flattenFill cfg t before after p).map (·.fee)).getD 0

namespace Exits

variable {triggers : List FlattenTrigger} {rs : List PaperExecutionRecord}

theorem length (h : Exits cfg t before after a l triggers rs b) : triggers.length = rs.length := by
  induction h with
  | nil => rfl
  | cons _ _ _ _ ih => rw [List.length_cons, List.length_cons, ih]

theorem versions (h : Exits cfg t before after a l triggers rs b) :
    (rs.filterMap (·.account)).map (·.version) = List.range' (a.version + 1) l.length := by
  induction h with
  | nil => rfl
  | cons _ hclosed _ _ ih =>
    rw [List.filterMap_cons, hclosed.account, List.map_cons, ih, hclosed.version, List.length_cons,
      List.range'_succ]

theorem cash (h : Exits cfg t before after a l triggers rs b) :
    b.cashBalance = a.cashBalance + (l.map (flattenGain cfg t before after)).sum -
      (l.map (flattenFee cfg t before after)).sum := by
  induction h with
  | nil => simp
  | @cons a b c p l trigger triggers r rs fill hfill hclosed _ _ ih =>
    have hgain : flattenGain cfg t before after p = p.closingGain fill.price := by
      rw [flattenGain, hfill]
      rfl
    have hfee : flattenFee cfg t before after p = fill.fee := by
      rw [flattenFee, hfill]
      rfl
    rw [ih, hclosed.cash, List.map_cons, List.map_cons, List.sum_cons, List.sum_cons, hgain, hfee]
    ring

theorem elsewhere (h : Exits cfg t before after a l triggers rs b) {symbol : String}
    (hs : symbol ∉ l.map (·.symbol)) : b.positions.get? symbol = a.positions.get? symbol := by
  induction h with
  | nil => rfl
  | cons _ hclosed _ _ ih =>
    obtain ⟨_, hmoves, _⟩ := hclosed.position
    rw [List.map_cons, List.mem_cons, not_or] at hs
    rw [ih hs.2, hmoves.elsewhere symbol hs.1]

/-- every position of the chain is flat at its end and has realized its gain -/
theorem booked (h : Exits cfg t before after a l triggers rs b)
    (hsymbols : (l.map (·.symbol)).Nodup) : ∀ p ∈ l, ∃ q, b.positions.get? p.symbol = some q ∧
      q.isFlat .exact ∧ q.realizedPnl = p.realizedPnl + flattenGain cfg t before after p := by
  induction h with
  | nil => exact fun p hp => nomatch hp
  | @cons a b c p l trigger triggers r rs fill hfill hclosed _ rest ih =>
    rw [List.map_cons, List.nodup_cons] at hsymbols
    refine List.forall_mem_cons.mpr ⟨?_, ih hsymbols.2⟩
    obtain ⟨q, hmoves, hflat, hgain⟩ := hclosed.position
    refine ⟨q, (rest.elsewhere hsymbols.1).trans hmoves.at_symbol, hflat, ?_⟩
    rw [hgain, flattenGain, hfill]
    rfl

theorem last (h : Exits cfg t before after a l triggers rs b) :
    (rs.filterMap (·.account)).getLastD a = b := by
  induction h with
  | nil => rfl
  | cons _ hclosed _ _ ih => rw [List.filterMap_cons, hclosed.account, List.getLastD_cons, ih]

theorem checked (h : Exits cfg t before after a l triggers rs b) :
    (triggers.zip rs).foldlM (FlattenPlan.checkExecution .exact) a = .ok b := by
  induction h with
  | nil => rfl
  | @cons a b c p l trigger triggers r rs fill hfill hclosed htrigger _ ih =>
    obtain ⟨closed, hplan, hid, hposition⟩ := hclosed.plan
    have hsame : r.order.symbol = trigger.symbol ∧ ∃ plan ∈ r.exitPlan,
        plan.planId = trigger.exitPlanId ∧ plan.positionId = trigger.positionId :=
      ⟨hclosed.order.2.trans htrigger.1.symm, closed, hplan, hid, hposition.trans htrigger.2.symm⟩
    have hcheck : FlattenPlan.checkExecution .exact a (trigger, r) = .ok b := by
      rw [FlattenPlan.checkExecution, hclosed.recorded, ok_bind, hclosed.account, orRaise_some,
        ok_bind, raiseIf_not_bind hclosed.order.1, raiseIf_not_bind hsame,
        raiseIf_not_bind hclosed.version]
      rfl
    rw [List.zip_cons_cons, List.foldlM_cons, hcheck, ok_bind, ih]

theorem legs (h : Exits cfg t before after a l triggers rs b) :
    rs.map PaperExecutionRecord.leg = l.map (flattenLeg cfg t before after) := by
  induction h with
  | nil => rfl
  | @cons a b c p l trigger triggers r rs fill hfill hclosed _ _ ih =>
    have hleg : r.leg = flattenLeg cfg t before after p := by
      rw [PaperExecutionRecord.leg, flattenLeg, hclosed.order.2, hclosed.filled, hfill]
      rfl
    rw [List.map_cons, List.map_cons, hleg, ih]

end Exits

/-! ## the plan -/

theorem latestMark_some {symbol : String} {price : ℚ} {event : ObservedMarketEvent}
    (h : before.latestMark symbol t = some (price, event)) : 0 < price ∧ event.observedAt ≤ t := by
  simp only [ObservationBuffer.latestMark, Option.map_eq_some_iff, Option.filter_eq_some_iff,
    decide_eq_true_eq, Prod.mk.injEq] at h
  obtain ⟨m, ⟨_, hle⟩, rfl, rfl⟩ := h
  exact ⟨m.2.markPrice_pos, hle⟩

/-- a position with its plan and its lineage is read, unless its plan has fired or its symbol has no
mark -/
theorem flattenInput_outcome (after : ObservationBuffer) (hsymbol : p.symbol ≠ "")
    (hplan : (source.exitPlans.find? (fun plan => plan.positionId = p.positionId)).isSome)
    (hlineage : (source.entryProposalIds.find? (fun e => e.1 = p.positionId)).isSome) :
    (∃ input, flattenInput cfg source before t p = .ok input) ∨
      ¬ Flattenable cfg source t before after p ∧
      Unplanned (flattenInput cfg source before t p) := by
  obtain ⟨plan, hplan⟩ := Option.isSome_iff_exists.mp hplan
  obtain ⟨proposal, hproposal⟩ := Option.isSome_iff_exists.mp hlineage
  have hid : plan.positionId = p.positionId := by simpa using List.find?_some hplan
  rw [flattenInput, hplan, hproposal, orRaise_some, ok_bind]
  by_cases hactive : plan.status = .active
  · rw [raiseIf_bind_neg (not_not.mpr hactive), orRaise_some, ok_bind]
    cases hmark : before.latestMark p.symbol t with
    | none =>
      refine Or.inr ⟨fun h => ?_, _, _, rfl⟩
      obtain ⟨_, _, _, hsome, _⟩ := h.exit
      cases hmark.symm.trans hsome
    | some mark =>
      obtain ⟨hprice, hle⟩ := latestMark_some hmark
      have hids : ¬ (p.symbol = "" ∨ mark.2.eventId = "") := not_or.mpr ⟨hsymbol, mark.2.eventId_ne⟩
      have hlater : ¬ t + cfg.policy.executionLatency ≤ mark.2.observedAt := by
        have := cfg.policy.executionLatency_pos
        exact not_le.mpr (by linarith)
      refine Or.inl ?_
      simp only [orRaise_some, ok_bind, FlattenTrigger.postInit, raiseIf_bind_neg hids,
        raiseIf_bind_neg hlater, raiseIf_bind_neg (not_le.mpr hprice), pure_eq_ok,
        Except.ok.injEq, exists_eq']
  · rw [raiseIf_bind_pos hactive]
    exact Or.inr ⟨fun h => hactive (h.active plan (List.mem_of_find?_eq_some hplan) hid), _, _, rfl⟩

theorem flattenInput_reads (h : flattenInput cfg source before t p = .ok input) :
    Reads cfg source before t p input := by
  refine ⟨flattenInput_cases h, ?_⟩
  simp only [flattenInput, FlattenTrigger.postInit, bind_eq_ok, pure_ok_iff] at h
  obtain ⟨_, _, _, _, _, _, _, _, _, ⟨_, _, _, _, _, _, rfl⟩, rfl⟩ := h
  rfl

/-- the books of the wait are those of the buffer at its end -/
theorem books_outcome (after : ObservationBuffer)
    (hreads : List.Forall₂ (Reads cfg source before t) l inputs) :
    inputs.mapM (fun input => flattenBooks after input.trigger) =
      .ok (l.map (flattenEligible cfg t after)) ∨
      (∃ p ∈ l, ¬ Flattenable cfg source t before after p) ∧
      Unplanned (inputs.mapM (fun input => flattenBooks after input.trigger)) := by
  induction hreads with
  | nil => exact Or.inl rfl
  | @cons p input l inputs hread _ ih =>
    rw [List.mapM_cons, flattenBooks, ObservationBuffer.booksAfter, hread.1.symbol,
      hread.1.eligibleAfter]
    by_cases hnone : after.eligibleBooks p.symbol (t + cfg.policy.executionLatency) = []
    · rw [raiseIf_bind_pos hnone]
      refine Or.inr ⟨⟨p, List.mem_cons_self, fun h => ?_⟩, _, _, rfl⟩
      obtain ⟨_, _, book, _, hfits⟩ := h.exit
      have hmem := (MarketFillEngine.earliest_mem hfits.first).1
      rw [flattenEligible, hnone] at hmem
      cases hmem
    · rw [raiseIf_bind_neg hnone]
      rcases ih with ih | ⟨⟨p', hp', hno⟩, hraise⟩
      · rw [ih]
        exact Or.inl rfl
      · exact Or.inr ⟨⟨p', List.mem_cons_of_mem p hp', hno⟩, hraise.bind⟩

theorem mem_flattenPositions (hA : cfg.arith = .exact) :
    p ∈ flattenPositions cfg a ↔ p ∈ a.openPositions .exact := by
  rw [flattenPositions, List.mem_insertionSort, hA]

theorem mem_openPositions (hv : a.Valid) :
    p ∈ a.openPositions .exact ↔ a.positions.get? p.symbol = some p ∧ ¬ p.isFlat .exact := by
  rw [AccountState.openPositions, List.mem_filter, decide_eq_true_eq, Dict.mem_values_iff]
  refine and_congr_left fun _ => ⟨?_, fun h => ⟨_, h⟩⟩
  rintro ⟨symbol, h⟩
  rwa [(hv.positions symbol p h).2.1]

theorem openPositions_symbols (hv : a.Valid) : ((a.openPositions .exact).map (·.symbol)).Nodup := by
  have hkeyed : Dict.Keyed (fun p : PositionState => p.symbol) a.positions :=
    fun symbol p h => (hv.positions symbol p h).2.1
  exact hkeyed.nodup_values.sublist (List.filter_sublist.map _)

theorem flattenPositions_perm (hA : cfg.arith = .exact) (a : AccountState) :
    (flattenPositions cfg a).Perm (a.openPositions .exact) := by
  rw [flattenPositions, hA]
  exact List.perm_insertionSort _ _

theorem FlattenSound.standing (h : FlattenSound cfg source t) (hA : cfg.arith = .exact)
    (hscope : source.account.experimentId = cfg.manifest.experimentId) :
    Standing cfg source t source.account (flattenPositions cfg source.account) := by
  refine ⟨h.valid, hscope, h.currency, fun p hp => ?_, ?_, fun p hp => ?_, fun p hp => ?_⟩
  · exact (mem_openPositions h.valid).mp ((mem_flattenPositions hA).mp hp)
  · rw [((flattenPositions_perm hA source.account).map _).nodup_iff]
    exact openPositions_symbols h.valid
  · exact h.traded p ((mem_flattenPositions hA).mp hp)
  · exact h.planned p ((mem_flattenPositions hA).mp hp)

variable {db : Database}

/-- the loader finds the entry of every open position, or does not return -/
theorem loadFlattenSource_lineage (hA : cfg.arith = .exact)
    (h : db.loadFlattenSource cfg = .ok source) (hp : p ∈ source.account.openPositions .exact) :
    (source.entryProposalIds.find? (fun e => e.1 = p.positionId)).isSome := by
  simp only [loadFlattenSource, bind_eq_ok, pure_eq_ok, Except.ok.injEq] at h
  obtain ⟨account, _, _, _, ids, hids, rfl⟩ := h
  rw [mapM_eq_ok] at hids
  have hmap : (account.openPositions cfg.arith).map (·.positionId) = ids.map (·.1) := by
    refine forall₂_map_eq hids fun p e he => ?_
    simp only [bind_eq_ok, Except.ok.injEq] at he
    obtain ⟨_, _, rfl⟩ := he
    rfl
  rw [hA] at hmap
  have hmem : p.positionId ∈ ids.map (·.1) := hmap ▸ List.mem_map_of_mem hp
  obtain ⟨e, he, hid⟩ := List.mem_map.mp hmem
  exact List.find?_isSome.mpr ⟨e, he, by simpa using hid⟩

structure Flattens (cfg : WorkerConfig) (source : FlattenSource) (t : Time)
    (before after : ObservationBuffer) (plan : FlattenPlan) : Prop where
  account : plan.sourceAccount = source.account
  legs : plan.executions.map PaperExecutionRecord.leg =
    (flattenPositions cfg source.account).map (flattenLeg cfg t before after)
  versions : plan.accounts.map (·.version) =
    List.range' (source.account.version + 1) (source.account.openPositions .exact).length
  booked : ∀ p ∈ source.account.openPositions .exact, ∃ q,
    plan.finalAccount.positions.get? p.symbol = some q ∧
    q.realizedPnl = p.realizedPnl + flattenGain cfg t before after p
  flat : ∀ symbol q, plan.finalAccount.positions.get? symbol = some q → q.isFlat .exact
  cash : plan.finalAccount.cashBalance = source.account.cashBalance +
    ((source.account.openPositions .exact).map (flattenGain cfg t before after)).sum -
    ((source.account.openPositions .exact).map (flattenFee cfg t before after)).sum

/-- a chain over all open positions is a plan that passes its own checks -/
theorem Exits.flattens (commandId : UUID) (hA : cfg.arith = .exact) (hv : source.account.Valid)
    {triggers : List FlattenTrigger} {rs : List PaperExecutionRecord}
    (h : Exits cfg t before after source.account
    (flattenPositions cfg source.account) triggers rs b) :
    FlattenPlan.postInit cfg.arith ⟨commandId, source.account, rs, t, triggers⟩ =
      .ok ⟨commandId, source.account, rs, t, triggers⟩ ∧
      Flattens cfg source t before after ⟨commandId, source.account, rs, t, triggers⟩ := by
  have hperm := flattenPositions_perm hA source.account
  have hsymbols : ((flattenPositions cfg source.account).map (·.symbol)).Nodup := by
    rw [(hperm.map _).nodup_iff]
    exact openPositions_symbols hv
  have hflat : ∀ symbol q, b.positions.get? symbol = some q → q.isFlat .exact := by
    intro symbol q hq
    by_cases hmem : symbol ∈ (flattenPositions cfg source.account).map (·.symbol)
    · obtain ⟨p, hp, rfl⟩ := List.mem_map.mp hmem
      obtain ⟨q', hq', hflat, _⟩ := h.booked hsymbols p hp
      exact Option.mem_unique hq hq' ▸ hflat
    · rw [h.elsewhere hmem] at hq
      by_contra hopen
      obtain rfl := (hv.positions symbol q hq).2.1
      exact hmem
        (List.mem_map_of_mem
        ((mem_flattenPositions hA).mpr ((mem_openPositions hv).mpr ⟨hq, hopen⟩)))
  have hclosed : b.openPositions .exact = [] := by
    rw [AccountState.openPositions, List.filter_eq_nil_iff]
    intro q hq
    obtain ⟨symbol, hq⟩ := (Dict.mem_values_iff _).mp hq
    simpa using hflat symbol q hq
  have hfinal : (FlattenPlan.mk commandId source.account rs t triggers).finalAccount = b := h.last
  constructor
  · rw [FlattenPlan.postInit, raiseIf_not_bind h.length, hA, h.checked, ok_bind,
      raiseIf_not_bind hclosed, pure_eq_ok]
  · refine ⟨rfl, h.legs, ?_, fun p hp => ?_, hfinal ▸ hflat, ?_⟩
    · rw [← hperm.length_eq]
      exact h.versions
    · obtain ⟨q, hq, _, hgain⟩ := h.booked hsymbols p ((mem_flattenPositions hA).mpr hp)
      exact ⟨q, hfinal ▸ hq, hgain⟩
    · rw [hfinal, h.cash, (hperm.map _).sum_eq, (hperm.map _).sum_eq]

theorem planExits_outcome (hA : cfg.arith = .exact) (hs : FlattenSound cfg source t)
    (hscope : source.account.experimentId = cfg.manifest.experimentId)
    (hplans : plansMatch cfg source) (hlineage : ∀ p ∈ source.account.openPositions .exact,
      (source.entryProposalIds.find? (fun e => e.1 = p.positionId)).isSome) :
    (∃ plan, planExits cfg commandId t before after source = .ok plan ∧
      Flattens cfg source t before after plan ∧ ∀ p ∈ flattenPositions cfg source.account,
      Flattenable cfg source t before after p) ∨
    (∃ p ∈ flattenPositions cfg source.account, ¬ Flattenable cfg source t before after p) ∧
      Unplanned (planExits cfg commandId t before after source) := by
  have hstanding := hs.standing hA hscope
  have hplan : ∀ p ∈ flattenPositions cfg source.account,
      (source.exitPlans.find? (fun plan => plan.positionId = p.positionId)).isSome := by
    intro p hp
    have hmem : p.positionId ∈ source.exitPlans.map (·.positionId) :=
      hplans.2.2 p (hA.symm ▸ (mem_flattenPositions hA).mp hp)
    obtain ⟨plan, hplan, hid⟩ := List.mem_map.mp hmem
    exact List.find?_isSome.mpr ⟨plan, hplan, by simpa using hid⟩
  rw [planExits, raiseIf_not_bind hplans]
  cases hinputs : (flattenPositions cfg source.account).mapM (flattenInput cfg source before t) with
  | error e =>
    obtain ⟨p, hp, he⟩ := mapM_eq_error hinputs
    have hsymbol := (hs.valid.positions _ p (hstanding.held p hp).1).1.symbol_ne
    rcases flattenInput_outcome after hsymbol (hplan p hp)
      (hlineage p ((mem_flattenPositions hA).mp hp)) with ⟨input, hok⟩ | ⟨hno, hraise⟩
    · cases he.symm.trans hok
    · obtain ⟨code, message, hcode⟩ := hraise
      obtain rfl := Except.error.inj (he.symm.trans hcode)
      exact Or.inr ⟨⟨p, hp, hno⟩, code, message, rfl⟩
  | ok inputs =>
    have hreads :
        List.Forall₂ (Reads cfg source before t) (flattenPositions cfg source.account) inputs :=
      (mapM_eq_ok.mp hinputs).imp fun _ _ h => flattenInput_reads h
    rw [ok_bind]
    rcases books_outcome after hreads with hbooks | ⟨hno, hraise⟩
    · rw [hbooks, ok_bind]
      rcases exits_outcome hA hreads hstanding commandId after [] with
        ⟨rs, b, hrun, hexits, hall⟩ | ⟨⟨p, hp, hno⟩, hraise⟩
      · obtain ⟨hpost, hflattens⟩ := hexits.flattens commandId hA hs.valid
        refine Or.inl ⟨_, ?_, hflattens, fun p hp => ⟨?_, hall p hp⟩⟩
        · rw [hrun, ok_bind, List.nil_append]
          exact hpost
        · -- the plan that was read is the only one of the position
          obtain ⟨input, _, hread⟩ := forall₂_mem_right hreads.flip hp
          intro plan hmem hid
          rw [List.inj_on_of_nodup_map hplans.1 hmem hread.1.plan.1 (hid.trans hread.1.plan.2.symm)]
          exact hread.1.active
      · exact Or.inr ⟨⟨p, hp, fun h => hno h.exit⟩, hraise.bind⟩
    · exact Or.inr ⟨hno, hraise.bind⟩

variable {q : OperatorCommand}

/-- **all or nothing**: whether the source has open positions or not -/
theorem prepareFlatten_outcome (hA : cfg.arith = .exact)
    (hp : Planning cfg db q source) (hs : FlattenSound cfg source t)
    (before after : ObservationBuffer) :
    (∃ plan, db.prepareFlatten cfg q t before after = .ok plan ∧
        Flattens cfg source t before after plan ∧ ∀ p ∈ source.account.openPositions .exact,
        Flattenable cfg source t before after p) ∨
      (∃ p ∈ source.account.openPositions .exact, ¬ Flattenable cfg source t before after p) ∧
      Unplanned (db.prepareFlatten cfg q t before after) := by
  simp only [← mem_flattenPositions hA]
  by_cases hopen : flattenPositions cfg source.account = []
  · have hexits :
        Exits cfg t before after source.account (flattenPositions cfg source.account) [] []
        source.account := by
      rw [hopen]
      exact .nil
    obtain ⟨hpost, hflattens⟩ := hexits.flattens q.commandId hA hs.valid
    refine Or.inl ⟨_, ?_, hflattens, by rw [hopen]; exact fun p hp => nomatch hp⟩
    rw [prepareFlatten, raiseIf_not_bind hp.command, hp.loaded, ok_bind,
      raiseIf_not_bind hp.scope, raiseIf_not_bind hp.pending, if_pos hopen, hpost]
  · rw [prepareFlatten_of_planning hp before after hopen]
    exact planExits_outcome hA hs hp.scope hp.plans fun p hmem =>
      loadFlattenSource_lineage hA hp.loaded hmem

structure Reordered (source source' : FlattenSource) : Prop where
  exitPlans : source'.exitPlans = source.exitPlans
  cash : source'.account.cashBalance = source.account.cashBalance
  version : source'.account.version = source.account.version
  positions : source'.account.positions.values.Perm source.account.positions.values

variable {source' : FlattenSource}

theorem Reordered.openPositions (h : Reordered source source') :
    (source'.account.openPositions .exact).Perm (source.account.openPositions .exact) :=
  h.positions.filter _

theorem Reordered.flattenPositions (h : Reordered source source') (hA : cfg.arith = .exact)
    (hv : source'.account.Valid) :
    flattenPositions cfg source'.account = flattenPositions cfg source.account := by
  rw [Database.flattenPositions, Database.flattenPositions, hA]
  exact insertionSort_eq_of_perm h.openPositions (openPositions_symbols hv)

theorem Reordered.flattenable (h : Reordered source source')
    (hf : Flattenable cfg source t before after p) : Flattenable cfg source' t before after p :=
  ⟨h.exitPlans ▸ hf.active, hf.exit⟩

/-- two plans that move the same quantities at the same prices and leave the same cash -/
structure SameFlatten (plan plan' : FlattenPlan) : Prop where
  legs : plan'.executions.map PaperExecutionRecord.leg =
    plan.executions.map PaperExecutionRecord.leg
  versions : plan'.accounts.map (·.version) = plan.accounts.map (·.version)
  cash : plan'.finalAccount.cashBalance = plan.finalAccount.cashBalance

theorem Flattens.same {plan plan' : FlattenPlan} (h : Flattens cfg source t before after plan)
    (h' : Flattens cfg source' t before after plan') (ho : Reordered source source')
    (hA : cfg.arith = .exact) (hv : source'.account.Valid) : SameFlatten plan plan' := by
  have hperm := ho.openPositions
  refine ⟨?_, ?_, ?_⟩
  · rw [h.legs, h'.legs, ho.flattenPositions hA hv]
  · rw [h.versions, h'.versions, ho.version, hperm.length_eq]
  · rw [h.cash, h'.cash, ho.cash, (hperm.map _).sum_eq, (hperm.map _).sum_eq]

theorem completeFlatten_source {plan : FlattenPlan} {claimedAt completedAt : Time}
    {out : Database × OperatorCommandExecution}
    (h : db.completeFlatten cfg q plan claimedAt completedAt = .ok out) :
    db.loadAccount cfg = .ok plan.sourceAccount := by
  obtain ⟨_, claimed, _, hclaim, _, h⟩ := completeFlatten_cases h
  obtain ⟨_, account, _, hr⟩ := recordFlattenPlan_cases h
  have hloaded := hr.loaded
  rw [(claim_eq hclaim).2, hr.source] at hloaded
  exact hloaded

/-- **a flatten closes every position or nothing**: one execution for each open position, with every
symbol flat and the cash of all exits booked, or a planning error; in whatever order the positions
are stored, and stored only over the account it was planned from -/
theorem prepareFlatten_all_or_nothing (cfg : WorkerConfig) (db : Database) (q : OperatorCommand)
    (source : FlattenSource) (t : Time) (before after : ObservationBuffer) (hA : cfg.arith = .exact)
    (hp : Planning cfg db q source) (hs : FlattenSound cfg source t) :
    ((∀ p ∈ source.account.openPositions .exact, Flattenable cfg source t before after p) →
      ∃ plan, db.prepareFlatten cfg q t before after = .ok plan ∧
      Flattens cfg source t before after plan) ∧
    ((∃ p ∈ source.account.openPositions .exact, ¬ Flattenable cfg source t before after p) →
      Unplanned (db.prepareFlatten cfg q t before after)) ∧
    (∀ db' source', Planning cfg db' q source' → FlattenSound cfg source' t →
      Reordered source source' → ∀ plan, db.prepareFlatten cfg q t before after = .ok plan →
        ∃ plan', db'.prepareFlatten cfg q t before after = .ok plan' ∧ SameFlatten plan plan') ∧
    ∀ (stored : Database) (plan : FlattenPlan) (claimedAt completedAt : Time)
      (out : Database × OperatorCommandExecution),
      stored.completeFlatten cfg q plan claimedAt completedAt = .ok out →
        stored.loadAccount cfg = .ok plan.sourceAccount := by
  refine ⟨fun hall => ?_, fun hsome => ?_, fun db' source' hp' hs' ho plan hplan => ?_,
    fun _ _ _ _ _ h => completeFlatten_source h⟩
  · rcases prepareFlatten_outcome hA hp hs before after with
      ⟨plan, hplan, hflattens, _⟩ | ⟨⟨p, hmem, hno⟩, _⟩
    · exact ⟨plan, hplan, hflattens⟩
    · exact absurd (hall p hmem) hno
  · rcases prepareFlatten_outcome hA hp hs before after with
      ⟨_, _, _, hall⟩ | ⟨_, hraise⟩
    · obtain ⟨p, hmem, hno⟩ := hsome
      exact absurd (hall p hmem) hno
    · exact hraise
  · rcases prepareFlatten_outcome hA hp hs before after with
      ⟨plan₀, hplan₀, hflattens, hall⟩ | ⟨_, code, message, hraise⟩
    · obtain rfl := Except.ok.inj (hplan₀.symm.trans hplan)
      rcases prepareFlatten_outcome hA hp' hs' before after with
        ⟨plan', hplan', hflattens', _⟩ | ⟨⟨p, hmem, hno⟩, _⟩
      · exact ⟨plan', hplan', hflattens.same hflattens' ho hA hs'.valid⟩
      · exact absurd (ho.flattenable (hall p (ho.openPositions.mem_iff.mp hmem))) hno
    · cases hplan.symm.trans hraise

end

end Database

/-! ## ten of each, at two prices -/

namespace Demo

def flattenedBooks : ObservationBuffer := ingested (marked ++ [book 85 99, ofSecond (book 88 99)])

def acceptedSource : FlattenSource := (acceptedDb.loadFlattenSource pairConfig).toOption.get
    (by decide +kernel)

theorem acceptedSource_planning :
    Database.Planning pairConfig acceptedDb accepted acceptedSource where
  command := by decide +kernel
  loaded := eq_ok_of_toOption (Option.some_get _).symm
  scope := by decide +kernel
  pending := by decide +kernel
  plans := by decide +kernel

theorem acceptedSource_valid : acceptedSource.account.Valid := by
  have hlots : ∀ p ∈ acceptedSource.account.positions.values, ∀ lot ∈ p.lots,
      0 < lot.entryPrice ∧ 0 < lot.originalQuantity ∧ 0 ≤ lot.remainingQuantity ∧
        lot.remainingQuantity ≤ lot.originalQuantity ∧ 0 ≤ lot.remainingOpeningFee ∧
        lot.remainingOpeningFee ≤ lot.openingFee := by decide +kernel
  have hpositions : ∀ e ∈ acceptedSource.account.positions.entries,
      e.2.symbol = e.1 ∧ e.1 ≠ "" ∧ e.2.experimentId = acceptedSource.account.experimentId ∧
        e.2.openedAt ≠ none ∧ 0 < e.2.markPrice ∧ 0 < e.2.version ∧ ¬ e.2.isFlat .exact ∧
        e.2.side ≠ .neutral ∧ e.2.closedAt = none ∧ 0 < e.2.averageEntry := by decide +kernel
  refine ⟨fun symbol p hp => ?_, by decide +kernel⟩
  obtain ⟨hsymbol, hne, hexperiment, hopened, hmark, hversion, hopen, hheld⟩ :=
    hpositions (symbol, p) ((Dict.mem_entries_iff _).mpr hp)
  refine ⟨⟨hsymbol ▸ hne, fun lot hlot => ?_, hopened, hmark, hversion,
    fun _ => hheld, fun hf => absurd hf hopen⟩, hsymbol, hexperiment⟩
  obtain ⟨h1, h2, h3, h4, h5, h6⟩ := hlots p ((Dict.mem_values_iff _).mpr ⟨symbol, hp⟩) lot hlot
  exact ⟨h1, h2, h3, h4, h5, h6⟩

theorem acceptedSource_sound : Database.FlattenSound pairConfig acceptedSource 82 where
  valid := acceptedSource_valid
  currency := by decide +kernel
  traded := by decide +kernel
  planned := by decide +kernel

theorem acceptedSource_flattenable : ∀ p ∈ acceptedSource.account.openPositions .exact,
    Database.Flattenable pairConfig acceptedSource 82 (ingested marked) flattenedBooks p := by
  have hactive : ∀ p ∈ acceptedSource.account.openPositions .exact,
      ∀ plan ∈ acceptedSource.exitPlans, plan.positionId = p.positionId →
      plan.status = .active := by decide +kernel
  have hexit : ∀ p ∈ acceptedSource.account.openPositions .exact,
      ∃ mark ∈ (ingested marked).latestMark p.symbol 82, (pairConfig.filters p.symbol).capturedAt ≤
      82 ∧ (∃ prepared ∈ ((pairConfig.filters p.symbol).prepare .exact p.side.closingSide .market
        (p.quantity .exact) (p.quantity .exact) (some mark.1)
        (Arith.exact.mul (p.quantity .exact) mark.1)).toOption,
        prepared.quantity = p.quantity .exact) ∧
      ∃ first ∈ MarketFillEngine.earliest (Database.flattenRequest pairConfig 82 p mark.1)
        (Database.flattenEligible pairConfig 82 flattenedBooks p),
        pairConfig.broker.marketFills.Usable (Database.flattenRequest pairConfig 82 p mark.1)
          first ∧ first.observedAt < 82 + pairConfig.policy.proposalTtl := by decide +kernel
  intro p hp
  obtain ⟨mark, hmark, hcaptured, ⟨prepared, hprepared, hquantity⟩, first, hfirst, husable,
    htime⟩ := hexit p hp
  exact ⟨hactive p hp, mark.1, mark.2, first, hmark,
    ⟨hcaptured, ⟨prepared, eq_ok_of_toOption hprepared, hquantity⟩, hfirst, husable, htime⟩⟩

theorem acceptedSource_flattened :
    ∃ plan, acceptedDb.prepareFlatten pairConfig accepted 82 (ingested marked) flattenedBooks =
      .ok plan ∧ Database.Flattens pairConfig acceptedSource 82
      (ingested marked) flattenedBooks plan :=
  (Database.prepareFlatten_all_or_nothing pairConfig acceptedDb accepted acceptedSource 82
    (ingested marked) flattenedBooks rfl acceptedSource_planning acceptedSource_sound).1
    acceptedSource_flattenable

end Demo

end Maais
