import Maais.Orchestration.Bundles
import Maais.Paper.Entries

/-!
# Approved entries

* `GatesPass`  its thirteen gates were evaluated and all passed;
* `GatesPass.ready`  the broker's own checks let the order of such a command through;
* `approved_order_reverified`, `approved_fill_executed_iff`  what becomes of it.
-/

namespace Maais.Orchestration
open Lib

structure Service.GatesPass (A : Arith) (s : Service) (command : OrchestrationCommand)
    (evidence : Evidence) (context : EntryDecisionContext) (orderSide : PaperOrderSide) (price : ℚ)
    (e : Evaluated) : Prop where
  withContext : command.entryContext = some context
  atPrice : executablePrice A command.frame = .ok price
  onSide : side evidence.analysis.direction = .ok orderSide
  evaluated : s.evaluateGates A command evidence context orderSide price = .ok e
  passed : e.allPassed

/-- the account and the plan of a context, as their own operations build them -/
structure EntryDecisionContext.Sound (c : EntryDecisionContext) : Prop where
  valid : c.account.Valid
  currency : c.account.currency ≠ ""
  plan : ∀ plan ∈ c.activeExitPlan, plan.WellFormed

/-! ## what passed gates say -/

section
variable {A : Arith} {s : Service} {command : OrchestrationCommand} {evidence : Evidence}
  {context : EntryDecisionContext} {orderSide : PaperOrderSide} {price : ℚ} {e : Evaluated}

structure Capable (A : Arith) (s : Service) (command : OrchestrationCommand) (evidence : Evidence)
    (context : EntryDecisionContext) (prepared : PreparedOrder) (broker : PaperBroker) : Prop where
  broker : s.broker = some broker
  leverage : context.account.leverage = 1
  books : context.books ≠ []
  compatible : directionCompatible A context command.frame.key.symbol evidence.analysis.direction
  covered : requiredCapacity A context prepared ≤ context.account.freeMargin A

variable {dependencies : Bool}

theorem capacity_passed {symbol : String} {direction : Direction} {prepared : Option PreparedOrder}
    (h : (capacity A dependencies symbol direction (some context) prepared).1 = true) :
    ∃ p, prepared = some p ∧ dependencies = true ∧ context.books ≠ [] ∧
      directionCompatible A context symbol direction ∧
      requiredCapacity A context p ≤ context.account.freeMargin A := by
  cases prepared with
  | none => cases h
  | some p =>
    unfold capacity at h
    simp only at h
    split at h
    · cases h
    split at h
    · cases h
    split at h
    · cases h
    split at h
    · cases h
    case _ hdep hbooks hdir hcover =>
      exact ⟨p, rfl, Bool.not_eq_false _ ▸ hdep, hbooks, not_not.mp hdir, not_lt.mp hcover⟩

theorem leveragePassed_iff {risk : Option OfficialRiskDecision}
    (h : leveragePassed (some context) risk = true) : context.account.leverage = 1 := by
  unfold leveragePassed at h
  simp only [Bool.and_eq_true, decide_eq_true_eq] at h
  exact h.1

theorem gateFacts_last {i : GateInputs}
    (h : ∀ f ∈ gateFacts A dependencies command i, f.rawPassed = true) :
    leveragePassed command.entryContext i.risk = true ∧
      (capacity A dependencies command.frame.key.symbol i.analysis.direction command.entryContext
        i.prepared).1 = true := by
  simp only [gateFacts, List.forall_mem_cons] at h
  obtain ⟨_, _, _, _, _, _, _, _, _, _, hlev, _, hcap, _⟩ := h
  exact ⟨hlev, hcap⟩

/-- the evaluation that passed: its chain is built from the thirteen facts, its order comes from the
filters, and the last gates agree -/
theorem Service.GatesPass.capable (h : s.GatesPass A command evidence context orderSide price e) :
    ∃ (prepared : PreparedOrder) (broker : PaperBroker) (risk : OfficialRiskDecision)
      (facts : List GateFact), e.prepared = some prepared ∧
      Capable A s command evidence context prepared broker ∧
      e.gates = recordsFrom (Service.cycleId command) command.completedAt 1 none facts ∧
      facts.map (·.gateType) = gateOrder ∧
        context.exchangeFilters.prepare A orderSide .market risk.quantity risk.quantity
        (some price) risk.notional = .ok prepared := by
  have hev := h.evaluated
  simp only [Service.evaluateGates, gateRecords, bind_eq_ok, raiseIf_eq_ok, pure_ok_iff] at hev
  obtain ⟨risk, hrisk, ⟨prepared, filterReason⟩, hprep, gates, ⟨_, _, hgates⟩, rfl⟩ := hev
  have hpass := h.passed
  unfold Evaluated.allPassed at hpass
  rw [← hgates, recordsFrom_all_passed_iff] at hpass
  obtain ⟨hlev, hcap⟩ := gateFacts_last hpass
  rw [h.withContext] at hlev hcap
  obtain ⟨p, hp, hdep, hbooks, hdir, hcover⟩ := capacity_passed hcap
  obtain ⟨broker, hbroker⟩ := Option.isSome_iff_exists.mp hdep
  have hsome : prepared = some p := hp
  subst hsome
  obtain ⟨r, _, _, hr⟩ := Service.prepareOrder_some hprep
  exact ⟨p, broker, r, _, rfl, ⟨hbroker, leveragePassed_iff hlev, hbooks, hdir, hcover⟩,
    hgates.symm, gateFacts_order, hr⟩

end

/-! ## the order of an approved command -/

namespace Service

section
variable {s : Service} {command : OrchestrationCommand} {evidence : Evidence}
  {context : EntryDecisionContext} {orderSide : PaperOrderSide} {price : ℚ} {e : Evaluated}
  {prepared : PreparedOrder}

def capability (broker : PaperBroker) (command : OrchestrationCommand) (evidence : Evidence)
    (context : EntryDecisionContext) (orderSide : PaperOrderSide) (price : ℚ) (e : Evaluated)
    (prepared : PreparedOrder) : ExecutionCapability :=
  let claims := claims .exact command evidence context orderSide price e prepared
  ⟨claims, broker.authorizer.sign claims⟩

def order (broker : PaperBroker) (command : OrchestrationCommand) (evidence : Evidence)
    (context : EntryDecisionContext) (orderSide : PaperOrderSide) (price : ℚ) (e : Evaluated)
    (prepared : PreparedOrder) : MarketEntryCommand :=
  entryCommand .exact command evidence context orderSide price e prepared
    (capability broker command evidence context orderSide price e prepared)

theorem issue_passed (authorizer : ExecutionAuthorizer) (claims : AuthorizationClaims) :
    authorizer.issue claims true = .ok ⟨claims, authorizer.sign claims⟩ := by
  rw [ExecutionAuthorizer.issue, raiseIf_bind_neg (by decide)]
  rfl

theorem prepare_again {filters : ExchangeFilterSnapshot} {rq an : ℚ} (hprice : 0 < price)
    (h : filters.prepare .exact orderSide .market rq rq (some price) an = .ok prepared) :
    filters.admits .exact orderSide prepared.quantity price ∧
        prepared.notional = prepared.quantity * price := by
  obtain ⟨htrades, hstep, hmin, hmax, hnot, hn⟩ := ExchangeFilterSnapshot.prepare_market h
  have hnotional := hn price rfl
  rw [hnotional] at hnot
  exact ⟨(ExchangeFilterSnapshot.admits_iff htrades hstep hmin hprice).mpr ⟨hmax, hnot⟩, hnotional⟩

theorem clientOrderId_ne (u : UUID) : "paper-" ++ u.text ≠ "" := by
  intro h
  have hlen := congrArg String.length h
  simp at hlen

theorem GatesPass.ready (hc : command.Constructed .exact)
    (h : s.GatesPass .exact command evidence context orderSide price e) :
    ∃ prepared broker, e.prepared = some prepared ∧
      Capable .exact s command evidence context prepared broker ∧
        (claims .exact command evidence context orderSide price e prepared).postInit =
        .ok (claims .exact command evidence context orderSide price e prepared) ∧
      PaperBroker.EntryReady broker
        (order broker command evidence context orderSide price e prepared)
        context.account := by
  obtain ⟨prepared, broker, risk, _, hprep, hcap, _, _, hrisk⟩ := h.capable
  obtain ⟨hcmd, hctx⟩ := hc.checked h.withContext
  have hprice := executablePrice_pos .exact h.atPrice
  have hq := ExchangeFilterSnapshot.prepare_quantity_pos hrisk
  obtain ⟨hadmits, _⟩ := prepare_again hprice hrisk
  have hexpiry : command.completedAt < command.completedAt +
    context.proposalTtl := by linarith [hctx.ttl]
  refine ⟨prepared, broker, hprep, hcap, ?_, ?_⟩
  · exact PaperBroker.claims_postInit_ok command.frame.key.symbol_ne hq (mul_pos hq hprice) hexpiry
  · exact
      { experiment := hcmd.accountExperiment
        captured := hcmd.captured
        verified := ⟨not_or.mpr ⟨not_lt.mpr hexpiry.le, lt_irrefl _⟩, rfl⟩
        filterSymbol := hcmd.filterSymbol
        requested := rfl
        notional := rfl
        admitted := hadmits
        claims := ⟨rfl, rfl, rfl, rfl, rfl, rfl, rfl, rfl⟩
        latency := hctx.latency
        clientOrderId := clientOrderId_ne _
        expiry := hexpiry
        fee := hctx.fee
        price := hprice }

/-- **the broker's second verification accepts the order of every approved command** -/
theorem approved_order_reverified (s : Service) (command : OrchestrationCommand)
    (evidence : Evidence) (context : EntryDecisionContext) (orderSide : PaperOrderSide) (price : ℚ)
    (e : Evaluated) (hc : command.Constructed .exact)
    (h : s.GatesPass .exact command evidence context orderSide price e) :
      ∃ prepared broker, e.prepared = some prepared ∧ s.broker = some broker ∧
        broker.authorizer.issue
        (claims .exact command evidence context orderSide price e prepared) true =
        .ok (capability broker command evidence context orderSide price e prepared) ∧
      let entry := order broker command evidence context orderSide price e prepared
      broker.authorizer.verify entry.capability entry.createdAt ∧
      (∃ again,
          entry.exchangeFilters.prepare .exact entry.side .market entry.requestedQuantity
          entry.approvedQuantity
          (some entry.decisionExecutablePrice) entry.approvedNotional = .ok again ∧
        again.quantity = prepared.quantity ∧ again.notional = entry.approvedNotional) ∧
      entry.claimsMatch prepared.quantity ∧
      ∀ text,
          broker.executeMarketEntry .exact entry context.account context.books
          context.activeExitPlan ≠ .error (.permissionError text) ∧
        broker.executeMarketEntry .exact entry context.account context.books
          context.activeExitPlan ≠ .error (.filterRejection text) := by
  obtain ⟨prepared, broker, hprep, hcap, _, hready⟩ := GatesPass.ready hc h
  obtain ⟨again, hagain, hquantity⟩ := hready.admitted
  obtain ⟨_, _, _, _, _, hnotional⟩ := ExchangeFilterSnapshot.prepare_market hagain
  refine ⟨prepared, broker, hprep, hcap.broker, ?_, hready.verified, ⟨again, hagain, hquantity, ?_⟩,
    hready.claims, fun text => ⟨?_, ?_⟩⟩
  · exact issue_passed _ _
  · rw [hnotional _ rfl, hquantity]
    rfl
  · exact fun herr => hready.granted _ herr ⟨text, Or.inl rfl⟩
  · exact fun herr => hready.granted _ herr ⟨text, Or.inr rfl⟩

/-! ## the outcome -/

theorem sensitivities_three {A : Arith} {fill : PaperFill} {marked : ℚ} {at_ : Time}
    {l : List SensitivityOutcome} (h : calculateSensitivities A fill marked at_ = .ok l) :
    l.map (·.scenario) = [.optimistic, .conservative, .stress] := by
  simp only [calculateSensitivities, calculateSensitivitiesWith, PaperFill.sensitivityAt,
    SensitivityOutcome.postInit, bind_eq_ok, pure_eq_ok, Except.ok.injEq] at h
  obtain ⟨_, _, _, _, _, _, _, _, _, ⟨_, _, _, _, rfl⟩, _, ⟨_, _, _, _, rfl⟩, _,
    ⟨_, _, _, _, rfl⟩, rfl⟩ := h
  rfl

theorem GatesPass.admitted_eq (hc : command.Constructed .exact)
    (h : s.GatesPass .exact command evidence context orderSide price e)
    (hprep : e.prepared = some prepared) (hq : 0 < prepared.quantity) :
    s.admitted .exact command evidence =
      s.approve .exact command evidence context orderSide price e
        (proposal .exact command evidence context orderSide price prepared.quantity e) := by
  obtain ⟨_, hdir⟩ := side_direction h.onSide
  obtain ⟨_, hctx⟩ := hc.checked h.withContext
  rw [admitted, h.atPrice, ok_bind, if_neg hdir, h.withContext]
  show s.directional .exact command evidence context price = _
  rw [directional, h.onSide, ok_bind, h.evaluated, ok_bind, proposedQuantity, hprep]
  show ((proposal .exact command evidence context orderSide price prepared.quantity e).postInit >>=
    _) = _
  rw [proposal_postInit .exact hctx hq (executablePrice_pos .exact h.atPrice), ok_bind,
    if_pos h.passed]

variable {broker : PaperBroker}

/-- the end of an approved command: executed when the broker entered it and the other records were
built -/
theorem GatesPass.executed_iff (hc : command.Constructed .exact)
    (h : s.GatesPass .exact command evidence context orderSide price e)
    (hprep : e.prepared = some prepared) (hbroker : s.broker = some broker) :
    (∃ o, s.admitted .exact command evidence = .ok o ∧ o.disposition = .executed) ↔
      (∃ out, broker.enter .exact
        (order broker command evidence context orderSide price e prepared) context.account
        context.books context.activeExitPlan = .ok out) ∧ evidence.records = .ok () := by
  obtain ⟨prepared', broker', hprep', hcap, hclaims, hready⟩ := GatesPass.ready hc h
  obtain rfl : prepared' = prepared := Option.mem_unique hprep' hprep
  obtain rfl : broker' = broker := Option.mem_unique hcap.broker hbroker
  have hissue :
      broker'.authorizer.issue (claims .exact command evidence context orderSide price e prepared')
      true = .ok (capability broker' command evidence context orderSide price e prepared') :=
      issue_passed _ _
  rw [h.admitted_eq hc hprep hready.quantity_pos, approve, hprep, orRaise_some, ok_bind, hbroker,
    orRaise_some, ok_bind, hclaims, ok_bind, hissue, ok_bind]
  unfold order
  cases henter :
    broker'.enter .exact
    (entryCommand .exact command evidence context orderSide price e prepared'
    (capability broker' command evidence context orderSide price e prepared')) context.account
    context.books context.activeExitPlan with
  | error err =>
    constructor
    · rintro ⟨o, ho, hd⟩
      obtain ⟨rfl, _⟩ := postInit_eq ho
      cases hd
    · rintro ⟨⟨_, hout⟩, _⟩
      cases hout
  | ok out =>
    obtain ⟨r, l⟩ := out
    obtain ⟨hr, hl⟩ := PaperBroker.enter_eq_ok.mp henter
    obtain ⟨_, _, _, hfilled⟩ := PaperBroker.executeMarketEntry_cases hr
    have hthree := sensitivities_three hl
    obtain ⟨_, hrecorded⟩ := evaluateGates_recorded h.evaluated
    have hvalid :=
      hrecorded.bundle_validate (hc.checked h.withContext).1 (side_direction h.onSide).2
      prepared'.quantity
    have hexec := (executed_checked hvalid hfilled.valid hthree
      (capability broker' command evidence context orderSide price e prepared')
      (congrArg some (if_pos h.passed))).postInit evidence.records
    show (∃ o, OrchestrationOutcome.postInit .exact _ evidence.records = .ok o ∧ _) ↔ _
    rw [hexec]
    constructor
    · rintro ⟨o, ho, _⟩
      obtain ⟨_, hrec, _⟩ := bind_eq_ok.mp ho
      exact ⟨⟨_, rfl⟩, hrec⟩
    · rintro ⟨_, hrec⟩
      rw [hrec, ok_bind]
      exact ⟨_, rfl, rfl⟩

theorem GatesPass.sound (hc : command.Constructed .exact)
    (h : s.GatesPass .exact command evidence context orderSide price e)
    (hcap : Capable .exact s command evidence context prepared broker) (hs : context.Sound) :
    PaperBroker.EntrySound
      (order broker command evidence context orderSide price e prepared) context.account
      context.activeExitPlan := by
  obtain ⟨hcmd, hctx⟩ := hc.checked h.withContext
  obtain ⟨hside, _⟩ := side_direction h.onSide
  have hposition : ∀ p, context.account.positions.get? command.frame.key.symbol = some p →
      p.positionId = positionId command context := by
    intro p hp
    rw [positionId, hp]
  refine ⟨hs.valid, hcap.leverage, hs.currency, fun p hp => ⟨hposition p hp, ?_⟩,
    fun plan hplan => ?_⟩
  · show p.isFlat .exact ∨ p.side = orderSide.openingDirection
    rw [hside]
    exact hcap.compatible p hp
  · obtain ⟨p, hp, hid⟩ := hctx.plan plan hplan
    rw [hcmd.filterSymbol] at hp
    exact ⟨hs.plan plan hplan, hid.trans (hposition p hp)⟩

/-- what the fill of an approved command needs: the free margin covers it at its own price, the plan
can protect it, and a sale leaves a price when its slippage is added once more -/
structure FillEnters (context : EntryDecisionContext) (symbol : String) (orderSide : PaperOrderSide)
    (analysis : OfficialDecisionAnalysis) (fill : PaperFill) : Prop where
  margin : context.account.fillMargin symbol orderSide fill.quantity fill.price fill.fee ≤
    context.account.freeMargin .exact
  plan : PaperBroker.planAccepts analysis.researchLoss analysis.researchGain context.activeExitPlan
  stress : orderSide = .sell → |fill.totalSlippage| < fill.price * fill.quantity

/-- **which approved and filled entries are executed** -/
theorem approved_fill_executed_iff (s : Service) (command : OrchestrationCommand)
    (evidence : Evidence) (context : EntryDecisionContext) (orderSide : PaperOrderSide) (price : ℚ)
    (e : Evaluated) (prepared : PreparedOrder) (broker : PaperBroker) (fill : PaperFill)
    (hc : command.Constructed .exact) (hs : context.Sound)
    (h : s.GatesPass .exact command evidence context orderSide price e)
    (hprep : e.prepared = some prepared) (hbroker : s.broker = some broker)
    (hfill :
        broker.marketFills.fill .exact
        (PaperBroker.approvedRequest
        (order broker command evidence context orderSide price e prepared)) context.books =
        .ok fill)
    (hbefore : fill.fillAt < command.completedAt + context.proposalTtl) :
    (∃ o, s.admitted .exact command evidence = .ok o ∧ o.disposition = .executed) ↔
      FillEnters context command.frame.key.symbol orderSide evidence.analysis fill ∧
      evidence.records = .ok () := by
  obtain ⟨prepared', broker', hprep', hcap, _, hready⟩ := GatesPass.ready hc h
  obtain rfl : prepared' = prepared := Option.mem_unique hprep' hprep
  obtain rfl : broker' = broker := Option.mem_unique hcap.broker hbroker
  rw [GatesPass.executed_iff hc h hprep hbroker,
    PaperBroker.enter_ready_iff hready (GatesPass.sound hc h hcap hs) hfill hbefore]
  constructor
  · rintro ⟨⟨⟨hmargin, hplan⟩, hstress⟩, hrec⟩
    exact ⟨⟨hmargin, hplan, hstress⟩, hrec⟩
  · rintro ⟨henters, hrec⟩
    exact ⟨⟨⟨henters.margin, henters.plan⟩, henters.stress⟩, hrec⟩

end

end Service

/-! ## one approved command -/

namespace Demo

theorem btc_ne : "BTCUSDT" ≠ "" := by decide
theorem minute_ne : "1m" ≠ "" := by decide
theorem market_ne : [PaperOrderType.market] ≠ [] := by decide
theorem pos5 : (0 : ℚ) < 5 := by decide
theorem pos99 : (0 : ℚ) < 99 := by decide
theorem pos100 : (0 : ℚ) < 100 := by decide
theorem tenth_pos : (0 : ℚ) < 1 / 10 := by decide +kernel

def context (ask : ℚ) (h : 0 < ask ∧ 99 < ask) : EntryDecisionContext where
  monitoring :=
    { symbol := "BTCUSDT", timeframe := "1m", evaluatedAt := 60000000, killSwitchActive := false,
      killSwitchReason := none, killSwitchVersion := 0, killSwitchChangedAt := 0,
      killSwitchChangedBy := "operator",
      health :=
      OfficialAdmissionPolicy.conservative.mandatoryComponents.map (⟨·, true, 60000000, none⟩)
      volatility := some ⟨"BTCUSDT", "1m", 60, 1, 1, 0, 60000000⟩
      benchmark := some ⟨"BTCUSDT", 0, 60000000, "event-1"⟩ }
  drawdown := Demo.atPeak
  openPositions := []
  correlations := []
  exchangeFilters :=
    { symbol := "BTCUSDT", status := "TRADING", priceTick := 1 / 10, quantityStep := 1 / 1000,
      minimumQuantity := 1 / 1000, maximumQuantity := 100, minimumNotional := 5,
      supportedOrderTypes := [.market], capturedAt := 0, symbol_ne := btc_ne,
      priceTick_pos := tenth_pos, quantityStep_pos := by norm_num,
      minimumQuantity_pos := by norm_num, maximumQuantity_pos := pos100,
      minimumNotional_pos := pos5, minimum_le_maximum := by norm_num,
      supportedOrderTypes_ne := market_ne }
  account :=
    { experimentId := ⟨"experiment"⟩, initialCapital := 1000, currency := "USDT", leverage := 1,
      cashBalance := 1000, peakEquity := 1000, positions := .empty, version := 0,
      updatedAt := none }
  books := [⟨"book-1", "BTCUSDT", 62000000, 62000000, 1, [⟨99, 50, pos99, by norm_num⟩],
    [⟨ask, 50, h.1, by norm_num⟩], 100, by decide,
    btc_ne, by decide, by simp, by simp, by simp, by simp, h.2, pos100⟩]
  activeExitPlan := none
  proposalTtl := 60000000
  executionLatency := 1000000
  takerFeeRate := 4 / 10000

def command (ask : ℚ) (h : 0 < ask ∧ 99 < ask) : OrchestrationCommand where
  frame :=
    ⟨⟨⟨"experiment"⟩, ⟨"strategy"⟩, "BTCUSDT", "1m", 60000000, btc_ne, minute_ne⟩, ⟨"frame"⟩,
    60000000, none, none, some 100⟩
  integrityFrameId := ⟨"frame"⟩
  manifest := ⟨⟨"experiment"⟩, ⟨"manifest"⟩, ["BTCUSDT"]⟩
  manifestTakerFee := some (4 / 10000)
  evaluatedAt := 60000000
  completedAt := 60000000
  entryContext := some (context ask h)

theorem nine_tenths : (0 : ℚ) ≤ 9 / 10 ∧ (9 : ℚ) / 10 ≤ 1 := by norm_num

def evidence : Evidence where
  voting := ["momentum"]
  analysis :=
    { direction := .long, consensusProbability := 9 / 10, consensusPassed := true,
      consensusReason := "consensus", challengeBlocked := false, expectedGain := 2 / 100,
      expectedLoss := 2 / 100, netEv := 1 / 100, evReason := "positive", benchmarkAvailable := true,
      alphaEstimate := 1 / 100, alphaReason := "positive", probability_range := nine_tenths,
      expectedGain_nonneg := by norm_num, expectedLoss_nonneg := by norm_num,
      neutral_not_passed := fun h => nomatch h }
  records := .ok ()
  haltRecords := .ok ()
  gateChainHash := fun _ => ⟨"chain"⟩

def broker : PaperBroker := ⟨⟨"key"⟩, ⟨2000000, by decide⟩⟩

def service : Service := ⟨.conservative, .conservative, some broker⟩

def prepared : PreparedOrder :=
  ⟨"BTCUSDT", .buy, .market, 25000 / 2501, 25000 / 2501, 2499 / 250, none, 4998 / 5⟩

/-- the request the broker takes to the books, whatever the gates noted on the way -/
def request : MarketFillRequest := ⟨"BTCUSDT", .buy, 2499 / 250, 61000000, 100, 4 / 10000⟩

theorem even_ask : (0 : ℚ) < 100 ∧ (99 : ℚ) < 100 := by norm_num
theorem higher_ask : (0 : ℚ) < 1001 / 10 ∧ (99 : ℚ) < 1001 / 10 := by norm_num

section
variable {ask : ℚ} {h : 0 < ask ∧ 99 < ask}

theorem constructed (hcmd : (command ask h).postInit.toOption = some (command ask h))
    (hctx : ((context ask h).postInit .exact).toOption = some (context ask h)) :
    (command ask h).Constructed .exact := by
  refine ⟨eq_ok_of_toOption hcmd, fun c hc => ?_⟩
  cases hc
  exact ⟨context ask h, eq_ok_of_toOption hctx⟩

theorem sound : (context ask h).Sound where
  valid := ⟨(fun symbol p hp => nomatch hp), by
    simp [AccountState.Reconciles, AccountState.realizedPnl, AccountState.fees,
      AccountState.funding, context, Dict.empty, Dict.values]⟩
  currency := by simp [context]
  plan := fun plan hplan => nomatch hplan

theorem request_eq (e : Evaluated) :
    PaperBroker.approvedRequest
    (Service.order broker (command ask h) evidence (context ask h) .buy 100 e prepared) =
      request := rfl

theorem gatesPass
    (hev : (service.evaluateGates .exact (command ask h) evidence
      (context ask h) .buy 100).toOption.any
      (fun e => decide (e.allPassed ∧ e.prepared = some prepared)) = true) :
    ∃ e, service.GatesPass .exact (command ask h) evidence (context ask h) .buy 100 e ∧
        e.prepared = some prepared := by
  obtain ⟨e, he, hpass⟩ := exists_ok_of_any hev
  obtain ⟨hall, hprep⟩ := of_decide_eq_true hpass
  exact ⟨e, ⟨rfl, rfl, rfl, he, hall⟩, hprep⟩

end

/-- the broker verifies again what the gates approved -/
theorem even_order_reverified :
    ∃ e prepared broker, service.GatesPass .exact (command 100 even_ask) evidence
      (context 100 even_ask) .buy 100 e ∧ e.prepared = some prepared ∧
      service.broker = some broker ∧ broker.authorizer.verify
        (Service.capability broker (command 100 even_ask) evidence
        (context 100 even_ask) .buy 100 e prepared) 60000000 := by
  obtain ⟨e, hpass, _⟩ := gatesPass (h := even_ask) (by decide +kernel)
  obtain ⟨prepared, broker, hprep, hbroker, _, hverify, _⟩ :=
    Service.approved_order_reverified service (command 100 even_ask) evidence (context 100 even_ask)
      .buy 100 e (constructed (by decide +kernel) (by decide +kernel)) hpass
  exact ⟨e, prepared, broker, hpass, hprep, hbroker, hverify⟩

/-- **an approved entry is halted**: the capacity gate counted the order at the decision price, the
fill is a tenth higher and takes more than the whole free margin -/
theorem approved_fill_halted :
    (command (1001 / 10) higher_ask).Constructed .exact ∧ (context (1001 / 10) higher_ask).Sound ∧
      (∃ e, service.GatesPass .exact (command (1001 / 10) higher_ask) evidence
          (context (1001 / 10) higher_ask) .buy 100 e ∧ e.prepared = some prepared ∧
        ∃ fill, broker.marketFills.fill .exact (PaperBroker.approvedRequest (Service.order broker
            (command (1001 / 10) higher_ask) evidence
            (context (1001 / 10) higher_ask) .buy 100 e prepared))
          (context (1001 / 10) higher_ask).books = .ok fill ∧ fill.fillAt < 120000000) ∧
      ∃ o, service.admitted .exact (command (1001 / 10) higher_ask) evidence = .ok o ∧
          o.disposition = .halted := by
  obtain ⟨e, hpass, hprep⟩ := gatesPass (h := higher_ask) (by decide +kernel)
  refine ⟨constructed (by decide +kernel) (by decide +kernel), sound, ⟨e, hpass, hprep, ?_⟩, ?_⟩
  · obtain ⟨fill, hfill, hbefore⟩ := exists_ok_of_any
      (x := broker.marketFills.fill .exact request (context (1001 / 10) higher_ask).books)
      (p := fun fill => decide (fill.fillAt < 120000000)) (by decide +kernel)
    exact ⟨fill, request_eq e ▸ hfill, of_decide_eq_true hbefore⟩
  · obtain ⟨o, ho, hd⟩ :=
      exists_ok_of_any (x := service.admitted .exact (command (1001 / 10) higher_ask) evidence)
      (p := fun o => decide (o.disposition = .halted)) (by decide +kernel)
    exact ⟨o, ho, of_decide_eq_true hd⟩

/-- at the decision price the same entry is executed -/
theorem approved_fill_executed :
    ∃ fill, Service.FillEnters (context 100 even_ask) "BTCUSDT" .buy evidence.analysis fill ∧
      ∃ o, service.admitted .exact (command 100 even_ask) evidence = .ok o ∧
      o.disposition = .executed := by
  obtain ⟨e, hpass, hprep⟩ := gatesPass (h := even_ask) (by decide +kernel)
  obtain ⟨fill, hfill, hchecks⟩ := exists_ok_of_any
    (x := broker.marketFills.fill .exact request (context 100 even_ask).books)
    (p := fun fill => decide (fill.fillAt < 120000000 ∧
      (context 100 even_ask).account.fillMargin "BTCUSDT" .buy fill.quantity fill.price fill.fee ≤
        (context 100 even_ask).account.freeMargin .exact)) (by decide +kernel)
  obtain ⟨hbefore, hmargin⟩ := of_decide_eq_true hchecks
  have henters : Service.FillEnters (context 100 even_ask) "BTCUSDT" .buy evidence.analysis fill :=
    ⟨hmargin, by decide +kernel, fun h => nomatch h⟩
  exact ⟨fill, henters, (Service.approved_fill_executed_iff service (command 100 even_ask) evidence
    (context 100 even_ask) .buy 100 e prepared broker fill
    (constructed (by decide +kernel) (by decide +kernel)) sound hpass hprep rfl
    (request_eq e ▸ hfill) hbefore).mpr ⟨henters, rfl⟩⟩

end Demo

end Maais.Orchestration
