import Maais.Orchestration.Approved
import Maais.Orchestration.Records
import Maais.Risk.Portfolios

/-!
# Decided frames

* `Decides`  an outcome that follows the facts of the gates, and that both validators accept;
* `admittedFrame`  `_admitted`: the analysis of a frame under the policy of its fee, and its
  decision;
* `RiskInputs`, `Followable`, `Acceptable`  what the frame and its context must be like to be
  decided;
* `admitted_decided_iff`  which admitted directional frames are.
-/

namespace Maais.Orchestration
open Lib

/-! ## the outcome of a directional frame -/

structure Decides (A : Arith) (evidence : Evidence) (facts : List GateFact)
    (p : TradeProposalRecord) (o : OrchestrationOutcome) : Prop where
  proposal : o.bundle.proposal = some p
  recorded : o.bundle.gates.map (·.gateType) = gateOrder
  approved_iff : p.status = .approved ↔ ∀ f ∈ facts, f.rawPassed = true
  passed : (∀ f ∈ facts, f.rawPassed = true) →
    (∀ g ∈ o.bundle.gates, g.passed = true) ∧ (o.disposition = .executed ∨ o.disposition = .halted)
  rejected : (∃ f ∈ facts, f.rawPassed = false) → p.status = .rejected ∧ o.disposition = .rejected ∧
    ∃ gate c, RejectedAt facts o.bundle.gates gate ∧ p.reasonCode = gate.reasonCode ∧
      o.counterfactual = some c ∧ c.rejectionGate = gate.gateType
  records : evidence.records = .ok ()
  bundle : o.bundle.validate = .ok ()
  constructed : o.postInit A evidence.records = .ok o

structure Followed (context : EntryDecisionContext) (a : OfficialDecisionAnalysis) : Prop where
  fee : context.takerFeeRate < 1
  loss : 0 < a.researchLoss ∧ a.researchLoss < 1
  gain : 0 < a.researchGain ∧ a.researchGain < 1

theorem requireRate_eq_ok {value : ℚ} {field : String} {allowZero : Bool} {u : Unit} :
    requireRate value field allowZero = .ok u ↔ (if allowZero then 0 ≤ value else 0 < value) ∧
    value < 1 := by
  rw [requireRate, raiseIf_eq_ok, not_not]

namespace Service

section
variable {A : Arith} {s : Service} {command : OrchestrationCommand} {evidence : Evidence}
  {context : EntryDecisionContext} {orderSide : PaperOrderSide} {price : ℚ} {e : Evaluated}
  {facts : List GateFact}

theorem proposedQuantity_pos (A : Arith) (context : EntryDecisionContext) (price : ℚ)
    (h : ∀ p ∈ e.prepared, 0 < p.quantity) :
    ∃ q, proposedQuantity A context price e = .ok q ∧ 0 < q := by
  unfold proposedQuantity
  split
  case h_1 p hp => exact ⟨_, rfl, h p hp⟩
  case h_2 =>
    set filters := context.exchangeFilters with hfilters
    have hraw : 0 < min (max filters.minimumQuantity
        (A.div (max filters.minimumNotional (A.mul (context.account.equity A) (1 / 1000))) price))
        filters.maximumQuantity :=
      lt_min (lt_max_of_lt_left filters.minimumQuantity_pos) filters.maximumQuantity_pos
    rw [researchQuantity, ExchangeFilterSnapshot.quantizeQuantity,
      requirePositiveDecimal_eq_ok (u := ()).mpr hraw]
    refine ⟨_, rfl, ?_⟩
    split
    case isTrue => exact filters.minimumQuantity_pos
    case isFalse hq => exact not_le.mp hq

variable {quantity : ℚ} {chain : List GateType} {c : CounterfactualState}

theorem create_eq_ok (command : OrchestrationCommand) {gate : GateType} (hctx : context.Checked)
    (hdir : evidence.analysis.direction ≠ .neutral) (hq : 0 < quantity) (hprice : 0 < price)
    (hchain : chain.getLast? = some gate) :
    CounterfactualState.create
      (followRequest command evidence context price quantity gate chain) = .ok c ↔
      Followed context evidence.analysis ∧
      c = .pendingState (followRequest command evidence context price quantity gate chain) := by
  set r := followRequest command evidence context price quantity gate chain with hr
  have hdirection : r.direction ≠ .neutral := hdir
  have hends : ¬ (r.symbol = "" ∨ r.priorGateChain.getLast? ≠ some r.rejectionGate) :=
    not_or.mpr ⟨command.frame.key.symbol_ne, not_not.mpr hchain⟩
  have hquantity : 0 < r.quantity := hq
  have hexecutable : 0 < r.decisionExecutablePrice := hprice
  rw [CounterfactualState.create, raiseIf_bind_neg hdirection, raiseIf_bind_neg hends,
    requirePositiveDecimal_eq_ok (u := ()).mpr hquantity, ok_bind,
    requirePositiveDecimal_eq_ok (u := ()).mpr hexecutable, ok_bind]
  simp only [bind_eq_ok, requireRate_eq_ok, pure_ok_iff, exists_const]
  constructor
  · rintro ⟨hfee, hloss, hgain, rfl⟩
    exact ⟨⟨hfee.2, hloss, hgain⟩, rfl⟩
  · rintro ⟨hfollowed, rfl⟩
    exact ⟨⟨hctx.fee.1, hfollowed.fee⟩, hfollowed.loss, hfollowed.gain, rfl⟩

theorem reject_eq {gate : GateEvaluationRecord} {proposal : TradeProposalRecord}
    (h : rejection e.gates = some (gate, chain)) :
    reject A command evidence context price quantity e proposal =
      (CounterfactualState.create
      (followRequest command evidence context price quantity gate.gateType chain) >>= fun c =>
        OrchestrationOutcome.postInit A
          { disposition := .rejected, bundle := bundle command evidence proposal e,
            incident := none, counterfactual := some c, capability := none, execution := none,
            sensitivities := [] } evidence.records) := by
  rw [reject, h]
  rfl

theorem admitted_eq (hA : A.Signed) (hctx : command.entryContext = some context)
    (hchecked : context.Checked) (hprice : executablePrice A command.frame = .ok price)
    (hside : side evidence.analysis.direction = .ok orderSide)
    (he : s.evaluateGates A command evidence context orderSide price = .ok e)
    (hquantity : proposedQuantity A context price e = .ok quantity) (hq : 0 < quantity) :
    s.admitted A command evidence =
      if e.allPassed then
        s.approve A command evidence context orderSide price e
          (proposal A command evidence context orderSide price quantity e)
      else
        reject A command evidence context price quantity e
          (proposal A command evidence context orderSide price quantity e) := by
  rw [admitted, hprice, ok_bind, if_neg (side_direction hside).2, hctx]
  show s.directional A command evidence context price = _
  rw [directional, hside, ok_bind, he, ok_bind, hquantity, ok_bind,
    proposal_postInit hA hchecked hq (executablePrice_pos hA hprice), ok_bind]

theorem halted_checked {b : DecisionBundle} {i : IncidentState} (hvalid : b.validate = .ok ())
    (hi : i.experimentId = b.cycle.experimentId) (c : ExecutionCapability)
    (hstatus : b.proposal.map (·.status) = some .approved) :
    OrchestrationOutcome.Checked A
      { disposition := .halted, bundle := b, incident := some i, counterfactual := none,
        capability := some c, execution := none, sensitivities := [] } where
  bundle := hvalid
  incident := by
    intro i' hi'
    cases hi'
    exact hi
  halted := fun _ => by simp
  counterfactual := fun c hc => nomatch hc
  capability := fun _ => hstatus
  execution := fun x hx => nomatch hx
  sensitivities := fun hne => absurd rfl hne
  executed := fun hd => nomatch hd
  rejected := fun hd => nomatch hd

variable {p : TradeProposalRecord}

theorem GatesPass.approve_checked (hA : A.Signed) (hc : command.Constructed A)
    (h : s.GatesPass A command evidence context orderSide price e)
    (hstatus : p.status = .approved) (hvalid : (bundle command evidence p e).validate = .ok ()) :
    ∃ o : OrchestrationOutcome, o.Checked A ∧ o.bundle = bundle command evidence p e ∧
      (o.disposition = .executed ∨ o.disposition = .halted) ∧
      s.approve A command evidence context orderSide price e p = o.postInit A evidence.records := by
  obtain ⟨prepared, broker, risk, _, hprep, hcap, _, _, hrisk⟩ := h.capable
  obtain ⟨hcmd, hctx⟩ := hc.checked h.withContext
  have hq := ExchangeFilterSnapshot.prepare_quantity_pos hrisk
  have hexpiry : command.completedAt < command.completedAt +
    context.proposalTtl := by linarith [hctx.ttl]
  have hclaims := PaperBroker.claims_postInit_ok
    (c := claims A command evidence context orderSide price e prepared) command.frame.key.symbol_ne
    hq (hA.pos_mul hq (executablePrice_pos hA h.atPrice)) hexpiry
  have hproposal : (bundle command evidence p e).proposal.map (·.status) = some .approved :=
    congrArg some hstatus
  rw [approve, hprep, orRaise_some, ok_bind, hcap.broker, orRaise_some, ok_bind, hclaims, ok_bind,
    issue_passed, ok_bind]
  split
  case h_1 r l henter =>
    obtain ⟨hr, hl⟩ := PaperBroker.enter_eq_ok.mp henter
    obtain ⟨_, _, _, hfilled⟩ := PaperBroker.executeMarketEntry_cases hr
    exact ⟨_, executed_checked hvalid hfilled.valid (sensitivities_three hl) _ hproposal,
      rfl, .inl rfl, rfl⟩
  case h_2 =>
    exact ⟨_, halted_checked hvalid hcmd.frameExperiment.symm _ hproposal, rfl, .inr rfl, rfl⟩

theorem rejected_checked {b : DecisionBundle}
    (hvalid : b.validate = .ok ()) (hp : b.proposal = some p) (hstatus : p.status = .rejected)
    (hid : c.proposalId = p.id) :
    OrchestrationOutcome.Checked A
      { disposition := .rejected, bundle := b, incident := none, counterfactual := some c,
        capability := none, execution := none, sensitivities := [] } where
  bundle := hvalid
  incident := fun i hi => nomatch hi
  halted := fun hd => nomatch hd
  counterfactual := by
    intro c' hc'
    cases hc'
    simp [OrchestrationOutcome.proposalStatus, hp, hstatus, hid]
  capability := fun hne => absurd rfl hne
  execution := fun x hx => nomatch hx
  sensitivities := fun hne => absurd rfl hne
  executed := fun hd => nomatch hd
  rejected := fun _ => ⟨by simp [OrchestrationOutcome.proposalStatus, hp, hstatus], by simp⟩

theorem proposal_status_iff :
    (proposal A command evidence context orderSide price quantity e).status = .approved ↔
    e.allPassed := by
  show (if e.allPassed then ProposalStatus.approved else .rejected) = .approved ↔ _
  split
  case isTrue h => exact iff_of_true rfl h
  case isFalse h => exact iff_of_false (by decide) h

/-- **an admitted directional frame is decided** when its records pass and, if a gate failed, it can
be followed -/
theorem admitted_decides (hA : A.Signed) (hc : command.Constructed A)
    (hctx : command.entryContext = some context)
    (hprice : executablePrice A command.frame = .ok price)
    (hside : side evidence.analysis.direction = .ok orderSide)
    (he : s.evaluateGates A command evidence context orderSide price = .ok e)
    (hr : RecordedFrom A s command evidence context orderSide price facts e)
    (hrecords : evidence.records = .ok ()) (hfollowed : ¬ e.allPassed →
    Followed context evidence.analysis) : ∃ o p, s.admitted A command evidence = .ok o ∧
    Decides A evidence facts p o := by
  obtain ⟨hcmd, hchecked⟩ := hc.checked hctx
  obtain ⟨_, hdir⟩ := side_direction hside
  obtain ⟨quantity, hquantity, hq⟩ := proposedQuantity_pos A context price hr.quantity
  set p := proposal A command evidence context orderSide price quantity e with hp
  have hvalid : (bundle command evidence p e).validate = .ok () :=
    hr.bundle_validate hcmd hdir quantity
  have hrecorded : e.gates.map (·.gateType) = gateOrder := by
    rw [hr.gates, recordsFrom_fields.2.1, hr.order]
  have hstatus : p.status = .approved ↔ ∀ f ∈ facts, f.rawPassed = true :=
    proposal_status_iff.trans hr.allPassed_iff
  rw [admitted_eq hA hctx hchecked hprice hside he hquantity hq]
  by_cases hall : e.allPassed
  · obtain ⟨o, ho, hbundle, hdisposition, happrove⟩ :=
      GatesPass.approve_checked hA hc ⟨hctx, hprice, hside, he,
        hall⟩ (proposal_status_iff.mpr hall) hvalid
    have hpost := ho.postInit_ok hrecords
    refine ⟨o, p, by rw [if_pos hall, happrove, hpost], ?_⟩
    exact
      { proposal := by rw [hbundle]; rfl
        recorded := by rw [hbundle]; exact hrecorded
        approved_iff := hstatus
        passed := fun _ => ⟨by rw [hbundle]; exact hall, hdisposition⟩
        rejected := fun hfail => absurd hall (hr.not_allPassed_iff.mpr hfail)
        records := hrecords
        bundle := ho.bundle
        constructed := hpost }
  · obtain ⟨gate, hgate⟩ := hr.rejectedAt hall
    obtain ⟨chain, hrejection, hchain⟩ := hgate.rejection
    have hcreate :=
      (create_eq_ok command hchecked hdir hq (executablePrice_pos hA hprice) hchain).mpr
      ⟨hfollowed hall, rfl⟩
    have hrejected : p.status = .rejected := if_neg hall
    have hreason : p.reasonCode = gate.reasonCode := by
      show ((rejection e.gates).map (·.1.reasonCode)).getD .accepted = _
      rw [hrejection]
      rfl
    have hpost := (rejected_checked (A := A) hvalid rfl hrejected (c := .pendingState
      (followRequest command evidence context price quantity gate.gateType chain)) rfl).postInit_ok
        hrecords
    refine ⟨_, p, by rw [if_neg hall, reject_eq hrejection, hcreate, ok_bind, hpost], ?_⟩
    exact
      { proposal := rfl
        recorded := hrecorded
        approved_iff := hstatus
        passed := fun hpass => absurd (hr.allPassed_iff.mpr hpass) hall
        rejected := fun _ => ⟨hrejected, rfl, gate, _, hgate, hreason, rfl, rfl⟩
        records := hrecords
        bundle := hvalid
        constructed := hpost }

/-- a frame that was decided had records that passed and, if a gate failed, could be followed -/
theorem admitted_followed {o : OrchestrationOutcome} (hA : A.Signed) (hc : command.Constructed A)
    (hctx : command.entryContext = some context)
    (hprice : executablePrice A command.frame = .ok price)
    (hside : side evidence.analysis.direction = .ok orderSide)
    (he : s.evaluateGates A command evidence context orderSide price = .ok e)
    (hr : RecordedFrom A s command evidence context orderSide price facts e)
    (ho : s.admitted A command evidence = .ok o) (hno : ¬ e.allPassed) :
    Followed context evidence.analysis := by
  obtain ⟨_, hchecked⟩ := hc.checked hctx
  obtain ⟨_, hdir⟩ := side_direction hside
  obtain ⟨quantity, hquantity, hq⟩ := proposedQuantity_pos A context price hr.quantity
  obtain ⟨gate, hgate⟩ := hr.rejectedAt hno
  obtain ⟨chain, hrejection, hchain⟩ := hgate.rejection
  rw [admitted_eq hA hctx hchecked hprice hside he hquantity hq, if_neg hno,
    reject_eq hrejection] at ho
  obtain ⟨c, hcreate, _⟩ := bind_eq_ok.mp ho
  exact ((create_eq_ok command hchecked hdir hq (executablePrice_pos hA hprice) hchain).mp
    hcreate).1

end

end Service

/-! ## what the facts are evaluated on -/

theorem Service.prepareOrder_ok (A : Arith) (context : EntryDecisionContext)
    (orderSide : PaperOrderSide) {price : ℚ} {risk : Option OfficialRiskDecision}
    (hprice : 0 < price) (hrisk : ∀ r ∈ risk, 0 < r.quantity → 0 < r.notional) :
    ∃ out, prepareOrder A context orderSide price risk = .ok out := by
  unfold prepareOrder
  split
  case h_1 => exact ⟨_, rfl⟩
  case h_2 r hr =>
    obtain ⟨hmem, hq⟩ := Option.filter_eq_some_iff.mp hr
    have hq : 0 < r.quantity := of_decide_eq_true hq
    split
    case h_1 => exact ⟨_, rfl⟩
    case h_2 => exact ⟨_, rfl⟩
    case h_3 e hne herr =>
      obtain ⟨reason, rfl⟩ :=
        ExchangeFilterSnapshot.prepare_rejects hq (hrisk r hmem hq) hprice _ herr
      exact absurd rfl (hne reason)

/-- what the constructors of a frame's key and of an account leave -/
structure OrchestrationCommand.Accepted (c : OrchestrationCommand) : Prop where
  symbol_upper : c.frame.key.symbol = upper c.frame.key.symbol
  leverage_ne : ∀ context ∈ c.entryContext, context.account.leverage ≠ 0

/-- what the risk request of a frame asks of its context, for an expected move -/
structure RiskInputs (A : Arith) (context : EntryDecisionContext) (symbol : String)
    (direction : Direction) (move : ℚ) : Prop where
  equity : context.account.equity A ≠ 0
  fee : context.takerFeeRate ≤ 1 / 100
  stop : direction = .long → move < 1
  positions : (context.openPositions.map (·.symbol)).Nodup
  correlations : (context.correlations.map (·.otherSymbol)).Nodup
  others : ∀ c ∈ context.correlations,
    c.otherSymbol ≠ symbol ∧ c.otherSymbol ∈ context.openPositions.map (·.symbol)

theorem stopPrice_pos_iff {A : Arith} (hA : A.Signed) {direction : Direction} {price move : ℚ}
    (hprice : 0 < price) (hmove : 0 < move) : 0 < stopPrice A direction price move ↔
    (direction = .long → move < 1) := by
  unfold stopPrice
  split
  case isTrue hlong =>
    rw [Arith.mul, hA.pos_iff, mul_pos_iff_of_pos_left hprice, Arith.sub, hA.pos_iff, sub_pos]
    exact ⟨fun h _ => h, fun h => h hlong⟩
  case isFalse hlong =>
    have hadd : 0 < A.add 1 move := hA.pos (by linarith)
    exact iff_of_true (hA.pos_mul hprice hadd) fun h => absurd h hlong

namespace Service

section
variable {A : Arith} {s : Service} {command : OrchestrationCommand} {evidence : Evidence}
  {context : EntryDecisionContext} {orderSide : PaperOrderSide} {price move : ℚ}

theorem riskRequest_valid_iff (hA : A.Signed) (hc : command.Constructed A)
    (haccepted : command.Accepted) (hctx : command.entryContext = some context) (hprice : 0 < price)
    (hdir : evidence.analysis.direction ≠ .neutral) (hmove : 0 < move)
    (hloss : evidence.analysis.expectedLoss = move)
    (hgain : evidence.analysis.expectedGain = move) :
    (riskRequest A command evidence context price).Valid ↔
      RiskInputs A context command.frame.key.symbol evidence.analysis.direction move := by
  obtain ⟨_, hchecked⟩ := hc.checked hctx
  obtain ⟨raw, hraw⟩ := hc.2 context hctx
  have hequity := EntryDecisionContext.postInit_equity hraw
  have hstop : 0 < (riskRequest A command evidence context price).stopPrice ↔
      (evidence.analysis.direction = .long → move < 1) := by
    rw [← stopPrice_pos_iff hA hprice hmove, ← hloss]
    rfl
  constructor
  · intro h
    refine ⟨(show 0 < context.account.equity A from h.capital_pos).ne',
      not_lt.mp (not_or.mp h.fee_range).2, hstop.mp h.stop_pos, h.positions_nodup,
      h.correlations_nodup, fun c hmem => ?_⟩
    have hopen :
        ¬ (c.otherSymbol = command.frame.key.symbol ∨
        c.otherSymbol ∉ context.openPositions.map (·.symbol)) :=
      fun hbad => h.correlations_open ⟨c, hmem, hbad⟩
    exact ⟨(not_or.mp hopen).1, not_not.mp (not_or.mp hopen).2⟩
  · intro h
    exact
      { symbol_upper := not_or.mpr ⟨command.frame.key.symbol_ne, not_not.mpr haccepted.symbol_upper⟩
        direction_ne := hdir
        capital_pos := lt_of_le_of_ne hequity h.equity.symm
        price_pos := hprice
        stop_pos := hstop.mpr h.stop
        gain_pos := hmove.trans_eq hgain.symm
        loss_pos := hmove.trans_eq hloss.symm
        pWin_range := not_or.mpr ⟨not_lt.mpr evidence.analysis.probability_range.1,
          not_lt.mpr evidence.analysis.probability_range.2⟩
        fee_range := not_or.mpr ⟨not_lt.mpr hchecked.fee.1, not_lt.mpr h.fee⟩
        leverage_ne := haccepted.leverage_ne context hctx
        positions_nodup := h.positions
        correlations_nodup := h.correlations
        correlations_open := fun ⟨c, hmem, hbad⟩ => hbad.elim (h.others c hmem).1 fun hn =>
          hn (h.others c hmem).2 }

/-- the facts of a frame that expects a move are evaluated when its risk request is accepted -/
theorem rawFacts_ok_iff (hA : A.Signed) (hprice : 0 < price) (hmove : 0 < move)
    (hloss : evidence.analysis.expectedLoss = move)
    (hgain : evidence.analysis.expectedGain = move) :
    (∃ facts, s.rawFacts A command evidence context orderSide price = .ok facts) ↔
      (riskRequest A command evidence context price).Valid := by
  have hrisk : s.riskDecision A command evidence context price =
      (riskRequest A command evidence context price).postInit >>= fun request =>
        OfficialRiskEngine.evaluate A s.riskPolicy request >>= fun decision =>
            .ok (some decision) := by
    rw [riskDecision,
      if_neg (by rw [hloss, hgain]; exact not_or.mpr ⟨not_le.mpr hmove, not_le.mpr hmove⟩)]
    rfl
  constructor
  · rintro ⟨facts, hfacts⟩
    simp only [rawFacts, hrisk, bind_eq_ok] at hfacts
    obtain ⟨_, ⟨request, hrequest, _⟩, _⟩ := hfacts
    exact (OfficialRiskRequest.postInit_eq_ok.mp hrequest).1
  · intro hvalid
    have hpost := OfficialRiskRequest.postInit_eq_ok.mpr ⟨hvalid, rfl⟩
    set decision :=
      OfficialRiskEngine.decision A s.riskPolicy
      (riskRequest A command evidence context price).sorted
    have hdecision : OfficialRiskEngine.evaluate A s.riskPolicy _ = .ok decision :=
      OfficialRiskEngine.evaluate_signed hA hvalid.sorted
    have hnotional : ∀ r ∈ some decision, 0 < r.quantity → 0 < r.notional := by
      intro r hr hq
      cases hr
      exact OfficialRiskEngine.notional_pos hA hvalid.sorted hq
    obtain ⟨out, hout⟩ := prepareOrder_ok A context orderSide hprice hnotional
    rw [rawFacts, hrisk, hpost, ok_bind, hdecision, ok_bind, ok_bind, hout]
    exact ⟨_, rfl⟩

theorem rawFacts_no_move (A : Arith) (s : Service) (command : OrchestrationCommand)
    (context : EntryDecisionContext) (orderSide : PaperOrderSide) (price : ℚ)
    (hloss : evidence.analysis.expectedLoss = 0) :
    ∃ facts, s.rawFacts A command evidence context orderSide price = .ok facts ∧
    ∃ f ∈ facts, f.rawPassed = false := by
  have hrisk : s.riskDecision A command evidence context price = .ok none := if_pos (.inl hloss.le)
  rw [rawFacts, hrisk, ok_bind]
  exact ⟨_, rfl, .of .portfolioRisk false .portfolioRiskExceeded (firstRiskReason none),
    by simp [gateFacts, portfolioPassed, GateFact.of], rfl⟩

end

end Service

/-! ## following a rejected frame -/

/-- a move that eighteen places tell apart from nothing and from the whole price -/
def Followable (move : ℚ) : Prop := 1 / (2 * 10 ^ 18) < move ∧ move < 1 - 1 / (2 * 10 ^ 18)

theorem research_range_iff {move : ℚ} (hmove : 0 < move) :
    0 < OfficialDecisionAnalysis.research move ∧ OfficialDecisionAnalysis.research move < 1 ↔
    Followable move := by
  have hscale : (0 : ℚ) < 10 ^ 18 := by norm_num
  have hlow : 0 < halfEven (move * 10 ^ 18) ↔ 1 / (2 * 10 ^ 18) < move := by
    rw [← not_le, halfEven_le_iff]
    push_cast
    constructor
    · intro h
      have hle : ¬ move * 10 ^ 18 ≤ 1 / 2 :=
        fun hle => h (hle.lt_or_eq.imp (by simpa using ·) (by simpa using ·))
      rw [div_lt_iff₀ (by norm_num)]
      linarith
    · rintro h (hlt | ⟨heq, _⟩)
      · rw [div_lt_iff₀ (by norm_num)] at h
        linarith
      · rw [div_lt_iff₀ (by norm_num)] at h
        linarith
  have hhigh : halfEven (move * 10 ^ 18) < 10 ^ 18 ↔ move < 1 - 1 / (2 * 10 ^ 18) := by
    rw [← Int.le_sub_one_iff, halfEven_le_iff]
    push_cast
    constructor
    · rintro (hlt | ⟨_, hodd⟩)
      · rw [lt_sub_iff_add_lt, ← lt_sub_iff_add_lt', div_lt_iff₀ (by norm_num)]
        linarith
      · norm_num at hodd
    · intro h
      left
      rw [lt_sub_iff_add_lt, ← lt_sub_iff_add_lt', div_lt_iff₀ (by norm_num)] at h
      linarith
  have hresearch : OfficialDecisionAnalysis.research move =
      halfEven (move * 10 ^ 18) / 10 ^ 18 := by
    rw [OfficialDecisionAnalysis.research, if_pos hmove]
  rw [hresearch, div_pos_iff_of_pos_right hscale, div_lt_one hscale, Followable, ← hlow, ← hhigh]
  norm_cast

theorem research_zero : OfficialDecisionAnalysis.research 0 = 1 / 100 := by
  decide +kernel

/-! ## admitted directional frames -/

def OrchestrationCommand.benchmarkReturn (c : OrchestrationCommand) : Option ℚ :=
  (c.entryContext.bind (·.monitoring.benchmark)).map (·.returnFraction)

/-- `BINANCE_USDM_REGULAR_TAKER_FEE_RATE` -/
def regularTakerFeeRate : ℚ := 5 / 10000

def OrchestrationCommand.takerFee (c : OrchestrationCommand) : ℚ :=
  (c.entryContext.map (·.takerFeeRate)).getD regularTakerFeeRate

/-- the policy of the service's own analytics, else one for the fee of the command -/
def decisionPolicy (analytics : Option Decision.OfficialDecisionPolicy)
    (command : OrchestrationCommand) : Py Decision.OfficialDecisionPolicy :=
  match analytics with
  | some policy => .ok policy
  | none => Decision.OfficialDecisionPolicy.conservative command.takerFee

/-- `_admitted` -/
def Service.admittedFrame (A : Arith) (s : Service)
    (analytics : Option Decision.OfficialDecisionPolicy) (command : OrchestrationCommand)
    (sources : FrameSources) (features : Decision.FeatureSet) (manifest : AgentManifest)
    (featureVersion : Option String) (gateChainHash : List GateEvaluationRecord → Digest)
    (matrix : AgentMatrix) : Py OrchestrationOutcome := do
  let price ← executablePrice A command.frame
  let policy ← decisionPolicy analytics command
  match h :
      Decision.evaluate A policy features (matrix.forAnalytics features) price
      command.benchmarkReturn with
  | .error e => .error e
  | .ok _ =>
    s.admitted A command
      (evidenceOf command sources featureVersion manifest matrix
        (Decision.evaluate_eq_ok h).2 gateChainHash)

/-- the policy a frame is analysed with, before its fee is checked -/
def PolicyOf (analytics : Option Decision.OfficialDecisionPolicy) (command : OrchestrationCommand)
    (policy : Decision.OfficialDecisionPolicy) : Prop :=
  match analytics with
  | some given => policy = given
  | none => ∃ h, policy = .forFee command.takerFee h

theorem decisionPolicy_eq_ok {analytics : Option Decision.OfficialDecisionPolicy}
    {command : OrchestrationCommand} {policy : Decision.OfficialDecisionPolicy}
    (h : PolicyOf analytics command policy) : decisionPolicy analytics command = .ok policy ↔
    (analytics = none → command.takerFee ≤ 1 / 100) := by
  cases analytics with
  | some given =>
    obtain rfl : policy = given := h
    exact iff_of_true rfl fun hnone => nomatch hnone
  | none =>
    obtain ⟨hnonneg, rfl⟩ := h
    rw [decisionPolicy, Decision.OfficialDecisionPolicy.conservative]
    by_cases hfee : command.takerFee ≤ 1 / 100
    · rw [dif_pos ⟨hnonneg, hfee⟩]
      exact iff_of_true rfl fun _ => hfee
    · rw [dif_neg fun h => hfee h.2]
      exact iff_of_false (fun h => nomatch h) fun h => hfee (h rfl)

theorem decisionPolicy_policyOf {analytics : Option Decision.OfficialDecisionPolicy}
    {command : OrchestrationCommand} {policy : Decision.OfficialDecisionPolicy}
    (h : decisionPolicy analytics command = .ok policy) : PolicyOf analytics command policy := by
  cases analytics with
  | some given => exact (Except.ok.inj h).symm
  | none =>
    rw [decisionPolicy, Decision.OfficialDecisionPolicy.conservative] at h
    split at h
    · rename_i hfee
      exact ⟨hfee.1, (Except.ok.inj h).symm⟩
    · cases h

theorem PolicyOf.unique {analytics : Option Decision.OfficialDecisionPolicy}
    {command : OrchestrationCommand} {policy policy' : Decision.OfficialDecisionPolicy}
    (h : PolicyOf analytics command policy) (h' : PolicyOf analytics command policy') :
    policy = policy' := by
  cases analytics with
  | some given => exact Eq.trans h (Eq.symm h')
  | none =>
    obtain ⟨_, rfl⟩ := h
    obtain ⟨_, rfl⟩ := h'
    rfl

theorem Service.admittedFrame_eq_ok {A : Arith} {s : Service}
    {analytics : Option Decision.OfficialDecisionPolicy} {command : OrchestrationCommand}
    {sources : FrameSources} {features : Decision.FeatureSet} {manifest : AgentManifest}
    {featureVersion : Option String} {gateChainHash : List GateEvaluationRecord → Digest}
    {matrix : AgentMatrix} {policy : Decision.OfficialDecisionPolicy} {price : ℚ}
    {a : Decision.OfficialDecisionAnalysis} {o : OrchestrationOutcome}
    (hpolicy : PolicyOf analytics command policy)
    (hprice : executablePrice A command.frame = .ok price)
    (ha : Decision.evaluate A policy features
        (matrix.forAnalytics features) price command.benchmarkReturn = .ok a) :
    s.admittedFrame A analytics command sources features manifest featureVersion gateChainHash
      matrix = .ok o ↔ (analytics = none → command.takerFee ≤ 1 / 100) ∧
      s.admitted A command
      (evidenceOf command sources featureVersion manifest matrix (Decision.evaluate_eq_ok ha).2
        gateChainHash) = .ok o := by
  have hrun (hfee : decisionPolicy analytics command = .ok policy) :
      s.admittedFrame A analytics command sources features manifest featureVersion gateChainHash
        matrix = s.admitted A command (evidenceOf command sources featureVersion manifest matrix
          (Decision.evaluate_eq_ok ha).2 gateChainHash) := by
    rw [admittedFrame, hprice, ok_bind, hfee, ok_bind]
    split
    · rename_i herr
      rw [ha] at herr
      cases herr
    · rename_i b hb
      obtain rfl : a = b := Except.ok.inj (ha.symm.trans hb)
      rfl
  rw [← decisionPolicy_eq_ok hpolicy]
  constructor
  · intro h
    have hfee : decisionPolicy analytics command = .ok policy := by
      rw [admittedFrame, hprice, ok_bind] at h
      obtain ⟨policy', hpolicy', _⟩ := bind_eq_ok.mp h
      rw [hpolicy', hpolicy.unique (decisionPolicy_policyOf hpolicy')]
    exact ⟨hfee, (hrun hfee).symm.trans h⟩
  · rintro ⟨hfee, h⟩
    exact (hrun hfee).trans h

/-- the inputs of a directional frame that is decided -/
structure Acceptable (A : Arith) (s : Service) (analytics : Option Decision.OfficialDecisionPolicy)
    (policy : Decision.OfficialDecisionPolicy) (command : OrchestrationCommand)
    (sources : FrameSources) (context : EntryDecisionContext) (features : Decision.FeatureSet)
    (registry : String → BaseAgent) (manifest : AgentManifest) (featureVersion : Option String)
    (evidence : Evidence) (orderSide : PaperOrderSide) (price : ℚ) : Prop where
  policyFee : analytics = none → context.takerFeeRate ≤ 1 / 100
  frame : command.frame.Recordable sources
  version : ∃ version ∈ featureVersion, version ≠ ""
  agents : ∀ entry ∈ manifest.agentVersions,
    entry.enabled = true ∨ (registry entry.agentName).isCompatibleWithRegime features.regime = true
  risk : ∀ move ∈ Decision.expectedMove A policy features price,
    RiskInputs A context command.frame.key.symbol evidence.analysis.direction move
  fee : Decision.expectedMove A policy features price = none → context.takerFeeRate < 1
  followed : ∀ facts, s.rawFacts A command evidence context orderSide price = .ok facts →
    (∃ f ∈ facts, f.rawPassed = false) → ∀ move ∈ Decision.expectedMove A policy features price,
    Followable move

section
variable {A : Arith} {policy : Decision.OfficialDecisionPolicy} {features : Decision.FeatureSet}
  {m : Decision.AgentEvaluationMatrix} {price : ℚ} {benchmark : Option ℚ}
  {a : Decision.OfficialDecisionAnalysis}

theorem analysis_move (ha : Decision.evaluate A policy features m price benchmark = .ok a)
    (hdir : a.direction ≠ .neutral) :
    a.expectedGain = (Decision.expectedMove A policy features price).getD 0 ∧
      a.expectedLoss = (Decision.expectedMove A policy features price).getD 0 := by
  obtain ⟨rfl, _⟩ := Decision.evaluate_eq_ok ha
  exact Decision.estimate_move hdir

theorem expectedMove_pos (hA : A.Signed) (hprice : 0 < price) {move : ℚ}
    (h : Decision.expectedMove A policy features price = some move) : 0 < move := by
  simp only [Decision.expectedMove, Option.map_eq_some_iff, Option.filter_eq_some_iff,
    decide_eq_true_eq] at h
  obtain ⟨atr, ⟨_, hatr, _⟩, rfl⟩ := h
  exact hA.pos (div_pos hatr hprice)

/-- following a frame: nothing but its fee when no move is expected, and the move itself
otherwise -/
theorem followed_iff (context : EntryDecisionContext) {b : OfficialDecisionAnalysis}
    {move : Option ℚ} (hgain : b.expectedGain = move.getD 0) (hloss : b.expectedLoss = move.getD 0)
    (hpos : ∀ x ∈ move, 0 < x) : Followed context b ↔ context.takerFeeRate < 1 ∧
    ∀ x ∈ move, Followable x := by
  have hresearch : (0 < OfficialDecisionAnalysis.research (move.getD 0) ∧
      OfficialDecisionAnalysis.research (move.getD 0) < 1) ↔ ∀ x ∈ move, Followable x := by
    cases move with
    | none =>
      refine iff_of_true ?_ fun x hx => nomatch hx
      rw [Option.getD_none, research_zero]
      norm_num
    | some x =>
      rw [Option.getD_some, research_range_iff (hpos x rfl)]
      exact ⟨fun h y hy => Option.some.inj hy ▸ h, fun h => h x rfl⟩
  rw [← hresearch]
  constructor
  · intro h
    have hrange := h.loss
    rw [OfficialDecisionAnalysis.researchLoss, hloss] at hrange
    exact ⟨h.fee, hrange⟩
  · rintro ⟨hfee, hrange⟩
    refine ⟨hfee, ?_, ?_⟩
    · rw [OfficialDecisionAnalysis.researchLoss, hloss]
      exact hrange
    · rw [OfficialDecisionAnalysis.researchGain, hgain]
      exact hrange

end

namespace Service

section
variable {A : Arith} {s : Service} {command : OrchestrationCommand} {evidence : Evidence}
  {context : EntryDecisionContext} {orderSide : PaperOrderSide} {price : ℚ} {move : Option ℚ}

/-- with a move the facts are those of an accepted risk request; without one they are there in any
case -/
theorem rawFacts_of_move (s : Service) (orderSide : PaperOrderSide) (hA : A.Signed)
    (hc : command.Constructed A) (haccepted : command.Accepted)
    (hctx : command.entryContext = some context) (hprice : 0 < price)
    (hdir : evidence.analysis.direction ≠ .neutral)
    (hgain : evidence.analysis.expectedGain = move.getD 0)
    (hloss : evidence.analysis.expectedLoss = move.getD 0) (hpos : ∀ x ∈ move, 0 < x) :
    (∃ facts, s.rawFacts A command evidence context orderSide price = .ok facts) ↔
      ∀ x ∈ move, RiskInputs A context command.frame.key.symbol evidence.analysis.direction x := by
  cases move with
  | none =>
    obtain ⟨facts, hfacts, _⟩ := rawFacts_no_move A s command context orderSide price hloss
    exact iff_of_true ⟨facts, hfacts⟩ fun x hx => nomatch hx
  | some x =>
    rw [rawFacts_ok_iff hA hprice (hpos x rfl) hloss hgain,
      riskRequest_valid_iff hA hc haccepted hctx hprice hdir (hpos x rfl) hloss hgain]
    exact ⟨fun h y hy => Option.some.inj hy ▸ h, fun h => h x rfl⟩

theorem decided_iff (hA : A.Signed) (hc : command.Constructed A) (haccepted : command.Accepted)
    (hctx : command.entryContext = some context)
    (hprice : executablePrice A command.frame = .ok price)
    (hside : side evidence.analysis.direction = .ok orderSide)
    (hgain : evidence.analysis.expectedGain = move.getD 0)
    (hloss : evidence.analysis.expectedLoss = move.getD 0) (hpos : ∀ x ∈ move, 0 < x) :
    (∃ facts p o, s.rawFacts A command evidence context orderSide price = .ok facts ∧
        s.admitted A command evidence = .ok o ∧ Decides A evidence facts p o) ↔
      evidence.records = .ok () ∧
      (∀ x ∈ move, RiskInputs A context command.frame.key.symbol evidence.analysis.direction x) ∧
      (move = none → context.takerFeeRate < 1) ∧
      ∀ facts, s.rawFacts A command evidence context orderSide price = .ok facts →
      (∃ f ∈ facts, f.rawPassed = false) → ∀ x ∈ move, Followable x := by
  obtain ⟨_, hdir⟩ := side_direction hside
  have hprice' := executablePrice_pos hA hprice
  have hfollow := followed_iff context hgain hloss hpos
  have hfacts_iff := rawFacts_of_move s orderSide hA hc haccepted hctx hprice' hdir hgain hloss hpos
  constructor
  · rintro ⟨facts, p, o, hfacts, ho, hdecides⟩
    obtain ⟨e, he⟩ := exists_evaluateGates hfacts
    obtain ⟨facts', hr⟩ := evaluateGates_recorded he
    obtain rfl : facts' = facts := Except.ok.inj (hr.evaluated.symm.trans hfacts)
    have hfailed (hfail : ∃ f ∈ facts', f.rawPassed = false) :=
      hfollow.mp
        (admitted_followed hA hc hctx hprice hside he hr ho (hr.not_allPassed_iff.mpr hfail))
    refine ⟨hdecides.records, hfacts_iff.mp ⟨_, hfacts⟩,
      fun hnone => ?_, fun facts hfacts' hfail => ?_⟩
    · obtain ⟨facts, hfacts', hfail⟩ := rawFacts_no_move A s command context orderSide price
        (hloss.trans (by rw [hnone]; rfl))
      obtain rfl : facts = facts' := Except.ok.inj (hfacts'.symm.trans hfacts)
      exact (hfailed hfail).1
    · obtain rfl : facts = facts' := Except.ok.inj (hfacts'.symm.trans hfacts)
      exact (hfailed hfail).2
  · rintro ⟨hrecords, hrisk, hfee, hfollowed⟩
    obtain ⟨facts, hfacts⟩ := hfacts_iff.mpr hrisk
    have hfee' : context.takerFeeRate < 1 := by
      cases hmove : move with
      | none => exact hfee hmove
      | some x => exact (hrisk x hmove).fee.trans_lt (by norm_num)
    obtain ⟨e, he⟩ := exists_evaluateGates hfacts
    obtain ⟨facts', hr⟩ := evaluateGates_recorded he
    obtain rfl : facts' = facts := Except.ok.inj (hr.evaluated.symm.trans hfacts)
    obtain ⟨o, p, ho, hdecides⟩ :=
        admitted_decides hA hc hctx hprice hside he hr hrecords fun hno =>
      hfollow.mpr ⟨hfee', hfollowed facts' hfacts (hr.not_allPassed_iff.mp hno)⟩
    exact ⟨facts', p, o, hfacts, ho, hdecides⟩

end

end Service

/-- **which admitted directional frames are decided by their gates** -/
theorem admitted_decided_iff {A : Arith} (hA : A.Signed) (s : Service)
    (analytics : Option Decision.OfficialDecisionPolicy) (command : OrchestrationCommand)
    (sources : FrameSources) (features : Decision.FeatureSet) (registry : String → BaseAgent)
    (manifest : AgentManifest) (featureVersion : Option String)
    (gateChainHash : List GateEvaluationRecord → Digest) {policy : Decision.OfficialDecisionPolicy}
    {matrix : AgentMatrix} {price : ℚ} {a : Decision.OfficialDecisionAnalysis}
    {orderSide : PaperOrderSide} (hc : command.Constructed A) (haccepted : command.Accepted)
    (hrun : runAgentMatrix registry features.regime manifest = .ok matrix)
    (hprice : executablePrice A command.frame = .ok price)
    (hpolicy : PolicyOf analytics command policy)
    (ha : Decision.evaluate A policy features
    (matrix.forAnalytics features) price command.benchmarkReturn = .ok a)
    (hside : side a.direction = .ok orderSide) :
    let evidence :=
      evidenceOf command sources featureVersion manifest matrix
        (Decision.evaluate_eq_ok ha).2 gateChainHash
    (∃ context facts p o, command.entryContext = some context ∧
        s.rawFacts A command evidence context orderSide price = .ok facts ∧
        s.admittedFrame A analytics command sources features manifest featureVersion gateChainHash
          matrix = .ok o ∧
        Decides A evidence facts p o) ↔
      ∃ context, command.entryContext = some context ∧
        Acceptable A s analytics policy command sources context features registry manifest
          featureVersion evidence orderSide price := by
  intro evidence
  obtain ⟨hgain, hloss⟩ := analysis_move ha (side_direction hside).2
  have hpos : ∀ x ∈ Decision.expectedMove A policy features price, 0 < x :=
    fun x hx => expectedMove_pos hA (executablePrice_pos hA hprice) hx
  have hmatrix : matrix = agentMatrix registry features.regime manifest := by
    simp only [runAgentMatrix, bind_eq_ok, pure_ok_iff] at hrun
    obtain ⟨_, _, rfl⟩ := hrun
    rfl
  have hrecords : evidence.records =
      frameRecords command sources featureVersion (agentMatrix registry features.regime manifest) :=
    congrArg (frameRecords command sources featureVersion) hmatrix
  have hfee_iff : ∀ context, command.entryContext = some context →
      command.takerFee = context.takerFeeRate := by
    intro context hctx
    rw [OrchestrationCommand.takerFee, hctx]
    rfl
  constructor
  · rintro ⟨context, facts, p, o, hctx, hfacts, ho, hdecides⟩
    obtain ⟨hpolicyFee, ho⟩ := (Service.admittedFrame_eq_ok hpolicy hprice ha).mp ho
    rw [hfee_iff context hctx] at hpolicyFee
    obtain ⟨hpassed, hrisk, hfee, hfollowed⟩ :=
      (Service.decided_iff hA hc haccepted hctx hprice hside hgain hloss hpos).mp ⟨facts, p, o,
        hfacts, ho, hdecides⟩
    obtain ⟨hframe, hversion, hagents⟩ :=
      (frameRecords_ok_iff haccepted.symbol_upper).mp (hrecords.symm.trans hpassed)
    exact ⟨context, hctx, hpolicyFee, hframe, hversion, hagents, hrisk, hfee, hfollowed⟩
  · rintro ⟨context, hctx, h⟩
    have hpassed :=
      hrecords.trans
      ((frameRecords_ok_iff haccepted.symbol_upper).mpr ⟨h.frame, h.version, h.agents⟩)
    obtain ⟨facts, p, o, hfacts, ho, hdecides⟩ :=
      (Service.decided_iff (s := s) hA hc haccepted hctx hprice hside hgain hloss hpos).mpr
        ⟨hpassed, h.risk, h.fee, h.followed⟩
    have hpolicyFee := h.policyFee
    rw [← hfee_iff context hctx] at hpolicyFee
    exact ⟨context, facts, p, o, hctx, hfacts,
      (Service.admittedFrame_eq_ok hpolicy hprice ha).mpr ⟨hpolicyFee, ho⟩, hdecides⟩

/-! ## a disabled agent -/

namespace Demo

def regimes (name : String) : List String :=
  if name = "momentum" then ["trending"]
  else if name = "technical_structure" then ["trending", "range_bound"]
  else if name = "stop_run_detection" then ["high_volatility", "trending"]
  else if name = "mean_reversion" then ["range_bound", "low_volatility"]
  else []

def registry (name : String) : BaseAgent :=
  ⟨regimes name, .ok ⟨.long, 9 / 10, 9 / 10, nine_tenths, nine_tenths⟩⟩

/-- a manifest whose agents are all enabled but perhaps the one for mean reversion -/
def agents (meanReversion : Bool) : AgentManifest where
  agentVersions :=
    allAgents.map fun name => ⟨name, 1, decide (name ≠ "mean_reversion") || meanReversion, one_pos⟩
  names := by
    rw [List.map_map]
    exact List.map_id _

def features : Decision.FeatureSet :=
  ⟨"BTCUSDT", "1m", 60000000, some "trending", some 2, some 0, none, none⟩

def sources : FrameSources := ⟨"binance", 60000000, some 100, some 100, none⟩

theorem fee_nonneg : (0 : ℚ) ≤ 4 / 10000 := by norm_num

def policy : Decision.OfficialDecisionPolicy := .forFee (4 / 10000) fee_nonneg

theorem policy_of : PolicyOf none (command 100 even_ask) policy := ⟨fee_nonneg, rfl⟩

def matrix (meanReversion : Bool) : AgentMatrix := agentMatrix registry (some "trending")
    (agents meanReversion)

theorem matrix_run (meanReversion : Bool) :
    runAgentMatrix registry features.regime (agents meanReversion) =
    .ok (matrix meanReversion) := by
  cases meanReversion
  all_goals exact eq_ok_of_toOption (by decide +kernel)

def analysis (meanReversion : Bool) : Decision.OfficialDecisionAnalysis :=
  Decision.analysis .exact policy features
    ((matrix meanReversion).forAnalytics features) 100 (some 0)

theorem analysis_evaluated (meanReversion : Bool) :
    Decision.evaluate .exact policy features ((matrix meanReversion).forAnalytics features) 100
      (command 100 even_ask).benchmarkReturn = .ok (analysis meanReversion) :=
  Decision.evaluate_exact policy features _ (by norm_num) ⟨rfl, rfl, rfl, rfl⟩ (some 0)

theorem command_accepted : (command 100 even_ask).Accepted where
  symbol_upper := by decide
  leverage_ne := by
    intro context hctx
    cases hctx
    decide

def frameEvidence (meanReversion : Bool) : Evidence :=
  evidenceOf (command 100 even_ask) sources (some "1") (agents meanReversion) (matrix meanReversion)
    (Decision.evaluate_eq_ok (analysis_evaluated meanReversion)).2 fun _ => ⟨"chain"⟩

/-- **a bundle is refused**: the agent for mean reversion is disabled and the market is trending;
all thirteen facts of the frame pass -/
theorem disabled_agent_refused :
    (command 100 even_ask).Constructed .exact ∧ (command 100 even_ask).Accepted ∧
      runAgentMatrix registry features.regime (agents false) = .ok (matrix false) ∧
      side (frameEvidence false).analysis.direction = .ok .buy ∧
      (∃ facts, service.rawFacts .exact (command 100 even_ask) (frameEvidence false)
        (context 100 even_ask) .buy 100 = .ok facts ∧ ∀ f ∈ facts, f.rawPassed = true) ∧
      service.admittedFrame .exact none (command 100 even_ask) sources features (agents false)
          (some "1") (fun _ => ⟨"chain"⟩) (matrix false) =
        .error (.valueError "incompatible or failed-agent reason is required") := by
  refine ⟨constructed (by decide +kernel) (by decide +kernel), command_accepted,
    matrix_run false, by decide +kernel, ?_, by decide +kernel⟩
  obtain ⟨facts, hfacts, hall⟩ := exists_ok_of_any
    (x := service.rawFacts .exact (command 100 even_ask) (frameEvidence false)
    (context 100 even_ask) .buy 100) (p := fun facts => decide (∀ f ∈ facts, f.rawPassed = true))
    (by decide +kernel)
  exact ⟨facts, hfacts, of_decide_eq_true hall⟩

theorem features_move :
    Decision.expectedMove .exact policy features 100 = some (2 / 100) := by decide +kernel

theorem enabled_agents_decided :
    ∃ facts p o, service.rawFacts .exact (command 100 even_ask) (frameEvidence true)
        (context 100 even_ask) .buy 100 = .ok facts ∧
      service.admittedFrame .exact none (command 100 even_ask) sources features (agents true)
          (some "1") (fun _ => ⟨"chain"⟩) (matrix true) = .ok o ∧
      Decides .exact (frameEvidence true) facts p o := by
  have hacceptable :
      Acceptable .exact service none policy (command 100 even_ask) sources (context 100 even_ask)
      features registry (agents true) (some "1") (frameEvidence true) .buy 100 :=
    { policyFee := fun _ => by decide +kernel
      frame := ⟨by decide, by decide, by decide +kernel⟩
      version := ⟨"1", rfl, by decide⟩
      agents := by decide +kernel
      risk := by
        intro move hmove
        obtain rfl : 2 / 100 = move := Option.mem_unique features_move hmove
        exact ⟨by decide +kernel, by decide +kernel, by norm_num, by decide, by decide,
          fun c hc => nomatch hc⟩
      fee := fun _ => by decide +kernel
      followed := by
        intro facts _ _ move hmove
        obtain rfl : 2 / 100 = move := Option.mem_unique features_move hmove
        norm_num [Followable] }
  obtain ⟨c, facts, p, o, hctx, hdecided⟩ :=
    (admitted_decided_iff .exact service none (command 100 even_ask) sources features registry
    (agents true) (some "1") (fun _ => ⟨"chain"⟩)
    (constructed (by decide +kernel) (by decide +kernel)) command_accepted (matrix_run true) rfl
    policy_of (analysis_evaluated true) (by decide +kernel)).mpr ⟨_, rfl, hacceptable⟩
  cases hctx
  exact ⟨facts, p, o, hdecided⟩

end Demo

end Maais.Orchestration
