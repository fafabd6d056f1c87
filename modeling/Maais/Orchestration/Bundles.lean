import Maais.Lib.Digits
import Maais.Orchestration.Service

/-!
# The bundles of directional frames

* `Constructed`  a command as its constructors leave it;
* `RejectedAt`  the recorded gates of a frame whose first failing fact is known;
* `rawFacts`  what the thirteen gates of a directional frame say on their own;
* `RecordedFrom.bundle_validate`  the bundle of a directional frame is valid, approved or rejected;
* `OrchestrationOutcome.Checked`  what the constructor of an outcome asks of it.
-/

namespace Maais.Orchestration
open Lib

def OrchestrationCommand.Constructed (A : Arith) (c : OrchestrationCommand) : Prop :=
  c.postInit = .ok c ∧ ∀ context ∈ c.entryContext, ∃ raw : EntryDecisionContext,
    raw.postInit A = .ok context

/-! ## what the constructors leave -/

structure EntryDecisionContext.Checked (c : EntryDecisionContext) : Prop where
  ttl : 0 < c.proposalTtl
  latency : 0 < c.executionLatency
  fee : 0 ≤ c.takerFeeRate ∧ c.takerFeeRate ≤ 1
  plan : ∀ plan ∈ c.activeExitPlan, ∃ p, c.account.positions.get? c.exchangeFilters.symbol =
    some p ∧ plan.positionId = p.positionId

variable {c raw : EntryDecisionContext}

theorem EntryDecisionContext.postInit_checked {A : Arith}
    (h : raw.postInit A = .ok c) : c.Checked := by
  simp only [postInit, bind_eq_ok, raiseIf_eq_ok, pure_ok_iff, not_or, not_le, not_lt] at h
  obtain ⟨_, htimes, _, hfee, _, _, _, _, _, _, _, _, _, hplan, rfl⟩ := h
  refine ⟨htimes.1, htimes.2, hfee, fun plan hp => ?_⟩
  have hactive : raw.activeExitPlan = some plan := hp
  rw [checkPlan, hactive] at hplan
  simp only [AccountState.position, bind_eq_ok, orRaise_eq_ok, raiseIf_eq_ok, ne_eq,
    not_not] at hplan
  obtain ⟨p, hget, hid⟩ := hplan
  exact ⟨p, hget, hid⟩

theorem EntryDecisionContext.postInit_equity {A : Arith} (h : raw.postInit A = .ok c) :
    0 ≤ c.account.equity A := by
  simp only [postInit, bind_eq_ok, raiseIf_eq_ok, pure_ok_iff, not_or, ne_eq, not_not] at h
  obtain ⟨_, _, _, _, _, hequity, _, _, _, _, _, _, _, _, rfl⟩ := h
  show 0 ≤ raw.account.equity A
  rw [← hequity.2]
  exact raw.drawdown.current_nonneg

structure OrchestrationCommand.Checked (c : OrchestrationCommand)
    (context : EntryDecisionContext) : Prop where
  filterSymbol : context.exchangeFilters.symbol = c.frame.key.symbol
  accountExperiment : context.account.experimentId = c.manifest.experimentId
  frameExperiment : c.frame.key.experimentId = c.manifest.experimentId
  captured : context.exchangeFilters.capturedAt ≤ c.completedAt

theorem OrchestrationCommand.Constructed.checked {A : Arith} {c : OrchestrationCommand}
    {context : EntryDecisionContext} (h : c.Constructed A) (hctx : c.entryContext = some context) :
    c.Checked context ∧ context.Checked := by
  obtain ⟨hpost, hraw⟩ := h
  obtain ⟨raw, hraw⟩ := hraw context hctx
  refine ⟨?_, EntryDecisionContext.postInit_checked hraw⟩
  simp only [postInit, bind_eq_ok, raiseIf_eq_ok, hctx, checkContext, orRaise_eq_ok, ne_eq, not_not,
    not_or, not_lt] at hpost
  obtain ⟨_, _, _, hexp, _, _, _, _, _, ⟨_, ⟨_, _, hsym, hacc⟩, _, _, _, hcap, _⟩, _⟩ := hpost
  exact ⟨hsym, hacc.trans hexp.symm, hexp.symm, hcap⟩

structure OrchestrationOutcome.Checked (A : Arith) (o : OrchestrationOutcome) : Prop where
  bundle : o.bundle.validate = .ok ()
  incident : ∀ i ∈ o.incident, i.experimentId = o.bundle.cycle.experimentId
  halted : o.disposition = .halted → o.incident ≠ none
  counterfactual : ∀ c ∈ o.counterfactual,
    o.proposalStatus = some .rejected ∧ o.bundle.proposal.map (·.id) = some c.proposalId
  capability : o.capability ≠ none → o.proposalStatus = some .approved
  execution : ∀ x ∈ o.execution, x.validate A = .ok () ∧ o.capability ≠ none ∧
    o.bundle.proposal ≠ none
  sensitivities : o.sensitivities ≠ [] → o.execution ≠ none ∧ o.threeScenarios
  executed : o.disposition = .executed → o.execution ≠ none ∧ o.incident = none
  rejected : o.disposition = .rejected → o.proposalStatus = some .rejected ∧ o.counterfactual ≠ none

variable {o : OrchestrationOutcome}

theorem OrchestrationOutcome.Checked.postInit {A : Arith} (h : o.Checked A)
    (records : Py Unit) : o.postInit A records = records >>= fun _ => .ok o := by
  have hcheck : o.checkExecution A = .ok () := by
    unfold checkExecution
    cases hx : o.execution with
    | none => rfl
    | some x =>
      obtain ⟨hvalid, hcap, hprop⟩ := h.execution x hx
      show (x.validate A >>= fun _ => _) = _
      rw [hvalid, ok_bind, raiseIf_eq_ok]
      exact not_or.mpr ⟨hcap, hprop⟩
  have hcounter : ¬ ∃ c ∈ o.counterfactual, o.proposalStatus ≠ some .rejected ∨
      o.bundle.proposal.map (·.id) ≠ some c.proposalId := by
    rintro ⟨c, hc, hne⟩
    obtain ⟨hstatus, hid⟩ := h.counterfactual c hc
    exact hne.elim (fun hne => hne hstatus) fun hne => hne hid
  have hsens : ¬ (o.sensitivities ≠ [] ∧ (o.execution = none ∨ ¬ o.threeScenarios)) :=
      fun ⟨hne, hor⟩ =>
    hor.elim (h.sensitivities hne).1 fun hthree => hthree (h.sensitivities hne).2
  have hexecuted : ¬ (o.disposition = .executed ∧ (o.execution = none ∨ o.incident ≠ none)) :=
      fun ⟨hd, hor⟩ =>
    hor.elim (h.executed hd).1 fun hincident => hincident (h.executed hd).2
  have hrejected :
      ¬ (o.disposition = .rejected ∧
      (o.proposalStatus ≠ some .rejected ∨ o.counterfactual = none)) :=
    fun ⟨hd, hor⟩ => hor.elim (fun hne => hne (h.rejected hd).1) (h.rejected hd).2
  unfold OrchestrationOutcome.postInit
  congr 1
  funext _
  rw [h.bundle, ok_bind, raiseIf_bind_neg (fun ⟨i, hi, hne⟩ => hne (h.incident i hi)),
    raiseIf_bind_neg (fun hn => h.halted hn.1 hn.2), raiseIf_bind_neg hcounter,
    raiseIf_bind_neg (fun hn => hn.2 (h.capability hn.1)), hcheck, ok_bind, raiseIf_bind_neg hsens,
    raiseIf_bind_neg hexecuted, raiseIf_bind_neg hrejected]
  rfl

theorem OrchestrationOutcome.Checked.postInit_ok {A : Arith} (h : o.Checked A)
    {records : Py Unit} (hrecords : records = .ok ()) : o.postInit A records = .ok o := by
  rw [h.postInit, hrecords, ok_bind]

/-! ## prices and sides -/

theorem executablePrice_pos {A : Arith} (hA : A.Signed) {frame : FrameView} {price : ℚ}
    (h : executablePrice A frame = .ok price) : 0 < price := by
  unfold executablePrice at h
  split at h
  case h_1 mark hmark =>
    cases h
    exact of_decide_eq_true (Option.filter_eq_some_iff.mp hmark).2
  case h_2 =>
    split at h
    case h_1 bid ask _ _ =>
      rw [raiseIf_bind_eq_ok, not_not] at h
      obtain ⟨⟨hbid, hask⟩, h⟩ := h
      cases h
      exact hA.pos (div_pos (hA.pos (add_pos hbid (hbid.trans hask))) two_pos)
    case h_2 => cases h

theorem side_direction {d : Direction} {orderSide : PaperOrderSide} (h : side d = .ok orderSide) :
    orderSide.openingDirection = d ∧ d ≠ .neutral := by
  cases d with
  | long =>
    cases h
    exact ⟨rfl, by decide⟩
  | short =>
    cases h
    exact ⟨rfl, by decide⟩
  | neutral => cases h

/-! ## the rejection gate -/

/-- the gates of a frame that a fact rejected: those before it passed, and behind it none was
decided -/
def RejectedAt (facts : List GateFact) (gates : List GateEvaluationRecord)
    (gate : GateEvaluationRecord) : Prop :=
  ∃ factsBefore fact factsAfter before after,
    facts = factsBefore ++ fact :: factsAfter ∧ gates = before ++ gate :: after ∧
    before.length = factsBefore.length ∧ (∀ f ∈ factsBefore, f.rawPassed = true) ∧
    fact.rawPassed = false ∧ gate.gateType = fact.gateType ∧ gate.reasonCode = fact.reasonCode ∧
    gate.passed = false ∧ (∀ g ∈ before, g.passed = true) ∧ ∀ g ∈ after, g.passed = false ∧
    g.reasonCode = .priorGateFailed

theorem exists_rejectedAt {cycleId : UUID} {evaluatedAt : Time} {facts : List GateFact}
    (h : ∃ f ∈ facts, f.rawPassed = false) :
    ∃ gate, RejectedAt facts (recordsFrom cycleId evaluatedAt 1 none facts) gate := by
  obtain ⟨fact, hfind⟩ : ∃ fact, facts.find? (fun f => !f.rawPassed) = some fact := by
    obtain ⟨f, hf, hfail⟩ := h
    exact Option.isSome_iff_exists.mp (List.find?_isSome.mpr ⟨f, hf, by simp [hfail]⟩)
  obtain ⟨hfact, before, after, rfl, hbefore⟩ := List.find?_eq_some_iff_append.mp hfind
  have hfact' : fact.rawPassed = false := by simpa using hfact
  have hbefore' : ∀ f ∈ before, f.rawPassed = true := by simpa using hbefore
  refine ⟨_, before, fact, after, _, _, rfl, recordsFrom_split hbefore' hfact', ?_, hbefore',
    hfact', rfl, rfl, ?_, recordsFrom_all_passed_iff.mpr hbefore', recordsFrom_blocked⟩
  · simpa using congrArg List.length (@recordsFrom_fields cycleId evaluatedAt before 1 none).2.1
  · simp [recordOf, hfact']

namespace RejectedAt

variable {facts : List GateFact} {gates : List GateEvaluationRecord} {gate : GateEvaluationRecord}

theorem rejection (h : RejectedAt facts gates gate) :
    ∃ chain : List GateType, Service.rejection gates = some (gate, chain) ∧
    chain.getLast? = some gate.gateType := by
  obtain ⟨_, _, _, before, after, -, rfl, -, -, -, -, -, hfailed, hbefore, -⟩ := h
  have hfind : (before ++ gate :: after).find? (fun g => g.passed = false) = some gate := by
    rw [List.find?_append, List.find?_eq_none.mpr (by simpa using hbefore)]
    simp [hfailed]
  have hindex : (before ++ gate :: after).findIdx (fun g => g.passed = false) = before.length := by
    have hnone : before.findIdx (fun g => g.passed = false) = before.length :=
      List.findIdx_eq_length.mpr (by simpa using hbefore)
    rw [List.findIdx_append, hnone, if_neg (lt_irrefl _)]
    simp [List.findIdx_cons, hfailed]
  have htake : (before ++ gate :: after).take (before.length + 1) = before ++ [gate] := by
    simp [List.take_append]
  exact ⟨(before ++ [gate]).map (·.gateType), by rw [Service.rejection, hfind, hindex, htake,
    Option.map_some], by simp⟩

theorem checkGates {id : UUID} (h : RejectedAt facts gates gate)
    (hids : ∀ g ∈ gates, g.decisionCycleId = id) :
    DecisionBundle.checkGates id false gates = .ok true := by
  obtain ⟨_, _, _, before, after, -, rfl, -, -, -, -, -, hfailed, hbefore, hafter⟩ := h
  have hblocked : ∀ l : List GateEvaluationRecord,
      (∀ g ∈ l, g.decisionCycleId = id ∧ g.passed = false) →
      DecisionBundle.checkGates id true l = .ok true := by
    intro l hl
    induction l with
    | nil => rfl
    | cons g l ih =>
      obtain ⟨⟨hid, hpassed⟩, hl⟩ := List.forall_mem_cons.mp hl
      rw [DecisionBundle.checkGates, raiseIf_not_bind hid, raiseIf_bind_neg (by simp [hpassed])]
      exact ih hl
  induction before with
  | nil =>
    obtain ⟨hid, hrest⟩ := List.forall_mem_cons.mp hids
    rw [List.nil_append, DecisionBundle.checkGates, raiseIf_not_bind hid,
      raiseIf_bind_neg (fun hn => nomatch hn.1), hfailed]
    exact hblocked after fun g hg => ⟨hrest g hg, (hafter g hg).1⟩
  | cons g before ih =>
    obtain ⟨hid, hrest⟩ := List.forall_mem_cons.mp hids
    obtain ⟨hpassed, hbefore⟩ := List.forall_mem_cons.mp hbefore
    rw [List.cons_append, DecisionBundle.checkGates, raiseIf_not_bind hid,
      raiseIf_bind_neg (fun hn => nomatch hn.1), hpassed]
    exact ih hrest hbefore

end RejectedAt

/-! ## the facts and the bundle of a directional frame -/

namespace Service

theorem checkGates_passed (id : UUID) (gates : List GateEvaluationRecord)
    (h : ∀ gate ∈ gates, gate.decisionCycleId = id ∧ gate.passed = true) :
    DecisionBundle.checkGates id false gates = .ok false := by
  induction gates with
  | nil => rfl
  | cons gate rest ih =>
    obtain ⟨⟨hid, hpassed⟩, hrest⟩ := List.forall_mem_cons.mp h
    rw [DecisionBundle.checkGates, raiseIf_not_bind hid,
      raiseIf_bind_neg (fun h => nomatch h.1), hpassed]
    exact ih hrest

theorem validate_directional {b : DecisionBundle} {p : TradeProposalRecord} {failureSeen : Bool}
    (hseq : b.gates.map (·.sequence) = List.range' 1 b.gates.length)
    (htypes : (b.gates.map (·.gateType)).Nodup)
    (hgates : DecisionBundle.checkGates b.cycle.id false b.gates = .ok failureSeen)
    (hdisp : b.cycle.disposition = if failureSeen then .rejected else .approved)
    (hdir : b.cycle.direction ≠ .neutral) (hp : b.proposal = some p) (hmatch : b.proposalMatches p)
    (hstatus : p.status = if failureSeen then .rejected else .approved) : b.validate = .ok () := by
  have hproposal : b.checkProposal = .ok () := by
    unfold DecisionBundle.checkProposal
    rw [hdisp]
    -- the two directional dispositions are checked alike
    cases failureSeen
    all_goals
      show (raiseIf (b.cycle.direction = .neutral) _ >>= fun _ => _) = _
      rw [raiseIf_bind_neg hdir, hp, orRaise_some, ok_bind, raiseIf_not_bind hmatch, raiseIf_eq_ok]
      exact fun hne => hne hstatus
  rw [DecisionBundle.validate, raiseIf_not_bind hseq, raiseIf_not_bind htypes,
    hgates, ok_bind, hproposal, ok_bind, hdisp]
  cases failureSeen with
  | false => rfl
  | true => rfl

def rawFacts (A : Arith) (s : Service) (command : OrchestrationCommand) (evidence : Evidence)
    (context : EntryDecisionContext) (side : PaperOrderSide) (price : ℚ) : Py (List GateFact) := do
  let risk ← s.riskDecision A command evidence context price
  let (prepared, filterReason) ← prepareOrder A context side price risk
  return gateFacts A s.broker.isSome command
    { voting := evidence.voting, analysis := evidence.analysis,
      monitoring := some (s.admission.evaluate A context.monitoring), risk, prepared, filterReason }

section
variable {A : Arith} {s : Service} {command : OrchestrationCommand} {evidence : Evidence}
  {context : EntryDecisionContext} {orderSide : PaperOrderSide} {price : ℚ} {e : Evaluated}
  {facts : List GateFact}

/-- the gates of a directional frame, with the facts they were recorded from -/
structure RecordedFrom (A : Arith) (s : Service) (command : OrchestrationCommand)
    (evidence : Evidence) (context : EntryDecisionContext) (orderSide : PaperOrderSide) (price : ℚ)
    (facts : List GateFact) (e : Evaluated) : Prop where
  evaluated : s.rawFacts A command evidence context orderSide price = .ok facts
  order : facts.map (·.gateType) = gateOrder
  gates : e.gates = recordsFrom (cycleId command) command.completedAt 1 none facts
  quantity : ∀ p ∈ e.prepared, 0 < p.quantity

theorem prepareOrder_some {risk : Option OfficialRiskDecision} {p : PreparedOrder} {reason : String}
    (h : prepareOrder A context orderSide price risk = .ok (some p, reason)) :
    ∃ r, risk = some r ∧ 0 < r.quantity ∧
      context.exchangeFilters.prepare A orderSide .market r.quantity r.quantity
      (some price) r.notional = .ok p := by
  unfold prepareOrder at h
  split at h
  case h_1 => cases h
  case h_2 r hr =>
    obtain ⟨hrisk, hpos⟩ := Option.filter_eq_some_iff.mp hr
    refine ⟨r, hrisk, of_decide_eq_true hpos, ?_⟩
    split at h
    case h_1 prepared hprep =>
      cases h
      exact hprep
    case h_2 => cases h
    case h_3 => cases h

theorem evaluateGates_recorded
    (h : s.evaluateGates A command evidence context orderSide price = .ok e) :
    ∃ facts, RecordedFrom A s command evidence context orderSide price facts e := by
  simp only [evaluateGates, gateRecords, bind_eq_ok, raiseIf_eq_ok, pure_ok_iff] at h
  obtain ⟨risk, hrisk, ⟨prepared, reason⟩, hprep, gates, ⟨_, _, hgates⟩, rfl⟩ := h
  refine ⟨_, ⟨?_, gateFacts_order, hgates.symm, fun p hp => ?_⟩⟩
  · rw [rawFacts, hrisk, ok_bind, hprep]
    rfl
  · cases hp
    obtain ⟨_, _, _, hprepared⟩ := prepareOrder_some hprep
    exact ExchangeFilterSnapshot.prepare_quantity_pos hprepared

theorem exists_evaluateGates
    (h : s.rawFacts A command evidence context orderSide price = .ok facts) :
    ∃ e, s.evaluateGates A command evidence context orderSide price = .ok e := by
  simp only [rawFacts, bind_eq_ok] at h
  obtain ⟨risk, hrisk, out, hprep, _⟩ := h
  rw [evaluateGates, hrisk, ok_bind, hprep, ok_bind]
  simp only [gateRecords, raiseIf_not_bind gateFacts_order, pure_eq_ok, ok_bind]
  exact ⟨_, rfl⟩

theorem RecordedFrom.allPassed_iff
    (h : RecordedFrom A s command evidence context orderSide price facts e) :
    e.allPassed ↔ ∀ f ∈ facts, f.rawPassed = true := by
  rw [Evaluated.allPassed, h.gates]
  exact recordsFrom_all_passed_iff

theorem RecordedFrom.not_allPassed_iff
    (h : RecordedFrom A s command evidence context orderSide price facts e) :
    ¬ e.allPassed ↔ ∃ f ∈ facts, f.rawPassed = false := by
  rw [h.allPassed_iff]
  push Not
  simp only [ne_eq, Bool.not_eq_true]

theorem RecordedFrom.rejectedAt
    (h : RecordedFrom A s command evidence context orderSide price facts e) (hno : ¬ e.allPassed) :
    ∃ gate, RejectedAt facts e.gates gate := by
  rw [h.gates]
  exact exists_rejectedAt (h.not_allPassed_iff.mp hno)

theorem RecordedFrom.bundle_validate
    (h : RecordedFrom A s command evidence context orderSide price facts e)
    (hcmd : command.Checked context) (hdir : evidence.analysis.direction ≠ .neutral)
    (quantity : ℚ) :
    (bundle command evidence (proposal A command evidence context orderSide price quantity e)
    e).validate = .ok () := by
  obtain ⟨hseq, htypes, hids⟩ :=
    @recordsFrom_fields (cycleId command) command.completedAt facts 1 none
  rw [← h.gates] at hseq htypes hids
  have hlen : e.gates.length = facts.length := by simpa using congrArg List.length hseq
  have hnodup : (e.gates.map (·.gateType)).Nodup := by
    rw [htypes, h.order]
    decide
  have hmatch :
      (bundle command evidence (proposal A command evidence context orderSide price quantity e)
      e).proposalMatches (proposal A command evidence context orderSide price quantity e) :=
      ⟨rfl, hcmd.frameExperiment.symm, rfl, rfl⟩
  by_cases hall : e.allPassed
  · exact validate_directional (hlen ▸ hseq) hnodup
      (checkGates_passed _ _ fun gate hg => ⟨hids gate hg, hall gate hg⟩) (if_pos hall) hdir rfl
        hmatch (if_pos hall)
  · obtain ⟨gate, hgate⟩ := h.rejectedAt hall
    exact validate_directional (hlen ▸ hseq) hnodup (hgate.checkGates hids) (if_neg hall) hdir rfl
      hmatch (if_neg hall)

theorem proposal_postInit (hA : A.Signed) (hctx : context.Checked) {quantity : ℚ}
    (hq : 0 < quantity) (hprice : 0 < price) (e : Evaluated) :
    (proposal A command evidence context orderSide price quantity e).postInit =
      .ok (proposal A command evidence context orderSide price quantity e) := by
  have hexpiry : command.completedAt < command.completedAt +
    context.proposalTtl := by linarith [hctx.ttl]
  have hn : 0 < A.mul quantity price := hA.pos_mul hq hprice
  -- an amount of the proposal is there when the gates passed, and then it is positive
  have hamount : ∀ {amount : Option ℚ}, (∀ x ∈ amount, 0 < x) →
      ¬ ∃ x ∈ (if e.allPassed then amount else none), x < 0 := by
    rintro amount hpos ⟨x, hx, hneg⟩
    split at hx
    · exact absurd hneg (hpos x hx).not_gt
    · cases hx
  simp only [TradeProposalRecord.postInit, bind_eq_ok, raiseIf_eq_ok, pure_eq_ok,
    exists_const, and_true]
  refine ⟨not_le.mpr hexpiry, hamount fun x hx => ?_, hamount fun x hx => ?_,
    hamount fun x hx => ?_⟩
  · cases hx
    exact hq
  · cases hx
    exact hn
  · exact of_decide_eq_true (Option.filter_eq_some_iff.mp hx).2

theorem postInit_eq {o q : OrchestrationOutcome} {records : Py Unit}
    (h : o.postInit A records = .ok q) : q = o ∧ records = .ok () := by
  simp only [OrchestrationOutcome.postInit, bind_eq_ok, pure_ok_iff] at h
  obtain ⟨_, hrec, _, _, _, _, _, _, _, _, _, _, _, _, _, _, _, _, _, _, rfl⟩ := h
  exact ⟨rfl, hrec⟩

theorem executed_checked {b : DecisionBundle} {x : PaperExecutionRecord}
    {l : List SensitivityOutcome} (hvalid : b.validate = .ok ()) (hx : x.validate A = .ok ())
    (hthree : l.map (·.scenario) = [.optimistic, .conservative, .stress]) (c : ExecutionCapability)
    (hstatus : b.proposal.map (·.status) = some .approved) :
    OrchestrationOutcome.Checked A
      { disposition := .executed, bundle := b, incident := none, counterfactual := none,
        capability := some c, execution := some x, sensitivities := l } where
  bundle := hvalid
  incident := fun i hi => nomatch hi
  halted := fun h => nomatch h
  counterfactual := fun c hc => nomatch hc
  capability := fun _ => hstatus
  execution := by
    intro y hy
    cases hy
    refine ⟨hx, by simp, fun hnone => ?_⟩
    have hnone' : b.proposal = none := hnone
    rw [hnone'] at hstatus
    cases hstatus
  sensitivities :=
    fun _ => ⟨by simp, by simpa using congrArg List.length hthree, fun s hs => hthree ▸ hs⟩
  executed := fun _ => ⟨by simp, rfl⟩
  rejected := fun h => nomatch h

end

end Service

end Maais.Orchestration
