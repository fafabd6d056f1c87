import Maais.Paper.Exits
import Maais.Paper.Fills

/-!
# Counterfactual trades

A rejected proposal is followed as if it had been traded: it waits for a book, is entered at the
fill, and every mark and closed bar moves its excursions and its exit plan until the plan fires.

* `Sound`  an open counterfactual has its fill, and an exit plan created with it;
* `observeClosedBar_cases`  a closed bar that was not observed before changes the counterfactual;
* `observeClosedBar_raises`  it does not fire the plan before its creation unless it closed before
  the fill.
-/

namespace Maais
open Lib

inductive CounterfactualStatus
  | pending | noFill | open | resolved
deriving DecidableEq

/-- `_HORIZONS` -/
inductive Horizon
  | minutes15 | hour1 | hours4 | hours24
deriving DecidableEq

namespace Horizon

def duration : Horizon → Time
  | .minutes15 => 900000000
  | .hour1 => 3600000000
  | .hours4 => 14400000000
  | .hours24 => 86400000000

def all : List Horizon := [.minutes15, .hour1, .hours4, .hours24]

end Horizon

def researchWindow : Time := Horizon.hours24.duration

structure HorizonOutcome where
  horizon : Horizon
  observedAt : Time
  markPrice : ℚ
  netPnl : ℚ
deriving DecidableEq

inductive CounterfactualObservation
  | mark (marketEventId : String) (markPrice : ℚ)
  | closedBar (marketEventId : String) (markPrice : ℚ) (decisionDirection : Direction)
    (decisionApproved : Bool)
  | funding (marketEventId : String) (rate markPrice : ℚ)
deriving DecidableEq

namespace CounterfactualObservation

def eventType : CounterfactualObservation → String
  | .mark _ _ => "counterfactual.mark_observed"
  | .closedBar _ _ _ _ => "counterfactual.closed_bar_observed"
  | .funding _ _ _ => "counterfactual.funding_applied"

def marketEventId : CounterfactualObservation → String
  | .mark id _ => id
  | .closedBar id _ _ _ => id
  | .funding id _ _ => id

end CounterfactualObservation

inductive CounterfactualPayload
  | created (proposalId decisionCycleId : UUID) (symbol : String) (direction : Direction)
    (rejectionGate : GateType) (priorGateChain : List GateType)
    (quantity decisionExecutablePrice : ℚ) (eligibleAfter : Time)
  | entered (marketEventId : String) (quantity price fee totalSlippage : ℚ)
  | noFill (reason : String)
  | markObserved (marketEventId : String) (markPrice grossPnl favorable adverse : ℚ)
    (resolvedHorizons : List Horizon)
  | closedBarObserved (marketEventId : String) (markPrice : ℚ) (decisionDirection : Direction)
    (decisionApproved : Bool) (barsElapsed oppositeSignalStreak : Nat)
  | fundingApplied (marketEventId : String) (rate markPrice amount : ℚ)
  | resolved (markPrice : ℚ) (reason : ExitReason) (netPnl : ℚ)
deriving DecidableEq

namespace CounterfactualPayload

def eventType : CounterfactualPayload → String
  | .created .. => "counterfactual.created"
  | .entered .. => "counterfactual.entered"
  | .noFill .. => "counterfactual.no_fill"
  | .markObserved .. => "counterfactual.mark_observed"
  | .closedBarObserved .. => "counterfactual.closed_bar_observed"
  | .fundingApplied .. => "counterfactual.funding_applied"
  | .resolved .. => "counterfactual.resolved"

def observation : CounterfactualPayload → Option CounterfactualObservation
  | .markObserved id mark _ _ _ _ => some (.mark id mark)
  | .closedBarObserved id mark direction approved _ _ =>
    some (.closedBar id mark direction approved)
  | .fundingApplied id rate mark _ => some (.funding id rate mark)
  | _ => none

end CounterfactualPayload

structure CounterfactualTransition where
  sequence : Nat
  eventAt : Time
  payload : CounterfactualPayload
deriving DecidableEq

structure CounterfactualState where
  counterfactualId : UUID
  experimentId : UUID
  proposalId : UUID
  decisionCycleId : UUID
  symbol : String
  direction : Direction
  rejectionGate : GateType
  priorGateChain : List GateType
  quantity : ℚ
  decisionExecutablePrice : ℚ
  eligibleAfter : Time
  feeRate : ℚ
  expectedLossFraction : ℚ
  expectedGainFraction : ℚ
  status : CounterfactualStatus
  entryFill : Option PaperFill
  exitPlan : Option ExitPlan
  maximumFavorableExcursion : ℚ
  maximumAdverseExcursion : ℚ
  outcomes : List HorizonOutcome
  funding : ℚ
  noFillReason : Option String
  hypotheticalExitReason : Option ExitReason
  hypotheticalPnl : Option ℚ
  createdAt : Time
  closedAt : Option Time
  version : Nat
  events : List CounterfactualTransition
deriving DecidableEq

structure CounterfactualRequest where
  counterfactualId : UUID
  experimentId : UUID
  proposalId : UUID
  decisionCycleId : UUID
  symbol : String
  direction : Direction
  rejectionGate : GateType
  priorGateChain : List GateType
  quantity : ℚ
  decisionExecutablePrice : ℚ
  eligibleAfter : Time
  feeRate : ℚ
  expectedLossFraction : ℚ
  expectedGainFraction : ℚ
  createdAt : Time

def requireRate (value : ℚ) (field : String) (allowZero : Bool) : Py Unit :=
  raiseIf (¬ ((if allowZero then 0 ≤ value else 0 < value) ∧ value < 1))
    (.valueError (field ++ " must be a finite Decimal in " ++ if allowZero then
    "[0, 1)" else "(0, 1)"))

namespace CounterfactualState

def pendingState (r : CounterfactualRequest) : CounterfactualState :=
  { counterfactualId := r.counterfactualId, experimentId := r.experimentId,
    proposalId := r.proposalId, decisionCycleId := r.decisionCycleId, symbol := r.symbol,
    direction := r.direction, rejectionGate := r.rejectionGate, priorGateChain := r.priorGateChain,
    quantity := r.quantity, decisionExecutablePrice := r.decisionExecutablePrice,
    eligibleAfter := r.eligibleAfter, feeRate := r.feeRate,
    expectedLossFraction := r.expectedLossFraction, expectedGainFraction := r.expectedGainFraction,
    status := .pending, entryFill := none, exitPlan := none, maximumFavorableExcursion := 0,
    maximumAdverseExcursion := 0, outcomes := [], funding := 0, noFillReason := none,
    hypotheticalExitReason := none, hypotheticalPnl := none, createdAt := r.createdAt,
    closedAt := none, version := 1,
      events := [⟨1, r.createdAt,
      .created r.proposalId r.decisionCycleId r.symbol r.direction r.rejectionGate r.priorGateChain
      r.quantity r.decisionExecutablePrice r.eligibleAfter⟩] }

def create (r : CounterfactualRequest) : Py CounterfactualState := do
  raiseIf (r.direction = .neutral) (.valueError "counterfactual direction must be long or short")
  raiseIf (r.symbol = "" ∨ r.priorGateChain.getLast? ≠ some r.rejectionGate)
    (.valueError "prior gate chain must end at the rejection gate")
  requirePositiveDecimal r.quantity "quantity"
  requirePositiveDecimal r.decisionExecutablePrice "decision_executable_price"
  requireRate r.feeRate "fee_rate" true
  requireRate r.expectedLossFraction "expected_loss_fraction" false
  requireRate r.expectedGainFraction "expected_gain_fraction" false
  return pendingState r

variable (A : Arith) (s : CounterfactualState)

/-- the end of `_advance`: one more transition, after the other changes -/
def advance (payload : CounterfactualPayload) (eventAt : Time) : CounterfactualState :=
  { s with version := s.version + 1, events := s.events ++ [⟨s.version + 1, eventAt, payload⟩] }

def expectedSide : PaperOrderSide := if s.direction = .long then .buy else .sell

def enter (fill : PaperFill) (planId : UUID) : Py CounterfactualState := do
  raiseIf (s.status ≠ .pending) (.runtimeError "counterfactual is not pending")
  raiseIf (fill.symbol ≠ s.symbol ∨ fill.side ≠ s.expectedSide)
    (.valueError "hypothetical fill does not match counterfactual direction")
  raiseIf (fill.quantity ≠ s.quantity ∨ fill.fillAt ≤ s.eligibleAfter)
    (.valueError "hypothetical fill quantity or eligibility differs")
  let plan ← ExitPlan.create A planId s.counterfactualId s.direction fill.quantity fill.price
    s.expectedLossFraction s.expectedGainFraction fill.fillAt 60
  return ({ s with status := .open, entryFill := some fill, exitPlan := some plan }).advance
    (.entered fill.marketEventId fill.quantity fill.price fill.fee fill.totalSlippage) fill.fillAt

def markNoFill (reason : String) (observedAt : Time) : Py CounterfactualState := do
  raiseIf (s.status ≠ .pending) (.runtimeError "counterfactual is not pending")
  raiseIf (reason = "") (.valueError "no-fill reason is required")
  return ({ s with
    status := .noFill, noFillReason := some reason, closedAt := some observedAt }).advance
    (.noFill reason) observedAt

def sourceEvents (o : CounterfactualObservation) : List CounterfactualTransition :=
  s.events.filter (fun e => e.payload.eventType = o.eventType ∧
    e.payload.observation.map (·.marketEventId) = some o.marketEventId)

def sourceEventExists (o : CounterfactualObservation) (observedAt : Time)
    (allowReobservation : Bool) : Py Bool :=
  match s.sourceEvents o with
  | [] => .ok false
  | [existing] => do
    raiseIf ((allowReobservation = false ∧ existing.eventAt ≠ observedAt) ∨
        existing.payload.observation ≠ some o)
      (.valueError "counterfactual market event identity has different content")
    return true
  | _ => .error (.runtimeError "counterfactual source event was persisted more than once")

def grossPnl (fill : PaperFill) (markPrice : ℚ) : ℚ :=
  let difference := A.sub markPrice fill.price
  A.mul (if s.direction = .short then A.neg difference else difference) s.quantity

def netPnl (fill : PaperFill) (markPrice : ℚ) : ℚ :=
  let exitFee := A.mul (A.mul markPrice s.quantity) s.feeRate
  A.add (A.sub (A.sub (s.grossPnl A fill markPrice) fill.fee) exitFee) s.funding

/-- the excursions once a mark is seen: only an open counterfactual moves them -/
def excursions (gross : ℚ) : ℚ × ℚ :=
  if s.status = .open then
    (max s.maximumFavorableExcursion (max 0 gross),
      max s.maximumAdverseExcursion (max 0 (A.neg gross)))
  else (s.maximumFavorableExcursion, s.maximumAdverseExcursion)

def dueHorizons (fill : PaperFill) (observedAt : Time) : List Horizon :=
  Horizon.all.filter (fun h => h ∉ s.outcomes.map (·.horizon) ∧
    observedAt ≥ fill.fillAt + h.duration)

def withOutcomes (fill : PaperFill) (markPrice : ℚ) (observedAt : Time) : List HorizonOutcome :=
  s.outcomes ++
    (s.dueHorizons fill observedAt).map
    (fun h => ⟨h, observedAt, markPrice, s.netPnl A fill markPrice⟩)

def close (fill : PaperFill) (markPrice : ℚ) (reason : ExitReason) (closedAt : Time) :
    CounterfactualState :=
  let pnl := s.netPnl A fill markPrice
  ({ s with
      status := .resolved, hypotheticalExitReason := some reason, hypotheticalPnl := some pnl,
      closedAt := some closedAt }).advance (.resolved markPrice reason pnl) closedAt

def evaluateMark (plan : ExitPlan) (markPrice : ℚ) (observedAt : Time) :
    Py (Option ExitEvaluation) :=
  if s.status = .open then do
    let evaluation ← plan.evaluateMark markPrice observedAt none
    return some evaluation
  else .ok none

def applyMark (fill : PaperFill) (plan : ExitPlan) (markPrice : ℚ) (observedAt : Time)
    (marketEventId : String) (evaluation : Option ExitEvaluation) : CounterfactualState :=
  let gross := s.grossPnl A fill markPrice
  let moved := s.excursions A gross
  let outcomes := s.withOutcomes A fill markPrice observedAt
  let intent := evaluation.bind (·.intent)
  if moved = (s.maximumFavorableExcursion, s.maximumAdverseExcursion) ∧ outcomes = s.outcomes ∧
    intent = none then s
  else
    let updated := ({ s with
      maximumFavorableExcursion := moved.1, maximumAdverseExcursion := moved.2,
        outcomes := outcomes,
      exitPlan := some ((evaluation.map ExitEvaluation.plan).getD plan) }).advance
        (.markObserved marketEventId markPrice gross moved.1 moved.2
          (outcomes.map HorizonOutcome.horizon)) observedAt
    match intent with
    | some intent => updated.close A fill markPrice intent.reason observedAt
    | none => updated

def observeMark (markPrice : ℚ) (observedAt : Time)
    (marketEventId : String) : Py CounterfactualState := do
  raiseIf (¬ (s.status = .open ∨ s.status = .resolved))
    (.runtimeError "counterfactual is not research-observable")
  raiseIf (marketEventId = "") (.valueError "counterfactual mark market_event_id is required")
  requirePositiveDecimal markPrice "mark_price"
  let seen ← s.sourceEventExists (.mark marketEventId markPrice) observedAt false
  if seen then return s
  else
    let fill ← orRaise s.entryFill (.runtimeError "AssertionError")
    let plan ← orRaise s.exitPlan (.runtimeError "AssertionError")
    let evaluation ← s.evaluateMark plan markPrice observedAt
    return s.applyMark A fill plan markPrice observedAt marketEventId evaluation

def countBar (markPrice : ℚ) (decisionDirection : Direction)
    (decisionApproved : Bool) (closedAt : Time) (marketEventId : String) :
    Py CounterfactualState := do
  let plan ← orRaise s.exitPlan (.runtimeError "AssertionError")
  let evaluation ← plan.observeClosedBar decisionDirection decisionApproved closedAt markPrice
  let updated := ({ s with exitPlan := some evaluation.plan }).advance
    (.closedBarObserved marketEventId markPrice decisionDirection decisionApproved
      evaluation.plan.barsElapsed evaluation.plan.oppositeSignalStreak) closedAt
  match evaluation.intent with
  | some intent => do
    let fill ← orRaise s.entryFill (.runtimeError "AssertionError")
    return updated.close A fill markPrice intent.reason closedAt
  | none => return updated

def observeClosedBar (markPrice : ℚ) (decisionDirection : Direction) (decisionApproved : Bool)
    (closedAt : Time) (marketEventId : String) : Py CounterfactualState := do
  raiseIf (marketEventId = "") (.valueError "counterfactual closed bar market_event_id is required")
  let seen ← s.sourceEventExists
    (.closedBar marketEventId markPrice decisionDirection decisionApproved) closedAt false
  if seen then return s
  else
    let updated ← s.observeMark A markPrice closedAt marketEventId
    if updated.status ≠ .open then return updated
    else updated.countBar A markPrice decisionDirection decisionApproved closedAt marketEventId

def applyFunding (rate markPrice : ℚ) (observedAt : Time)
    (marketEventId : String) : Py CounterfactualState := do
  raiseIf (¬ (s.status = .open ∨ s.status = .resolved))
    (.runtimeError "counterfactual is not research-observable")
  raiseIf (marketEventId = "") (.valueError "counterfactual funding market_event_id is required")
  requirePositiveDecimal markPrice "mark_price"
  let fill ← orRaise s.entryFill (.runtimeError "AssertionError")
  raiseIf (s.status = .resolved ∧ observedAt > fill.fillAt + researchWindow)
    (.runtimeError "counterfactual research window has ended")
  let seen ← s.sourceEventExists (.funding marketEventId rate markPrice) observedAt true
  if seen then return s
  else
    let amount := A.mul (A.mul s.quantity markPrice) rate
    let signed := if s.direction = .long then A.neg amount else amount
    return ({ s with funding := A.add s.funding signed }).advance
      (.fundingApplied marketEventId rate markPrice signed) observedAt

def outcome (h : Horizon) : Option ℚ := (s.outcomes.find? (fun o => o.horizon = h)).map (·.netPnl)

/-! ## what a change does -/

structure Sound (s : CounterfactualState) : Prop where
  version : 1 ≤ s.version
  opened : s.status = .open →
    ∃ fill plan, s.entryFill = some fill ∧ s.exitPlan = some plan ∧ plan.createdAt = fill.fillAt

structure Later (s t : CounterfactualState) : Prop where
  counterfactualId : t.counterfactualId = s.counterfactualId
  proposalId : t.proposalId = s.proposalId
  entryFill : t.entryFill = s.entryFill
  version : s.version < t.version
  plan : t.status = .open → s.status = .open ∧
    ∃ p q, s.exitPlan = some p ∧ t.exitPlan = some q ∧ q.createdAt = p.createdAt

section
variable {A s} {t : CounterfactualState}

theorem Later.trans {u : CounterfactualState} (h : Later s t) (g : Later t u) : Later s u := by
  refine ⟨g.counterfactualId.trans h.counterfactualId, g.proposalId.trans h.proposalId,
    g.entryFill.trans h.entryFill, h.version.trans g.version, fun hopen => ?_⟩
  obtain ⟨ht, p', q, hp', hq, hcq⟩ := g.plan hopen
  obtain ⟨hs, p, q', hp, hq', hcq'⟩ := h.plan ht
  obtain rfl : p' = q' := Option.mem_unique hp' hq'
  exact ⟨hs, p, q, hp, hq, hcq.trans hcq'⟩

theorem Sound.later (h : s.Sound) (hl : Later s t) : t.Sound := by
  refine ⟨h.version.trans hl.version.le, fun hopen => ?_⟩
  obtain ⟨hs, p, q, hp, hq, hc⟩ := hl.plan hopen
  obtain ⟨fill, plan, hfill, hplan, hcreated⟩ := h.opened hs
  obtain rfl : p = plan := Option.mem_unique hp hplan
  exact ⟨fill, q, by rw [hl.entryFill, hfill], hq, hc.trans hcreated⟩

theorem Later.ne (h : Later s t) : t ≠ s := fun e => absurd h.version (by rw [e]; exact lt_irrefl _)

theorem create_sound {r : CounterfactualRequest} (h : create r = .ok t) :
    t.Sound ∧ t.version = 1 ∧ t.status = .pending ∧ t.proposalId = r.proposalId := by
  simp only [create, bind_eq_ok, pure_ok_iff] at h
  obtain ⟨_, _, _, _, _, _, _, _, _, _, _, _, _, _, rfl⟩ := h
  exact ⟨⟨le_refl 1, fun h => by cases h⟩, rfl, rfl, rfl⟩

variable {fill : PaperFill}

theorem enter_cases {planId : UUID} (h : s.enter A fill planId = .ok t) :
    s.status = .pending ∧ t.counterfactualId = s.counterfactualId ∧ t.proposalId = s.proposalId ∧
      t.version = s.version + 1 ∧ t.status = .open ∧ t.entryFill = some fill ∧
      ∃ plan, t.exitPlan = some plan ∧ plan.createdAt = fill.fillAt := by
  simp only [enter, bind_eq_ok, raiseIf_eq_ok, ne_eq, not_not, pure_ok_iff] at h
  obtain ⟨_, hs, _, _, _, _, plan, hplan, rfl⟩ := h
  obtain ⟨_, _, _, _, _, _, hcreated, _⟩ := ExitPlan.create_eq hplan
  exact ⟨hs, rfl, rfl, rfl, rfl, rfl, plan, rfl, hcreated⟩

theorem markNoFill_cases {reason : String} {at' : Time} (h : s.markNoFill reason at' = .ok t) :
    s.status = .pending ∧ t.counterfactualId = s.counterfactualId ∧ t.proposalId = s.proposalId ∧
      t.version = s.version + 1 ∧ t.status = .noFill := by
  simp only [markNoFill, bind_eq_ok, raiseIf_eq_ok, ne_eq, not_not, pure_ok_iff] at h
  obtain ⟨_, hs, _, _, rfl⟩ := h
  exact ⟨hs, rfl, rfl, rfl, rfl⟩

theorem close_later {mark : ℚ} {reason : ExitReason} {at' : Time} :
    Later s (s.close A fill mark reason at') :=
  ⟨rfl, rfl, rfl, Nat.lt_succ_self _, fun h => nomatch h⟩

variable {evaluation : Option ExitEvaluation}

theorem evaluateMark_createdAt {plan : ExitPlan} {mark : ℚ} {at' : Time}
    (h : s.evaluateMark plan mark at' = .ok evaluation) :
    ((evaluation.map ExitEvaluation.plan).getD plan).createdAt = plan.createdAt := by
  unfold evaluateMark at h
  split at h
  · simp only [bind_eq_ok, pure_ok_iff] at h
    obtain ⟨e, he, rfl⟩ := h
    obtain ⟨_, _, ⟨_, rfl⟩ | ⟨_, _, rfl, _⟩⟩ := ExitPlan.evaluateMark_cases he
    · rfl
    · rfl
  · cases h
    rfl

theorem applyMark_later {plan : ExitPlan} {mark : ℚ} {at' : Time} {id : String}
    (hplan : s.exitPlan = some plan) (he : s.evaluateMark plan mark at' = .ok evaluation) :
    s.applyMark A fill plan mark at' id evaluation = s ∨
      Later s (s.applyMark A fill plan mark at' id evaluation) := by
  have hcreated := evaluateMark_createdAt he
  unfold applyMark
  simp only
  split
  · exact Or.inl rfl
  · refine Or.inr ?_
    have hlater : ∀ (favorable adverse : ℚ) (outcomes : List HorizonOutcome)
        (payload : CounterfactualPayload), Later s (({ s with
          maximumFavorableExcursion := favorable, maximumAdverseExcursion := adverse
          outcomes := outcomes
          exitPlan := some ((evaluation.map ExitEvaluation.plan).getD plan) }).advance
            payload at') :=
      fun _ _ _ _ =>
        ⟨rfl, rfl, rfl, Nat.lt_succ_self _, fun hopen => ⟨hopen, plan, _, hplan, rfl, hcreated⟩⟩
    split
    · exact (hlater _ _ _ _).trans close_later
    · exact hlater _ _ _ _

theorem observeMark_cases {mark : ℚ} {at' : Time} {id : String}
    (h : s.observeMark A mark at' id = .ok t) : t = s ∨ Later s t := by
  simp only [observeMark, bind_eq_ok] at h
  obtain ⟨_, _, _, _, _, _, seen, _, h⟩ := h
  split at h
  · cases h
    exact Or.inl rfl
  · simp only [bind_eq_ok, orRaise_eq_ok, pure_ok_iff] at h
    obtain ⟨fill, _, plan, hplan, evaluation, he, rfl⟩ := h
    exact applyMark_later hplan he

theorem applyFunding_cases {rate mark : ℚ} {at' : Time} {id : String}
    (h : s.applyFunding A rate mark at' id = .ok t) (hs : s.Sound) : t = s ∨ Later s t := by
  simp only [applyFunding, bind_eq_ok] at h
  obtain ⟨_, _, _, _, _, _, _, _, _, _, seen, _, h⟩ := h
  split at h
  · cases h
    exact Or.inl rfl
  · cases h
    refine Or.inr ⟨rfl, rfl, rfl, Nat.lt_succ_self _, fun hopen => ?_⟩
    obtain ⟨_, plan, _, hplan, _⟩ := hs.opened hopen
    exact ⟨hopen, plan, plan, hplan, hplan, rfl⟩

theorem countBar_later {mark : ℚ} {direction : Direction} {approved : Bool} {at' : Time}
    {id : String} (hopen : s.status = .open)
    (h : s.countBar A mark direction approved at' id = .ok t) : Later s t := by
  simp only [countBar, bind_eq_ok, orRaise_eq_ok] at h
  obtain ⟨plan, hplan, evaluation, he, h⟩ := h
  have hcreated : evaluation.plan.createdAt = plan.createdAt :=
    (ExitPlan.observeClosedBar_stepsTo he).createdAt
  have hlater : ∀ payload : CounterfactualPayload,
      Later s (({ s with exitPlan := some evaluation.plan }).advance payload at') :=
    fun _ => ⟨rfl, rfl, rfl, Nat.lt_succ_self _, fun _ => ⟨hopen, plan, _, hplan, rfl, hcreated⟩⟩
  split at h
  · simp only [bind_eq_ok, pure_ok_iff] at h
    obtain ⟨_, _, rfl⟩ := h
    exact (hlater _).trans close_later
  · cases h
    exact hlater _

/-! ## closed bars -/

/-- the counterfactual has one transition for a market event, with this content at this time -/
def Observed (s : CounterfactualState) (o : CounterfactualObservation) (at' : Time) : Prop :=
  ∃ e, s.sourceEvents o = [e] ∧ e.eventAt = at' ∧ e.payload.observation = some o

variable {o : CounterfactualObservation}

theorem sourceEventExists_eq_true {at' : Time} :
    s.sourceEventExists o at' false = .ok true ↔ s.Observed o at' := by
  unfold sourceEventExists Observed
  split
  · rename_i hnone
    simp [hnone]
  · rename_i e hone
    simp only [hone, bind_eq_ok, raiseIf_eq_ok, not_or, not_and, ne_eq, not_not, true_imp_iff,
      pure_eq_ok, and_true, exists_const, List.cons.injEq, exists_eq_left']
  · rename_i hnone hone
    refine iff_of_false (fun h => nomatch h) ?_
    rintro ⟨e, he, _⟩
    exact hone e he

theorem sourceEventExists_raises {at' : Time} {allow : Bool} :
    RaisesOnly (· ≠ ExitPlan.tooEarly) (s.sourceEventExists o at' allow) := by
  unfold sourceEventExists
  split
  · exact RaisesOnly.ok
  · exact RaisesOnly.guard (by decide) RaisesOnly.ok
  · exact RaisesOnly.error (by decide)

variable {mark : ℚ} {direction : Direction} {approved : Bool} {at' : Time} {id : String}

theorem observeClosedBar_observed (hid : id ≠ "")
    (h : s.Observed (.closedBar id mark direction approved) at') :
    s.observeClosedBar A mark direction approved at' id = .ok s := by
  rw [observeClosedBar, raiseIf_bind_neg hid, sourceEventExists_eq_true.mpr h]
  rfl

theorem observeClosedBar_cases (h : s.observeClosedBar A mark direction approved at' id = .ok t) :
    id ≠ "" ∧ (t = s ∧ (s.Observed (.closedBar id mark direction approved) at' ∨ s.status ≠ .open) ∨
      Later s t) := by
  simp only [observeClosedBar, bind_eq_ok, raiseIf_eq_ok] at h
  obtain ⟨_, hid, seen, hseen, h⟩ := h
  refine ⟨hid, ?_⟩
  split at h
  · rename_i hs
    rw [hs, sourceEventExists_eq_true] at hseen
    cases h
    exact Or.inl ⟨rfl, Or.inl hseen⟩
  · simp only [bind_eq_ok] at h
    obtain ⟨updated, hu, h⟩ := h
    split at h
    · rename_i hopen
      cases h
      obtain rfl | hl := observeMark_cases hu
      · exact Or.inl ⟨rfl, Or.inr hopen⟩
      · exact Or.inr hl
    · rename_i hopen
      have hb := countBar_later (not_not.mp hopen) h
      obtain rfl | hl := observeMark_cases hu
      · exact Or.inr hb
      · exact Or.inr (hl.trans hb)

theorem observeMark_raises (hs : s.Sound) (hopen : s.status = .open)
    (hfill : s.entryFill = some fill) (hle : fill.fillAt ≤ at') :
    RaisesOnly (· ≠ ExitPlan.tooEarly) (s.observeMark A mark at' id) := by
  obtain ⟨fill', plan, hfill', hplan, hcreated⟩ := hs.opened hopen
  obtain rfl : fill = fill' := Option.mem_unique hfill hfill'
  refine RaisesOnly.guard (by decide) (RaisesOnly.guard (by decide) ?_)
  refine RaisesOnly.bind (ExitPlan.requirePositiveDecimal_raises (by decide)) fun _ => ?_
  refine RaisesOnly.bind sourceEventExists_raises fun seen => ?_
  split
  · exact RaisesOnly.ok
  · rw [hfill, hplan, orRaise_some, ok_bind, orRaise_some, ok_bind, evaluateMark, if_pos hopen]
    refine RaisesOnly.bind ?_ fun _ => RaisesOnly.ok
    exact RaisesOnly.bind (ExitPlan.evaluateMark_raises (hcreated ▸ hle)) fun _ => RaisesOnly.ok

theorem observeClosedBar_raises (hs : s.Sound) (hopen : s.status = .open)
    (hfill : s.entryFill = some fill) (hle : fill.fillAt ≤ at') :
    RaisesOnly (· ≠ ExitPlan.tooEarly) (s.observeClosedBar A mark direction approved at' id) := by
  refine RaisesOnly.guard (by decide) ?_
  refine RaisesOnly.bind sourceEventExists_raises fun seen => ?_
  split
  · exact RaisesOnly.ok
  · refine RaisesOnly.bind_ok (observeMark_raises hs hopen hfill hle) fun updated hu => ?_
    have hkept : updated.Sound ∧ updated.entryFill = s.entryFill := by
      obtain rfl | hl := observeMark_cases hu
      · exact ⟨hs, rfl⟩
      · exact ⟨hs.later hl, hl.entryFill⟩
    split
    · exact RaisesOnly.ok
    · rename_i hstill
      obtain ⟨fill', plan, hfill', hplan, hcreated⟩ := hkept.1.opened (not_not.mp hstill)
      obtain rfl : fill = fill' := Option.some.inj (by rw [← hfill, ← hkept.2, hfill'])
      unfold countBar
      rw [hplan, orRaise_some, ok_bind]
      refine RaisesOnly.bind (ExitPlan.observeClosedBar_raises (hcreated ▸ hle)) fun evaluation =>
        ?_
      cases evaluation.intent with
      | none => exact RaisesOnly.ok
      | some intent => exact RaisesOnly.bind (RaisesOnly.orRaise (by decide)) fun _ => RaisesOnly.ok

end

end CounterfactualState

end Maais
