import Maais.Paper.Closable
import Maais.Paper.Sensitivity

/-!
# Entries in exact arithmetic

* `fillMargin`  what an opening fill takes of the free margin;
* `applyFill_open_iff`  the account takes the fill when its free margin covers that;
* `EntryReady`  an order the broker's own checks let through;
* `EntryReady.granted`  such an order is never refused as unauthorized or by the filters;
* `enter_ready_iff`  it is entered, with its sensitivities, when margin, plan and price allow it.
-/

namespace Maais
open Lib

/-! ## lots -/

namespace PositionState

variable {p : PositionState}

theorem unrealizedPnl_exact (h : ∀ lot ∈ p.lots, lot.Valid) :
    p.unrealizedPnl .exact =
      if p.side = .long then p.markPrice * heldOf p.lots - costOf p.lots
      else costOf p.lots - p.markPrice * heldOf p.lots := by
  unfold unrealizedPnl
  simp only [Arith.exact_mul, Arith.exact_sub, Arith.exact_sum, sum_long, sum_short]
  split
  · rename_i hflat
    have h0 : heldOf p.lots = 0 := by
      have hq : p.quantity .exact = 0 := hflat
      rwa [quantity_exact] at hq
    rw [h0, costOf_eq_zero h h0]
    simp
  · rfl

theorem openFill_exact {q : PositionState} {fillId : UUID} {side : Direction} {n price fee : ℚ}
    {t : Time} (h : p.openFill .exact fillId side n price fee t = .ok q) :
    q.side = side ∧ q.markPrice = price ∧ heldOf q.lots = heldOf p.lots + n ∧
      costOf q.lots = costOf p.lots + price * n ∧ q.realizedPnl = p.realizedPnl ∧
      q.fees = p.fees + fee ∧ q.funding = p.funding ∧ q.positionId = p.positionId := by
  simp only [openFill, bind_eq_ok, raiseIf_eq_ok, pure_ok_iff] at h
  obtain ⟨_, _, _, _, _, _, _, _, _, _, rfl⟩ := h
  refine ⟨rfl, rfl, ?_, ?_, rfl, rfl, rfl, rfl⟩
  · simp [heldOf]
  · simp [costOf]

theorem openFill_ok (fillId : UUID) {side : PaperOrderSide} {n price fee : ℚ} (t : Time)
    (hside : p.isFlat .exact ∨ p.side = side.openingDirection) (hn : 0 < n) (hp : 0 < price)
    (hf : 0 ≤ fee) : ∃ q, p.openFill .exact fillId side.openingDirection n price fee t = .ok q := by
  have hdir : side.openingDirection ≠ .neutral := by
    cases side with
    | buy => decide
    | sell => decide
  have hsame : ¬ (¬ p.isFlat .exact ∧ p.side ≠ side.openingDirection) := fun h => hside.elim h.1 h.2
  rw [openFill, raiseIf_bind_neg hdir, raiseIf_bind_neg hsame,
    requirePositiveDecimal_eq_ok (u := ()).mpr hn, ok_bind,
    requirePositiveDecimal_eq_ok (u := ()).mpr hp, ok_bind,
    requireNonnegative_eq_ok (u := ()).mpr hf, ok_bind]
  exact ⟨_, rfl⟩

end PositionState

/-! ## the account -/

namespace AccountState

variable {a : AccountState}

/-- the margin a rise of the open quantity in value takes: none of a long, which gains what it has
to cover; a short loses it and has to cover it as well -/
def revaluation (rise : ℚ) : PaperOrderSide → ℚ
  | .buy => 0
  | .sell => 2 * rise

def rise (p : PositionState) (price : ℚ) : ℚ := p.quantity .exact * (price - p.markPrice)

def fillMargin (a : AccountState) (symbol : String) (side : PaperOrderSide) (n price fee : ℚ) : ℚ :=
  n * price + fee + revaluation (((a.positions.get? symbol).map (rise · price)).getD 0) side

/-- the open position of the symbol, if any, is the one the fill goes to, in its direction -/
def Scales (a : AccountState) (positionId : UUID) (symbol : String)
    (side : PaperOrderSide) : Prop :=
  ∀ p ∈ a.positions.get? symbol, p.positionId = positionId ∧
    (p.isFlat .exact ∨ p.side = side.openingDirection)

def excess (p : PositionState) : ℚ := p.unrealizedPnl .exact - p.grossNotional .exact

theorem freeMargin_exact (hl : a.leverage = 1) :
    a.freeMargin .exact = a.cashBalance + (a.positions.values.map excess).sum := by
  have hsum : (a.positions.values.map excess).sum =
      (a.positions.values.map (fun p => p.unrealizedPnl .exact)).sum -
        (a.positions.values.map (fun p => p.grossNotional .exact)).sum := by
    induction a.positions.values with
    | nil => simp
    | cons p rest ih =>
      simp only [List.map_cons, List.sum_cons, ih, excess]
      ring
  simp only [freeMargin, equity, usedMargin, unrealizedPnl, grossNotional, total_exact,
    Arith.exact_sub, Arith.exact_add, Arith.exact_div, hl, Nat.cast_one, div_one, hsum]
  ring

variable {side : PaperOrderSide} {fee price : ℚ}

/-- a position after an opening fill puts in less: the notional of the fill, and twice the
revaluation of a short -/
theorem excess_openFill {p q : PositionState} {fillId : UUID} {n : ℚ} {t : Time}
    (hp : ∀ lot ∈ p.lots, lot.Valid) (hq : ∀ lot ∈ q.lots, lot.Valid)
    (hside : p.isFlat .exact ∨ p.side = side.openingDirection)
    (h : p.openFill .exact fillId side.openingDirection n price fee t = .ok q) :
    excess q = excess p - n * price - revaluation (rise p price) side := by
  obtain ⟨hs, hm, hheld, hcost, _⟩ := PositionState.openFill_exact h
  have hpq : p.quantity .exact = PositionState.heldOf p.lots := PositionState.quantity_exact p
  have hqq : q.quantity .exact = PositionState.heldOf q.lots := PositionState.quantity_exact q
  simp only [excess, rise, PositionState.grossNotional, Arith.exact_mul,
    PositionState.unrealizedPnl_exact hp, PositionState.unrealizedPnl_exact hq, hpq, hqq, hs,
    hm, hheld, hcost]
  rcases hside with hflat | hdir
  · -- nothing is held, so nothing is revalued
    have h0 : PositionState.heldOf p.lots = 0 := hpq.symm.trans hflat
    simp only [h0, PositionState.costOf_eq_zero hp h0, mul_zero, zero_mul, sub_self,
      ite_self, zero_add]
    cases side with
    | buy =>
      simp only [revaluation]
      ring
    | sell =>
      simp only [revaluation]
      ring
  · rw [hdir]
    cases side with
    | buy =>
      simp only [PaperOrderSide.openingDirection, revaluation, if_true]
      ring
    | sell =>
      simp only [PaperOrderSide.openingDirection, revaluation, reduceCtorEq, if_false]
      ring

variable {positionId : UUID} {symbol : String}

theorem openingPosition_ok (hsym : symbol ≠ "") (hs : a.Scales positionId symbol side) :
    ∃ current, a.openingPosition .exact positionId symbol = .ok current ∧
      OpensFrom a positionId symbol current ∧ current.positionId = positionId ∧
      (current.isFlat .exact ∨ current.side = side.openingDirection) := by
  unfold openingPosition
  cases hg : a.positions.get? symbol with
  | none =>
    obtain ⟨p, hp⟩ : ∃ p, PositionState.empty positionId a.experimentId symbol = .ok p := by
      rw [PositionState.empty, raiseIf_bind_neg hsym]
      exact ⟨_, rfl⟩
    refine ⟨p, hp, Or.inr ⟨hg, hp⟩, ?_⟩
    rw [PositionState.empty, raiseIf_bind_neg hsym, pure_ok_iff] at hp
    subst hp
    exact ⟨rfl, Or.inl (by simp [PositionState.isFlat])⟩
  | some p =>
    obtain ⟨hid, hdir⟩ := hs p hg
    refine ⟨p, ?_, Or.inl hg, hid, hdir⟩
    show (raiseIf (¬ p.isFlat .exact ∧ p.positionId ≠ positionId) _ >>= fun _ => pure p) = _
    rw [raiseIf_bind_neg (fun h => h.2 hid), pure_eq_ok]

structure Opened (a : AccountState) (fillId positionId : UUID) (symbol : String)
    (side : PaperOrderSide) (n price fee : ℚ) (t : Time) (q : PositionState) : Prop where
  filled : a.openingFill .exact fillId positionId symbol side n price fee t =
    .ok (q, a.cashBalance - fee)
  positionId : q.positionId = positionId
  valid : q.Valid
  isOpen : ¬ q.isFlat .exact
  direction : q.side = side.openingDirection
  reconciles : (a.advance .exact symbol q (a.cashBalance - fee) t).Reconciles
  freeMargin : a.leverage = 1 →
    (a.advance .exact symbol q (a.cashBalance - fee) t).freeMargin .exact =
    a.freeMargin .exact - a.fillMargin symbol side n price fee

theorem opened (fillId : UUID) {n : ℚ}
    (t : Time) (h : a.Valid) (hsym : symbol ≠ "") (hs : a.Scales positionId symbol side)
    (hn : 0 < n) (hp : 0 < price) (hf : 0 ≤ fee) :
    ∃ q, a.Opened fillId positionId symbol side n price fee t q := by
  obtain ⟨current, hcur, hfrom, hid, hdir⟩ := openingPosition_ok hsym hs
  obtain ⟨q, hq⟩ := PositionState.openFill_ok fillId t hdir hn hp hf
  obtain ⟨hside, _, _, _, hreal, hfees, hfund, hqid⟩ := PositionState.openFill_exact hq
  obtain ⟨⟨hqv, _⟩, hqo⟩ := openingFill_valid h hfrom hq
  -- the position before the fill, also when the account had none
  have hold : (∀ lot ∈ current.lots, lot.Valid) ∧
      ((a.positions.get? symbol).map (·.realizedPnl)).getD 0 = current.realizedPnl ∧
      ((a.positions.get? symbol).map (·.fees)).getD 0 = current.fees ∧
      ((a.positions.get? symbol).map (·.funding)).getD 0 = current.funding ∧
      ((a.positions.get? symbol).map excess).getD 0 = excess current ∧
      ((a.positions.get? symbol).map (rise · price)).getD 0 = rise current price := by
    rcases hfrom with hg | ⟨hg, hempty⟩
    · rw [hg]
      exact ⟨(h.positions symbol current hg).1.lots, rfl, rfl, rfl, rfl, rfl⟩
    · rw [PositionState.empty, raiseIf_bind_neg hsym, pure_ok_iff] at hempty
      subst hempty
      rw [hg]
      simp [excess, rise, PositionState.unrealizedPnl, PositionState.grossNotional,
        PositionState.isFlat]
  obtain ⟨hlots, holdReal, holdFees, holdFund, holdExcess, holdRise⟩ := hold
  refine ⟨q, ?_, hqid.trans hid, hqv, hqo, hside, advance_reconciles h.reconciles ?_, fun hl => ?_⟩
  · rw [openingFill, hcur, ok_bind, hq, ok_bind]
    rfl
  · rw [holdReal, holdFees, holdFund, hreal, hfees, hfund]
    ring
  · rw [freeMargin_exact hl, freeMargin_exact (by rw [advance_leverage]; exact hl),
      advance_positions, advance_cashBalance, Dict.sum_values_set, holdExcess,
      excess_openFill hlots hqv.lots hdir hq, fillMargin, holdRise]
    ring

theorem applyFill_open_iff (fillId : UUID) {n : ℚ} (t : Time) (h : a.Valid) (hl : a.leverage = 1)
    (hsym : symbol ≠ "") (hs : a.Scales positionId symbol side) (hn : 0 < n) (hp : 0 < price)
    (hf : 0 ≤ fee) : ∃ q, a.Opened fillId positionId symbol side n price fee t q ∧
      ∀ b, a.applyFill .exact fillId positionId symbol side .open n price fee t = .ok b ↔
        a.fillMargin symbol side n price fee ≤ a.freeMargin .exact ∧
          b = a.advance .exact symbol q (a.cashBalance - fee) t := by
  obtain ⟨q, hq⟩ := opened fillId t h hsym hs hn hp hf
  refine ⟨q, hq, fun b => ?_⟩
  rw [applyFill, requirePositiveDecimal_eq_ok (u := ()).mpr hn, ok_bind,
    requirePositiveDecimal_eq_ok (u := ()).mpr hp, ok_bind,
    requireNonnegative_eq_ok (u := ()).mpr hf, ok_bind, filledPosition, hq.filled, ok_bind]
  by_cases hm : a.fillMargin symbol side n price fee ≤ a.freeMargin .exact
  · have hfree : ¬ (PositionEffect.open = .open ∧
        (a.advance .exact symbol q (a.cashBalance - fee) t).freeMargin .exact < 0) := by
      rintro ⟨_, hneg⟩
      rw [hq.freeMargin hl] at hneg
      linarith
    rw [raiseIf_bind_neg hfree, raiseIf_not_bind ((reconcile_ok_iff _).mpr hq.reconciles),
      pure_eq_ok, Except.ok.injEq]
    exact ⟨fun he => ⟨hm, he.symm⟩, fun he => he.2.symm⟩
  · have hfree : PositionEffect.open = .open ∧
        (a.advance .exact symbol q (a.cashBalance - fee) t).freeMargin .exact < 0 := by
      refine ⟨rfl, ?_⟩
      rw [hq.freeMargin hl]
      linarith [not_le.mp hm]
    rw [raiseIf_bind_pos hfree]
    exact ⟨(fun he => by cases he), fun he => absurd he.1 hm⟩

end AccountState

/-! ## the plan -/

namespace PaperBroker

/-- an entry without a plan creates one from its fractions; one with a plan needs it active -/
def planAccepts (loss gain : ℚ) : Option ExitPlan → Prop
  | none => (0 < loss ∧ loss < 1) ∧ 0 < gain ∧ gain < 1
  | some plan => plan.status = .active

instance planAccepts.decidable {loss gain : ℚ} {active : Option ExitPlan} : Decidable
    (planAccepts loss gain active) := by
  cases active <;> unfold planAccepts <;> infer_instance

theorem requireFraction_eq_ok {x : ℚ} {field : String} {u : Unit} :
    requireFraction x field = .ok u ↔ 0 < x ∧ x < 1 := by
  simp only [requireFraction, raiseIf_eq_ok, not_not]

theorem entryPlan_fields {A : Arith} {command : MarketEntryCommand} {q : PositionState}
    {active : Option ExitPlan} {t : Time} {plan : ExitPlan}
    (h : entryPlan A command q t active = .ok plan) : plan.positionId = q.positionId ∧
    plan.quantity = q.quantity A := by
  cases active with
  | none =>
    simp only [entryPlan, ExitPlan.create, bind_eq_ok, ExitPlan.postInit_eq_ok] at h
    obtain ⟨_, _, _, _, _, _, _, _, _, _, _, _, _, rfl⟩ := h
    exact ⟨rfl, rfl⟩
  | some active =>
    simp only [entryPlan, ExitPlan.resize, bind_eq_ok, raiseIf_eq_ok, ne_eq, not_not,
      ExitPlan.postInit_eq_ok] at h
    obtain ⟨_, hid, _, _, _, _, _, _, _, rfl⟩ := h
    exact ⟨hid, rfl⟩

/-- **the plan of an entry**, against the position it protects -/
theorem entryPlan_iff (command : MarketEntryCommand) {q : PositionState} {active : Option ExitPlan}
    (t : Time) (hq : q.Valid) (ho : ¬ q.isFlat .exact)
    (hactive : ∀ plan ∈ active, plan.WellFormed ∧ plan.positionId = q.positionId) :
    (∃ plan, entryPlan .exact command q t active = .ok plan) ↔
      planAccepts command.expectedLossFraction command.expectedGainFraction active := by
  obtain ⟨hside, _, havg⟩ := hq.isOpen ho
  have hpos := hq.quantity_pos ho
  cases active with
  | none =>
    simp only [entryPlan, ExitPlan.create, raiseIf_bind_neg hside,
      requirePositiveDecimal_eq_ok (u := ()).mpr hpos,
      requirePositiveDecimal_eq_ok (u := ()).mpr havg, ok_bind, bind_eq_ok, requireFraction_eq_ok,
      raiseIf_eq_ok, ExitPlan.postInit_eq_ok]
    constructor
    · rintro ⟨_, _, hloss, _, hgain, _⟩
      exact ⟨hloss, hgain⟩
    · rintro ⟨hloss, hgain⟩
      refine ⟨_, (), hloss, (), hgain, (), by decide, ⟨?_, ?_, ?_, ?_, ?_⟩, rfl⟩
      · exact fun _ => ⟨rfl, rfl, rfl, rfl⟩
      · rintro (h | h)
        · cases h
        · cases h
      · exact fun _ h => by cases h
      · exact fun _ h => by cases h
      · exact fun _ h => by cases h
  | some plan =>
    obtain ⟨hwf, hid⟩ := hactive plan rfl
    simp only [entryPlan, raiseIf_not_bind hid, ExitPlan.resize, ExitPlan.requireActive,
      requirePositiveDecimal_eq_ok (u := ()).mpr hpos,
      requirePositiveDecimal_eq_ok (u := ()).mpr havg, ok_bind, bind_eq_ok, raiseIf_eq_ok, not_not,
      ne_eq, ExitPlan.postInit_eq_ok]
    constructor
    · rintro ⟨_, _, hactive, _⟩
      exact hactive
    · intro hactive
      exact ⟨_, (), hactive,
        ⟨hwf.active, hwf.triggered, hwf.ordered, hwf.triggerPrice_pos, hwf.executablePrice_pos⟩,
        rfl⟩

/-! ## ready entries -/

theorem claims_postInit_ok {c : AuthorizationClaims} (hs : c.symbol ≠ "") (hq : 0 < c.quantity)
    (hn : 0 < c.approvedNotional) (ht : c.issuedAt < c.expiresAt) : c.postInit = .ok c := by
  rw [AuthorizationClaims.postInit, raiseIf_bind_neg hs,
    requirePositiveDecimal_eq_ok (u := ()).mpr hq, ok_bind,
    requirePositiveDecimal_eq_ok (u := ()).mpr hn, ok_bind, raiseIf_bind_neg (not_le.mpr ht)]
  rfl

structure EntryReady (broker : PaperBroker) (command : MarketEntryCommand)
    (account : AccountState) : Prop where
  experiment : account.experimentId = command.experimentId
  captured : command.exchangeFilters.capturedAt ≤ command.decisionCompletedAt
  verified : broker.authorizer.verify command.capability command.createdAt
  filterSymbol : command.exchangeFilters.symbol = command.symbol
  requested : command.requestedQuantity = command.approvedQuantity
  notional : command.approvedNotional = command.approvedQuantity * command.decisionExecutablePrice
  admitted : command.exchangeFilters.admits .exact command.side command.approvedQuantity
    command.decisionExecutablePrice
  claims : command.claimsMatch command.approvedQuantity
  latency : 0 < command.executionLatency
  clientOrderId : command.clientOrderId ≠ ""
  expiry : command.createdAt < command.expiresAt
  fee : 0 ≤ command.takerFeeRate ∧ command.takerFeeRate ≤ 1
  price : 0 < command.decisionExecutablePrice

/-- the request of a ready entry: the broker prepares the approved quantity -/
def approvedRequest (command : MarketEntryCommand) : MarketFillRequest :=
  entryRequest command command.approvedQuantity
    (command.decisionCompletedAt + command.executionLatency)

section
variable {broker : PaperBroker} {command : MarketEntryCommand} {account : AccountState}
  {books : List BookSnapshot} {active : Option ExitPlan}

theorem EntryReady.quantity_pos (h : EntryReady broker command account) :
    0 < command.approvedQuantity := by
  obtain ⟨prepared, hp, hq⟩ := h.admitted
  rw [← hq]
  exact ExchangeFilterSnapshot.prepare_quantity_pos hp

theorem EntryReady.symbol_ne (h : EntryReady broker command account) : command.symbol ≠ "" :=
  h.filterSymbol ▸ command.exchangeFilters.symbol_ne

theorem executeMarketEntry_ready (books : List BookSnapshot) (active : Option ExitPlan)
    (h : EntryReady broker command account) :
    ∃ order, order.status = .accepted ∧ order.filledQuantity = 0 ∧
      order.quantity = command.approvedQuantity ∧ order.orderId = command.orderId ∧
      order.symbol = command.symbol ∧ order.experimentId = command.experimentId ∧
      broker.executeMarketEntry .exact command account books active =
        (broker.marketFills.fill .exact (approvedRequest command) books >>=
          settleEntry .exact command account active order) := by
  obtain ⟨prepared, hprep, hpq⟩ := h.admitted
  rw [Arith.exact_mul, ← h.notional] at hprep
  have hclaims : command.claimsMatch prepared.quantity := hpq ▸ h.claims
  obtain ⟨order, horder⟩ :=
    PaperOrder.acceptedOrder_open_ok command.orderId command.experimentId command.proposalId
    (entryContent command command.approvedQuantity
    (command.decisionCompletedAt + command.executionLatency)) command.side
    (openQuantity .exact account command.symbol) h.clientOrderId h.symbol_ne h.quantity_pos h.expiry
  obtain ⟨h1, h2, _, _, _, h6, _, h8, h9, h10, _⟩ := PaperOrder.acceptedOrder_eq horder
  refine ⟨order, h10, h9, h8, h1, h6, h2, ?_⟩
  have hreq : (approvedRequest command).postInit = .ok (approvedRequest command) :=
    postInit_request_ok h.symbol_ne h.quantity_pos h.price h.fee
  rw [executeMarketEntry, raiseIf_not_bind h.experiment, raiseIf_bind_neg (not_lt.mpr h.captured),
    raiseIf_not_bind h.verified, h.requested, hprep, ok_bind, raiseIf_not_bind hclaims, hpq,
    eligibility, raiseIf_bind_neg (not_le.mpr h.latency), pure_eq_ok, ok_bind, horder, ok_bind]
  change ((approvedRequest command).postInit >>= _) = _
  rw [hreq]
  rfl

/-! ## what a ready entry can be refused for -/

def Denied (e : PyError) : Prop := ∃ text, e = .permissionError text ∨ e = .filterRejection text

abbrev Granted (e : PyError) : Prop := ¬ Denied e

theorem granted_of_ne {e : PyError} (hp : ∀ text, e ≠ .permissionError text)
    (hf : ∀ text, e ≠ .filterRejection text) : Granted e :=
  fun ⟨text, h⟩ => h.elim (hp text) (hf text)

theorem granted_valueError (text : String) : Granted (.valueError text) := granted_of_ne nofun nofun
theorem granted_runtimeError (text : String) : Granted (.runtimeError text) :=
  granted_of_ne nofun nofun

theorem requirePositiveDecimal_granted {x : ℚ} {field : String} :
    RaisesOnly Granted (requirePositiveDecimal x field) := .raiseIf (granted_valueError _)

theorem requireNonnegative_granted {x : ℚ} {field : String} :
    RaisesOnly Granted (requireNonnegative x field) := .raiseIf (granted_valueError _)

variable {A : Arith} {request : MarketFillRequest} {engine : MarketFillEngine}

theorem fill_granted :
    RaisesOnly Granted (engine.fill A request books) := by
  refine RaisesOnly.bind (.orRaise (granted_of_ne nofun nofun)) fun book => ?_
  refine RaisesOnly.guard (granted_of_ne nofun nofun) ?_
  refine RaisesOnly.bind (.guard (granted_of_ne nofun nofun) .ok) fun slices => ?_
  refine RaisesOnly.guard (granted_valueError _) ?_
  refine requirePositiveDecimal_granted.bind fun _ => requirePositiveDecimal_granted.bind fun _ =>
    requirePositiveDecimal_granted.bind fun _ => ?_
  exact .guard (granted_valueError _) <| .guard (granted_valueError _) <|
    .guard (granted_valueError _) <| .guard (granted_valueError _) <|
    .guard (granted_valueError _) .ok

variable {order : PaperOrder} {t : Time}

theorem orderFill_granted {n : ℚ} : RaisesOnly Granted (order.applyFill A n t) := by
  refine RaisesOnly.guard (granted_of_ne nofun nofun)
    (requirePositiveDecimal_granted.bind fun _ => ?_)
  refine RaisesOnly.guard (granted_valueError _) (RaisesOnly.bind ?_ fun _ => .ok)
  exact .guard (granted_of_ne nofun nofun) .ok

theorem filledPosition_granted {fillId positionId : UUID} {symbol : String} {side : PaperOrderSide}
    {n price fee : ℚ} :
    RaisesOnly Granted
    (account.filledPosition A fillId positionId symbol side .open n price fee t) := by
  refine RaisesOnly.bind ?_ fun current => RaisesOnly.bind ?_ fun _ => .ok
  · unfold AccountState.openingPosition
    split
    · exact .guard (granted_valueError _) .ok
    · exact .guard (granted_valueError _) .ok
  · exact .guard (granted_valueError _) <| .guard (granted_valueError _) <|
      requirePositiveDecimal_granted.bind fun _ => requirePositiveDecimal_granted.bind fun _ =>
        requireNonnegative_granted.bind fun _ => .ok

theorem accountFill_granted {fillId positionId : UUID} {symbol : String} {side : PaperOrderSide}
    {n price fee : ℚ} :
    RaisesOnly Granted (account.applyFill A fillId positionId symbol side .open n price fee t) := by
  refine requirePositiveDecimal_granted.bind fun _ => requirePositiveDecimal_granted.bind fun _ =>
    requireNonnegative_granted.bind fun _ => filledPosition_granted.bind fun filled => ?_
  exact .guard (granted_of_ne nofun nofun) <| .guard (granted_of_ne nofun nofun) .ok

theorem planPostInit_granted {plan : ExitPlan} : RaisesOnly Granted plan.postInit :=
  .guard (granted_valueError _) <| .guard (granted_valueError _) <| .guard (granted_valueError _) <|
    .guard (granted_valueError _) <| .guard (granted_valueError _) .ok

theorem entryPlan_granted {position : PositionState} :
    RaisesOnly Granted (entryPlan A command position t active) := by
  cases active with
  | none =>
    refine RaisesOnly.guard (granted_valueError _) (requirePositiveDecimal_granted.bind fun _ =>
      requirePositiveDecimal_granted.bind fun _ => ?_)
    exact RaisesOnly.bind (.raiseIf (granted_valueError _)) fun _ =>
      RaisesOnly.bind (.raiseIf (granted_valueError _)) fun _ =>
        .guard (granted_valueError _) planPostInit_granted
  | some plan =>
    refine RaisesOnly.guard (granted_valueError _)
      (RaisesOnly.bind (.raiseIf (granted_runtimeError _)) fun _ => ?_)
    exact requirePositiveDecimal_granted.bind fun _ => requirePositiveDecimal_granted.bind fun _ =>
      planPostInit_granted

theorem validate_granted {r : PaperExecutionRecord} : RaisesOnly Granted (r.validate A) := by
  refine RaisesOnly.guard (granted_valueError _) <| .guard (granted_valueError _) <|
    .guard (granted_valueError _) <| .guard (granted_valueError _) <|
    .guard (granted_valueError _) <| .guard (granted_valueError _) <|
    .guard (granted_valueError _) ?_
  unfold PaperExecutionRecord.validatePlan
  split
  · exact .ok
  · exact .error (granted_runtimeError _)
  · exact RaisesOnly.bind (.orRaise (granted_of_ne nofun nofun)) fun _ =>
      .guard (granted_valueError _) <| .guard (granted_valueError _) <|
        .raiseIf (granted_valueError _)

variable {fill : PaperFill}

theorem settleEntry_granted :
    RaisesOnly Granted (settleEntry A command account active order fill) := by
  refine RaisesOnly.guard (granted_runtimeError _) (orderFill_granted.bind fun order => ?_)
  refine accountFill_granted.bind fun next =>
    RaisesOnly.bind (.orRaise (granted_of_ne nofun nofun)) fun position => ?_
  refine entryPlan_granted.bind fun plan => RaisesOnly.bind ?_ fun stored =>
    validate_granted.bind fun _ => .ok
  exact .guard (granted_valueError _) <| requirePositiveDecimal_granted.bind fun _ =>
    requirePositiveDecimal_granted.bind fun _ => .guard (granted_valueError _) <|
      .guard (granted_valueError _) .ok

theorem EntryReady.granted (h : EntryReady broker command account) :
    RaisesOnly Granted (broker.executeMarketEntry .exact command account books active) := by
  obtain ⟨order, _, _, _, _, _, _, hrun⟩ := executeMarketEntry_ready books active h
  rw [hrun]
  exact fill_granted.bind fun _ => settleEntry_granted

/-! ## which fills are entered -/

structure EntrySound (command : MarketEntryCommand) (account : AccountState)
    (active : Option ExitPlan) : Prop where
  valid : account.Valid
  leverage : account.leverage = 1
  currency : account.currency ≠ ""
  scales : account.Scales command.positionId command.symbol command.side
  plan : ∀ plan ∈ active, plan.WellFormed ∧ plan.positionId = command.positionId

/-- what a fill needs to be entered: the free margin covers it, and the plan can protect it -/
def Enters (command : MarketEntryCommand) (account : AccountState) (active : Option ExitPlan)
    (fill : PaperFill) : Prop :=
  account.fillMargin command.symbol command.side fill.quantity fill.price fill.fee ≤
    account.freeMargin .exact ∧
    planAccepts command.expectedLossFraction command.expectedGainFraction active

theorem settleEntry_iff (h : EntryReady broker command account)
    (hs : EntrySound command account active)
    (horder : order.status = .accepted ∧ order.filledQuantity = 0 ∧
      order.quantity = command.approvedQuantity ∧ order.orderId = command.orderId ∧
      order.symbol = command.symbol ∧ order.experimentId = command.experimentId)
    (hfill : broker.marketFills.fill .exact (approvedRequest command) books = .ok fill)
    (hbefore : fill.fillAt < command.expiresAt) :
    (∃ r, settleEntry .exact command account active order fill = .ok r ∧ r.fill = fill) ↔
      Enters command account active fill := by
  obtain ⟨hos, hof, hoq, hoi, hosym, hoe⟩ := horder
  obtain ⟨_, _, hqty, _, _, hn, hprice, hfee, _⟩ := MarketFillEngine.fill_book hfill
  have hq : fill.quantity = command.approvedQuantity := hqty
  obtain ⟨order', ho', _, hof'⟩ :=
    PaperOrder.applyFill_whole fill.fillAt hos hof (hoq.trans hq.symm) hn
  obtain ⟨hsame, _⟩ := PaperOrder.applyFill_eq ho'
  obtain ⟨q, hopened, hiff⟩ :=
    AccountState.applyFill_open_iff command.fillId fill.fillAt hs.valid hs.leverage h.symbol_ne
    hs.scales hn hprice hfee
  have hplan := entryPlan_iff command fill.fillAt hopened.valid hopened.isOpen
    (fun plan hplan =>
    ⟨(hs.plan plan hplan).1, (hs.plan plan hplan).2.trans hopened.positionId.symm⟩)
  have hstored := stored_ok command.fillId command.orderId none hfill hs.currency
  rw [settleEntry, raiseIf_bind_neg (not_le.mpr hbefore), ho', ok_bind]
  constructor
  · rintro ⟨r, hr, _⟩
    simp only [bind_eq_ok, AccountState.position, orRaise_eq_ok] at hr
    obtain ⟨next, hnext, position, hposition, plan, hplanned, _⟩ := hr
    obtain ⟨hmargin, rfl⟩ := (hiff next).mp hnext
    rw [AccountState.advance_positions, Dict.get?_set_self] at hposition
    cases hposition
    exact ⟨hmargin, hplan.mp ⟨plan, hplanned⟩⟩
  · rintro ⟨hmargin, haccepts⟩
    obtain ⟨plan, hplanned⟩ := hplan.mpr haccepts
    obtain ⟨hid, hpq⟩ := entryPlan_fields hplanned
    have hvalid : (PaperExecutionRecord.mk order' command.exchangeFilters
        [storedFill command.fillId command.orderId account.currency fill none]
        (some (account.advance .exact command.symbol q
          (account.cashBalance - fill.fee) fill.fillAt))
        (some plan)).validate .exact = .ok () := by
      refine PaperExecutionRecord.validate_single ?_ ?_ ?_ ?_
        ((AccountState.reconcile_ok_iff _).mpr hopened.reconciles) ?_ hid (fun _ => hpq)
        (fun hflat => absurd hflat hopened.isOpen)
      · rw [hsame.2, hoe, AccountState.advance_experimentId, h.experiment]
      · rw [hsame.6, hosym, h.filterSymbol]
      · exact (hsame.1.trans hoi).symm
      · rw [hof']
        simp [storedFill]
      · rw [hsame.6, hosym, AccountState.advance_positions, Dict.get?_set_self]
    rw [(hiff _).mpr ⟨hmargin, rfl⟩, ok_bind, AccountState.position, AccountState.advance_positions,
      Dict.get?_set_self, orRaise_some, ok_bind, hplanned, ok_bind, finish, hstored, ok_bind]
    exact ⟨_, bind_eq_ok.mpr ⟨(), hvalid, rfl⟩, rfl⟩

theorem settleEntry_fill {r : PaperBrokerResult}
    (h : settleEntry A command account active order fill = .ok r) : r.fill = fill := by
  simp only [settleEntry, bind_eq_ok] at h
  obtain ⟨_, _, _, _, _, _, _, _, _, _, hfin⟩ := h
  rw [(finish_eq hfin).1]

theorem fill_side
    (h : engine.fill A request books = .ok fill) : fill.side = request.side := by
  simp only [MarketFillEngine.fill, bind_eq_ok] at h
  obtain ⟨_, _, _, _, _, _, h⟩ := h
  rw [(MarketFillEngine.postInit_eq h).1]
  rfl

theorem enter_ready_iff (h : EntryReady broker command account)
    (hs : EntrySound command account active)
    (hfill : broker.marketFills.fill .exact (approvedRequest command) books = .ok fill)
    (hbefore : fill.fillAt < command.expiresAt) :
    (∃ out, broker.enter .exact command account books active = .ok out) ↔
      Enters command account active fill ∧
      (command.side = .sell → |fill.totalSlippage| < fill.price * fill.quantity) := by
  obtain ⟨order, h1, h2, h3, h4, h5, h6, hrun⟩ := executeMarketEntry_ready books active h
  have hside : fill.side = command.side := fill_side hfill
  have hsettle := settleEntry_iff h hs ⟨h1, h2, h3, h4, h5, h6⟩ hfill hbefore
  have hsens :=
    calculateSensitivities_exact_iff (PaperFill.Priced.of_fill hfill)
    fill.book.markPrice_pos fill.fillAt
  rw [hside] at hsens
  rw [← hsettle, ← hsens]
  rw [hfill] at hrun
  have hrun' : broker.executeMarketEntry .exact command account books active =
      settleEntry .exact command account active order fill := hrun
  constructor
  · rintro ⟨⟨r, l⟩, hout⟩
    obtain ⟨hr, hl⟩ := enter_eq_ok.mp hout
    rw [hrun'] at hr
    have hrf := settleEntry_fill hr
    rw [hrf] at hl
    exact ⟨⟨r, hr, hrf⟩, l, hl⟩
  · rintro ⟨⟨r, hr, hrf⟩, l, hl⟩
    refine ⟨(r, l), enter_eq_ok.mpr ⟨hrun'.trans hr, ?_⟩⟩
    rw [hrf]
    exact hl

end

end PaperBroker

end Maais
