import Maais.Lib.Dict
import Maais.Paper.Positions
import Mathlib.Algebra.BigOperators.Ring.List

/-!
# The official account

* `applyFill`, `mark`, `applyFunding`  the transitions of the account;
* `applyFill_cases`  everything an accepted fill did;
* `Reconciles`  cash is the capital plus what the positions realized, paid and received;
* `applyFill_valid`, `mark_valid`, `applyFunding_valid`  the transitions keep an account valid;
* `applyFill_close_whole`  in exact arithmetic closing a whole position is always accepted.
-/

namespace Maais
open Lib

structure AccountState where
  experimentId : UUID
  initialCapital : ℚ
  currency : String
  leverage : Nat
  cashBalance : ℚ
  peakEquity : ℚ
  positions : Dict String PositionState
  version : Nat
  updatedAt : Option Time
deriving DecidableEq

structure AccountSnapshot where
  cashBalance : ℚ
  equity : ℚ
  usedMargin : ℚ
  freeMargin : ℚ
  grossNotional : ℚ
  unrealizedPnl : ℚ
  realizedPnl : ℚ
  fees : ℚ
  funding : ℚ
  peakEquity : ℚ
  drawdown : ℚ
deriving DecidableEq

structure ReconciliationReport where
  cash : ℚ
  equity : ℚ
  margin : ℚ

def ReconciliationReport.ok (r : ReconciliationReport) : Prop := r.cash = 0 ∧
    r.equity = 0 ∧ r.margin = 0

instance (r : ReconciliationReport) : Decidable r.ok := by
  unfold ReconciliationReport.ok
  infer_instance

namespace AccountState

def create (experimentId : UUID) (initialCapital : ℚ) (currency : String) (leverage : Nat) :
    Py AccountState := do
  requirePositiveDecimal initialCapital "initial_capital"
  raiseIf (currency = "") (.valueError "currency is required")
  raiseIf (¬ (1 ≤ leverage ∧ leverage ≤ 5)) (.valueError "leverage must be between 1 and 5")
  return { experimentId, initialCapital, currency, leverage, cashBalance := initialCapital,
           peakEquity := initialCapital, positions := .empty, version := 0, updatedAt := none }

variable (A : Arith) (a : AccountState)

def position (symbol : String) : Py PositionState :=
  orRaise (a.positions.get? symbol) (.lookupError ("no position for " ++ symbol))

def total (f : PositionState → ℚ) : ℚ := A.sum (a.positions.values.map f)

def realizedPnl : ℚ := a.total A (·.realizedPnl)
def unrealizedPnl : ℚ := a.total A (·.unrealizedPnl A)
def fees : ℚ := a.total A (·.fees)
def funding : ℚ := a.total A (·.funding)
def grossNotional : ℚ := a.total A (·.grossNotional A)
def usedMargin : ℚ := A.div (a.grossNotional A) a.leverage
def equity : ℚ := A.add a.cashBalance (a.unrealizedPnl A)
def freeMargin : ℚ := A.sub (a.equity A) (a.usedMargin A)

def drawdown : ℚ :=
  if a.peakEquity ≤ 0 then 0
  else max 0 (A.div (A.sub a.peakEquity (a.equity A)) a.peakEquity)

def snapshot : AccountSnapshot :=
  { cashBalance := a.cashBalance, equity := a.equity A, usedMargin := a.usedMargin A,
    freeMargin := a.freeMargin A, grossNotional := a.grossNotional A,
    unrealizedPnl := a.unrealizedPnl A, realizedPnl := a.realizedPnl A, fees := a.fees A,
    funding := a.funding A, peakEquity := a.peakEquity, drawdown := a.drawdown A }

def reconcile : ReconciliationReport :=
  let expectedCash :=
    A.add (A.sub (A.add a.initialCapital (a.realizedPnl A)) (a.fees A)) (a.funding A)
  let expectedMargin := a.total A (fun p => A.div (A.mul (p.quantity A) p.markPrice) a.leverage)
  { cash := A.sub a.cashBalance expectedCash
    equity := A.sub (a.equity A) (A.add a.cashBalance (a.unrealizedPnl A))
    margin := A.sub (a.usedMargin A) expectedMargin }

/-- the account after one of its positions changed: one version later, with the peak moved up -/
def advance (symbol : String) (candidate : PositionState) (cash : ℚ) (at_ : Time) : AccountState :=
  let moved : AccountState :=
    { a with cashBalance := cash, positions := a.positions.set symbol candidate,
             version := a.version + 1, updatedAt := some at_ }
  { moved with peakEquity := max a.peakEquity (moved.equity A) }

/-- the position an opening fill starts from: the stored one, or an empty one under the given id -/
def openingPosition (positionId : UUID) (symbol : String) : Py PositionState :=
  match a.positions.get? symbol with
  | none => PositionState.empty positionId a.experimentId symbol
  | some current => do
    raiseIf (¬ current.isFlat A ∧ current.positionId ≠ positionId)
      (.valueError "position_id does not match the open position")
    return current

/-- the opening branch of `apply_fill`: the position and the cash after it -/
def openingFill (fillId positionId : UUID) (symbol : String) (side : PaperOrderSide)
    (quantity price fee : ℚ) (fillAt : Time) : Py (PositionState × ℚ) := do
  let current ← a.openingPosition A positionId symbol
  let candidate ← current.openFill A fillId side.openingDirection quantity price fee fillAt
  return (candidate, A.sub a.cashBalance fee)

/-- the reducing branch of `apply_fill` -/
def reducingFill (symbol : String) (side : PaperOrderSide) (quantity price fee : ℚ)
    (fillAt : Time) : Py (PositionState × ℚ) := do
  let current ← orRaise (a.positions.get? symbol)
    (.valueError "reduce-only fill has no open quantity")
  raiseIf (current.isFlat A) (.valueError "reduce-only fill has no open quantity")
  raiseIf (side ≠ current.side.closingSide)
    (.valueError "reduce-only fill side does not close the position")
  let candidate ← current.closeFill A quantity price fee fillAt
  let realizedDelta := A.sub candidate.realizedPnl current.realizedPnl
  return (candidate, A.sub (A.add a.cashBalance realizedDelta) fee)

def filledPosition (fillId positionId : UUID) (symbol : String) (side : PaperOrderSide)
    (positionEffect : PositionEffect) (quantity price fee : ℚ) (fillAt : Time) :
    Py (PositionState × ℚ) :=
  match positionEffect with
  | .open => a.openingFill A fillId positionId symbol side quantity price fee fillAt
  | .reduce => a.reducingFill A symbol side quantity price fee fillAt

def applyFill (fillId positionId : UUID) (symbol : String) (side : PaperOrderSide)
    (positionEffect : PositionEffect) (quantity price fee : ℚ) (fillAt : Time) :
    Py AccountState := do
  requirePositiveDecimal quantity "quantity"
  requirePositiveDecimal price "price"
  requireNonnegative fee "fee"
  let filled ← a.filledPosition A fillId positionId symbol side positionEffect quantity
    price fee fillAt
  let candidate := a.advance A symbol filled.1 filled.2 fillAt
  raiseIf (positionEffect = .open ∧ candidate.freeMargin A < 0)
    (.insufficientMargin "paper account has insufficient free margin")
  raiseIf (¬ (candidate.reconcile A).ok)
    (.arithmeticError "account reconciliation failed after fill")
  return candidate

def mark (symbol : String) (price : ℚ) (observedAt : Time) : Py AccountState := do
  let p ← a.position symbol
  let marked ← p.mark price
  return a.advance A symbol marked a.cashBalance observedAt

/-- the amount a funding settlement pays to a position: longs pay a positive rate -/
def fundingAmount (p : PositionState) (rate : ℚ) : ℚ :=
  let signed := A.mul (p.grossNotional A) rate
  if p.side = .long then A.neg signed else signed

def applyFunding (symbol : String) (rate : ℚ) (observedAt : Time) : Py AccountState := do
  let p ← a.position symbol
  raiseIf (p.isFlat A) (.valueError "cannot apply funding to a flat position")
  let amount := fundingAmount A p rate
  let funded ← p.applyFunding A amount
  let candidate := a.advance A symbol funded (A.add a.cashBalance amount) observedAt
  raiseIf (¬ (candidate.reconcile A).ok)
    (.arithmeticError "account reconciliation failed after funding")
  return candidate

/-! ## what the transitions do -/

section
variable {A a} {symbol : String} {p : PositionState} {cash : ℚ} {t : Time}

@[simp] theorem advance_positions :
    (a.advance A symbol p cash t).positions = a.positions.set symbol p := rfl

@[simp] theorem advance_experimentId :
    (a.advance A symbol p cash t).experimentId = a.experimentId := rfl

@[simp] theorem advance_cashBalance :
    (a.advance A symbol p cash t).cashBalance = cash := rfl

@[simp] theorem advance_initialCapital :
    (a.advance A symbol p cash t).initialCapital = a.initialCapital := rfl

@[simp] theorem advance_leverage :
    (a.advance A symbol p cash t).leverage = a.leverage := rfl

structure Moves (a : AccountState) (symbol : String) (q : PositionState)
    (b : AccountState) : Prop where
  at_symbol : b.positions.get? symbol = some q
  elsewhere : ∀ s, s ≠ symbol → b.positions.get? s = a.positions.get? s

theorem advance_moves :
    a.Moves symbol p (a.advance A symbol p cash t) :=
  ⟨Dict.get?_set_self _ _ _, fun _ hs => Dict.get?_set_of_ne _ hs _⟩

def OpensFrom (a : AccountState) (positionId : UUID) (symbol : String)
    (current : PositionState) : Prop :=
  a.positions.get? symbol = some current ∨
    a.positions.get? symbol = none ∧
    PositionState.empty positionId a.experimentId symbol = .ok current

variable {positionId : UUID}

theorem openingPosition_cases
    (h : a.openingPosition A positionId symbol = .ok p) : OpensFrom a positionId symbol p := by
  unfold openingPosition at h
  cases hg : a.positions.get? symbol with
  | none =>
    rw [hg] at h
    exact Or.inr ⟨hg, h⟩
  | some current =>
    rw [hg] at h
    simp only [bind_eq_ok, pure_ok_iff] at h
    obtain ⟨_, _, rfl⟩ := h
    exact Or.inl hg

variable {side : PaperOrderSide} {price : ℚ} {fee : ℚ}

theorem openingFill_cases {fillId : UUID} {n : ℚ} {q : PositionState}
    (h : a.openingFill A fillId positionId symbol side n price fee t = .ok (q, cash)) :
    ∃ current, OpensFrom a positionId symbol current ∧
      current.openFill A fillId side.openingDirection n price fee t = .ok q ∧
      cash = A.sub a.cashBalance fee := by
  simp only [openingFill, bind_eq_ok, pure_ok_iff, Prod.mk.injEq] at h
  obtain ⟨current, hc, q', hq, rfl, hcash⟩ := h
  exact ⟨current, openingPosition_cases hc, hq, hcash.symm⟩

theorem reducingFill_cases {n : ℚ}
    {q : PositionState} (h : a.reducingFill A symbol side n price fee t = .ok (q, cash)) :
    ∃ current, a.positions.get? symbol = some current ∧ ¬ current.isFlat A ∧
      side = current.side.closingSide ∧ current.closeFill A n price fee t = .ok q ∧
      cash = A.sub (A.add a.cashBalance (A.sub q.realizedPnl current.realizedPnl)) fee := by
  simp only [reducingFill, bind_eq_ok, orRaise_eq_ok, raiseIf_eq_ok, pure_ok_iff,
    Prod.mk.injEq, ne_eq, not_not] at h
  obtain ⟨current, hg, _, hf, _, hs, q', hq, rfl, hcash⟩ := h
  exact ⟨current, hg, hf, hs, hq, hcash.symm⟩

variable {b : AccountState}

theorem applyFill_cases {fillId : UUID} {effect : PositionEffect} {n : ℚ}
    (h : a.applyFill A fillId positionId symbol side effect n price fee t = .ok b) :
    ∃ q cash, b = a.advance A symbol q cash t ∧ (b.reconcile A).ok ∧
      (effect = .open ∧ (∃ current, OpensFrom a positionId symbol current ∧
        current.openFill A fillId side.openingDirection n price fee t = .ok q ∧
        cash = A.sub a.cashBalance fee) ∨
       effect = .reduce ∧ (∃ current, a.positions.get? symbol = some current ∧ ¬ current.isFlat A ∧
        side = current.side.closingSide ∧ current.closeFill A n price fee t = .ok q ∧
        cash = A.sub (A.add a.cashBalance (A.sub q.realizedPnl current.realizedPnl)) fee)) := by
  simp only [applyFill, bind_eq_ok, raiseIf_eq_ok, pure_ok_iff, not_not] at h
  obtain ⟨_, _, _, _, _, _, ⟨q, cash⟩, hc, _, _, _, hr, rfl⟩ := h
  refine ⟨q, cash, rfl, hr, ?_⟩
  cases effect with
  | «open» => exact Or.inl ⟨rfl, openingFill_cases hc⟩
  | reduce => exact Or.inr ⟨rfl, reducingFill_cases hc⟩

theorem mark_cases (h : a.mark A symbol price t = .ok b) :
    ∃ p q, a.positions.get? symbol = some p ∧ p.mark price = .ok q ∧
      b = a.advance A symbol q a.cashBalance t := by
  simp only [mark, position, bind_eq_ok, orRaise_eq_ok, pure_ok_iff] at h
  obtain ⟨p, hp, q, hq, rfl⟩ := h
  exact ⟨p, q, hp, hq, rfl⟩

theorem applyFunding_cases {rate : ℚ} (h : a.applyFunding A symbol rate t = .ok b) :
    ∃ p q, a.positions.get? symbol = some p ∧ ¬ p.isFlat A ∧
      p.applyFunding A (fundingAmount A p rate) = .ok q ∧
      b = a.advance A symbol q (A.add a.cashBalance (fundingAmount A p rate)) t ∧
      (b.reconcile A).ok := by
  simp only [applyFunding, position, bind_eq_ok, orRaise_eq_ok, raiseIf_eq_ok, pure_eq_ok,
    Except.ok.injEq, not_not] at h
  obtain ⟨p, hp, _, hf, q, hq, _, hr, rfl⟩ := h
  exact ⟨p, q, hp, hf, hq, rfl, hr⟩

end

/-! ## exact arithmetic -/

@[simp] theorem total_exact (a : AccountState) (f : PositionState → ℚ) :
    a.total .exact f = (a.positions.values.map f).sum := by
  simp [total]

def Reconciles (a : AccountState) : Prop :=
  a.cashBalance = a.initialCapital + a.realizedPnl .exact - a.fees .exact + a.funding .exact

instance (a : AccountState) : Decidable a.Reconciles := by
  unfold Reconciles
  infer_instance

theorem reconcile_ok_iff (a : AccountState) : (a.reconcile .exact).ok ↔ a.Reconciles := by
  have hm : (a.positions.values.map (fun p => p.grossNotional .exact)).sum / (a.leverage : ℚ) =
      (a.positions.values.map
        (fun p => p.quantity .exact * p.markPrice / (a.leverage : ℚ))).sum := by
    simp only [div_eq_mul_inv]
    rw [List.sum_map_mul_right]
    rfl
  simp only [ReconciliationReport.ok, reconcile, Arith.exact_sub, Arith.exact_add, Arith.exact_div,
    Arith.exact_mul, equity, usedMargin, grossNotional, total_exact, sub_self, true_and]
  rw [hm, sub_self]
  simp only [and_true, sub_eq_zero]
  rfl

variable {symbol : String} {q : PositionState} {t : Time}

/-- a change of one position keeps the books when cash moves by what the position realized, paid and
received -/
theorem advance_reconciles_iff {a : AccountState} {cash : ℚ} (hcash : cash = a.cashBalance +
      (q.realizedPnl - ((a.positions.get? symbol).map (·.realizedPnl)).getD 0) -
      (q.fees - ((a.positions.get? symbol).map (·.fees)).getD 0) +
      (q.funding - ((a.positions.get? symbol).map (·.funding)).getD 0)) :
    (a.advance .exact symbol q cash t).Reconciles ↔ a.Reconciles := by
  unfold Reconciles
  simp only [realizedPnl, fees, funding, total_exact, advance_positions, advance_cashBalance,
    advance_initialCapital, Dict.sum_values_set]
  rw [hcash]
  constructor
  · intro h
    linarith
  · intro h
    linarith

theorem advance_reconciles {a : AccountState} {cash : ℚ} (h : a.Reconciles)
    (hcash :
      cash = a.cashBalance +
      (q.realizedPnl - ((a.positions.get? symbol).map (·.realizedPnl)).getD 0)
      - (q.fees - ((a.positions.get? symbol).map (·.fees)).getD 0) +
      (q.funding - ((a.positions.get? symbol).map (·.funding)).getD 0)) :
    (a.advance .exact symbol q cash t).Reconciles := (advance_reconciles_iff hcash).mpr h

/-! ## valid accounts -/

/-- every position is valid and filed under its own symbol, and the books reconcile -/
structure Valid (a : AccountState) : Prop where
  positions : ∀ symbol p, a.positions.get? symbol = some p →
    p.Valid ∧ p.symbol = symbol ∧ p.experimentId = a.experimentId
  reconciles : a.Reconciles

theorem Valid.advance {a : AccountState} {cash : ℚ}
    (h : a.Valid) (hq : q.Valid ∧ q.symbol = symbol ∧ q.experimentId = a.experimentId)
    (hr : (a.advance .exact symbol q cash t).Reconciles) :
    (a.advance .exact symbol q cash t).Valid :=
  ⟨Dict.forall_set _ h.positions hq, hr⟩

variable {price : ℚ} {fee : ℚ}

theorem openingFill_valid {a : AccountState} {fillId positionId : UUID} {current : PositionState}
    {side : Direction} {n : ℚ} (h : a.Valid) (hc : OpensFrom a positionId symbol current)
    (hq : current.openFill .exact fillId side n price fee t = .ok q) :
    (q.Valid ∧ q.symbol = symbol ∧ q.experimentId = a.experimentId) ∧ ¬ q.isFlat .exact := by
  obtain ⟨hid, _⟩ := PositionState.openFill_step hq
  rcases hc with hc | ⟨_, hc⟩
  · obtain ⟨hv, hs, he⟩ := h.positions symbol current hc
    obtain ⟨hqv, hqo⟩ := PositionState.openFill_valid hv.symbol_ne hv.lots (fun _ => hv.openedAt) hq
    exact ⟨⟨hqv, hid.2.2.trans hs, hid.2.1.trans he⟩, hqo⟩
  · simp only [PositionState.empty, bind_eq_ok, raiseIf_eq_ok, pure_ok_iff] at hc
    obtain ⟨_, hs, rfl⟩ := hc
    obtain ⟨hqv, hqo⟩ := PositionState.openFill_valid hs (by simp)
      (fun hf => absurd (by simp [PositionState.isFlat]) hf) hq
    exact ⟨⟨hqv, hid.2.2, hid.2.1⟩, hqo⟩

variable {b : AccountState}

theorem applyFill_valid {a : AccountState} {fillId positionId : UUID}
    {side : PaperOrderSide} {effect : PositionEffect} {n : ℚ} (h : a.Valid)
    (hwhole : effect = .reduce → ∀ p, a.positions.get? symbol = some p → n = p.quantity .exact)
    (hb : a.applyFill .exact fillId positionId symbol side effect n price fee t = .ok b) :
    b.Valid ∧ ∃ q, b.positions.get? symbol = some q ∧ (q.isFlat .exact ↔ effect = .reduce) := by
  obtain ⟨q, cash, rfl, hr, ⟨he, current, hc, hq, _⟩ | ⟨he, current, hc, _, _, hq, _⟩⟩ :=
    applyFill_cases hb
  · obtain ⟨hqv, hqo⟩ := openingFill_valid h hc hq
    refine ⟨h.advance hqv ((reconcile_ok_iff _).mp hr), q, by simp, ?_⟩
    simp [hqo, he]
  · obtain ⟨hv, hs, hx⟩ := h.positions symbol current hc
    rw [hwhole he current hc] at hq
    obtain ⟨hqv, hqf⟩ := PositionState.closeFill_flat hv hq
    obtain ⟨hid, _⟩ := PositionState.closeFill_step hq
    refine ⟨h.advance ⟨hqv, hid.2.2.trans hs, hid.2.1.trans hx⟩ ((reconcile_ok_iff _).mp hr), q,
      by simp, ?_⟩
    simp [hqf, he]

theorem applyFill_close_whole {a : AccountState} {p : PositionState} (fillId positionId : UUID)
    (t : Time) (h : a.Valid) (hp : a.positions.get? symbol = some p) (ho : ¬ p.isFlat .exact)
    (hprice : 0 < price) (hfee : 0 ≤ fee) :
    ∃ b, a.applyFill .exact fillId positionId symbol p.side.closingSide .reduce (p.quantity .exact)
      price fee t = .ok b := by
  obtain ⟨hv, _⟩ := h.positions symbol p hp
  have hpos := hv.quantity_pos ho
  obtain ⟨q, hq⟩ := PositionState.closeFill_whole t hv ho hprice hfee
  have hfacts : q.fees = p.fees + fee ∧ q.funding = p.funding := by
    simp only [PositionState.closeFill, bind_eq_ok, pure_ok_iff] at hq
    obtain ⟨_, _, _, _, _, _, _, _, rfl⟩ := hq
    exact ⟨rfl, rfl⟩
  -- cash moves by the profit and the fee, which is what the position books
  have hrec : (a.advance .exact symbol q
      (a.cashBalance + (q.realizedPnl - p.realizedPnl) - fee) t).Reconciles := by
    refine advance_reconciles h.reconciles ?_
    rw [hp, hfacts.1, hfacts.2]
    simp only [Option.map_some, Option.getD_some]
    ring
  refine ⟨a.advance .exact symbol q (a.cashBalance + (q.realizedPnl - p.realizedPnl) - fee) t, ?_⟩
  simp only [applyFill, requirePositiveDecimal, requireNonnegative,
    raiseIf_bind_neg (not_le.mpr hpos), raiseIf_bind_neg (not_le.mpr hprice),
    raiseIf_bind_neg (not_lt.mpr hfee), filledPosition, reducingFill, hp, orRaise_some, ok_bind,
    raiseIf_bind_neg ho, ne_eq, not_true_eq_false, hq, reduceCtorEq, false_and, not_false_eq_true,
    raiseIf_bind_neg, pure_eq_ok, Arith.exact_sub, Arith.exact_add]
  rw [raiseIf_not_bind ((reconcile_ok_iff _).mpr hrec)]

theorem mark_valid {a : AccountState} (h : a.Valid) (hb : a.mark .exact symbol price t = .ok b) :
    b.Valid := by
  obtain ⟨p, q, hp, hq, rfl⟩ := mark_cases hb
  obtain ⟨hv, hs, hx⟩ := h.positions symbol p hp
  obtain ⟨hqv, _⟩ := PositionState.mark_valid hv hq
  obtain ⟨_, hqe⟩ := PositionState.mark_eq hq
  refine h.advance ⟨hqv, by rw [hqe]; exact hs, by rw [hqe]; exact hx⟩
    (advance_reconciles h.reconciles ?_)
  rw [hp, hqe]
  simp

theorem applyFunding_valid {a : AccountState} {rate : ℚ} (h : a.Valid)
    (hb : a.applyFunding .exact symbol rate t = .ok b) : b.Valid := by
  obtain ⟨p, q, hp, _, hq, rfl, hr⟩ := applyFunding_cases hb
  obtain ⟨hv, hs, hx⟩ := h.positions symbol p hp
  obtain ⟨hqv, _⟩ := PositionState.applyFunding_valid hv hq
  obtain ⟨hid, _⟩ := PositionState.applyFunding_step hq
  exact h.advance ⟨hqv, hid.2.2.trans hs, hid.2.1.trans hx⟩ ((reconcile_ok_iff _).mp hr)

end AccountState

end Maais
