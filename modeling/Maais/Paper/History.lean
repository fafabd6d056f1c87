import Maais.Paper.Account

/-!
# Histories of the account

A history is a list of fills, marks and funding settlements, applied one after the other.

* `closeLots_gain`  what closing lots realizes is the price of what they lost, less its cost;
* `PositionState.netCash`  what a position has earned in cash, which only its fills move;
* `Operation`, `replay`  the operations of the account and their histories;
* `history_reconciles`  in exact arithmetic the books of every history are those of its raw cash
  flows.
-/

namespace Maais
open Lib

def Direction.sign : Direction → ℚ
  | .long => 1
  | .short => -1
  | .neutral => 0

def PaperOrderSide.sign : PaperOrderSide → ℚ
  | .buy => 1
  | .sell => -1

@[simp] theorem PaperOrderSide.sign_openingDirection (s : PaperOrderSide) :
    s.openingDirection.sign = s.sign := by
  cases s <;> rfl

theorem Direction.sign_closingSide {d : Direction} (h : d ≠ .neutral) :
    d.closingSide.sign = -d.sign := by
  cases d with
  | long => rfl
  | short => simp [closingSide, PaperOrderSide.sign, sign]
  | neutral => exact absurd rfl h

namespace PositionState

def costOf (lots : List PositionLot) : ℚ :=
  (lots.map (fun lot => lot.entryPrice * lot.remainingQuantity)).sum

def heldOf (lots : List PositionLot) : ℚ := (lots.map (·.remainingQuantity)).sum

@[simp] theorem costOf_nil : costOf [] = 0 := rfl
@[simp] theorem heldOf_nil : heldOf [] = 0 := rfl

@[simp] theorem costOf_cons (lot : PositionLot) (lots : List PositionLot) :
    costOf (lot :: lots) = lot.entryPrice * lot.remainingQuantity + costOf lots := by
  simp [costOf]

@[simp] theorem heldOf_cons (lot : PositionLot) (lots : List PositionLot) :
    heldOf (lot :: lots) = lot.remainingQuantity + heldOf lots := by
  simp [heldOf]

theorem costOf_append (l l' : List PositionLot) : costOf (l ++ l') = costOf l + costOf l' := by
  simp [costOf]

theorem heldOf_append (l l' : List PositionLot) : heldOf (l ++ l') = heldOf l + heldOf l' := by
  simp [heldOf]

variable {l : List PositionLot}

theorem costOf_eq_zero (h : ∀ lot ∈ l, lot.Valid) (h0 : heldOf l = 0) :
    costOf l = 0 := by
  induction l with
  | nil => rfl
  | cons lot l ih =>
    have hl := (h lot List.mem_cons_self).remaining_nonneg
    have hrest : 0 ≤ heldOf l := sum_remaining_nonneg fun x hx => h x (List.mem_cons_of_mem lot hx)
    rw [heldOf_cons] at h0
    have hr : lot.remainingQuantity = 0 := by linarith
    have hh : heldOf l = 0 := by linarith
    rw [costOf_cons, hr, mul_zero, zero_add]
    exact ih (fun x hx => h x (List.mem_cons_of_mem lot hx)) hh

theorem closeLots_gain {side : Direction} (hside : side ≠ .neutral) (price : ℚ)
    (l : List PositionLot) : ∀ r g : ℚ, (closeLots .exact side price l r g).2 = g + side.sign *
      (price * (heldOf l - heldOf (closeLots .exact side price l r g).1) -
        (costOf l - costOf (closeLots .exact side price l r g).1)) := by
  induction l with
  | nil =>
    intro r g
    simp [closeLots]
  | cons lot rest ih =>
    intro r g
    by_cases hc : r ≤ 0 ∨ lot.remainingQuantity ≤ 0
    · simp only [closeLots, if_pos hc, heldOf_cons, costOf_cons]
      rw [ih r g]
      ring
    · simp only [closeLots, if_neg hc, heldOf_cons, costOf_cons, Arith.exact_sub, Arith.exact_add,
        Arith.exact_mul]
      rw [ih]
      -- the gain of this lot, on either side
      have hgain : (if side = .long then (price - lot.entryPrice) * min lot.remainingQuantity r
          else (lot.entryPrice - price) * min lot.remainingQuantity r) =
          side.sign * ((price - lot.entryPrice) * min lot.remainingQuantity r) := by
        cases side with
        | long => simp [Direction.sign]
        | short =>
          simp only [Direction.sign, reduceCtorEq, if_false]
          ring
        | neutral => exact absurd rfl hside
      rw [hgain]
      ring

variable {p q : PositionState}

def signedQuantity (p : PositionState) : ℚ := p.side.sign * p.quantity .exact

/-- what the position has earned in cash: its realized profit less the signed cost of its open
lots -/
def netCash (p : PositionState) : ℚ := p.realizedPnl - p.side.sign * costOf p.lots

theorem quantity_eq_held (p : PositionState) : p.quantity .exact = heldOf p.lots := quantity_exact p

theorem sum_long (m : ℚ) (l : List PositionLot) :
    (l.map (fun lot => (m - lot.entryPrice) * lot.remainingQuantity)).sum =
    m * heldOf l - costOf l := by
  induction l with
  | nil => simp
  | cons lot l ih =>
    rw [List.map_cons, List.sum_cons, ih, heldOf_cons, costOf_cons]
    ring

theorem sum_short (m : ℚ) (l : List PositionLot) :
    (l.map (fun lot => (lot.entryPrice - m) * lot.remainingQuantity)).sum =
    costOf l - m * heldOf l := by
  induction l with
  | nil => simp
  | cons lot l ih =>
    rw [List.map_cons, List.sum_cons, ih, heldOf_cons, costOf_cons]
    ring

theorem Valid.profit (h : p.Valid) :
    p.realizedPnl + p.unrealizedPnl .exact = p.netCash + p.signedQuantity * p.markPrice := by
  unfold unrealizedPnl netCash signedQuantity
  by_cases hf : p.isFlat .exact
  · have hq : p.quantity .exact = 0 := hf
    rw [if_pos hf, hq, (h.isClosed hf).1]
    simp [Direction.sign]
  · rw [if_neg hf, quantity_eq_held]
    obtain ⟨hs, _, _⟩ := h.isOpen hf
    cases hside : p.side with
    | long =>
      simp only [if_true, Arith.exact_sum, Arith.exact_mul, Arith.exact_sub, Direction.sign]
      rw [sum_long]
      ring
    | short =>
      simp only [reduceCtorEq, if_false, Arith.exact_sum, Arith.exact_mul, Arith.exact_sub,
        Direction.sign]
      rw [sum_short]
      ring
    | neutral => exact absurd hside hs

/-! ## fills of a position -/

variable {price : ℚ}

theorem openFill_books {fillId : UUID} {side : Direction} {n fee : ℚ} {t : Time}
    (hl : ∀ lot ∈ p.lots, lot.Valid) (h : p.openFill .exact fillId side n price fee t = .ok q) :
    q.realizedPnl = p.realizedPnl ∧ q.fees = p.fees + fee ∧ q.funding = p.funding ∧
      q.netCash = p.netCash - side.sign * (n * price) := by
  simp only [openFill, bind_eq_ok, raiseIf_eq_ok, requirePositiveDecimal_eq_ok,
    requireNonnegative_eq_ok, pure_ok_iff, not_and, not_not, ne_eq] at h
  obtain ⟨_, hs, _, hsame, _, hn, _, hp, _, hfee, rfl⟩ := h
  refine ⟨rfl, rfl, rfl, ?_⟩
  show p.realizedPnl - side.sign * costOf (p.lots ++ [_]) =
    p.realizedPnl - p.side.sign * costOf p.lots - side.sign * (n * price)
  have hlast : costOf [⟨fillId, fillId, t, price, n, n, fee, fee, 0⟩] = price * n := by
    simp
  rw [costOf_append, hlast]
  by_cases hf : p.isFlat .exact
  · -- a flat position holds no cost, whatever side it was last on
    have h0 : costOf p.lots = 0 := costOf_eq_zero hl ((quantity_eq_held p).symm.trans hf)
    rw [h0]
    ring
  · rw [hsame hf]
    ring

theorem costOf_pos (h : ∀ lot ∈ l, lot.Valid) (hpos : 0 < heldOf l) :
    0 < costOf l := by
  induction l with
  | nil => simp at hpos
  | cons lot l ih =>
    have hlot := h lot List.mem_cons_self
    have hrest := fun x hx => h x (List.mem_cons_of_mem lot hx)
    have hl0 : 0 ≤ heldOf l := sum_remaining_nonneg hrest
    have hc0 : 0 ≤ costOf l := sum_cost_nonneg hrest
    rw [heldOf_cons] at hpos
    rw [costOf_cons]
    rcases hlot.remaining_nonneg.eq_or_lt with hr | hr
    · rw [← hr] at hpos ⊢
      have := ih hrest (by linarith)
      linarith
    · have := mul_pos hlot.entryPrice_pos hr
      linarith

theorem closeFill_books {n fee : ℚ} {t : Time} (hv : p.Valid)
    (h : p.closeFill .exact n price fee t = .ok q) :
    q.Valid ∧ q.quantity .exact = p.quantity .exact - n ∧ q.fees = p.fees + fee ∧
      q.funding = p.funding ∧ q.netCash = p.netCash + p.side.sign * (n * price) := by
  simp only [closeFill, bind_eq_ok, raiseIf_eq_ok, requirePositiveDecimal_eq_ok,
    requireNonnegative_eq_ok, pure_ok_iff, not_or, not_lt] at h
  obtain ⟨_, hn, _, hp, _, hfee, _, ⟨hopen, hle⟩, rfl⟩ := h
  obtain ⟨hside, _, _⟩ := hv.isOpen hopen
  rw [quantity_eq_held] at hle
  generalize hcl : closeLots .exact p.side price p.lots n 0 = closed
  have hlots : ∀ lot ∈ closed.1, lot.Valid := hcl ▸ closeLots_valid p.side price hv.lots
  have hheld : heldOf closed.1 = heldOf p.lots - n :=
    hcl ▸ closeLots_remaining p.side price hv.lots hn.le hle
  have hgain : closed.2 = 0 + p.side.sign * (price * (heldOf p.lots - heldOf closed.1) -
      (costOf p.lots - costOf closed.1)) := hcl ▸ closeLots_gain hside price p.lots n 0
  have hrem : Arith.exact.sub (p.quantity .exact) n = heldOf p.lots - n := by
    rw [quantity_eq_held, Arith.exact_sub]
  rw [hrem]
  have hflat : ∀ r : PositionState, r.lots = closed.1 →
      (r.isFlat .exact ↔ heldOf p.lots - n = 0) := by
    intro r hr
    unfold isFlat
    rw [quantity_eq_held, hr, hheld]
  refine ⟨⟨hv.symbol_ne, hlots, hv.openedAt, hp, Nat.succ_pos _, fun ho => ?_, fun hf => ?_⟩,
    ?_, rfl, rfl, ?_⟩
  · have hne : heldOf p.lots - n ≠ 0 := fun h0 => ho ((hflat _ rfl).mpr h0)
    have hpos : 0 < heldOf p.lots - n := lt_of_le_of_ne (sub_nonneg.mpr hle) hne.symm
    simp only [if_pos hpos]
    refine ⟨hside, trivial, ?_⟩
    have hcost : 0 < costOf closed.1 := costOf_pos hlots (hheld ▸ hpos)
    show 0 < averageOf .exact closed.1 (heldOf p.lots - n)
    simp only [averageOf, Arith.exact_div, Arith.exact_sum, Arith.exact_mul]
    exact div_pos hcost hpos
  · have hnot : ¬ 0 < heldOf p.lots - n := by
      rw [(hflat _ rfl).mp hf]
      exact lt_irrefl 0
    simp only [if_neg hnot]
    exact ⟨trivial, Option.some_ne_none _⟩
  · rw [quantity_eq_held, quantity_eq_held]
    exact hheld
  · show p.realizedPnl + closed.2 - (if 0 < heldOf p.lots - n then p.side else .neutral).sign *
      costOf closed.1 = p.realizedPnl - p.side.sign * costOf p.lots + p.side.sign * (n * price)
    rw [hgain, hheld]
    by_cases hpos : 0 < heldOf p.lots - n
    · rw [if_pos hpos]
      ring
    · have h0 : heldOf p.lots - n = 0 := le_antisymm (not_lt.mp hpos) (sub_nonneg.mpr hle)
      rw [if_neg hpos, costOf_eq_zero hlots (hheld.trans h0)]
      ring

theorem mark_books (h : p.mark price = .ok q) :
    q.realizedPnl = p.realizedPnl ∧ q.fees = p.fees ∧ q.funding = p.funding ∧
    q.netCash = p.netCash := by
  obtain ⟨_, rfl⟩ := mark_eq h
  exact ⟨rfl, rfl, rfl, rfl⟩

theorem costOf_fundLot (amount n : ℚ) (l : List PositionLot) :
    costOf (l.map (fundLot .exact amount n)) = costOf l := by
  induction l with
  | nil => rfl
  | cons lot l ih =>
    rw [List.map_cons, costOf_cons, costOf_cons, ih]
    unfold fundLot
    split <;> rfl

theorem heldOf_fundLot {A : Arith} (amount n : ℚ) (l : List PositionLot) :
    heldOf (l.map (fundLot A amount n)) = heldOf l := by
  unfold heldOf
  rw [List.map_map]
  congr 1
  refine List.map_congr_left fun lot _ => ?_
  show (fundLot A amount n lot).remainingQuantity = lot.remainingQuantity
  unfold fundLot
  split <;> rfl

theorem applyFunding_books {amount : ℚ} (h : p.applyFunding .exact amount = .ok q) :
    q.realizedPnl = p.realizedPnl ∧ q.fees = p.fees ∧ q.funding = p.funding + amount ∧
      q.netCash = p.netCash := by
  simp only [applyFunding, bind_eq_ok, pure_ok_iff] at h
  obtain ⟨_, _, rfl⟩ := h
  refine ⟨rfl, rfl, rfl, ?_⟩
  show p.realizedPnl - p.side.sign * costOf (p.lots.map _) =
    p.realizedPnl - p.side.sign * costOf p.lots
  rw [costOf_fundLot]

end PositionState

/-! ## operations -/

inductive Operation
  | fill (fillId positionId : UUID) (symbol : String) (side : PaperOrderSide)
    (effect : PositionEffect) (quantity price fee : ℚ) (fillAt : Time)
  | mark (symbol : String) (price : ℚ) (observedAt : Time)
  | funding (symbol : String) (rate : ℚ) (observedAt : Time)

def Operation.outlay : Operation → ℚ
  | .fill _ _ _ side _ quantity price fee _ => side.sign * (quantity * price) + fee
  | _ => 0

def Operation.opens : Operation → Prop
  | .fill _ _ _ _ effect _ _ _ _ => effect = .open
  | _ => False

namespace AccountState

variable (A : Arith) (a : AccountState)

def apply : Operation → Py AccountState
  | .fill fillId positionId symbol side effect quantity price fee fillAt =>
    a.applyFill A fillId positionId symbol side effect quantity price fee fillAt
  | .mark symbol price observedAt => a.mark A symbol price observedAt
  | .funding symbol rate observedAt => a.applyFunding A symbol rate observedAt

def replay (ops : List Operation) : Py AccountState := ops.foldlM (fun a op => a.apply A op) a

def fundingOf : Operation → ℚ
  | .funding symbol rate _ =>
    ((a.positions.get? symbol).map (fun p => fundingAmount A p rate)).getD 0
  | _ => 0

def funded (a : AccountState) : List Operation → ℚ
  | [] => 0
  | op :: ops => a.fundingOf A op + ((a.apply A op).toOption.map (fun b => funded b ops)).getD 0

variable {A a} {b : AccountState} {op : Operation} {ops : List Operation}

theorem replay_cons :
    a.replay A (op :: ops) = .ok b ↔ ∃ c, a.apply A op = .ok c ∧ c.replay A ops = .ok b := by
  rw [replay, List.foldlM_cons, bind_eq_ok]
  rfl

theorem funded_cons (h : a.apply A op = .ok b) :
    a.funded A (op :: ops) = a.fundingOf A op + b.funded A ops := by
  rw [funded, h]
  rfl

/-! ## cash flows -/

def flowOf (p : PositionState) : ℚ := p.netCash - p.fees + p.funding

def flow (a : AccountState) : ℚ := (a.positions.values.map flowOf).sum

theorem sum_flowOf (l : List PositionState) :
    (l.map flowOf).sum = (l.map (·.netCash)).sum - (l.map (·.fees)).sum +
    (l.map (·.funding)).sum := by
  induction l with
  | nil => simp
  | cons p l ih =>
    simp only [List.map_cons, List.sum_cons, ih, flowOf]
    ring

variable {symbol : String} {t : Time}

theorem advance_flow {q : PositionState} {cash : ℚ} :
    (a.advance A symbol q cash t).flow =
    a.flow - ((a.positions.get? symbol).map flowOf).getD 0 + flowOf q :=
  Dict.sum_values_set a.positions flowOf symbol q

/-- equity is the capital, what the positions brought in, and what they hold at their marks -/
theorem Valid.equity_eq (h : a.Valid) :
    a.equity .exact = a.initialCapital + a.flow +
      (a.positions.values.map (fun p => p.signedQuantity * p.markPrice)).sum := by
  have hprofit : (a.positions.values.map (fun p => p.realizedPnl + p.unrealizedPnl .exact)).sum =
      (a.positions.values.map (fun p => p.netCash + p.signedQuantity * p.markPrice)).sum := by
    congr 1
    refine List.map_congr_left fun p hp => ?_
    obtain ⟨symbol, hs⟩ := (Dict.mem_values_iff _).mp hp
    exact (h.positions symbol p hs).1.profit
  have hflow := sum_flowOf a.positions.values
  rw [List.sum_map_add, List.sum_map_add] at hprofit
  have hcash := h.reconciles
  unfold Reconciles at hcash
  simp only [realizedPnl, fees, funding, total_exact] at hcash
  simp only [equity, unrealizedPnl, total_exact, Arith.exact_add]
  unfold flow
  rw [hcash, hflow]
  linarith

variable {positionId : UUID} {current : PositionState}

/-- the stored position of an opening fill, or the empty one, which counts for nothing -/
theorem OpensFrom.getD_eq (h : OpensFrom a positionId symbol current) (f : PositionState → ℚ)
    (hf : ∀ p : PositionState, p.realizedPnl = 0 → p.fees = 0 → p.funding = 0 → p.lots = [] →
    f p = 0) : ((a.positions.get? symbol).map f).getD 0 = f current := by
  rcases h with h | ⟨hn, h⟩
  · rw [h]
    rfl
  · simp only [PositionState.empty, bind_eq_ok, pure_ok_iff] at h
    obtain ⟨_, _, rfl⟩ := h
    rw [hn, hf _ rfl rfl rfl rfl]
    rfl

theorem flowOf_empty (p : PositionState) (hr : p.realizedPnl = 0) (hf : p.fees = 0)
    (hx : p.funding = 0) (hl : p.lots = []) : flowOf p = 0 := by
  simp [flowOf, PositionState.netCash, hr, hf, hx, hl]

theorem OpensFrom.lots_valid (hv : a.Valid)
    (h : OpensFrom a positionId symbol current) : ∀ lot ∈ current.lots, lot.Valid := by
  rcases h with h | ⟨_, h⟩
  · exact (hv.positions symbol current h).1.lots
  · simp only [PositionState.empty, bind_eq_ok, pure_ok_iff] at h
    obtain ⟨_, _, rfl⟩ := h
    intro lot hlot
    cases hlot

/-- **one operation**: the account stays valid, and what it brings in moves by what the operation
pays -/
theorem apply_flow (hv : a.Valid) (h : a.apply .exact op = .ok b) :
    b.Valid ∧ b.flow = a.flow - op.outlay + a.fundingOf .exact op := by
  cases op with
  | fill fillId positionId symbol side effect n price fee t =>
    obtain ⟨q, cash, rfl, hr, hcase⟩ := applyFill_cases h
    show _ ∧ _ = a.flow - (side.sign * (n * price) + fee) + 0
    rw [advance_flow]
    obtain ⟨_, current, hc, hq, _⟩ | ⟨_, current, hc, hopen, hside, hq, _⟩ := hcase
    · obtain ⟨hqv, _⟩ := openingFill_valid hv hc hq
      obtain ⟨_, hfees, hfunding, hnet⟩ := PositionState.openFill_books (hc.lots_valid hv) hq
      refine ⟨hv.advance hqv ((reconcile_ok_iff _).mp hr), ?_⟩
      rw [hc.getD_eq flowOf flowOf_empty, flowOf, flowOf, hfees, hfunding, hnet,
        PaperOrderSide.sign_openingDirection]
      ring
    · obtain ⟨hcv, hs, hx⟩ := hv.positions symbol current hc
      obtain ⟨hqv, _, hfees, hfunding, hnet⟩ := PositionState.closeFill_books hcv hq
      obtain ⟨hid, _⟩ := PositionState.closeFill_step hq
      refine ⟨hv.advance ⟨hqv, hid.2.2.trans hs, hid.2.1.trans hx⟩ ((reconcile_ok_iff _).mp hr), ?_⟩
      have hsign : side.sign = -current.side.sign := by
        rw [hside]
        exact Direction.sign_closingSide (hcv.isOpen hopen).1
      rw [hc, Option.map_some, Option.getD_some, flowOf, flowOf, hfees, hfunding, hnet, hsign]
      ring
  | mark symbol price t =>
    refine ⟨mark_valid hv h, ?_⟩
    obtain ⟨p, q, hp, hq, rfl⟩ := mark_cases h
    obtain ⟨_, hfees, hfunding, hnet⟩ := PositionState.mark_books hq
    show _ = a.flow - 0 + 0
    rw [advance_flow, hp, Option.map_some, Option.getD_some, flowOf, flowOf, hfees, hfunding, hnet]
    ring
  | funding symbol rate t =>
    refine ⟨applyFunding_valid hv h, ?_⟩
    obtain ⟨p, q, hp, _, hq, rfl, _⟩ := applyFunding_cases h
    obtain ⟨_, hfees, hfunding, hnet⟩ := PositionState.applyFunding_books hq
    show _ =
      a.flow - 0 + ((a.positions.get? symbol).map (fun p => fundingAmount .exact p rate)).getD 0
    rw [advance_flow, hp, Option.map_some, Option.getD_some, Option.map_some, Option.getD_some,
      flowOf, flowOf, hfees, hfunding, hnet]
    ring

theorem apply_advances (h : a.apply A op = .ok b) :
    b.version = a.version + 1 ∧ b.initialCapital = a.initialCapital ∧ b.leverage = a.leverage ∧
      b.peakEquity = max a.peakEquity (b.equity A) := by
  cases op with
  | fill fillId positionId symbol side effect n price fee t =>
    obtain ⟨q, cash, rfl, _⟩ := applyFill_cases h
    exact ⟨rfl, rfl, rfl, rfl⟩
  | mark symbol price t =>
    obtain ⟨p, q, _, _, rfl⟩ := mark_cases h
    exact ⟨rfl, rfl, rfl, rfl⟩
  | funding symbol rate t =>
    obtain ⟨p, q, _, _, _, rfl, _⟩ := applyFunding_cases h
    exact ⟨rfl, rfl, rfl, rfl⟩

theorem apply_opens (h : a.apply A op = .ok b) (ho : op.opens) : 0 ≤ b.freeMargin A := by
  cases op with
  | fill fillId positionId symbol side effect n price fee t =>
    simp only [apply, applyFill, bind_eq_ok, raiseIf_eq_ok, pure_ok_iff] at h
    obtain ⟨_, _, _, _, _, _, filled, _, _, hm, _, _, rfl⟩ := h
    exact not_lt.mp fun hlt => hm ⟨ho, hlt⟩
  | mark symbol price t => exact absurd ho id
  | funding symbol rate t => exact absurd ho id

/-! ## the checks at the end of an operation -/

variable {side : PaperOrderSide} {effect : PositionEffect}

theorem filledPosition_reconciles {fillId : UUID} {n price fee : ℚ} {filled : PositionState × ℚ}
    (hv : a.Valid)
    (h : a.filledPosition .exact fillId positionId symbol side effect n price fee t = .ok filled) :
    (a.advance .exact symbol filled.1 filled.2 t).Reconciles := by
  obtain ⟨q, cash⟩ := filled
  refine advance_reconciles hv.reconciles ?_
  cases effect with
  | «open» =>
    obtain ⟨current, hc, hq, hcash⟩ := openingFill_cases h
    obtain ⟨hreal, hfees, hfunding, _⟩ := PositionState.openFill_books (hc.lots_valid hv) hq
    rw [hc.getD_eq (·.realizedPnl) fun _ hr _ _ _ => hr, hc.getD_eq (·.fees) fun _ _ hf _ _ => hf,
      hc.getD_eq (·.funding) fun _ _ _ hx _ => hx]
    show cash = _
    rw [hcash, hreal, hfees, hfunding, Arith.exact_sub]
    ring
  | reduce =>
    obtain ⟨current, hc, _, _, hq, hcash⟩ := reducingFill_cases h
    obtain ⟨_, _, hfees, hfunding, _⟩ :=
      PositionState.closeFill_books (hv.positions symbol current hc).1 hq
    rw [hc]
    show cash = _
    rw [hcash]
    simp only [Option.map_some, Option.getD_some, hfees, hfunding, Arith.exact_sub, Arith.exact_add]
    ring

theorem filledPosition_error {fillId : UUID} {n price fee : ℚ} {e : PyError}
    (h : a.filledPosition A fillId positionId symbol side effect n price fee t = .error e) :
    ∃ m, e = .valueError m := by
  cases effect with
  | «open» =>
    simp only [filledPosition, openingFill, bind_eq_error, pure_eq_ok, reduceCtorEq, and_false,
      exists_false, or_false] at h
    rcases h with h | ⟨current, _, h⟩
    · unfold openingPosition at h
      split at h
      · simp only [PositionState.empty, bind_eq_error, raiseIf_eq_error, pure_eq_ok, reduceCtorEq,
          and_false, exists_false, or_false] at h
        exact ⟨_, h.2.symm⟩
      · simp only [bind_eq_error, raiseIf_eq_error, pure_eq_ok, reduceCtorEq, and_false,
          exists_false, or_false] at h
        exact ⟨_, h.2.symm⟩
    · simp only [PositionState.openFill, requirePositiveDecimal, requireNonnegative, bind_eq_error,
        raiseIf_eq_error, pure_eq_ok, reduceCtorEq, and_false, exists_false, or_false] at h
      rcases h with h | ⟨_, _, h | ⟨_, _, h | ⟨_, _, h | ⟨_, _, h⟩⟩⟩⟩ <;> exact ⟨_, h.2.symm⟩
  | reduce =>
    simp only [filledPosition, reducingFill, bind_eq_error, raiseIf_eq_error, orRaise_eq_ok,
      pure_eq_ok, reduceCtorEq, and_false, exists_false, or_false] at h
    rcases h with h | ⟨current, _, h | ⟨_, _, h | ⟨_, _, h⟩⟩⟩
    · unfold orRaise at h
      split at h
      · cases h
      · cases h
        exact ⟨_, rfl⟩
    · exact ⟨_, h.2.symm⟩
    · exact ⟨_, h.2.symm⟩
    · simp only [PositionState.closeFill, requirePositiveDecimal, requireNonnegative, bind_eq_error,
        raiseIf_eq_error, pure_eq_ok, reduceCtorEq, and_false, exists_false, or_false] at h
      rcases h with h | ⟨_, _, h | ⟨_, _, h | ⟨_, _, h⟩⟩⟩ <;> exact ⟨_, h.2.symm⟩

theorem apply_ne_arithmeticError {m : String} (hv : a.Valid) :
    a.apply .exact op ≠ .error (.arithmeticError m) := by
  intro h
  cases op with
  | fill fillId positionId symbol side effect n price fee t =>
    simp only [apply, applyFill, requirePositiveDecimal, requireNonnegative, bind_eq_error,
      raiseIf_eq_error, pure_eq_ok, reduceCtorEq, and_false, false_or, exists_false, or_false] at h
    obtain ⟨_, _, _, _, _, _, h | ⟨filled, hf, _, _, hr, _⟩⟩ := h
    · obtain ⟨_, he⟩ := filledPosition_error h
      cases he
    · exact hr ((reconcile_ok_iff _).mpr (filledPosition_reconciles hv hf))
  | mark symbol price t =>
    simp only [apply, mark, position, PositionState.mark, requirePositiveDecimal, bind_eq_error,
      raiseIf_eq_error, pure_eq_ok, reduceCtorEq, and_false, exists_false, or_false] at h
    unfold orRaise at h
    split at h <;> cases h
  | funding symbol rate t =>
    simp only [apply, applyFunding, position, PositionState.applyFunding, bind_eq_error,
      raiseIf_eq_error, pure_eq_ok, reduceCtorEq, and_false, false_or, exists_false, or_false,
      orRaise_eq_ok] at h
    rcases h with h | ⟨p, hp, _, _, q, hq, hr, _⟩
    · unfold orRaise at h
      split at h <;> cases h
    · refine hr ((reconcile_ok_iff _).mpr (advance_reconciles hv.reconciles ?_))
      obtain ⟨hreal, hfees, hfunding, _⟩ := PositionState.applyFunding_books hq
      rw [hp, hreal, hfees, hfunding]
      simp

/-! ## histories -/

theorem create_valid {experimentId : UUID} {capital : ℚ} {currency : String} {leverage : Nat}
    (h : create experimentId capital currency leverage = .ok a) :
    a.Valid ∧ a.flow = 0 ∧ a.initialCapital = capital ∧ a.leverage = leverage ∧ a.version = 0 ∧
      a.equity .exact ≤ a.peakEquity := by
  simp only [create, bind_eq_ok, pure_ok_iff] at h
  obtain ⟨_, _, _, _, _, _, rfl⟩ := h
  refine ⟨⟨?_, ?_⟩, rfl, rfl, rfl, rfl, ?_⟩
  · intro symbol p hp
    rw [Dict.get?_empty] at hp
    cases hp
  · simp [Reconciles, realizedPnl, fees, funding]
  · simp [equity, unrealizedPnl]

structure Booked (a₀ : AccountState) (ops : List Operation) (a : AccountState) : Prop where
  valid : a.Valid
  flow : a.flow = a₀.flow - (ops.map (·.outlay)).sum + a₀.funded .exact ops
  version : a.version = a₀.version + ops.length
  capital : a.initialCapital = a₀.initialCapital
  peak : a.equity .exact ≤ a.peakEquity

/-- **histories**: from a valid account whose peak stands, every history keeps the books -/
theorem replay_booked {a₀ : AccountState} (hv : a₀.Valid)
    (hpeak : a₀.equity .exact ≤ a₀.peakEquity) (h : a₀.replay .exact ops = .ok a) :
    Booked a₀ ops a := by
  induction ops generalizing a₀ with
  | nil =>
    rw [replay, List.foldlM_nil, pure_ok_iff] at h
    subst h
    exact ⟨hv, by simp [funded], rfl, rfl, hpeak⟩
  | cons op ops ih =>
    obtain ⟨c, hc, h⟩ := replay_cons.mp h
    obtain ⟨hcv, hflow⟩ := apply_flow hv hc
    obtain ⟨hver, hcap, _, hpk⟩ := apply_advances hc
    have hcp : c.equity .exact ≤ c.peakEquity := hpk ▸ le_max_right _ _
    obtain ⟨hbv, hbf, hbn, hbc, hbp⟩ := ih hcv hcp h
    refine ⟨hbv, ?_, ?_, hbc.trans hcap, hbp⟩
    · rw [hbf, hflow, funded_cons hc, List.map_cons, List.sum_cons]
      ring
    · rw [hbn, hver, List.length_cons]
      omega

/-- **the books of every history**, read exactly: equity is the capital less what the fills paid,
plus the funding, plus the holdings at their marks; every residual is zero, so no later operation
fails to reconcile; the peak bounds the equity and never falls; an opening fill leaves free margin;
versions count operations -/
theorem history_reconciles (experimentId : UUID) (capital : ℚ) (currency : String) (leverage : Nat)
    (ops : List Operation) (a₀ a : AccountState)
    (hcreate : create experimentId capital currency leverage = .ok a₀)
    (hreplay : a₀.replay .exact ops = .ok a) :
    a.equity .exact = capital - (ops.map (·.outlay)).sum + a₀.funded .exact ops +
      (a.positions.values.map (fun p => p.signedQuantity * p.markPrice)).sum ∧
      a.reconcile .exact = ⟨0, 0, 0⟩ ∧
      (∀ op m, a.apply .exact op ≠ .error (.arithmeticError m)) ∧
      a.equity .exact ≤ a.peakEquity ∧
      a.version = ops.length ∧
      ∀ op b, a.apply .exact op = .ok b →
      a.peakEquity ≤ b.peakEquity ∧ b.version = a.version + 1 ∧
      (op.opens → 0 ≤ b.freeMargin .exact) := by
  obtain ⟨hv₀, hflow₀, hcap, _, hver, hpeak⟩ := create_valid hcreate
  have hb := replay_booked hv₀ hpeak hreplay
  refine ⟨?_, ?_, fun op m => apply_ne_arithmeticError hb.valid, hb.peak, ?_, ?_⟩
  · rw [hb.valid.equity_eq, hb.flow, hb.capital, hflow₀, hcap]
    ring
  · obtain ⟨hc, he, hm⟩ := (reconcile_ok_iff a).mpr hb.valid.reconciles
    generalize a.reconcile .exact = r at hc he hm
    obtain ⟨cash, equity, margin⟩ := r
    simp only at hc he hm
    rw [hc, he, hm]
  · rw [hb.version, hver, Nat.zero_add]
  · intro op b hop
    obtain ⟨hvb, _, _, hpk⟩ := apply_advances hop
    exact ⟨hpk ▸ le_max_left _ _, hvb, apply_opens hop⟩

end AccountState

/-! ## a scale-in, a partial close and a turn to the other side -/

namespace Demo

def tradeHistory : List Operation :=
  let long : UUID := ⟨"uuid:long"⟩
  [.fill ⟨"uuid:1"⟩ long "BTCUSDT" .buy .open 2 100 1 10,
    .fill ⟨"uuid:2"⟩ long "BTCUSDT" .buy .open 1 130 1 20, .mark "BTCUSDT" 120 30,
    .funding "BTCUSDT" (1 / 1000) 40,
    .fill ⟨"uuid:3"⟩ long "BTCUSDT" .sell .reduce (5 / 2) 125 1 50,
    .fill ⟨"uuid:4"⟩ long "BTCUSDT" .sell .reduce (1 / 2) 90 1 60,
    .fill ⟨"uuid:5"⟩ long "BTCUSDT" .sell .open 3 95 0 70]

def freshAccount : AccountState :=
  (AccountState.create ⟨"uuid:experiment"⟩ 1000 "USDT" 3).toOption.get (by decide +kernel)

def tradedAccount : AccountState := (freshAccount.replay .exact tradeHistory).toOption.get
    (by decide +kernel)

theorem history_reconciles_traded :
    tradedAccount.equity .exact = 1000 - (tradeHistory.map (·.outlay)).sum +
        freshAccount.funded .exact tradeHistory +
        (tradedAccount.positions.values.map (fun p => p.signedQuantity * p.markPrice)).sum ∧
      tradedAccount.reconcile .exact = ⟨0, 0, 0⟩ ∧
      (∀ op m, tradedAccount.apply .exact op ≠ .error (.arithmeticError m)) ∧
      tradedAccount.equity .exact ≤ tradedAccount.peakEquity ∧
      tradedAccount.version = 7 ∧
      ∀ op b, tradedAccount.apply .exact op = .ok b →
        tradedAccount.peakEquity ≤ b.peakEquity ∧ b.version = tradedAccount.version + 1 ∧
          (op.opens → 0 ≤ b.freeMargin .exact) :=
  AccountState.history_reconciles ⟨"uuid:experiment"⟩ 1000 "USDT" 3 tradeHistory freshAccount
    tradedAccount (eq_ok_of_toOption (Option.some_get _).symm)
    (eq_ok_of_toOption (Option.some_get _).symm)

end Demo

end Maais
