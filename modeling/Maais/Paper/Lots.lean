import Maais.Lib.Fifo
import Maais.Paper.History

/-!
# Lots in the order they were opened

What closing a position does to its lots, for closes of any size.

* `PositionLot.take`  a lot after part of it was closed, its fee in proportion;
* `closeLots_cons`  the loop of a close, one lot at a time;
* `closeLots_split`  closing twice is closing once;
* `close_in_parts`  the same for the position and for every account that holds it.
-/

namespace Maais
open Lib

/-! ## what a close takes of a lot -/

def PositionLot.take (lot : PositionLot) (closing : ℚ) : PositionLot :=
  { lot with
    remainingQuantity := lot.remainingQuantity - closing
    remainingOpeningFee := lot.remainingOpeningFee - lot.remainingOpeningFee * closing /
      lot.remainingQuantity }

namespace PositionLot

@[simp] theorem take_zero (lot : PositionLot) : lot.take 0 = lot := by
  simp [take]

def parcel (lot : PositionLot) : Parcel ℚ := ⟨lot.originalQuantity, lot.entryPrice⟩

theorem take_take {lot : PositionLot} {x y : ℚ} (h0 : 0 < lot.remainingQuantity)
    (h : x < lot.remainingQuantity) : (lot.take x).take y = lot.take (x + y) := by
  have hr : lot.remainingQuantity ≠ 0 := h0.ne'
  have hx : lot.remainingQuantity - x ≠ 0 := (sub_pos.mpr h).ne'
  have hfee : lot.remainingOpeningFee - lot.remainingOpeningFee * x / lot.remainingQuantity -
      (lot.remainingOpeningFee - lot.remainingOpeningFee * x / lot.remainingQuantity) * y /
        (lot.remainingQuantity - x) =
      lot.remainingOpeningFee - lot.remainingOpeningFee * (x + y) / lot.remainingQuantity := by
    field_simp
    ring
  simp only [take, PositionLot.mk.injEq, true_and, and_true]
  exact ⟨by ring, hfee⟩

end PositionLot

namespace PositionState

def gainOf (side : Direction) (price : ℚ) (lot : PositionLot) (closing : ℚ) : ℚ :=
  if side = .long then (price - lot.entryPrice) * closing else (lot.entryPrice - price) * closing

theorem gainOf_add (side : Direction) (price : ℚ) (lot : PositionLot) (x y : ℚ) :
    gainOf side price lot (x + y) = gainOf side price lot x + gainOf side price lot y := by
  unfold gainOf
  split <;> ring

theorem gainOf_take (side : Direction) (price : ℚ) (lot : PositionLot) (x y : ℚ) :
    gainOf side price (lot.take x) y = gainOf side price lot y := rfl

theorem gainOf_eq_sign {side : Direction} (h : side ≠ .neutral) (price : ℚ) (lot : PositionLot)
    (x : ℚ) : gainOf side price lot x = side.sign * (x * (price - lot.entryPrice)) := by
  unfold gainOf
  cases side with
  | long =>
    rw [if_pos rfl, Direction.sign]
    ring
  | short =>
    rw [if_neg (by decide), Direction.sign]
    ring
  | neutral => exact absurd rfl h

def takes (lot : PositionLot) (r : ℚ) : ℚ := if r ≤ 0 ∨ lot.remainingQuantity ≤ 0 then
    0 else min lot.remainingQuantity r

theorem closeLots_cons (side : Direction) (price : ℚ) (lot : PositionLot) (rest : List PositionLot)
    (r g : ℚ) : closeLots .exact side price (lot :: rest) r g =
      (lot.take (takes lot r) :: (closeLots .exact side price rest (r - takes lot r)
          (g + gainOf side price lot (takes lot r))).1,
        (closeLots .exact side price rest (r - takes lot r)
            (g + gainOf side price lot (takes lot r))).2) := by
  unfold takes
  by_cases hc : r ≤ 0 ∨ lot.remainingQuantity ≤ 0
  · have hg : gainOf side price lot 0 = 0 := by simp [gainOf]
    simp only [closeLots, if_pos hc, PositionLot.take_zero, hg, sub_zero, add_zero]
  · simp only [closeLots, if_neg hc]
    rfl

theorem closeLots_start (side : Direction) (price : ℚ) (l : List PositionLot) (r g : ℚ) :
    (closeLots .exact side price l r g).1 = (closeLots .exact side price l r 0).1 ∧
      (closeLots .exact side price l r g).2 = g + (closeLots .exact side price l r 0).2 := by
  induction l generalizing r g with
  | nil => simp [closeLots]
  | cons lot rest ih =>
    rw [closeLots_cons, closeLots_cons]
    obtain ⟨h1, h2⟩ := ih (r - takes lot r) (g + gainOf side price lot (takes lot r))
    obtain ⟨h1', h2'⟩ := ih (r - takes lot r) (0 + gainOf side price lot (takes lot r))
    refine ⟨by rw [h1, h1'], ?_⟩
    rw [h2, h2']
    ring

theorem closeLots_cons_zero (side : Direction) (price : ℚ) (lot : PositionLot)
    (rest : List PositionLot) (r : ℚ) : closeLots .exact side price (lot :: rest) r 0 =
      (lot.take (takes lot r) :: (closeLots .exact side price rest (r - takes lot r) 0).1,
        gainOf side price lot
        (takes lot r) + (closeLots .exact side price rest (r - takes lot r) 0).2) := by
  obtain ⟨hlots, hgain⟩ :=
    closeLots_start side price rest (r - takes lot r) (0 + gainOf side price lot (takes lot r))
  rw [closeLots_cons, hlots, hgain, zero_add]

/-! ## closing twice -/

theorem takes_of_pos {lot : PositionLot} {r : ℚ} (h0 : 0 < lot.remainingQuantity) (hr : 0 ≤ r) :
    takes lot r = min lot.remainingQuantity r := by
  unfold takes
  rcases hr.eq_or_lt with rfl | hr
  · rw [if_pos (.inl le_rfl), min_eq_right h0.le]
  · rw [if_neg (not_or.mpr ⟨not_le.mpr hr, not_le.mpr h0⟩)]

theorem takes_of_nonpos {lot : PositionLot} {r : ℚ} (h : lot.remainingQuantity ≤ 0) :
    takes lot r = 0 :=
  if_pos (.inr h)

theorem takes_add (lot : PositionLot) {x y : ℚ} (hx : 0 ≤ x) (hy : 0 ≤ y) :
    takes lot (x + y) = takes lot x + takes (lot.take (takes lot x)) y ∧
      (lot.take (takes lot x)).take (takes (lot.take (takes lot x)) y) = lot.take
      (takes lot (x + y)) := by
  by_cases h0 : 0 < lot.remainingQuantity
  · rw [takes_of_pos h0 hx, takes_of_pos h0 (add_nonneg hx hy)]
    rcases lt_or_ge x lot.remainingQuantity with hlt | hge
    · have hleft : 0 < (lot.take x).remainingQuantity := sub_pos.mpr hlt
      have hsum : min lot.remainingQuantity (x + y) = x + min (lot.remainingQuantity - x) y := by
        rw [← min_add_add_left, add_sub_cancel]
      rw [min_eq_right hlt.le, takes_of_pos hleft hy, PositionLot.take_take h0 hlt, hsum]
      exact ⟨rfl, rfl⟩
    · have hgone : (lot.take lot.remainingQuantity).remainingQuantity ≤ 0 := (sub_self _).le
      rw [min_eq_left hge, takes_of_nonpos hgone, min_eq_left (by linarith), add_zero,
        PositionLot.take_zero]
      exact ⟨rfl, rfl⟩
  · have h0 := not_lt.mp h0
    simp only [takes_of_nonpos h0, PositionLot.take_zero, add_zero, and_self]

theorem closeLots_split (side : Direction) (price : ℚ) (l : List PositionLot) {x y : ℚ} (hx : 0 ≤ x)
    (hy : 0 ≤ y) : (closeLots .exact side price (closeLots .exact side price l x 0).1 y 0).1 =
        (closeLots .exact side price l (x + y) 0).1 ∧
      (closeLots .exact side price l x 0).2 +
          (closeLots .exact side price (closeLots .exact side price l x 0).1 y 0).2 =
        (closeLots .exact side price l (x + y) 0).2 := by
  induction l generalizing x y with
  | nil => simp [closeLots]
  | cons lot rest ih =>
    obtain ⟨hsum, htake⟩ := takes_add lot hx hy
    have hle : ∀ (lot : PositionLot) {r : ℚ}, 0 ≤ r → takes lot r ≤ r := by
      intro lot r hr
      unfold takes
      split
      · exact hr
      · exact min_le_right _ _
    obtain ⟨hlots, hgain⟩ := ih (x := x - takes lot x) (y := y - takes (lot.take (takes lot x)) y)
      (sub_nonneg.mpr (hle lot hx)) (sub_nonneg.mpr (hle _ hy))
    have hrest : x - takes lot x + (y - takes (lot.take (takes lot x)) y) =
        x + y - takes lot (x + y) := by
      rw [hsum]
      ring
    rw [hrest] at hlots hgain
    simp only [closeLots_cons_zero]
    rw [htake, hlots, ← hgain, hsum, gainOf_add, gainOf_take]
    exact ⟨rfl, by ring⟩

def takeable (l : List PositionLot) : ℚ := (l.map (fun lot => max 0 lot.remainingQuantity)).sum

theorem heldOf_le_takeable (l : List PositionLot) : heldOf l ≤ takeable l :=
  List.sum_le_sum fun lot _ => le_max_right 0 lot.remainingQuantity

theorem closeLots_held (side : Direction) (price : ℚ) {l : List PositionLot} {r : ℚ} (hr : 0 ≤ r)
    (hle : r ≤ takeable l) : heldOf (closeLots .exact side price l r 0).1 = heldOf l - r := by
  induction l generalizing r with
  | nil =>
    have h0 : r = 0 := le_antisymm hle hr
    simp [closeLots, h0]
  | cons lot rest ih =>
    have hcons : takeable (lot :: rest) = max 0 lot.remainingQuantity +
      takeable rest := by simp [takeable]
    have hrest : 0 ≤ takeable rest := List.sum_nonneg fun x hx => by
      obtain ⟨y, _, rfl⟩ := List.mem_map.mp hx
      exact le_max_left _ _
    rw [hcons] at hle
    have htake : takes lot r ≤ r ∧ r - takes lot r ≤ takeable rest := by
      by_cases h0 : 0 < lot.remainingQuantity
      · rw [max_eq_right h0.le] at hle
        rw [takes_of_pos h0 hr]
        refine ⟨min_le_right _ _, ?_⟩
        rcases min_cases lot.remainingQuantity r with ⟨h, _⟩ | ⟨h, _⟩ <;> rw [h] <;> linarith
      · rw [max_eq_left (not_lt.mp h0)] at hle
        rw [takes_of_nonpos (not_lt.mp h0)]
        exact ⟨hr, by linarith⟩
    rw [closeLots_cons_zero, heldOf_cons, heldOf_cons, ih (by linarith [htake.1]) htake.2]
    show lot.remainingQuantity - takes lot r + (heldOf rest - (r - takes lot r)) = _
    ring

def closed (p : PositionState) (n price fee : ℚ) (t : Time) : PositionState :=
  let out := closeLots .exact p.side price p.lots n 0
  let remaining := heldOf p.lots - n
  { p with
    side := if 0 < remaining then p.side else .neutral
    markPrice := price
    averageEntry := if 0 < remaining then costOf out.1 / remaining else 0
    realizedPnl := p.realizedPnl + out.2
    fees := p.fees + fee
    lots := out.1
    closedAt := if 0 < remaining then none else some t
    version := p.version + 1 }

theorem closeFill_eq_closed {p : PositionState} {n price fee : ℚ} (t : Time)
    (hopen : ¬ p.isFlat .exact) (hn : 0 < n) (hle : n ≤ p.quantity .exact) (hp : 0 < price)
    (hf : 0 ≤ fee) : p.closeFill .exact n price fee t = .ok (p.closed n price fee t) := by
  rw [closeFill, requirePositiveDecimal, raiseIf_bind_neg (not_le.mpr hn), requirePositiveDecimal,
    raiseIf_bind_neg (not_le.mpr hp), requireNonnegative, raiseIf_bind_neg (not_lt.mpr hf),
    raiseIf_bind_neg (not_or.mpr ⟨hopen, not_lt.mpr hle⟩)]
  simp only [closed, averageOf, Arith.exact_sub, Arith.exact_add, Arith.exact_div, Arith.exact_sum,
    Arith.exact_mul, quantity_eq_held]
  rfl

section
variable {p : PositionState} {x y price f g : ℚ} {t : Time}

theorem closed_held (hx : 0 ≤ x) (hle : x ≤ heldOf p.lots) :
    heldOf (p.closed x price f t).lots = heldOf p.lots - x :=
  closeLots_held p.side price hx (hle.trans (heldOf_le_takeable p.lots))

theorem closed_side (h : x < heldOf p.lots) : (p.closed x price f t).side = p.side :=
  if_pos (sub_pos.mpr h)

theorem closed_closed (hx : 0 < x) (hy : 0 < y) (hle : x + y ≤ heldOf p.lots) :
    (p.closed x price f t).closed y price g t =
      { p.closed (x + y) price
      (f + g) t with version := (p.closed (x + y) price (f + g) t).version + 1 } := by
  have hside : (p.closed x price f t).side = p.side := closed_side (by linarith)
  have hheld : heldOf (p.closed x price f t).lots - y = heldOf p.lots - (x + y) := by
    rw [closed_held hx.le (by linarith)]
    ring
  obtain ⟨hlots, hgain⟩ := closeLots_split p.side price p.lots hx.le hy.le
  have hlots' :
      (closeLots .exact (p.closed x price f t).side price (p.closed x price f t).lots y 0).1 =
      (closeLots .exact p.side price p.lots (x + y) 0).1 := by
    rw [hside]
    exact hlots
  have hgain' : (p.closed x price f t).realizedPnl +
      (closeLots .exact (p.closed x price f t).side price (p.closed x price f t).lots y 0).2 =
      p.realizedPnl + (closeLots .exact p.side price p.lots (x + y) 0).2 := by
    rw [hside, ← hgain, ← add_assoc]
    rfl
  have hfees : (p.closed x price f t).fees + g = p.fees + (f + g) := add_assoc _ _ _
  rw [closed, hheld, hlots', hgain', hfees, hside]
  rfl

end

end PositionState

namespace AccountState

/-- what an account does with a fill that reduces an open position: it only needs the right side and
books that reconcile -/
theorem applyFill_reduce_eq {a : AccountState} {p : PositionState} {symbol : String}
    {n price fee : ℚ} {t : Time} (fillId positionId : UUID) (side : PaperOrderSide)
    (hget : a.positions.get? symbol = some p) (hopen : ¬ p.isFlat .exact) (hn : 0 < n)
    (hle : n ≤ p.quantity .exact) (hp : 0 < price) (hf : 0 ≤ fee) :
    a.applyFill .exact fillId positionId symbol side .reduce n price fee t =
      if side ≠ p.side.closingSide then
        .error (.valueError "reduce-only fill side does not close the position")
      else if a.Reconciles then
        .ok (a.advance .exact symbol (p.closed n price fee t)
          (a.cashBalance + ((p.closed n price fee t).realizedPnl - p.realizedPnl) - fee) t)
      else .error (.arithmeticError "account reconciliation failed after fill") := by
  rw [applyFill, requirePositiveDecimal, raiseIf_bind_neg (not_le.mpr hn), requirePositiveDecimal,
    raiseIf_bind_neg (not_le.mpr hp), requireNonnegative, raiseIf_bind_neg (not_lt.mpr hf),
    filledPosition, reducingFill, hget, orRaise_some, ok_bind, raiseIf_bind_neg hopen]
  by_cases hside : side ≠ p.side.closingSide
  · rw [if_pos hside, raiseIf_bind_pos hside]
    rfl
  · rw [if_neg hside, raiseIf_bind_neg hside,
      PositionState.closeFill_eq_closed t hopen hn hle hp hf, ok_bind, pure_eq_ok, ok_bind]
    have hbooks :
        (a.advance .exact symbol (p.closed n price fee t)
        (Arith.exact.sub
        (Arith.exact.add a.cashBalance
        (Arith.exact.sub (p.closed n price fee t).realizedPnl p.realizedPnl)) fee) t).Reconciles ↔
        a.Reconciles := by
      refine advance_reconciles_iff ?_
      simp only [hget, Option.map_some, Option.getD_some, PositionState.closed, Arith.exact_sub,
        Arith.exact_add]
      ring
    dsimp only
    rw [raiseIf_bind_neg (by simp)]
    by_cases hr : a.Reconciles
    · rw [if_pos hr, raiseIf_not_bind ((reconcile_ok_iff _).mpr (hbooks.mpr hr))]
      rfl
    · rw [if_neg hr, raiseIf_bind_pos (mt (fun hok => hbooks.mp ((reconcile_ok_iff _).mp hok)) hr)]

end AccountState

/-- **closing in two parts is closing at once**: the position differs in its version only, and
whatever account holds it ends with the same cash or refuses in the same way -/
theorem PositionState.close_in_parts (p : PositionState) (x y price f g : ℚ) (t : Time)
    (hopen : ¬ p.isFlat .exact) (hx : 0 < x) (hy : 0 < y) (hle : x + y ≤ p.quantity .exact)
    (hp : 0 < price) (hf : 0 ≤ f) (hg : 0 ≤ g) :
    (∃ a b c, p.closeFill .exact x price f t = .ok a ∧ a.closeFill .exact y price g t = .ok b ∧
        p.closeFill .exact (x + y) price (f + g) t = .ok c ∧
        b = { c with version := c.version + 1 }) ∧
      ∀ (account : AccountState) (symbol : String) (side : PaperOrderSide)
      (first second both positionId : UUID), account.positions.get? symbol = some p →
      (account.applyFill .exact first positionId symbol side .reduce x price f t >>= fun a =>
        a.applyFill .exact second positionId symbol side .reduce y price g t).map
      (·.cashBalance) =
      (account.applyFill .exact both positionId symbol side .reduce (x + y) price (f + g) t).map
      (·.cashBalance) := by
  have hheld : x + y ≤ heldOf p.lots := quantity_eq_held p ▸ hle
  have hrest : (p.closed x price f t).quantity .exact = heldOf p.lots - x := by
    rw [quantity_eq_held, closed_held hx.le (by linarith)]
  have hopen' : ¬ (p.closed x price f t).isFlat .exact := by
    unfold isFlat
    rw [hrest]
    exact (by linarith : 0 < heldOf p.lots - x).ne'
  have hy' : y ≤ (p.closed x price f t).quantity .exact := by
    rw [hrest]
    linarith
  have hx' : x ≤ p.quantity .exact := by linarith
  refine ⟨⟨_, _, _, closeFill_eq_closed t hopen hx hx' hp hf,
    closeFill_eq_closed t hopen' hy hy' hp hg,
    closeFill_eq_closed t hopen (add_pos hx hy) hle hp (add_nonneg hf hg),
    closed_closed hx hy hheld⟩, ?_⟩
  intro account symbol side first second both positionId hget
  rw [AccountState.applyFill_reduce_eq first positionId side hget hopen hx hx' hp hf,
    AccountState.applyFill_reduce_eq both positionId side hget hopen (add_pos hx hy) hle hp
      (add_nonneg hf hg)]
  by_cases hside : side ≠ p.side.closingSide
  · rw [if_pos hside, if_pos hside]
    rfl
  rw [if_neg hside, if_neg hside]
  by_cases hr : account.Reconciles
  · rw [if_pos hr, if_pos hr, ok_bind]
    -- the second close finds the position and the books the first one left
    set cash :=
      account.cashBalance + ((p.closed x price f t).realizedPnl - p.realizedPnl) - f with hcash
    have hbooks : (account.advance .exact symbol (p.closed x price f t) cash t).Reconciles := by
      refine AccountState.advance_reconciles hr ?_
      simp only [hget, Option.map_some, Option.getD_some, closed, hcash]
      ring
    have hfound :
        (account.advance .exact symbol (p.closed x price f t) cash t).positions.get? symbol =
        some (p.closed x price f t) := AccountState.advance_moves.at_symbol
    rw [AccountState.applyFill_reduce_eq second positionId side hfound hopen' hy hy' hp hg,
      if_neg (by rwa [closed_side (by linarith)]), if_pos hbooks, closed_closed hx hy hheld]
    show Except.ok
      (cash + ((p.closed (x + y) price (f + g) t).realizedPnl - (p.closed x price f t).realizedPnl)
      - g) = Except.ok
      (account.cashBalance +
      ((p.closed (x + y) price (f + g) t).realizedPnl - p.realizedPnl) - (f + g))
    rw [hcash]
    congr 1
    ring
  · rw [if_neg hr, if_neg hr]
    rfl

namespace PositionState.Demo

def twoLots : PositionState :=
  { positionId := ⟨"uuid:p"⟩, experimentId := ⟨"uuid:e"⟩, symbol := "BTCUSDT", side := .long,
    markPrice := 110, averageEntry := 106, realizedPnl := 0, fees := 4, funding := 0,
    lots := [⟨⟨"uuid:a"⟩, ⟨"uuid:a"⟩, 0, 100, 2, 2, 1, 1, 0⟩,
    ⟨⟨"uuid:b"⟩, ⟨"uuid:b"⟩, 1, 110, 3, 3, 3, 3, 0⟩], openedAt := some 0,
    closedAt := none, version := 2 }

/-- one and then three of it are sold -/
theorem twoLots_in_parts : ∃ b c, twoLots.closeFill .exact 4 120 3 2 = .ok c ∧ c.realizedPnl = 60 ∧
    b = { c with version := c.version + 1 } := by
  obtain ⟨⟨a, b, c, _, _, hc, hb⟩, _⟩ :=
    close_in_parts twoLots 1 3 120 1 2 2 (by decide +kernel) (by norm_num) (by norm_num)
    (by decide +kernel) (by norm_num) (by norm_num) (by norm_num)
  have hsum : (1 : ℚ) + 3 = 4 ∧ (1 : ℚ) + 2 = 3 := by norm_num
  rw [hsum.1, hsum.2] at hc
  obtain ⟨c', hc', hgain⟩ := exists_ok_of_any (x := twoLots.closeFill .exact 4 120 3 2)
    (p := fun c => decide (c.realizedPnl = 60)) (by decide +kernel)
  obtain rfl := Except.ok.inj (hc'.symm.trans hc)
  exact ⟨b, c', hc, of_decide_eq_true hgain, hb⟩

end PositionState.Demo

end Maais
