import Maais.Lib.Keyed
import Maais.Paper.Lots
import Mathlib.Data.Prod.Lex

/-!
# The closed allocations of the research analytics

`_closed_allocations` matches the fills of an experiment a second time, first in first out and with
queues of its own, apart from the lots of the positions.

* `allocate`  the loop over the queue of a symbol for one closing fill;
* `closedAllocations`  the fills in the order of their times;
* `BooksAgree`  the queues hold what the lots of the account hold, and both have booked the same;
* `allocations_agree`  so it is after every sequence of accepted fills.
-/

namespace Maais
open Lib

structure AnalyticsBar where
  symbol : String
  barCloseAt : Time
  high : ℚ
  low : ℚ

structure AnalyticsFill where
  id : UUID
  symbol : String
  positionEffect : PositionEffect
  quantity : ℚ
  price : ℚ
  fee : ℚ
  fillAt : Time
  direction : Direction
  strategyVersionId : UUID
  regime : String
  riskAtStop : Option ℚ
  approvedQuantity : Option ℚ
  consensusProbability : Option ℚ
  coalition : List String
  agentProbabilities : Dict String ℚ
  exitReason : Option String

/-- `_OpenLot` -/
structure OpenLot where
  fill : AnalyticsFill
  remainingQuantity : ℚ
  remainingFee : ℚ

structure Allocation where
  symbol : String
  direction : Direction
  strategyVersionId : UUID
  regime : String
  agentCoalition : String
  entryHourBerlin : String
  exitReason : String
  grossPnl : ℚ
  fees : ℚ
  netPnlExFunding : ℚ
  rMultiple : Option ℚ
  mfe : Option ℚ
  mae : Option ℚ
  consensusProbability : Option ℚ
  agentProbabilities : Dict String ℚ

def excursions (bars : List AnalyticsBar) (symbol : String) (openedAt closedAt : Time)
    (direction : Direction) (entryPrice quantity : ℚ) : Option ℚ × Option ℚ :=
  let relevant := bars.filter (fun bar =>
    bar.symbol = symbol ∧ openedAt ≤ bar.barCloseAt ∧ bar.barCloseAt ≤ closedAt)
  match (relevant.map (·.high)).max?, (relevant.map (·.low)).min? with
  | some high, some low =>
    if direction = .long then
      (some (max 0 ((high - entryPrice) * quantity)), some (max 0 ((entryPrice - low) * quantity)))
    else (some (max 0 ((entryPrice - low) * quantity)),
      some (max 0 ((high - entryPrice) * quantity)))
  | _, _ => (none, none)

structure ResearchInputs where
  bars : List AnalyticsBar
  berlinHour : Time → String
  idOrder : UUID → Nat

section
variable (inputs : ResearchInputs)

def closedRisk (lot : OpenLot) (closing : ℚ) : Option ℚ :=
  match lot.fill.riskAtStop, lot.fill.approvedQuantity with
  | some risk, some approved => if 0 < approved then some (risk * closing / approved) else none
  | _, _ => none

/-- `text or default` -/
def textOr (text default : String) : String := if text = "" then default else text

def allocation (fill : AnalyticsFill) (lot : OpenLot) (closing : ℚ) : Allocation :=
  let grossPnl :=
    if lot.fill.direction = .long then (fill.price - lot.fill.price) * closing
    else (lot.fill.price - fill.price) * closing
  let openingFee := lot.remainingFee * closing / lot.remainingQuantity
  let closingFee := fill.fee * closing / fill.quantity
  let netPnl := grossPnl - openingFee - closingFee
  let range :=
    excursions inputs.bars fill.symbol lot.fill.fillAt fill.fillAt lot.fill.direction
    lot.fill.price closing
  { symbol := fill.symbol, direction := lot.fill.direction,
    strategyVersionId := lot.fill.strategyVersionId, regime := lot.fill.regime
    agentCoalition := textOr (", ".intercalate lot.fill.coalition) "none"
    entryHourBerlin := inputs.berlinHour lot.fill.fillAt
    exitReason := textOr (fill.exitReason.getD "") "unclassified"
    grossPnl, fees := openingFee + closingFee, netPnlExFunding := netPnl
    rMultiple :=
      (closedRisk lot closing).bind (fun risk => if 0 < risk then some (netPnl / risk) else none)
    mfe := range.1, mae := range.2, consensusProbability := lot.fill.consensusProbability
    agentProbabilities := lot.fill.agentProbabilities }

def OpenLot.take (lot : OpenLot) (closing : ℚ) : OpenLot :=
  { lot with
    remainingQuantity := lot.remainingQuantity - closing
    remainingFee := lot.remainingFee - lot.remainingFee * closing / lot.remainingQuantity }

/-- the `while` loop over the queue of a symbol.  A lot that is not used up took all that remained,
so the loop ends with it at the head of the queue -/
def allocate (fill : AnalyticsFill) : List OpenLot → ℚ → List Allocation × List OpenLot
  | [], _ => ([], [])
  | lot :: rest, remaining =>
    if 0 < remaining then
      let closing := min remaining lot.remainingQuantity
      let taken := lot.take closing
      if taken.remainingQuantity = 0 then
        let tail := allocate fill rest (remaining - closing)
        (allocation inputs fill lot closing :: tail.1, tail.2)
      else ([allocation inputs fill lot closing], taken :: rest)
    else ([], lot :: rest)

structure ResearchBook where
  lots : Dict String (List OpenLot)
  allocations : List Allocation

namespace ResearchBook

/-- `lots[symbol]` of a default dictionary -/
def queue (book : ResearchBook) (symbol : String) : List OpenLot := (book.lots.get? symbol).getD []

def take (book : ResearchBook) (fill : AnalyticsFill) : ResearchBook :=
  match fill.positionEffect with
  | .open =>
    let lot : OpenLot := ⟨fill, fill.quantity, fill.fee⟩
    { book with lots := book.lots.set fill.symbol (book.queue fill.symbol ++ [lot]) }
  | .reduce =>
    let out := allocate inputs fill (book.queue fill.symbol) fill.quantity
    { lots := book.lots.set fill.symbol out.2, allocations := book.allocations ++ out.1 }

end ResearchBook

/-- `sorted(fills, key=(fill_at, id))` -/
def sortFills (fills : List AnalyticsFill) : List AnalyticsFill :=
  fills.insertionSort (fun a b => toLex (a.fillAt, inputs.idOrder a.id) ≤
    toLex (b.fillAt, inputs.idOrder b.id))

def closedAllocations (fills : List AnalyticsFill) : List Allocation :=
  ((sortFills inputs fills).foldl (ResearchBook.take inputs) ⟨.empty, []⟩).allocations

end

/-! ## one closing fill -/

section
variable {inputs : ResearchInputs} {fill : AnalyticsFill}

def heldIn (queue : List OpenLot) : ℚ := (queue.map (·.remainingQuantity)).sum

def feesIn (queue : List OpenLot) : ℚ := (queue.map (·.remainingFee)).sum

/-- one turn of the loop: the lot is used up, or it takes all that remained, or nothing remained -/
theorem allocate_cons (lot : OpenLot) (rest : List OpenLot) {remaining : ℚ} (hr : 0 ≤ remaining) :
    (lot.remainingQuantity ≤ remaining ∧ allocate inputs fill (lot :: rest) remaining =
      (allocation inputs fill lot lot.remainingQuantity ::
          (allocate inputs fill rest (remaining - lot.remainingQuantity)).1,
        (allocate inputs fill rest (remaining - lot.remainingQuantity)).2)) ∨
    (0 < remaining ∧ remaining < lot.remainingQuantity ∧
      allocate inputs fill (lot :: rest) remaining =
      ([allocation inputs fill lot remaining], lot.take remaining :: rest)) ∨
    (remaining = 0 ∧ allocate inputs fill (lot :: rest) remaining = ([], lot :: rest)) := by
  rw [allocate]
  rcases hr.eq_or_lt with h0 | hpos
  · exact Or.inr (Or.inr ⟨h0.symm, if_neg (h0 ▸ lt_irrefl _)⟩)
  · rcases le_or_gt lot.remainingQuantity remaining with hle | hlt
    · left
      have hgone : (lot.take lot.remainingQuantity).remainingQuantity = 0 := sub_self _
      simp only [if_pos hpos, min_eq_right hle, if_pos hgone]
      exact ⟨hle, trivial⟩
    · right
      left
      have hleft : ¬ (lot.take remaining).remainingQuantity = 0 := (sub_pos.mpr hlt).ne'
      simp only [if_pos hpos, min_eq_left hlt.le, if_neg hleft]
      exact ⟨hpos, hlt, trivial⟩

/-- **what the allocations of a fill cost** is what the lots lost of their fees, and the share of
the fill -/
theorem allocate_fees {queue : List OpenLot} (hq : ∀ lot ∈ queue, 0 < lot.remainingQuantity) {r : ℚ}
    (hr : 0 ≤ r) (hle : r ≤ heldIn queue) :
    ((allocate inputs fill queue r).1.map (·.fees)).sum =
      feesIn queue - feesIn (allocate inputs fill queue r).2 + fill.fee * r / fill.quantity := by
  induction queue generalizing r with
  | nil =>
    have h0 : r = 0 := le_antisymm hle hr
    simp [allocate, h0]
  | cons lot rest ih =>
    have hlot := hq lot List.mem_cons_self
    have hheld : heldIn (lot :: rest) = lot.remainingQuantity + heldIn rest := by simp [heldIn]
    have hfees : ∀ l : OpenLot, feesIn (l :: rest) = l.remainingFee + feesIn rest :=
      fun l => by simp [feesIn]
    rw [hheld] at hle
    obtain ⟨hge, h⟩ | ⟨_, _, h⟩ | ⟨h0, h⟩ := @allocate_cons inputs fill lot rest r hr
    · rw [h, List.map_cons, List.sum_cons, hfees,
        ih (fun x hx => hq x (List.mem_cons_of_mem lot hx)) (sub_nonneg.mpr hge) (by linarith)]
      have hwhole : (allocation inputs fill lot lot.remainingQuantity).fees =
          lot.remainingFee + fill.fee * lot.remainingQuantity / fill.quantity := by
        show lot.remainingFee * lot.remainingQuantity / lot.remainingQuantity + _ = _
        rw [mul_div_cancel_right₀ _ hlot.ne']
      rw [hwhole]
      ring
    · rw [h, hfees, hfees]
      show (lot.remainingFee * r / lot.remainingQuantity + fill.fee * r / fill.quantity) + 0 =
        lot.remainingFee + feesIn rest -
          (lot.remainingFee - lot.remainingFee * r / lot.remainingQuantity + feesIn rest) +
          fill.fee * r / fill.quantity
      ring
    · rw [h, h0]
      simp

end

/-! ## the queue and the lots of a position -/

/-- an entry of the queue and the lot of the position it was opened with -/
structure Shows (side : Direction) (lot : PositionLot) (entry : OpenLot) : Prop where
  price : entry.fill.price = lot.entryPrice
  direction : entry.fill.direction = side
  remainingQuantity : entry.remainingQuantity = lot.remainingQuantity
  remainingFee : entry.remainingFee = lot.remainingOpeningFee

namespace PositionState

def openLots (lots : List PositionLot) : List PositionLot :=
  lots.filter (fun lot => 0 < lot.remainingQuantity)

variable {rest : List PositionLot}

theorem openLots_cons_of_pos {lot : PositionLot} (h : 0 < lot.remainingQuantity) :
    openLots (lot :: rest) = lot :: openLots rest :=
  List.filter_cons_of_pos (decide_eq_true h)

theorem openLots_cons_of_neg {lot : PositionLot} (h : ¬ 0 < lot.remainingQuantity) :
    openLots (lot :: rest) = openLots rest :=
  List.filter_cons_of_neg (by simpa using h)

theorem openLots_eq_nil {lots : List PositionLot} (hv : ∀ lot ∈ lots, lot.Valid)
    (h : heldOf lots = 0) : openLots lots = [] := by
  induction lots with
  | nil => rfl
  | cons lot rest ih =>
    have hrest := fun x hx => hv x (List.mem_cons_of_mem lot hx)
    have hlot := (hv lot List.mem_cons_self).remaining_nonneg
    have hnonneg : 0 ≤ heldOf rest := sum_remaining_nonneg hrest
    rw [heldOf_cons] at h
    rw [openLots_cons_of_neg (by linarith)]
    exact ih hrest (by linarith)

theorem heldOf_openLots {lots : List PositionLot} (hv : ∀ lot ∈ lots, lot.Valid) :
    heldOf (openLots lots) = heldOf lots := by
  induction lots with
  | nil => rfl
  | cons lot rest ih =>
    have hrest := fun x hx => hv x (List.mem_cons_of_mem lot hx)
    have hlot := (hv lot List.mem_cons_self).remaining_nonneg
    by_cases hpos : 0 < lot.remainingQuantity
    · rw [openLots_cons_of_pos hpos, heldOf_cons, heldOf_cons, ih hrest]
    · rw [openLots_cons_of_neg hpos, heldOf_cons, ih hrest,
        le_antisymm (not_lt.mp hpos) hlot, zero_add]

def openFeesOf (p : PositionState) : ℚ := ((openLots p.lots).map (·.remainingOpeningFee)).sum

theorem closeLots_zero (side : Direction) (price : ℚ) (lots : List PositionLot) :
    closeLots .exact side price lots 0 0 = (lots, 0) := by
  induction lots with
  | nil => rfl
  | cons lot rest ih =>
    simp only [closeLots, le_refl, true_or, if_true, ih]

end PositionState

open PositionState

section
variable {inputs : ResearchInputs} {fill : AnalyticsFill} {side : Direction}

/-- **one closing fill**: the loop over the queue does to it what the loop over the lots does to
them -/
theorem allocate_shows {lots : List PositionLot} {queue : List OpenLot}
    (hv : ∀ lot ∈ lots, lot.Valid) {r : ℚ} (hr : 0 ≤ r)
    (h : List.Forall₂ (Shows side) (openLots lots) queue) :
    List.Forall₂ (Shows side) (openLots (closeLots .exact side fill.price lots r 0).1)
      (allocate inputs fill queue r).2 ∧
      ((allocate inputs fill queue r).1.map (·.grossPnl)).sum =
      (closeLots .exact side fill.price lots r 0).2 := by
  induction lots generalizing queue r with
  | nil =>
    cases h
    exact ⟨List.Forall₂.nil, rfl⟩
  | cons lot rest ih =>
    have hrest := fun x hx => hv x (List.mem_cons_of_mem lot hx)
    rw [closeLots_cons_zero]
    by_cases hpos : 0 < lot.remainingQuantity
    · rw [openLots_cons_of_pos hpos] at h
      obtain ⟨entry, queue, hshow, hqueue, rfl⟩ := List.forall₂_cons_left_iff.mp h
      have hentry : 0 < entry.remainingQuantity := hshow.remainingQuantity ▸ hpos
      have hgain : ∀ x, (allocation inputs fill entry x).grossPnl =
          gainOf side fill.price lot x := by
        intro x
        unfold gainOf
        show (if entry.fill.direction = .long then _ else _) = _
        rw [hshow.direction, hshow.price]
      rw [takes_of_pos hpos hr]
      obtain ⟨hge, hout⟩ | ⟨_, hlt, hout⟩ | ⟨h0, hout⟩ :=
        @allocate_cons inputs fill entry queue r hr
      · -- the lot is used up on both sides
        rw [hshow.remainingQuantity] at hge hout
        have hgone : ¬ 0 < (lot.take lot.remainingQuantity).remainingQuantity :=
          (sub_self _).le.not_gt
        obtain ⟨hlots, hsum⟩ := ih hrest (sub_nonneg.mpr hge) hqueue
        rw [hout, min_eq_left hge, openLots_cons_of_neg hgone, List.map_cons,
          List.sum_cons, hgain, hsum]
        exact ⟨hlots, rfl⟩
      · rw [hshow.remainingQuantity] at hlt
        have hleft : 0 < (lot.take r).remainingQuantity := sub_pos.mpr hlt
        rw [hout, min_eq_right hlt.le, openLots_cons_of_pos hleft, sub_self, closeLots_zero]
        refine ⟨List.Forall₂.cons ⟨hshow.price, hshow.direction, ?_, ?_⟩ hqueue, ?_⟩
        · show entry.remainingQuantity - r = lot.remainingQuantity - r
          rw [hshow.remainingQuantity]
        · show entry.remainingFee - entry.remainingFee * r / entry.remainingQuantity = _
          rw [hshow.remainingFee, hshow.remainingQuantity]
          rfl
        · rw [List.map_singleton, List.sum_singleton, hgain, add_zero]
      · rw [hout, h0, min_eq_right hpos.le, PositionLot.take_zero, openLots_cons_of_pos hpos,
          sub_zero, closeLots_zero]
        refine ⟨List.Forall₂.cons hshow hqueue, ?_⟩
        simp [gainOf]
    · -- a lot that was used up before is passed over
      rw [openLots_cons_of_neg hpos] at h
      obtain ⟨hlots, hsum⟩ := ih hrest hr h
      rw [takes_of_nonpos (not_lt.mp hpos), PositionLot.take_zero, sub_zero,
        openLots_cons_of_neg hpos]
      refine ⟨hlots, ?_⟩
      rw [hsum]
      simp [gainOf]

end

section
variable {side : Direction} {lots : List PositionLot} {queue : List OpenLot}

theorem heldIn_of_shows (h : List.Forall₂ (Shows side) lots queue) :
    heldIn queue = heldOf lots := by
  induction h with
  | nil => rfl
  | cons hshow _ ih =>
    simp only [heldIn, heldOf, List.map_cons, List.sum_cons, hshow.remainingQuantity] at ih ⊢;
    rw [ih]

theorem feesIn_of_shows (h : List.Forall₂ (Shows side) lots queue) :
    feesIn queue = (lots.map (·.remainingOpeningFee)).sum := by
  induction h with
  | nil => rfl
  | cons hshow _ ih =>
    simp only [feesIn, List.map_cons, List.sum_cons, hshow.remainingFee] at ih ⊢; rw [ih]

theorem pos_of_shows (h : List.Forall₂ (Shows side) (openLots lots) queue) :
    ∀ entry ∈ queue, 0 < entry.remainingQuantity := by
  intro entry hentry
  obtain ⟨lot, hlot, hshow⟩ := forall₂_mem_right h hentry
  rw [hshow.remainingQuantity]
  exact of_decide_eq_true (List.mem_filter.mp hlot).2

end

/-! ## whole histories -/

structure AccountFill where
  fillId : UUID
  positionId : UUID
  symbol : String
  side : PaperOrderSide
  effect : PositionEffect
  quantity : ℚ
  price : ℚ
  fee : ℚ
  fillAt : Time

def AccountFill.operation (f : AccountFill) : Operation :=
  .fill f.fillId f.positionId f.symbol f.side f.effect f.quantity f.price f.fee f.fillAt

/-- the fill as the analytics see it, with the direction of its entry -/
structure Describes (f : AccountFill) (x : AnalyticsFill) : Prop where
  symbol : x.symbol = f.symbol
  positionEffect : x.positionEffect = f.effect
  quantity : x.quantity = f.quantity
  price : x.price = f.price
  fee : x.fee = f.fee
  fillAt : x.fillAt = f.fillAt
  direction : f.effect = .open → x.direction = f.side.openingDirection

def AccountState.lotsOf (a : AccountState) (symbol : String) : List PositionLot :=
  ((a.positions.get? symbol).map (fun p => openLots p.lots)).getD []

def AccountState.sideOf (a : AccountState) (symbol : String) : Direction :=
  ((a.positions.get? symbol).map (·.side)).getD .neutral

def AccountState.realizedOf (a : AccountState) (symbol : String) : ℚ :=
  ((a.positions.get? symbol).map (·.realizedPnl)).getD 0

def AccountState.openFees (a : AccountState) : ℚ := (a.positions.values.map openFeesOf).sum

def grossOf (allocations : List Allocation) (symbol : String) : ℚ :=
  ((allocations.filter (fun x => x.symbol = symbol)).map (·.grossPnl)).sum

structure BooksAgree (a : AccountState) (book : ResearchBook) : Prop where
  valid : a.Valid
  lots : ∀ symbol, List.Forall₂ (Shows (a.sideOf symbol)) (a.lotsOf symbol) (book.queue symbol)
  gross : ∀ symbol, grossOf book.allocations symbol = a.realizedOf symbol
  fees : (book.allocations.map (·.fees)).sum + a.openFees = a.fees .exact

section
variable {inputs : ResearchInputs} {a b : AccountState} {book : ResearchBook} {f : AccountFill}
  {x : AnalyticsFill} {q : PositionState} {t : Time} {fee price : ℚ}

theorem openFill_lots {p : PositionState} {fillId : UUID} {side : Direction} {n : ℚ}
    (h : p.openFill .exact fillId side n price fee t = .ok q) :
    0 < n ∧ q.lots = p.lots ++ [⟨fillId, fillId, t, price, n, n, fee, fee, 0⟩] := by
  simp only [openFill, bind_eq_ok, requirePositiveDecimal_eq_ok, pure_ok_iff] at h
  obtain ⟨_, _, _, _, _, hn, _, _, _, _, rfl⟩ := h
  exact ⟨hn, rfl⟩

theorem closeFill_lots {p : PositionState} {n : ℚ} (h : p.closeFill .exact n price fee t = .ok q) :
    0 < n ∧ n ≤ heldOf p.lots ∧ q.lots = (closeLots .exact p.side price p.lots n 0).1 ∧
      q.realizedPnl = p.realizedPnl + (closeLots .exact p.side price p.lots n 0).2 ∧
      q.side = if 0 < heldOf p.lots - n then p.side else .neutral := by
  simp only [closeFill, bind_eq_ok, raiseIf_eq_ok, requirePositiveDecimal_eq_ok, pure_ok_iff,
    not_or, not_lt] at h
  obtain ⟨_, hn, _, _, _, _, _, ⟨_, hle⟩, rfl⟩ := h
  rw [quantity_eq_held] at hle
  refine ⟨hn, hle, rfl, rfl, ?_⟩
  show (if 0 < p.quantity .exact - n then p.side else .neutral) = _
  rw [quantity_eq_held]

theorem BooksAgree.opens (h : BooksAgree a book) {positionId fillId : UUID} {symbol : String}
    {current : PositionState} {side : Direction} {n : ℚ}
    (hc : AccountState.OpensFrom a positionId symbol current)
    (hq : current.openFill .exact fillId side n price fee t = .ok q) :
    List.Forall₂ (Shows side) (openLots current.lots) (book.queue symbol) := by
  obtain ⟨_, _, _, _, _, hsame⟩ := openFill_step hq
  have hlots := h.lots symbol
  have hvalid := AccountState.OpensFrom.lots_valid h.valid hc
  rcases hc with hc | ⟨hnone, hc⟩
  · simp only [AccountState.sideOf, AccountState.lotsOf, hc, Option.map_some,
      Option.getD_some] at hlots
    by_cases hflat : current.isFlat .exact
    · -- nothing is open, whatever the side was
      rw [openLots_eq_nil hvalid ((quantity_eq_held current).symm.trans hflat)] at hlots ⊢
      rw [List.forall₂_nil_left_iff.mp hlots]
      exact List.Forall₂.nil
    · rw [hsame hflat] at hlots
      exact hlots
  · simp only [AccountState.lotsOf, hnone, Option.map_none, Option.getD_none] at hlots
    simp only [PositionState.empty, bind_eq_ok, pure_ok_iff] at hc
    obtain ⟨_, _, rfl⟩ := hc
    rw [List.forall₂_nil_left_iff.mp hlots]
    exact List.Forall₂.nil

/-- the position of one symbol moves, with its queue and the allocations of the fill -/
theorem BooksAgree.advance (h : BooksAgree a book) {symbol : String} {cash : ℚ}
    {queue : List OpenLot} {out : List Allocation}
    (hvalid : (a.advance .exact symbol q cash t).Valid)
    (hlots : List.Forall₂ (Shows q.side) (openLots q.lots) queue)
    (hsymbol : ∀ y ∈ out, y.symbol = symbol)
    (hgross : a.realizedOf symbol + (out.map (·.grossPnl)).sum = q.realizedPnl)
    (hfees :
      (out.map (·.fees)).sum + openFeesOf q - ((a.positions.get? symbol).map openFeesOf).getD 0 =
      q.fees - ((a.positions.get? symbol).map (·.fees)).getD 0) :
    BooksAgree
        (a.advance .exact symbol q cash t) ⟨book.lots.set symbol queue,
        book.allocations ++ out⟩ := by
  refine ⟨hvalid, fun s => ?_, fun s => ?_, ?_⟩
  · unfold AccountState.sideOf AccountState.lotsOf ResearchBook.queue
    rw [AccountState.advance_positions]
    by_cases hs : s = symbol
    · rw [hs, Dict.get?_set_self, Dict.get?_set_self]
      exact hlots
    · rw [Dict.get?_set_of_ne _ hs, Dict.get?_set_of_ne _ hs]
      exact h.lots s
  · have hs := h.gross s
    unfold grossOf AccountState.realizedOf at hs ⊢
    rw [AccountState.advance_positions, List.filter_append, List.map_append, List.sum_append, hs]
    by_cases hs : s = symbol
    · rw [hs, Dict.get?_set_self, List.filter_eq_self.mpr fun y hy => decide_eq_true (hsymbol y hy)]
      exact hgross
    · rw [Dict.get?_set_of_ne _ hs,
        List.filter_eq_nil_iff.mpr fun y hy => by simpa [hsymbol y hy] using Ne.symm hs]
      exact add_zero _
  · have hbooks := h.fees
    simp only [AccountState.openFees, AccountState.fees, AccountState.total_exact,
      AccountState.advance_positions, Dict.sum_values_set, List.map_append,
      List.sum_append] at hbooks ⊢
    linarith

theorem allocate_symbol {queue : List OpenLot} {r : ℚ} : ∀ y ∈ (allocate inputs x queue r).1,
    y.symbol = x.symbol := by
  induction queue generalizing r with
  | nil =>
    intro y hy
    cases hy
  | cons lot rest ih =>
    simp only [allocate]
    intro y hy
    split_ifs at hy
    · rcases List.mem_cons.mp hy with rfl | hy
      · rfl
      · exact ih y hy
    · rw [List.mem_singleton.mp hy]
      rfl
    · cases hy

theorem BooksAgree.step (h : BooksAgree a book) (hx : Describes f x)
    (hb : a.apply .exact f.operation = .ok b) : BooksAgree b (book.take inputs x) := by
  have hvalid := (AccountState.apply_flow h.valid hb).1
  obtain ⟨q, cash, rfl, _, ⟨he, current, hc, hq, _⟩ | ⟨he, current, hc, hopen, _, hq, _⟩⟩ :=
    AccountState.applyFill_cases hb
  · -- an opening fill: one more lot and one more entry
    obtain ⟨hn, hqlots⟩ := openFill_lots hq
    obtain ⟨hreal, hfees, _⟩ := openFill_books (AccountState.OpensFrom.lots_valid h.valid hc) hq
    obtain ⟨_, _, hside, _⟩ := openFill_step hq
    have hnew : openLots q.lots = openLots current.lots ++
        [⟨f.fillId, f.fillId, f.fillAt, f.price, f.quantity, f.quantity, f.fee, f.fee, 0⟩] := by
      rw [hqlots, openLots, List.filter_append]
      exact congrArg _ (List.filter_cons_of_pos (decide_eq_true hn))
    have hsum : openFeesOf q = openFeesOf current + f.fee := by
      rw [openFeesOf, hnew, List.map_append, List.sum_append]
      exact congrArg _ (add_zero _)
    have hbook : book.take inputs x =
        ⟨book.lots.set f.symbol (book.queue f.symbol ++ [⟨x, x.quantity, x.fee⟩]),
        book.allocations ++ []⟩ := by
      simp only [ResearchBook.take, hx.positionEffect, he, hx.symbol, List.append_nil]
    rw [hbook]
    refine h.advance hvalid ?_ (fun y hy => absurd hy List.not_mem_nil) ?_ ?_
    · rw [hnew, hside]
      refine List.rel_append (h.opens hc hq) (List.Forall₂.cons ?_ List.Forall₂.nil)
      exact ⟨hx.price, hx.direction he, hx.quantity, hx.fee⟩
    · rw [List.map_nil, List.sum_nil, add_zero, hreal]
      exact hc.getD_eq (·.realizedPnl) fun _ hr _ _ _ => hr
    · rw [hc.getD_eq (·.fees) fun _ _ hf _ _ => hf,
        hc.getD_eq openFeesOf fun p _ _ _ hl => by simp [openFeesOf, openLots, hl], hsum, hfees,
        List.map_nil, List.sum_nil]
      ring
  · -- a closing fill: the two loops
    obtain ⟨hcv, _⟩ := h.valid.positions f.symbol current hc
    obtain ⟨hn, hle, hqlots, hqreal, hqside⟩ := closeFill_lots hq
    obtain ⟨_, _, hqfees, _⟩ := closeFill_books hcv hq
    have hlots := h.lots f.symbol
    simp only [AccountState.sideOf, AccountState.lotsOf, hc, Option.map_some,
      Option.getD_some] at hlots
    obtain ⟨hshows, hgain⟩ :=
      @allocate_shows inputs x current.side current.lots _ hcv.lots x.quantity
      (hx.quantity ▸ hn.le) hlots
    have hheld : x.quantity ≤ heldIn (book.queue f.symbol) := by
      rw [heldIn_of_shows hlots, heldOf_openLots hcv.lots, hx.quantity]
      exact hle
    have hpaid :=
      @allocate_fees inputs x _ (pos_of_shows hlots) x.quantity (hx.quantity ▸ hn.le) hheld
    rw [feesIn_of_shows hlots, feesIn_of_shows hshows,
      mul_div_cancel_right₀ x.fee (hx.quantity ▸ hn.ne' : x.quantity ≠ 0)] at hpaid
    have hbook : book.take inputs x =
        ⟨book.lots.set f.symbol (allocate inputs x (book.queue f.symbol) x.quantity).2,
          book.allocations ++ (allocate inputs x (book.queue f.symbol) x.quantity).1⟩ := by
      simp only [ResearchBook.take, hx.positionEffect, he, hx.symbol]
    rw [hx.price, hx.quantity, ← hqlots] at hshows hpaid
    rw [hx.price, hx.quantity] at hgain
    rw [hbook, hx.quantity]
    refine h.advance hvalid ?_ (fun y hy => (allocate_symbol y hy).trans hx.symbol) ?_ ?_
    · by_cases hleft : 0 < heldOf current.lots - f.quantity
      · rw [hqside, if_pos hleft]
        exact hshows
      · -- the position is flat, and nothing waits
        have hzero : heldOf q.lots = 0 := by
          rw [hqlots]
          exact (closeLots_remaining current.side f.price hcv.lots hn.le hle).trans
            (le_antisymm (not_lt.mp hleft) (sub_nonneg.mpr hle))
        have hnil : openLots q.lots = [] :=
          openLots_eq_nil (hqlots ▸ closeLots_valid current.side f.price hcv.lots) hzero
        rw [hnil] at hshows ⊢
        rw [List.forall₂_nil_left_iff.mp hshows]
        exact List.Forall₂.nil
    · rw [hgain, hqreal, AccountState.realizedOf, hc]
      rfl
    · rw [hpaid, hqfees, hc, Option.map_some, Option.getD_some, Option.map_some, Option.getD_some,
        hx.fee, openFeesOf, openFeesOf]
      ring

theorem BooksAgree.run {fills : List AccountFill} {xs : List AnalyticsFill}
    (hxs : List.Forall₂ Describes fills xs) (h : BooksAgree a book)
    (hb : a.replay .exact (fills.map AccountFill.operation) = .ok b) :
    BooksAgree b (xs.foldl (ResearchBook.take inputs) book) := by
  induction hxs generalizing a book with
  | nil =>
    cases hb
    exact h
  | cons hx _ ih =>
    obtain ⟨c, hc, hb⟩ := AccountState.replay_cons.mp hb
    exact ih (h.step hx hc) hb

end

theorem sortFills_eq (inputs : ResearchInputs) {xs ys : List AnalyticsFill} (hperm : ys.Perm xs)
    (htimes : xs.Pairwise (fun x y => x.fillAt < y.fillAt)) : sortFills inputs ys = xs := by
  let key (x : AnalyticsFill) := toLex (x.fillAt, inputs.idOrder x.id)
  have hlt : xs.Pairwise (fun x y => key x < key y) := 
    htimes.imp fun h => Prod.Lex.toLex_lt_toLex.mpr (Or.inl h)
  have hkeys : (ys.map key).Nodup := by
    refine (hperm.map key).nodup_iff.mpr (List.pairwise_map.mpr ?_)
    exact hlt.imp fun h => h.ne
  unfold sortFills
  rw [@insertionSort_eq_of_perm _ _ key ys xs _ hperm hkeys]
  exact (hlt.imp fun h => h.le).insertionSort_eq

/-- **the allocations of the analytics agree with the account**: for each symbol they realize what
its position did, and their fees, with those still attached to open lots, are the fees of the
account -/
theorem allocations_agree (inputs : ResearchInputs) (experimentId : UUID) (capital : ℚ)
    (currency : String) (leverage : Nat) (a₀ a : AccountState)
    (hcreate : AccountState.create experimentId capital currency leverage = .ok a₀)
    (fills : List AccountFill) (htimes : fills.Pairwise (fun f g => f.fillAt < g.fillAt))
    (haccepted : a₀.replay .exact (fills.map AccountFill.operation) = .ok a)
    (xs ys : List AnalyticsFill) (hxs : List.Forall₂ Describes fills xs) (hperm : ys.Perm xs) :
    (∀ symbol, grossOf (closedAllocations inputs ys) symbol = a.realizedOf symbol) ∧
      ((closedAllocations inputs ys).map (·.fees)).sum + a.openFees = a.fees .exact := by
  have hsorted : xs.Pairwise (fun x y => x.fillAt < y.fillAt) := by
    have hmap : xs.map (·.fillAt) = fills.map (·.fillAt) := by
      clear htimes haccepted hperm
      induction hxs with
      | nil => rfl
      | cons hx _ ih => rw [List.map_cons, List.map_cons, hx.fillAt, ih]
    refine List.pairwise_map.mp ?_
    rw [hmap]
    exact List.pairwise_map.mpr htimes
  have hstart : BooksAgree a₀ ⟨.empty, []⟩ := by
    have hvalid := (AccountState.create_valid hcreate).1
    simp only [AccountState.create, bind_eq_ok, pure_ok_iff] at hcreate
    obtain ⟨_, _, _, _, _, _, rfl⟩ := hcreate
    exact ⟨hvalid,
      fun _ => List.Forall₂.nil, fun _ => rfl, by simp [AccountState.openFees, AccountState.fees]⟩
  have hend : BooksAgree a (xs.foldl (ResearchBook.take inputs) ⟨.empty, []⟩) :=
    hstart.run hxs haccepted
  unfold closedAllocations
  rw [sortFills_eq inputs hperm hsorted]
  exact ⟨hend.gross, hend.fees⟩

/-! ## half of a position is closed -/

namespace Demo

def halfClosed : List AccountFill :=
  [⟨⟨"buy"⟩, ⟨"position"⟩, "BTCUSDT", .buy, .open, 2, 100, 1, 1⟩,
    ⟨⟨"sell"⟩, ⟨"position"⟩, "BTCUSDT", .sell, .reduce, 1, 110, 1 / 2, 2⟩]

def described (f : AccountFill) : AnalyticsFill :=
  { id := f.fillId, symbol := f.symbol, positionEffect := f.effect, quantity := f.quantity,
    price := f.price, fee := f.fee, fillAt := f.fillAt, direction := .long,
    strategyVersionId := ⟨"strategy"⟩, regime := "trend", riskAtStop := none,
    approvedQuantity := none, consensusProbability := none, coalition := [],
    agentProbabilities := .empty, exitReason := none }

def noBars : ResearchInputs := ⟨[], fun _ => "00:00", fun _ => 0⟩

def newAccount : AccountState :=
  { experimentId := ⟨"experiment"⟩, initialCapital := 1000, currency := "USDT", leverage := 1,
    cashBalance := 1000, peakEquity := 1000, positions := .empty, version := 0, updatedAt := none }

theorem halfClosed_agree : ∃ a, newAccount.replay .exact (halfClosed.map AccountFill.operation) =
    .ok a ∧ a.realizedOf "BTCUSDT" = 10 ∧ a.openFees = 1 / 2 ∧
    grossOf (closedAllocations noBars (halfClosed.map described)) "BTCUSDT" =
      a.realizedOf "BTCUSDT" ∧
    ((closedAllocations noBars (halfClosed.map described)).map (·.fees)).sum + a.openFees =
        a.fees .exact := by
  obtain ⟨a, ha, hp⟩ :=
    exists_ok_of_any (p := fun a : AccountState => a.realizedOf "BTCUSDT" = 10 ∧ a.openFees = 1 / 2)
    (x := newAccount.replay .exact (halfClosed.map AccountFill.operation)) (by decide +kernel)
  obtain ⟨hreal, hopen⟩ := of_decide_eq_true hp
  have hdescribed : List.Forall₂ Describes halfClosed (halfClosed.map described) :=
    .cons ⟨rfl, rfl, rfl, rfl, rfl, rfl, fun _ => rfl⟩
      (.cons ⟨rfl, rfl, rfl, rfl, rfl, rfl, nofun⟩ .nil)
  obtain ⟨hgross, hfees⟩ :=
    allocations_agree noBars ⟨"experiment"⟩ 1000 "USDT" 1 newAccount a (by decide +kernel)
    halfClosed (by decide +kernel) ha (halfClosed.map described) (halfClosed.map described)
    hdescribed (List.Perm.refl _)
  exact ⟨a, ha, hreal, hopen, hgross "BTCUSDT", hfees⟩

end Demo

end Maais
