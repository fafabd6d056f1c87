import Maais.Domain
import Mathlib.Data.List.MinMax
import Mathlib.Data.Prod.Lex

/-!
# Order books and market fills

A market order takes the earliest book after its eligibility time and walks the opposite side.

* `BookSnapshot`  a book that passed its constructor's checks;
* `MarketFillEngine.fill`  the fill, or the reason why the earliest eligible book gives none;
* `fill_book`  a fill is always taken from the earliest eligible book;
* `fill_exact`  in exact arithmetic a fresh and deep enough earliest book fills the whole request.
-/

namespace Maais
open Lib

/-! ## books -/

structure BookLevel where
  price : ℚ
  quantity : ℚ
  price_pos : 0 < price
  quantity_pos : 0 < quantity
deriving DecidableEq

@[ext] structure BookSnapshot where
  eventId : String
  symbol : String
  venueEventAt : Time
  observedAt : Time
  sequence : Nat
  bids : List BookLevel
  asks : List BookLevel
  markPrice : ℚ
  eventId_ne : eventId ≠ ""
  symbol_ne : symbol ≠ ""
  venue_le : venueEventAt ≤ observedAt
  bids_ne : bids ≠ []
  asks_ne : asks ≠ []
  bids_desc : bids.IsChain (fun left right => left.price > right.price)
  asks_asc : asks.IsChain (fun left right => left.price < right.price)
  not_crossed : (bids.head bids_ne).price < (asks.head asks_ne).price
  markPrice_pos : 0 < markPrice

instance : DecidableEq BookSnapshot := fun _ _ => decidable_of_iff _ BookSnapshot.ext_iff.symm

namespace BookSnapshot

def bestBid (b : BookSnapshot) : ℚ := (b.bids.head b.bids_ne).price

def bestAsk (b : BookSnapshot) : ℚ := (b.asks.head b.asks_ne).price

def midpoint (A : Arith) (b : BookSnapshot) : ℚ := A.div (A.add b.bestBid b.bestAsk) 2

def levels (b : BookSnapshot) : PaperOrderSide → List BookLevel
  | .buy => b.asks
  | .sell => b.bids

/-- `levels[0].price` -/
def firstPrice (b : BookSnapshot) : PaperOrderSide → ℚ
  | .buy => b.bestAsk
  | .sell => b.bestBid

def depth (b : BookSnapshot) (side : PaperOrderSide) : ℚ := ((b.levels side).map (·.quantity)).sum

def order (b : BookSnapshot) : Int ×ₗ Nat := toLex (b.observedAt, b.sequence)

-- the computable order: Mathlib finds another one through the completeness of the integers
instance : Preorder (Int ×ₗ Nat) := (Prod.Lex.instLinearOrder Int Nat).toPreorder

theorem first_le {l : List BookSnapshot} {book : BookSnapshot} (hb : book ∈ l) :
    ∃ first, l.argmin order = some first ∧ first.observedAt ≤ book.observedAt := by
  cases he : l.argmin order with
  | none =>
    rw [List.argmin_eq_none] at he
    rw [he] at hb
    cases hb
  | some first =>
    refine ⟨first, rfl, ?_⟩
    have hle : ¬ book.order < first.order := List.not_lt_of_mem_argmin hb he
    by_contra hlt
    exact hle (Prod.Lex.toLex_lt_toLex.mpr (Or.inl (not_le.mp hlt)))

end BookSnapshot

/-! ## fills -/

structure MarketFillRequest where
  symbol : String
  side : PaperOrderSide
  quantity : ℚ
  eligibleAfter : Time
  decisionExecutablePrice : ℚ
  takerFeeRate : ℚ
deriving DecidableEq

def MarketFillRequest.postInit (r : MarketFillRequest) : Py MarketFillRequest := do
  raiseIf (r.symbol = "") (.valueError "symbol is required")
  requirePositiveDecimal r.quantity "quantity"
  requirePositiveDecimal r.decisionExecutablePrice "decision_executable_price"
  raiseIf (¬ (0 ≤ r.takerFeeRate ∧ r.takerFeeRate ≤ 1))
    (.valueError "taker_fee_rate must be a finite Decimal in [0, 1]")
  return r

structure FillSlice where
  price : ℚ
  quantity : ℚ
  price_pos : 0 < price
  quantity_pos : 0 < quantity
deriving DecidableEq

structure PaperFill where
  marketEventId : String
  symbol : String
  side : PaperOrderSide
  fillAt : Time
  quantity : ℚ
  price : ℚ
  notional : ℚ
  slices : List FillSlice
  liquidityRole : String
  fee : ℚ
  spreadCost : ℚ
  depthSlippage : ℚ
  latencySlippage : ℚ
  totalSlippage : ℚ
  book : BookSnapshot
deriving DecidableEq

def PaperFill.postInit (A : Arith) (f : PaperFill) : Py PaperFill := do
  raiseIf (f.marketEventId = "" ∨ f.symbol = "")
    (.valueError "market_event_id and symbol are required")
  requirePositiveDecimal f.quantity "fill quantity"
  requirePositiveDecimal f.price "fill price"
  requirePositiveDecimal f.notional "fill notional"
  raiseIf (f.fee < 0) (.valueError "fee must be nonnegative")
  raiseIf (f.slices = [] ∨ A.sum (f.slices.map (·.quantity)) ≠ f.quantity ∨
      A.sum (f.slices.map (fun s => A.mul s.quantity s.price)) ≠ f.notional)
    (.valueError "fill slices do not reconcile to quantity and notional")
  raiseIf (f.price ≠ A.div f.notional f.quantity)
    (.valueError "fill price does not reconcile to notional and quantity")
  raiseIf (f.totalSlippage ≠ A.add (A.add f.spreadCost f.depthSlippage) f.latencySlippage)
    (.valueError "total slippage does not reconcile to its components")
  raiseIf (f.book.eventId ≠ f.marketEventId ∨ f.book.symbol ≠ f.symbol ∨
    f.book.observedAt ≠ f.fillAt) (.valueError "fill identity differs from its source book")
  return f

structure MarketFillEngine where
  maxBookAge : Time
  maxBookAge_pos : 0 < maxBookAge

namespace MarketFillEngine

/-- the loop of `_walk`: the slices taken and the quantity left -/
def walkLevels (A : Arith) : List BookLevel → ℚ → List FillSlice × ℚ
  | [], remaining => ([], remaining)
  | level :: rest, remaining =>
    if h : remaining ≤ 0 then ([], remaining)
    else
      let quantity := min level.quantity remaining
      let tail := walkLevels A rest (A.sub remaining quantity)
      (⟨level.price, quantity, level.price_pos, lt_min level.quantity_pos (not_le.mp h)⟩ :: tail.1,
        tail.2)

def walk (A : Arith) (levels : List BookLevel) (requested : ℚ) (marketEventId : String) :
    Py (List FillSlice) := do
  let w := walkLevels A levels requested
  raiseIf (0 < w.2) (.fillRejection "insufficient_visible_depth" (some marketEventId))
  return w.1

def eligible (request : MarketFillRequest) (books : List BookSnapshot) : List BookSnapshot :=
  books.filter (fun book => book.symbol = request.symbol ∧ book.observedAt > request.eligibleAfter)

/-- `eligible[0]` after sorting by observation time and sequence -/
def earliest (request : MarketFillRequest) (books : List BookSnapshot) : Option BookSnapshot :=
  (eligible request books).argmin BookSnapshot.order

def costs (A : Arith) (request : MarketFillRequest) (book : BookSnapshot) (averagePrice : ℚ) :
    ℚ × ℚ × ℚ :=
  let first := book.firstPrice request.side
  let mid := book.midpoint A
  match request.side with
  | .buy =>
    (A.mul (A.sub first mid) request.quantity,
      A.mul (A.sub averagePrice first) request.quantity,
      A.mul (A.sub first request.decisionExecutablePrice) request.quantity)
  | .sell =>
    (A.mul (A.sub mid first) request.quantity,
      A.mul (A.sub first averagePrice) request.quantity,
      A.mul (A.sub request.decisionExecutablePrice first) request.quantity)

def build (A : Arith) (request : MarketFillRequest) (book : BookSnapshot)
    (slices : List FillSlice) :
    PaperFill :=
  let filledNotional := A.sum (slices.map (fun s => A.mul s.price s.quantity))
  let averagePrice := A.div filledNotional request.quantity
  let c := costs A request book averagePrice
  { marketEventId := book.eventId
    symbol := request.symbol
    side := request.side
    fillAt := book.observedAt
    quantity := request.quantity
    price := averagePrice
    notional := filledNotional
    slices := slices
    liquidityRole := "taker"
    fee := A.mul filledNotional request.takerFeeRate
    spreadCost := c.1
    depthSlippage := c.2.1
    latencySlippage := c.2.2
    totalSlippage := A.add (A.add c.1 c.2.1) c.2.2
    book := book }

def fill (A : Arith) (engine : MarketFillEngine) (request : MarketFillRequest)
    (books : List BookSnapshot) : Py PaperFill := do
  let book ← orRaise (earliest request books) (.fillRejection "no_eligible_book" none)
  raiseIf (book.observedAt - book.venueEventAt > engine.maxBookAge)
    (.fillRejection "stale_book" (some book.eventId))
  let slices ← walk A (book.levels request.side) request.quantity book.eventId
  (build A request book slices).postInit A

/-! ## which book -/

section
variable {A : Arith} {engine : MarketFillEngine} {request : MarketFillRequest}
  {books : List BookSnapshot} {book : BookSnapshot}

theorem mem_eligible : book ∈ eligible request books ↔
    book ∈ books ∧ book.symbol = request.symbol ∧ request.eligibleAfter < book.observedAt := by
  simp [eligible]

theorem earliest_mem (h : earliest request books = some book) :
    book ∈ books ∧ book.symbol = request.symbol ∧ request.eligibleAfter < book.observedAt :=
  mem_eligible.mp (List.argmin_mem h)

theorem earliest_le {other : BookSnapshot} (h : earliest request books = some book)
    (ho : other ∈ eligible request books) : book.observedAt ≤ other.observedAt := by
  obtain ⟨first, hfirst, hle⟩ := BookSnapshot.first_le ho
  obtain rfl : book = first := Option.mem_unique h hfirst
  exact hle

/-- a book is not usable when it is too old or too thin -/
def Usable (engine : MarketFillEngine) (request : MarketFillRequest) (book : BookSnapshot) : Prop :=
  book.observedAt - book.venueEventAt ≤ engine.maxBookAge ∧
    request.quantity ≤ book.depth request.side

instance : Decidable (Usable engine request book) := by
  unfold Usable
  infer_instance

variable {f : PaperFill}

theorem postInit_eq {g : PaperFill} (h : f.postInit A = .ok g) : g = f ∧ 0 < f.quantity ∧
    0 < f.price ∧ 0 ≤ f.fee ∧
    f.totalSlippage = A.add (A.add f.spreadCost f.depthSlippage) f.latencySlippage := by
  simp only [PaperFill.postInit, bind_eq_ok, raiseIf_eq_ok, requirePositiveDecimal_eq_ok,
    pure_ok_iff, ne_eq, not_not] at h
  obtain ⟨_, _, _, hq, _, hp, _, _, _, hf, _, _, _, _, _, hs, _, _, rfl⟩ := h
  exact ⟨rfl, hq, hp, not_lt.mp hf, hs⟩

theorem fill_book (h : engine.fill A request books = .ok f) :
    earliest request books = some f.book ∧ f.fillAt = f.book.observedAt ∧
      f.quantity = request.quantity ∧ f.marketEventId = f.book.eventId ∧
      f.liquidityRole = "taker" ∧ 0 < f.quantity ∧ 0 < f.price ∧ 0 ≤ f.fee ∧
      f.totalSlippage = A.add (A.add f.spreadCost f.depthSlippage) f.latencySlippage := by
  simp only [fill, bind_eq_ok, orRaise_eq_ok, raiseIf_eq_ok] at h
  obtain ⟨book, he, _, _, slices, _, hf⟩ := h
  obtain ⟨rfl, hq, hp, hfee, hs⟩ := postInit_eq hf
  exact ⟨he, rfl, rfl, rfl, rfl, hq, hp, hfee, hs⟩

theorem fill_after (h : engine.fill A request books = .ok f) :
    request.eligibleAfter < f.fillAt := by
  obtain ⟨he, ht, _⟩ := fill_book h
  rw [ht]
  exact (earliest_mem he).2.2

end

/-! ## exact arithmetic -/

theorem sum_quantity_nonneg (levels : List BookLevel) : 0 ≤ (levels.map (·.quantity)).sum := by
  refine List.sum_nonneg fun x hx => ?_
  obtain ⟨level, _, rfl⟩ := List.mem_map.mp hx
  exact level.quantity_pos.le

theorem walkLevels_exact (levels : List BookLevel) (r : ℚ) (hr : 0 ≤ r) :
    (walkLevels .exact levels r).2 = max 0 (r - (levels.map (·.quantity)).sum) ∧
      ((walkLevels .exact levels r).1.map (·.quantity)).sum =
      r - (walkLevels .exact levels r).2 := by
  induction levels generalizing r with
  | nil => simp [walkLevels, hr]
  | cons level rest ih =>
    have hs := sum_quantity_nonneg rest
    have hq := level.quantity_pos
    by_cases h : r ≤ 0
    · have h0 : r = 0 := le_antisymm h hr
      simp only [walkLevels, dif_pos h, List.map_cons, List.sum_cons, List.map_nil, List.sum_nil,
        sub_self, and_true]
      rw [max_eq_left (by linarith), h0]
    · have hm : min level.quantity r ≤ r := min_le_right _ _
      obtain ⟨h1, h2⟩ := ih (r - min level.quantity r) (by linarith)
      simp only [walkLevels, dif_neg h, Arith.exact_sub, List.map_cons, List.sum_cons, h1, h2]
      refine ⟨?_, by ring⟩
      -- either the level is used up, or it covers what is left
      rcases le_total level.quantity r with hl | hl
      · rw [min_eq_left hl, sub_sub]
      · rw [min_eq_right hl, sub_self, zero_sub, max_eq_left (by linarith),
          max_eq_left (by linarith)]

variable {levels : List BookLevel}

theorem walk_exact_ok {r : ℚ} (hr : 0 ≤ r) (eid : String) (h : r ≤ (levels.map (·.quantity)).sum) :
    ∃ s, walk .exact levels r eid = .ok s ∧ (s.map (·.quantity)).sum = r := by
  obtain ⟨h1, h2⟩ := walkLevels_exact levels r hr
  have h0 : (walkLevels .exact levels r).2 = 0 := by
    rw [h1, max_eq_left]
    linarith
  refine ⟨(walkLevels .exact levels r).1, ?_, ?_⟩
  · simp [walk, h0, raiseIf]
  · rw [h2, h0, sub_zero]

theorem walk_exact_error {r : ℚ} (hr : 0 ≤ r) (eid : String)
    (h : (levels.map (·.quantity)).sum < r) :
    walk .exact levels r eid = .error (.fillRejection "insufficient_visible_depth" (some eid)) := by
  obtain ⟨h1, _⟩ := walkLevels_exact levels r hr
  have h0 : 0 < (walkLevels .exact levels r).2 := by
    rw [h1]
    exact lt_max_of_lt_right (by linarith)
  simp [walk, h0, raiseIf]

section
variable {engine : MarketFillEngine} {request : MarketFillRequest}
  {books : List BookSnapshot} {book : BookSnapshot}

theorem slices_notional_pos {s : List FillSlice} (h : s ≠ []) :
    0 < (s.map (fun x => x.price * x.quantity)).sum := by
  cases s with
  | nil => exact absurd rfl h
  | cons a s =>
    have hs : 0 ≤ (s.map (fun x => x.price * x.quantity)).sum :=
      List.sum_nonneg (by
        intro x hx
        obtain ⟨l, _, rfl⟩ := List.mem_map.mp hx
        exact (mul_pos l.price_pos l.quantity_pos).le)
    have ha := mul_pos a.price_pos a.quantity_pos
    simp only [List.map_cons, List.sum_cons]
    linarith

theorem build_postInit_exact {slices : List FillSlice} (hq : 0 < request.quantity)
    (hfee : 0 ≤ request.takerFeeRate) (hs : book.symbol = request.symbol)
    (hsum : (slices.map (·.quantity)).sum = request.quantity) :
    (build .exact request book slices).postInit .exact =
    .ok (build .exact request book slices) := by
  have hne : slices ≠ [] := by
    rintro rfl
    simp at hsum
    linarith
  have hn := slices_notional_pos hne
  have hcomm : slices.map (fun x => x.quantity * x.price) =
      slices.map (fun x => x.price * x.quantity) := by
    simp only [mul_comm]
  have hsym := book.symbol_ne
  have hev := book.eventId_ne
  rw [hs] at hsym
  have hpos := div_pos hn hq
  have hfee' := mul_nonneg hn.le hfee
  simp [PaperFill.postInit, build, raiseIf, requirePositiveDecimal, hsym, hev, hq, hn, hpos, hfee',
    hne, hsum, hs, hcomm, not_le.mpr, not_lt.mpr]

theorem fill_exact (hq : 0 < request.quantity) (hfee : 0 ≤ request.takerFeeRate)
    (he : earliest request books = some book) (hu : Usable engine request book) :
    ∃ f, engine.fill .exact request books = .ok f ∧ f.book = book := by
  obtain ⟨hage, hdeep⟩ := hu
  obtain ⟨slices, hw, hsum⟩ := walk_exact_ok hq.le book.eventId hdeep
  refine ⟨build .exact request book slices, ?_, rfl⟩
  have hs := (earliest_mem he).2.1
  simp only [fill, he, orRaise_some, ok_bind, raiseIf_bind_neg (not_lt.mpr hage), hw]
  exact build_postInit_exact hq hfee hs hsum

theorem fill_exact_rejected (hq : 0 < request.quantity) (he : earliest request books = some book)
    (hu : ¬ Usable engine request book) :
    ∃ reason, engine.fill .exact request books =
        .error (.fillRejection reason (some book.eventId)) := by
  by_cases hage : book.observedAt - book.venueEventAt > engine.maxBookAge
  · refine ⟨"stale_book", ?_⟩
    simp only [fill, he, orRaise_some, ok_bind, raiseIf_bind_pos hage]
  · have hthin : book.depth request.side < request.quantity := by
      by_contra hd
      exact hu ⟨not_lt.mp hage, not_lt.mp hd⟩
    refine ⟨"insufficient_visible_depth", ?_⟩
    simp only [fill, he, orRaise_some, ok_bind, raiseIf_bind_neg hage,
      walk_exact_error hq.le book.eventId hthin, error_bind]

end

end MarketFillEngine

end Maais
