import Maais.Lib.Ladder
import Maais.Paper.Fills

/-!
# Which book a market order takes, and at what price

A market order looks at one book only, the first of its symbol after the eligibility time, and walks
the levels of the opposite side from the best one on.

* `fill_eq_of_first`  other books may be added, removed or reordered: the answer is the same;
* `walked_walkLevels`  the slices of the walk are the greedy walk of the library's ladders;
* `fill_best`  a fresh book fills exactly the quantities that it has, no other way of taking them
  from its levels is cheaper (dearer, for a sell), and the average price gets no better when more is
  asked.
-/

namespace Maais
open Lib

namespace MarketFillEngine

/-! ## the first book -/

def Distinct (books : List BookSnapshot) : Prop :=
  books.Pairwise fun a b => a.symbol = b.symbol → a.order ≠ b.order

/-- the book is of the symbol and after the eligibility time, and every other such book is later -/
def First (request : MarketFillRequest) (books : List BookSnapshot) (book : BookSnapshot) : Prop :=
  book ∈ eligible request books ∧
    ∀ other ∈ eligible request books, other ≠ book → book.order < other.order

section
variable {engine : MarketFillEngine} {request : MarketFillRequest}
  {books : List BookSnapshot} {book : BookSnapshot}

theorem Distinct.order_ne (hd : Distinct books) {a b : BookSnapshot} (ha : a ∈ books)
    (hb : b ∈ books) (hne : a ≠ b) (hs : a.symbol = b.symbol) : a.order ≠ b.order := by
  have hsymm : Std.Symm fun a b : BookSnapshot => a.symbol = b.symbol → a.order ≠ b.order :=
    ⟨fun _ _ h hs => (h hs.symm).symm⟩
  exact List.Pairwise.forall hd ha hb hne hs

theorem first_iff (hd : Distinct books) : First request books book ↔
    earliest request books = some book := by
  constructor
  · rintro ⟨hmem, hfirst⟩
    obtain ⟨e, he, -⟩ := BookSnapshot.first_le hmem
    have hnot : ¬ book.order < e.order := List.not_lt_of_mem_argmin hmem he
    have heq : e = book := by
      by_contra hne
      exact hnot (hfirst e (List.argmin_mem he) hne)
    rw [earliest, he, heq]
  · intro he
    have hmem : book ∈ eligible request books := List.argmin_mem he
    refine ⟨hmem, fun other ho hne => ?_⟩
    have hnot : ¬ other.order < book.order := List.not_lt_of_mem_argmin ho he
    obtain ⟨hb, hbs, -⟩ := mem_eligible.mp hmem
    obtain ⟨hom, hos, -⟩ := mem_eligible.mp ho
    exact lt_of_le_of_ne (not_lt.mp hnot) (hd.order_ne hb hom hne.symm (hbs.trans hos.symm))

theorem fill_eq_of_first {A : Arith} {others : List BookSnapshot} (hd : Distinct books)
    (hd' : Distinct others) (h : ∀ book, First request others book ↔ First request books book) :
    engine.fill A request others = engine.fill A request books := by
  have he : earliest request others = earliest request books := by
    refine Option.ext fun book => ?_
    rw [← first_iff hd', ← first_iff hd, h]
  rw [fill, fill, he]

/-- a fill is what the walk of the earliest book gives, and that book is fresh and deep enough -/
theorem fill_eq_build {f : PaperFill} (hq : 0 < request.quantity)
    (h : engine.fill .exact request books = .ok f) (he : earliest request books = some book) :
    request.quantity ≤ book.depth request.side ∧
      f = build .exact request book
        (walkLevels .exact (book.levels request.side) request.quantity).1 := by
  have hdeep : request.quantity ≤ book.depth request.side := by
    by_contra hthin
    obtain ⟨reason, hr⟩ :=
      fill_exact_rejected hq he fun hu : Usable engine request book => hthin hu.2
    rw [hr] at h
    cases h
  simp only [fill, he, orRaise_some, ok_bind, bind_eq_ok, raiseIf_eq_ok, walk, pure_eq_ok,
    Except.ok.injEq] at h
  obtain ⟨_, _, _, ⟨_, _, rfl⟩, hf⟩ := h
  exact ⟨hdeep, (postInit_eq hf).1⟩

end

/-! ## the price of the walk -/

/-- for each level, how much of it is taken: the amounts make up the quantity -/
def Way (levels : List BookLevel) (quantity : ℚ) (amounts : List ℚ) : Prop :=
  List.Forall₂ (fun level amount => 0 ≤ amount ∧ amount ≤ level.quantity) levels amounts ∧
    amounts.sum = quantity

def notionalOf (levels : List BookLevel) (amounts : List ℚ) : ℚ :=
  (List.zipWith (fun level amount => level.price * amount) levels amounts).sum

/-- a buy pays no more, a sell receives no less -/
def NoWorse : PaperOrderSide → ℚ → ℚ → Prop
  | .buy, a, b => a ≤ b
  | .sell, a, b => b ≤ a

/-- what a price costs: a sell pays the negative of what it receives -/
def toCost : PaperOrderSide → ℚ → ℚ
  | .buy, price => price
  | .sell, price => -price

theorem noWorse_iff {side : PaperOrderSide} {a b : ℚ} :
    NoWorse side a b ↔ toCost side a ≤ toCost side b := by
  cases side with
  | buy => rfl
  | sell => exact neg_le_neg_iff.symm

theorem toCost_add (side : PaperOrderSide) (a b : ℚ) :
    toCost side (a + b) = toCost side a + toCost side b := by
  cases side with
  | buy => rfl
  | sell => exact neg_add a b

theorem toCost_mul (side : PaperOrderSide) (a b : ℚ) :
    toCost side (a * b) = toCost side a * b := by
  cases side with
  | buy => rfl
  | sell => exact (neg_mul a b).symm

theorem toCost_zero (side : PaperOrderSide) : toCost side 0 = 0 := by
  cases side with
  | buy => rfl
  | sell => exact neg_zero

theorem toCost_inj (side : PaperOrderSide) {a b : ℚ} (h : toCost side a = toCost side b) :
    a = b := by
  cases side with
  | buy => exact h
  | sell => exact neg_inj.mp h

def ladder (side : PaperOrderSide) (levels : List BookLevel) : List (Ladder.Rung ℚ) :=
  levels.map fun level => ⟨toCost side level.price, level.quantity⟩

section
variable {side : PaperOrderSide} {levels : List BookLevel}

theorem ladder_sized : Ladder.Sized (ladder side levels) := by
  intro rung hrung
  obtain ⟨level, _, rfl⟩ := List.mem_map.mp hrung
  exact level.quantity_pos.le

theorem ladder_sum (side : PaperOrderSide) (levels : List BookLevel) :
    ((ladder side levels).map (·.size)).sum = (levels.map (·.quantity)).sum := by
  rw [ladder, List.map_map]
  rfl

theorem ladder_ascending (book : BookSnapshot) (side : PaperOrderSide) :
    (ladder side (book.levels side)).Pairwise fun a b => a.price ≤ b.price := by
  cases side with
  | buy =>
    refine List.pairwise_map.mpr ((List.isChain_iff_pairwise.mp book.asks_asc).imp fun h => ?_)
    exact le_of_lt h
  | sell =>
    refine List.pairwise_map.mpr ((List.isChain_iff_pairwise.mp book.bids_desc).imp fun h => ?_)
    exact neg_le_neg (le_of_lt h)

theorem taking_ladder {amounts : List ℚ} : Ladder.Taking (ladder side levels) amounts ↔
    List.Forall₂ (fun level amount => 0 ≤ amount ∧ amount ≤ level.quantity) levels amounts :=
  List.forall₂_map_left_iff

theorem spent_ladder (amounts : List ℚ) :
    Ladder.spent (ladder side levels) amounts = toCost side (notionalOf levels amounts) := by
  induction levels generalizing amounts with
  | nil => exact (Ladder.spent_nil amounts).trans (toCost_zero side).symm
  | cons level levels ih =>
    cases amounts with
    | nil => exact (toCost_zero side).symm
    | cons amount amounts =>
      have hstep : notionalOf (level :: levels) (amount :: amounts) =
          level.price * amount + notionalOf levels amounts := by simp [notionalOf]
      rw [hstep, toCost_add, toCost_mul, ← ih]
      exact Ladder.spent_cons _ _ amount amounts

theorem walked_walkLevels (side : PaperOrderSide) (levels : List BookLevel) {r : ℚ} (hr : 0 ≤ r) :
    Ladder.walked (ladder side levels) r =
      toCost side (((walkLevels .exact levels r).1.map fun s => s.price * s.quantity).sum) := by
  induction levels generalizing r with
  | nil => exact (toCost_zero side).symm
  | cons level levels ih =>
    by_cases h : r ≤ 0
    · have h0 : r = 0 := le_antisymm h hr
      rw [h0, Ladder.walked_zero ladder_sized]
      simp [walkLevels, toCost_zero]
    · have hrest := ih (r := r - min level.quantity r) (sub_nonneg.mpr (min_le_right _ _))
      simp only [walkLevels, dif_neg h, Arith.exact_sub, List.map_cons, List.sum_cons, toCost_add,
        toCost_mul, ← hrest]
      rfl

end

/-! ## the fill of a book -/

/-- a fill that takes the whole quantity from the levels, and none of them could be taken better -/
structure BestFill (request : MarketFillRequest) (book : BookSnapshot) (f : PaperFill) : Prop where
  quantity : (f.slices.map (·.quantity)).sum = request.quantity
  notional : (f.slices.map fun s => s.price * s.quantity).sum = f.notional
  attained : ∃ amounts, Way (book.levels request.side) request.quantity amounts ∧
    notionalOf (book.levels request.side) amounts = f.notional
  best : ∀ amounts, Way (book.levels request.side) request.quantity amounts →
    NoWorse request.side f.notional (notionalOf (book.levels request.side) amounts)

section
variable {engine : MarketFillEngine} {request : MarketFillRequest}
  {books : List BookSnapshot} {book : BookSnapshot}

theorem walked_build (request : MarketFillRequest) (book : BookSnapshot)
    (hq : 0 < request.quantity) :
    Ladder.walked (ladder request.side (book.levels request.side)) request.quantity =
      toCost request.side
      (build .exact request book
        (walkLevels .exact (book.levels request.side) request.quantity).1).notional := by
  rw [walked_walkLevels request.side (book.levels request.side) hq.le]
  simp [build]

theorem build_best (hq : 0 < request.quantity)
    (hdeep : request.quantity ≤ book.depth request.side) :
    BestFill request book
      (build .exact request book
        (walkLevels .exact (book.levels request.side) request.quantity).1) := by
  have hwalk := walked_build request book hq
  refine ⟨?_, by simp [build], ?_, fun amounts hway => ?_⟩
  · obtain ⟨hleft, hsum⟩ := walkLevels_exact (book.levels request.side) request.quantity hq.le
    have h0 : (walkLevels .exact (book.levels request.side) request.quantity).2 = 0 := by
      rw [hleft]
      exact max_eq_left (sub_nonpos.mpr hdeep)
    exact hsum.trans (by rw [h0, sub_zero])
  · obtain ⟨amounts, htaking, hsum, hspent⟩ := Ladder.exists_walked ladder_sized hq.le
      (hdeep.trans_eq (ladder_sum request.side (book.levels request.side)).symm)
    refine ⟨amounts, ⟨taking_ladder.mp htaking, hsum⟩, toCost_inj request.side ?_⟩
    rw [← spent_ladder, hspent, hwalk]
  · have hle := Ladder.walked_le (ladder_ascending book request.side) ladder_sized
      (taking_ladder.mpr hway.1)
    rw [hway.2, hwalk, spent_ladder] at hle
    exact noWorse_iff.mpr hle

theorem build_price_noWorse {quantity : ℚ} (hq : 0 < request.quantity)
    (hle : request.quantity ≤ quantity) (hdeep : quantity ≤ book.depth request.side) :
    NoWorse request.side
      (build .exact request book
      (walkLevels .exact (book.levels request.side) request.quantity).1).price
        (build .exact { request with quantity } book
        (walkLevels .exact (book.levels request.side) quantity).1).price := by
  have haverage := Ladder.walked_average (ladder_ascending book request.side) ladder_sized hq hle
    (hdeep.trans_eq (ladder_sum request.side (book.levels request.side)).symm)
  have hmore := walked_build { request with quantity } book (lt_of_lt_of_le hq hle)
  rw [walked_build request book hq, hmore, div_eq_mul_inv, div_eq_mul_inv, ← toCost_mul,
    ← toCost_mul] at haverage
  exact noWorse_iff.mpr haverage

end

theorem fill_best (engine : MarketFillEngine) (request : MarketFillRequest)
    (books : List BookSnapshot) (hrequest : request.postInit = .ok request) (hd : Distinct books) :
    (∀ others, Distinct others → (∀ book, First request others book ↔ First request books book) →
      engine.fill .exact request others = engine.fill .exact request books) ∧
    ∀ book, First request books book → book.observedAt - book.venueEventAt ≤ engine.maxBookAge →
      ((∃ f, engine.fill .exact request books = .ok f) ↔
        request.quantity ≤ book.depth request.side) ∧
      ∀ f, engine.fill .exact request books = .ok f → BestFill request book f ∧
        ∀ quantity f', request.quantity ≤ quantity →
          engine.fill .exact { request with quantity } books = .ok f' →
            NoWorse request.side f.price f'.price := by
  simp only [MarketFillRequest.postInit, bind_eq_ok, raiseIf_eq_ok, requirePositiveDecimal_eq_ok,
    not_not] at hrequest
  obtain ⟨_, _, _, hq, _, _, _, hfee, _⟩ := hrequest
  refine ⟨fun others hd' => fill_eq_of_first hd hd', fun book hfirst hfresh => ?_⟩
  have he := (first_iff hd).mp hfirst
  refine ⟨⟨?_, fun hdeep => ?_⟩, fun f hf => ?_⟩
  · rintro ⟨f, hf⟩
    exact (fill_eq_build hq hf he).1
  · obtain ⟨f, hf, -⟩ := fill_exact hq hfee.1 he ⟨hfresh, hdeep⟩
    exact ⟨f, hf⟩
  · obtain ⟨hdeep, rfl⟩ := fill_eq_build hq hf he
    refine ⟨build_best hq hdeep, fun quantity f' hle hf' => ?_⟩
    -- the larger request looks for the same first book
    obtain ⟨hdeep', rfl⟩ := fill_eq_build (lt_of_lt_of_le hq hle) hf' he
    exact build_price_noWorse hq hle hdeep'

namespace Demo

theorem btc_ne : "BTCUSDT" ≠ "" := by decide
theorem book_ne : "book" ≠ "" := by decide
theorem pos1 : (0 : ℚ) < 1 := by decide
theorem pos5 : (0 : ℚ) < 5 := by decide
theorem pos99 : (0 : ℚ) < 99 := by decide
theorem pos100 : (0 : ℚ) < 100 := by decide
theorem tick_le (t : ℕ) : (t : Time) ≤ t := le_rfl

def twoLevelBook (t : Nat) : BookSnapshot :=
  { eventId := "book", symbol := "BTCUSDT", venueEventAt := t, observedAt := t, sequence := t
    bids := [⟨99, 1, pos99, pos1⟩]
    asks := [⟨100, 1, pos100, pos1⟩, ⟨102, 5, by norm_num, pos5⟩]
    markPrice := 100
    eventId_ne := book_ne, symbol_ne := btc_ne, venue_le := tick_le t
    bids_ne := by simp, asks_ne := by simp, bids_desc := by simp, asks_asc := by simp; norm_num
    not_crossed := by simp; norm_num, markPrice_pos := pos100 }

def buyTwo : MarketFillRequest := ⟨"BTCUSDT", .buy, 2, 10, 100, 0⟩

def engine : MarketFillEngine := ⟨5, by decide⟩

/-- two units of the first book after the eligibility time: the walk takes both levels -/
theorem buyTwo_best : buyTwo.postInit = .ok buyTwo ∧
    Distinct [twoLevelBook 12, twoLevelBook 11, twoLevelBook 10] ∧
    First buyTwo [twoLevelBook 12, twoLevelBook 11, twoLevelBook 10] (twoLevelBook 11) ∧
    ∃ f, engine.fill .exact buyTwo [twoLevelBook 12, twoLevelBook 11, twoLevelBook 10] = .ok f ∧
      BestFill buyTwo (twoLevelBook 11) f := by
  have hrequest : buyTwo.postInit = .ok buyTwo := by decide +kernel
  have hd : Distinct [twoLevelBook 12, twoLevelBook 11, twoLevelBook 10] := by
    unfold Distinct
    decide +kernel
  have hfirst :
      First buyTwo [twoLevelBook 12, twoLevelBook 11, twoLevelBook 10] (twoLevelBook 11) := by
    unfold First
    decide +kernel
  obtain ⟨hfills, hbest⟩ := (fill_best engine buyTwo _ hrequest hd).2 _ hfirst (by decide)
  obtain ⟨f, hf⟩ := hfills.mpr (by decide +kernel)
  exact ⟨hrequest, hd, hfirst, f, hf, (hbest f hf).1⟩

end Demo

end MarketFillEngine
end Maais
