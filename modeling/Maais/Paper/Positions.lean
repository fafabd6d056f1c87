import Maais.Domain

/-!
# Positions and their lots

One-way positions made of lots; a close takes the lots in order.

* `openFill`, `closeFill`, `mark`, `applyFunding`  the transitions of a position;
* `PositionState.Valid`  what every recorded position satisfies;
* `closeFill_flat`  closing the whole quantity leaves no open lot.
-/

namespace Maais
open Lib

structure PositionLot where
  lotId : UUID
  openingFillId : UUID
  openedAt : Time
  entryPrice : ℚ
  originalQuantity : ℚ
  remainingQuantity : ℚ
  openingFee : ℚ
  remainingOpeningFee : ℚ
  funding : ℚ
deriving DecidableEq

structure PositionState where
  positionId : UUID
  experimentId : UUID
  symbol : String
  side : Direction
  markPrice : ℚ
  averageEntry : ℚ
  realizedPnl : ℚ
  fees : ℚ
  funding : ℚ
  lots : List PositionLot
  openedAt : Option Time
  closedAt : Option Time
  version : Nat
deriving DecidableEq

namespace PositionState

def empty (positionId experimentId : UUID) (symbol : String) : Py PositionState := do
  raiseIf (symbol = "") (.valueError "symbol is required")
  return { positionId, experimentId, symbol, side := .neutral, markPrice := 0, averageEntry := 0,
           realizedPnl := 0, fees := 0, funding := 0, lots := [], openedAt := none,
           closedAt := none, version := 0 }

variable (A : Arith) (p : PositionState)

def quantity : ℚ := A.sum (p.lots.map (·.remainingQuantity))

def isFlat : Prop := p.quantity A = 0

instance : Decidable (p.isFlat A) := by
  unfold isFlat
  infer_instance

def unrealizedPnl : ℚ :=
  if p.isFlat A then 0
  else if p.side = .long then
    A.sum (p.lots.map (fun lot => A.mul (A.sub p.markPrice lot.entryPrice) lot.remainingQuantity))
  else
    A.sum (p.lots.map (fun lot => A.mul (A.sub lot.entryPrice p.markPrice) lot.remainingQuantity))

def grossNotional : ℚ := A.mul (p.quantity A) p.markPrice

/-- `sum(entry_price * remaining_quantity) / total` -/
def averageOf (lots : List PositionLot) (total : ℚ) : ℚ :=
  A.div (A.sum (lots.map (fun lot => A.mul lot.entryPrice lot.remainingQuantity))) total

def openFill (fillId : UUID) (side : Direction) (quantity price fee : ℚ) (fillAt : Time) :
    Py PositionState := do
  raiseIf (side = .neutral) (.valueError "opening side must be long or short")
  raiseIf (¬ p.isFlat A ∧ p.side ≠ side)
    (.valueError "one-way position can only scale in the same direction")
  requirePositiveDecimal quantity "quantity"
  requirePositiveDecimal price "price"
  requireNonnegative fee "fee"
  let lot : PositionLot :=
    { lotId := fillId, openingFillId := fillId, openedAt := fillAt, entryPrice := price,
      originalQuantity := quantity, remainingQuantity := quantity, openingFee := fee,
      remainingOpeningFee := fee, funding := 0 }
  let lots := p.lots ++ [lot]
  return { p with
    side
    markPrice := price
    averageEntry := averageOf A lots (A.add (p.quantity A) quantity)
    fees := A.add p.fees fee
    lots
    openedAt := if p.isFlat A then some fillAt else p.openedAt
    closedAt := none
    version := p.version + 1 }

/-- the loop of `close_fill`: the lots after it and the profit realized -/
def closeLots (side : Direction) (price : ℚ) : List PositionLot → ℚ → ℚ → List PositionLot × ℚ
  | [], _, realized => ([], realized)
  | lot :: rest, remaining, realized =>
    if remaining ≤ 0 ∨ lot.remainingQuantity ≤ 0 then
      let tail := closeLots side price rest remaining realized
      (lot :: tail.1, tail.2)
    else
      let closing := min lot.remainingQuantity remaining
      let gain :=
        if side = .long then A.mul (A.sub price lot.entryPrice) closing
        else A.mul (A.sub lot.entryPrice price) closing
      let feeAllocation := A.div (A.mul lot.remainingOpeningFee closing) lot.remainingQuantity
      let updated : PositionLot :=
        { lot with
          remainingQuantity := A.sub lot.remainingQuantity closing
          remainingOpeningFee := A.sub lot.remainingOpeningFee feeAllocation }
      let tail := closeLots side price rest (A.sub remaining closing) (A.add realized gain)
      (updated :: tail.1, tail.2)

def closeFill (quantity price fee : ℚ) (fillAt : Time) : Py PositionState := do
  requirePositiveDecimal quantity "quantity"
  requirePositiveDecimal price "price"
  requireNonnegative fee "fee"
  raiseIf (p.isFlat A ∨ quantity > p.quantity A)
    (.valueError "close quantity exceeds open quantity")
  let closed := closeLots A p.side price p.lots quantity 0
  let remaining := A.sub (p.quantity A) quantity
  return { p with
    side := if 0 < remaining then p.side else .neutral
    markPrice := price
    averageEntry := if 0 < remaining then averageOf A closed.1 remaining else 0
    realizedPnl := A.add p.realizedPnl closed.2
    fees := A.add p.fees fee
    lots := closed.1
    closedAt := if 0 < remaining then none else some fillAt
    version := p.version + 1 }

def mark (price : ℚ) : Py PositionState := do
  requirePositiveDecimal price "mark price"
  return { p with markPrice := price, version := p.version + 1 }

def fundLot (amount quantity : ℚ) (lot : PositionLot) : PositionLot :=
  if 0 < lot.remainingQuantity then
    { lot with
      funding := A.add lot.funding (A.div (A.mul amount lot.remainingQuantity) quantity) }
  else lot

def applyFunding (amount : ℚ) : Py PositionState := do
  raiseIf (p.isFlat A) (.valueError "cannot apply funding to a flat position")
  return { p with
    funding := A.add p.funding amount
    lots := p.lots.map (fundLot A amount (p.quantity A))
    version := p.version + 1 }

end PositionState

/-! ## exact arithmetic -/

/-- what a lot keeps: it never holds more than it opened with, nor more of its fee -/
structure PositionLot.Valid (lot : PositionLot) : Prop where
  entryPrice_pos : 0 < lot.entryPrice
  original_pos : 0 < lot.originalQuantity
  remaining_nonneg : 0 ≤ lot.remainingQuantity
  remaining_le : lot.remainingQuantity ≤ lot.originalQuantity
  fee_nonneg : 0 ≤ lot.remainingOpeningFee
  fee_le : lot.remainingOpeningFee ≤ lot.openingFee

namespace PositionState

open PositionLot

@[simp] theorem quantity_exact (p : PositionState) :
    p.quantity .exact = (p.lots.map (·.remainingQuantity)).sum := by
  simp [quantity]

/-- what every recorded position keeps: valid lots, and a side and closing time that say whether it
is open -/
structure Valid (p : PositionState) : Prop where
  symbol_ne : p.symbol ≠ ""
  lots : ∀ lot ∈ p.lots, lot.Valid
  openedAt : p.openedAt ≠ none
  markPrice_pos : 0 < p.markPrice
  version_pos : 0 < p.version
  isOpen : ¬ p.isFlat .exact → p.side ≠ .neutral ∧ p.closedAt = none ∧ 0 < p.averageEntry
  isClosed : p.isFlat .exact → p.side = .neutral ∧ p.closedAt ≠ none

variable {p : PositionState} {l : List PositionLot}

theorem sum_remaining_nonneg (h : ∀ lot ∈ l, lot.Valid) :
    0 ≤ (l.map (·.remainingQuantity)).sum := by
  refine List.sum_nonneg fun x hx => ?_
  obtain ⟨lot, hl, rfl⟩ := List.mem_map.mp hx
  exact (h lot hl).remaining_nonneg

theorem Valid.quantity_nonneg (h : p.Valid) : 0 ≤ p.quantity .exact := by
  rw [quantity_exact]
  exact sum_remaining_nonneg h.lots

theorem Valid.quantity_pos (h : p.Valid) (ho : ¬ p.isFlat .exact) : 0 < p.quantity .exact :=
  lt_of_le_of_ne h.quantity_nonneg (Ne.symm ho)

theorem closeLots_valid (side : Direction) (price : ℚ) {r g : ℚ}
    (h : ∀ lot ∈ l, lot.Valid) : ∀ lot ∈ (closeLots .exact side price l r g).1, lot.Valid := by
  induction l generalizing r g with
  | nil => simp [closeLots]
  | cons lot rest ih =>
    have hl := h lot List.mem_cons_self
    have hrest := fun x hx => h x (List.mem_cons_of_mem lot hx)
    by_cases hc : r ≤ 0 ∨ lot.remainingQuantity ≤ 0
    · simp only [closeLots, if_pos hc, List.mem_cons]
      rintro x (rfl | hx)
      · exact hl
      · exact ih hrest x hx
    · simp only [closeLots, if_neg hc, List.mem_cons, Arith.exact_sub, Arith.exact_div,
        Arith.exact_mul]
      rw [not_or, not_le, not_le] at hc
      rintro x (rfl | hx)
      · have hm : min lot.remainingQuantity r ≤ lot.remainingQuantity := min_le_left _ _
        have hm0 : 0 < min lot.remainingQuantity r := lt_min hc.2 hc.1
        -- the share of the fee that goes with the closed part is at most the whole fee
        have hshare : lot.remainingOpeningFee * min lot.remainingQuantity r /
          lot.remainingQuantity ≤
            lot.remainingOpeningFee := by
          rw [div_le_iff₀ hc.2]
          exact mul_le_mul_of_nonneg_left hm hl.fee_nonneg
        have hshare0 : 0 ≤ lot.remainingOpeningFee * min lot.remainingQuantity r /
            lot.remainingQuantity :=
          div_nonneg (mul_nonneg hl.fee_nonneg hm0.le) hc.2.le
        have hle := hl.remaining_le
        have hfl := hl.fee_le
        exact ⟨hl.entryPrice_pos, hl.original_pos, sub_nonneg.mpr hm, by simp only; linarith,
          sub_nonneg.mpr hshare, by simp only; linarith⟩
      · exact ih hrest x hx

theorem closeLots_remaining (side : Direction) (price : ℚ) {r g : ℚ}
    (h : ∀ lot ∈ l, lot.Valid) (hr : 0 ≤ r) (hle : r ≤ (l.map (·.remainingQuantity)).sum) :
    ((closeLots .exact side price l r g).1.map (·.remainingQuantity)).sum =
      (l.map (·.remainingQuantity)).sum - r := by
  induction l generalizing r g with
  | nil =>
    simp only [List.map_nil, List.sum_nil] at hle
    simp [closeLots, le_antisymm hle hr]
  | cons lot rest ih =>
    have hl := h lot List.mem_cons_self
    have hrest := fun x hx => h x (List.mem_cons_of_mem lot hx)
    have hs := sum_remaining_nonneg hrest
    simp only [List.map_cons, List.sum_cons] at hle
    by_cases hc : r ≤ 0 ∨ lot.remainingQuantity ≤ 0
    · have hr' : r ≤ (rest.map (·.remainingQuantity)).sum := by
        rcases hc with hc | hc
        · linarith
        · linarith
      simp only [closeLots, if_pos hc, List.map_cons, List.sum_cons, ih hrest hr hr']
      ring
    · simp only [closeLots, if_neg hc, List.map_cons, List.sum_cons, Arith.exact_sub]
      have hm : min lot.remainingQuantity r ≤ r := min_le_right _ _
      have hr' : r - min lot.remainingQuantity r ≤ (rest.map (·.remainingQuantity)).sum := by
        rcases le_total lot.remainingQuantity r with hlr | hlr
        · rw [min_eq_left hlr]
          linarith
        · rw [min_eq_right hlr]
          linarith
      rw [ih hrest (by linarith) hr']
      ring

/-! ## what the transitions keep -/

def SameIdentity (p q : PositionState) : Prop :=
  q.positionId = p.positionId ∧ q.experimentId = p.experimentId ∧ q.symbol = p.symbol

section
variable {A : Arith} {q : PositionState}

theorem openFill_step {fillId : UUID} {side : Direction} {n price fee : ℚ} {fillAt : Time}
    (h : p.openFill A fillId side n price fee fillAt = .ok q) :
    SameIdentity p q ∧ q.version = p.version + 1 ∧ q.side = side ∧ side ≠ .neutral ∧
      q.closedAt = none ∧ (¬ p.isFlat A → p.side = side) := by
  simp only [openFill, bind_eq_ok, raiseIf_eq_ok, pure_ok_iff, not_and, not_not,
    ne_eq] at h
  obtain ⟨_, hs, _, hsame, _, _, _, _, _, _, rfl⟩ := h
  exact ⟨⟨rfl, rfl, rfl⟩, rfl, rfl, hs, rfl, hsame⟩

theorem closeFill_step {n price fee : ℚ} {fillAt : Time}
    (h : p.closeFill A n price fee fillAt = .ok q) : SameIdentity p q ∧
    q.version = p.version + 1 := by
  simp only [closeFill, bind_eq_ok, pure_ok_iff] at h
  obtain ⟨_, _, _, _, _, _, _, _, rfl⟩ := h
  exact ⟨⟨rfl, rfl, rfl⟩, rfl⟩

theorem mark_eq {price : ℚ} (h : p.mark price = .ok q) :
    0 < price ∧ q = { p with markPrice := price, version := p.version + 1 } := by
  simp only [mark, bind_eq_ok, requirePositiveDecimal_eq_ok, pure_ok_iff] at h
  obtain ⟨_, hp, rfl⟩ := h
  exact ⟨hp, rfl⟩

theorem applyFunding_step {amount : ℚ} (h : p.applyFunding A amount = .ok q) :
    SameIdentity p q ∧ q.version = p.version + 1 ∧ q.side = p.side := by
  simp only [applyFunding, bind_eq_ok, pure_ok_iff] at h
  obtain ⟨_, _, rfl⟩ := h
  exact ⟨⟨rfl, rfl, rfl⟩, rfl, rfl⟩

end

/-! ## validity -/

theorem sum_cost_nonneg (h : ∀ lot ∈ l, lot.Valid) :
    0 ≤ (l.map (fun lot => lot.entryPrice * lot.remainingQuantity)).sum := by
  refine List.sum_nonneg fun x hx => ?_
  obtain ⟨lot, hl, rfl⟩ := List.mem_map.mp hx
  exact mul_nonneg (h lot hl).entryPrice_pos.le (h lot hl).remaining_nonneg

variable {price : ℚ} {fee : ℚ}

theorem openFill_valid {q : PositionState} {fillId : UUID} {side : Direction} {n : ℚ}
    {fillAt : Time} (hsym : p.symbol ≠ "") (hl : ∀ lot ∈ p.lots, lot.Valid)
    (hop : ¬ p.isFlat .exact → p.openedAt ≠ none)
    (h : p.openFill .exact fillId side n price fee fillAt = .ok q) :
    q.Valid ∧ ¬ q.isFlat .exact := by
  simp only [openFill, bind_eq_ok, raiseIf_eq_ok, requirePositiveDecimal_eq_ok,
    requireNonnegative_eq_ok, pure_ok_iff] at h
  obtain ⟨_, hs, _, _, _, hn, _, hp, _, hfee, rfl⟩ := h
  have hq0 := sum_remaining_nonneg hl
  have hc0 := sum_cost_nonneg hl
  have hcost := mul_pos hp hn
  have hopen : ¬ (((p.lots.map (·.remainingQuantity)).sum + n) = 0) := by
    intro h0
    linarith
  have hflat : ∀ (r : PositionState),
      r.lots = p.lots ++ [⟨fillId, fillId, fillAt, price, n, n, fee, fee, 0⟩] →
      ¬ r.isFlat .exact := by
    intro r hr
    simpa [isFlat, hr] using hopen
  refine ⟨⟨hsym, ?_, ?_, hp, Nat.succ_pos _, fun _ => ⟨hs, rfl, ?_⟩,
    fun hf => absurd hf (hflat _ rfl)⟩, hflat _ rfl⟩
  · intro lot hlot
    rcases List.mem_append.mp hlot with hlot | hlot
    · exact hl lot hlot
    · rw [List.mem_singleton.mp hlot]
      exact ⟨hp, hn, hn.le, le_refl n, hfee, le_refl fee⟩
  · show (if p.isFlat .exact then some fillAt else p.openedAt) ≠ none
    split
    · simp
    · rename_i hf
      exact hop hf
  · show 0 < averageOf .exact _ _
    simp only [averageOf, Arith.exact_div, Arith.exact_mul, Arith.exact_sum, quantity_exact,
      Arith.exact_add, List.map_append, List.map_cons, List.map_nil, List.sum_append, List.sum_cons,
      List.sum_nil, add_zero]
    exact div_pos (by linarith) (by linarith)

theorem closeFill_flat {q : PositionState} {fillAt : Time} (hv : p.Valid)
    (h : p.closeFill .exact (p.quantity .exact) price fee fillAt = .ok q) :
    q.Valid ∧ q.isFlat .exact := by
  simp only [closeFill, bind_eq_ok, raiseIf_eq_ok, requirePositiveDecimal_eq_ok,
    requireNonnegative_eq_ok, pure_ok_iff] at h
  obtain ⟨_, hn, _, hp, _, hfee, _, _, rfl⟩ := h
  have hzero : ¬ (0 < Arith.exact.sub (p.quantity .exact) (p.quantity .exact)) := by simp
  have hsum := closeLots_remaining p.side price (g := 0) hv.lots hn.le (by rw [quantity_exact])
  rw [quantity_exact, sub_self] at hsum
  have hflat : ∀ r : PositionState,
      r.lots = (closeLots .exact p.side price p.lots (p.quantity .exact) 0).1 →
      r.isFlat .exact := by
    intro r hr
    simp only [isFlat, quantity_exact, hr]
    exact hsum
  refine ⟨⟨hv.symbol_ne, closeLots_valid p.side price hv.lots, hv.openedAt, hp, Nat.succ_pos _,
    fun hf => absurd (hflat _ rfl) hf, fun _ => ⟨?_, ?_⟩⟩, hflat _ rfl⟩
  · simp only [if_neg hzero]
  · simp only [if_neg hzero]
    simp

theorem closeFill_whole (fillAt : Time) (hv : p.Valid) (ho : ¬ p.isFlat .exact) (hp : 0 < price)
    (hfee : 0 ≤ fee) : ∃ q, p.closeFill .exact (p.quantity .exact) price fee fillAt = .ok q := by
  have hq := hv.quantity_pos ho
  have hfits : ¬ (p.isFlat .exact ∨ p.quantity .exact > p.quantity .exact) := by simp [ho]
  simp only [closeFill, requirePositiveDecimal, requireNonnegative,
    raiseIf_bind_neg (not_le.mpr hq), raiseIf_bind_neg (not_le.mpr hp),
    raiseIf_bind_neg (not_lt.mpr hfee), raiseIf_bind_neg hfits, pure_ok_iff, exists_eq']

theorem mark_valid {q : PositionState} (hv : p.Valid) (h : p.mark price = .ok q) :
    q.Valid ∧ (q.isFlat .exact ↔ p.isFlat .exact) := by
  obtain ⟨hp, rfl⟩ := mark_eq h
  exact ⟨⟨hv.symbol_ne, hv.lots, hv.openedAt, hp, Nat.succ_pos _, hv.isOpen, hv.isClosed⟩, Iff.rfl⟩

theorem fundLot_valid {amount n : ℚ} {lot : PositionLot} (h : lot.Valid) :
    (fundLot .exact amount n lot).Valid ∧
      (fundLot .exact amount n lot).remainingQuantity = lot.remainingQuantity := by
  unfold fundLot
  split
  · exact ⟨⟨h.entryPrice_pos, h.original_pos, h.remaining_nonneg, h.remaining_le, h.fee_nonneg,
      h.fee_le⟩, rfl⟩
  · exact ⟨h, rfl⟩

theorem applyFunding_valid {q : PositionState} {amount : ℚ} (hv : p.Valid)
    (h : p.applyFunding .exact amount = .ok q) : q.Valid ∧ ¬ q.isFlat .exact := by
  simp only [applyFunding, bind_eq_ok, raiseIf_eq_ok, pure_ok_iff] at h
  obtain ⟨_, ho, rfl⟩ := h
  obtain ⟨hs, hc, ha⟩ := hv.isOpen ho
  have hlots : (p.lots.map (fundLot .exact amount (p.quantity .exact))).map (·.remainingQuantity) =
      p.lots.map (·.remainingQuantity) := by
    rw [List.map_map]
    exact List.map_congr_left fun lot hl => (fundLot_valid (hv.lots lot hl)).2
  have hopen : ∀ r : PositionState,
      r.lots = p.lots.map (fundLot .exact amount (p.quantity .exact)) → ¬ r.isFlat .exact := by
    intro r hr
    unfold isFlat
    rw [quantity_exact, hr, hlots]
    rwa [isFlat, quantity_exact] at ho
  refine ⟨⟨hv.symbol_ne, ?_, hv.openedAt, hv.markPrice_pos, Nat.succ_pos _, fun _ => ⟨hs, hc, ha⟩,
    fun hf => absurd hf (hopen _ rfl)⟩, hopen _ rfl⟩
  intro lot hlot
  obtain ⟨l, hl, rfl⟩ := List.mem_map.mp hlot
  exact (fundLot_valid (hv.lots l hl)).1

end PositionState

end Maais
