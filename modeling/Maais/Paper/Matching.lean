import Maais.Paper.Lots

/-!
# Positions against first in, first out

Every history of calls of one position, from the empty one.  `Tally` reads off the arguments of the
calls what was opened and closed; nothing in it looks at lots.

* `Remains`  the lots hold what is left of the opened quantity when its first units were closed;
* `closeLots_remains`  the loop of a close moves the mark up to which units were closed, and gains
  what `paired` says;
* `Tracks`  a position against the tally of its history, with one lemma for each call that keeps it;
* `positions_match`  the lots, the quantity, the average, the side and the profit of every history.
-/

namespace Maais
open Lib

namespace PositionState

/-! ## what is left of the lots -/

def Remains (c : ℚ) : ℚ → List PositionLot → Prop
  | _, [] => True
  | s, lot :: l => lot.remainingQuantity = unused c s lot.originalQuantity ∧
    Remains c (s + lot.originalQuantity) l

variable {c s : ℚ} {l : List PositionLot}

theorem Remains.concat {lot : PositionLot} (h : Remains c s l)
    (hc : c ≤ s + laid (l.map (·.parcel))) (h0 : 0 ≤ lot.originalQuantity)
    (hlot : lot.remainingQuantity = lot.originalQuantity) : Remains c s (l ++ [lot]) := by
  induction l generalizing s with
  | nil =>
    rw [List.map_nil, laid_nil, add_zero] at hc
    exact ⟨by rw [hlot, unused_of_start h0 hc], trivial⟩
  | cons x l ih =>
    rw [List.map_cons, laid_cons] at hc
    exact ⟨h.1, ih h.2 (by simpa only [PositionLot.parcel, add_assoc] using hc)⟩

theorem Remains.held (h : Remains c s l) (h0 : ∀ lot ∈ l, 0 ≤ lot.originalQuantity)
    (hc : c ≤ s + laid (l.map (·.parcel))) : heldOf l = s + laid (l.map (·.parcel)) - max c s := by
  induction l generalizing s with
  | nil =>
    rw [List.map_nil, laid_nil, add_zero] at hc
    rw [heldOf_nil, List.map_nil, laid_nil, max_eq_right hc]
    ring
  | cons lot l ih =>
    have hlot := h0 lot List.mem_cons_self
    rw [List.map_cons, laid_cons] at hc
    rw [heldOf_cons, h.1, ih h.2 (fun x hx => h0 x (List.mem_cons_of_mem lot hx))
      (by simpa only [PositionLot.parcel, add_assoc] using hc), List.map_cons, laid_cons]
    show unused c s lot.originalQuantity + _ = s + (lot.originalQuantity + _) - _
    rcases le_total c (s + lot.originalQuantity) with hle | hle
    · rw [unused_of_lt hlot hle, max_eq_right hle]
      ring
    · rw [unused_of_le hle, max_eq_left hle, max_eq_left (by linarith)]
      ring

/-- **exhausted lots come first**, and of the others only the first can be partly closed -/
theorem Remains.split (h : Remains c s l) (h0 : ∀ lot ∈ l, 0 < lot.originalQuantity) :
    ∃ exhausted rest, l = exhausted ++ rest ∧ (∀ lot ∈ exhausted, lot.remainingQuantity = 0) ∧
      (∀ lot ∈ rest, 0 < lot.remainingQuantity) ∧ ∀ lot ∈ rest.tail, lot.remainingQuantity =
      lot.originalQuantity := by
  -- behind the mark the lots are whole
  have hwhole : ∀ {l : List PositionLot} {s : ℚ}, Remains c s l → c ≤ s →
      (∀ lot ∈ l, 0 < lot.originalQuantity) →
      ∀ lot ∈ l, lot.remainingQuantity = lot.originalQuantity := by
    intro l
    induction l with
    | nil => exact fun _ _ _ lot hlot => nomatch hlot
    | cons x l ih =>
      intro s h hcs h0 lot hlot
      have hx := h0 x List.mem_cons_self
      rcases List.mem_cons.mp hlot with rfl | hlot
      · rw [h.1, unused_of_start hx.le hcs]
      · exact ih h.2 (by linarith) (fun y hy => h0 y (List.mem_cons_of_mem x hy)) lot hlot
  induction l generalizing s with
  | nil => exact ⟨[], [], rfl, nofun, nofun, nofun⟩
  | cons lot l ih =>
    have hlot := h0 lot List.mem_cons_self
    have hrest := fun x hx => h0 x (List.mem_cons_of_mem lot hx)
    rcases le_or_gt (s + lot.originalQuantity) c with hle | hgt
    · obtain ⟨exhausted, rest, rfl, hzero, hpos, htail⟩ := ih h.2 hrest
      refine ⟨lot :: exhausted, rest, rfl, ?_, hpos, htail⟩
      rintro x (_ | ⟨_, hx⟩)
      · rw [h.1, unused_of_le hle]
      · exact hzero x hx
    · have htail := hwhole h.2 hgt.le hrest
      refine ⟨[], lot :: l, rfl, nofun, ?_, htail⟩
      rintro x (_ | ⟨_, hx⟩)
      · rw [h.1, unused_of_lt hlot.le hgt.le]
        exact sub_pos.mpr (max_lt hgt (by linarith))
      · rw [htail x hx]
        exact hrest x hx

theorem closeLots_remains {side : Direction} (hside : side ≠ .neutral) (price : ℚ) {d : ℚ}
    (hcd : c ≤ d) (h0 : ∀ lot ∈ l, 0 ≤ lot.originalQuantity) {r : ℚ} (h : Remains c s l)
    (hr : r = max 0 (d - max c s)) : Remains d s (closeLots .exact side price l r 0).1 ∧
      (closeLots .exact side price l r 0).2 = side.sign * paired c d price s
      (l.map (·.parcel)) := by
  induction l generalizing s r with
  | nil => exact ⟨trivial, by simp [closeLots, paired]⟩
  | cons lot l ih =>
    have hlot := h0 lot List.mem_cons_self
    have htake : takes lot r = overlap c d s (s + lot.originalQuantity) := by
      rw [overlap_eq_min, ← h.1, ← hr]
      rcases (show 0 ≤ lot.remainingQuantity from h.1 ▸ unused_nonneg _ _ _).eq_or_lt with hz | hpos
      · rw [takes_of_nonpos hz.symm.le, ← hz, min_eq_left (hr ▸ le_max_left _ _)]
      · exact takes_of_pos hpos (hr ▸ le_max_left _ _)
    obtain ⟨hrem, hgain⟩ := ih (fun x hx => h0 x (List.mem_cons_of_mem lot hx)) h.2
      (r := r - takes lot r) (by rw [htake, hr, overlap_rest hlot])
    rw [closeLots_cons_zero]
    refine ⟨⟨?_, hrem⟩, ?_⟩
    · show lot.remainingQuantity - takes lot r = _
      rw [htake, h.1, ← unused_sub hcd hlot]
      rfl
    · dsimp only
      rw [hgain, gainOf_eq_sign hside, htake]
      show _ = side.sign * (_ + _)
      rw [mul_add]
      rfl

/-! ## what a close leaves alone -/

theorem closeLots_parcels (side : Direction) (price : ℚ) (l : List PositionLot) (r : ℚ) :
    (closeLots .exact side price l r 0).1.map (·.parcel) = l.map (·.parcel) ∧
      (closeLots .exact side price l r 0).1.map (·.funding) = l.map (·.funding) := by
  induction l generalizing r with
  | nil => exact ⟨rfl, rfl⟩
  | cons lot l ih =>
    obtain ⟨hparcel, hfunding⟩ := ih (r - takes lot r)
    rw [closeLots_cons_zero, List.map_cons, List.map_cons, List.map_cons, List.map_cons,
      hparcel, hfunding]
    exact ⟨rfl, rfl⟩

def FeeShare (lot : PositionLot) : Prop :=
  lot.remainingOpeningFee = lot.openingFee * lot.remainingQuantity / lot.originalQuantity

theorem FeeShare.take {lot : PositionLot} (h : FeeShare lot) (hr : lot.remainingQuantity ≠ 0)
    (x : ℚ) : FeeShare (lot.take x) := by
  show lot.remainingOpeningFee - lot.remainingOpeningFee * x / lot.remainingQuantity =
    lot.openingFee * (lot.remainingQuantity - x) / lot.originalQuantity
  rw [h]
  have hcancel : lot.openingFee * lot.remainingQuantity / lot.originalQuantity * x /
      lot.remainingQuantity = lot.openingFee * x / lot.originalQuantity := by
    field_simp
  rw [hcancel]
  ring

theorem closeLots_feeShare (side : Direction) (price : ℚ) (h : ∀ lot ∈ l, FeeShare lot) (r : ℚ) :
    ∀ lot ∈ (closeLots .exact side price l r 0).1, FeeShare lot := by
  induction l generalizing r with
  | nil => exact fun lot hlot => nomatch hlot
  | cons lot l ih =>
    rw [closeLots_cons_zero]
    rintro x (_ | ⟨_, hx⟩)
    · by_cases hr : lot.remainingQuantity ≤ 0
      · rw [takes_of_nonpos hr, PositionLot.take_zero]
        exact h lot List.mem_cons_self
      · exact (h lot List.mem_cons_self).take (not_le.mp hr).ne' _
    · exact ih (fun y hy => h y (List.mem_cons_of_mem lot hy)) _ x hx

/-! ## calls -/

end PositionState

inductive PositionCall
  | openFill (fillId : UUID) (side : Direction) (quantity price fee : ℚ) (fillAt : Time)
  | closeFill (quantity price fee : ℚ) (fillAt : Time)
  | mark (price : ℚ)
  | applyFunding (amount : ℚ)

def PositionState.call (p : PositionState) : PositionCall → Py PositionState
  | .openFill fillId side quantity price fee fillAt =>
    p.openFill .exact fillId side quantity price fee fillAt
  | .closeFill quantity price fee fillAt => p.closeFill .exact quantity price fee fillAt
  | .mark price => p.mark price
  | .applyFunding amount => p.applyFunding .exact amount

/-- what a history opened and closed, and the side it last opened -/
structure Tally where
  opens : List (Parcel ℚ)
  closes : List (Withdrawal ℚ)
  held : Direction

namespace Tally

def start : Tally := ⟨[], [], .neutral⟩

def add (t : Tally) : PositionCall → Tally
  | .openFill _ side quantity price _ _ =>
    { t with opens := t.opens ++ [⟨quantity, price⟩], held := side }
  | .closeFill quantity price _ _ =>
    { t with closes := t.closes ++ [⟨t.held.sign, quantity, price⟩] }
  | .mark _ => t
  | .applyFunding _ => t

def ofCalls (calls : List PositionCall) : Tally := calls.foldl add start

end Tally

namespace PositionState

structure Tracks (t : Tally) (p : PositionState) : Prop where
  parcels : p.lots.map (·.parcel) = t.opens
  original_pos : ∀ lot ∈ p.lots, 0 < lot.originalQuantity
  closes_pos : ∀ w ∈ t.closes, 0 ≤ w.size
  within : taken t.closes ≤ laid t.opens
  remains : Remains (taken t.closes) 0 p.lots
  feeShare : ∀ lot ∈ p.lots, FeeShare lot
  funding : (p.lots.map (·.funding)).sum = p.funding
  average : p.averageEntry = if p.isFlat .exact then 0 else costOf p.lots / heldOf p.lots
  flat : p.isFlat .exact → p.side = .neutral
  onSide : ¬ p.isFlat .exact → p.side = t.held ∧ t.held ≠ .neutral
  realized : p.realizedPnl = fifo t.opens 0 t.closes

section
variable {t : Tally} {p q : PositionState}

theorem Tracks.empty {positionId experimentId : UUID} {symbol : String}
    (h : empty positionId experimentId symbol = .ok p) : Tracks .start p := by
  simp only [PositionState.empty, bind_eq_ok, pure_ok_iff] at h
  obtain ⟨_, _, rfl⟩ := h
  exact
    { parcels := rfl, original_pos := (fun _ h => by cases h),
      closes_pos := (fun _ h => by cases h), within := le_rfl, remains := trivial
      feeShare := (fun _ h => by cases h), funding := rfl, average := by simp [isFlat],
        flat := fun _ => rfl
      onSide := fun h => absurd (by simp [isFlat]) h, realized := rfl }

theorem Tracks.held (h : Tracks t p) : heldOf p.lots = laid t.opens - taken t.closes := by
  have htaken : 0 ≤ taken t.closes := List.sum_nonneg fun x hx => by
    obtain ⟨w, hw, rfl⟩ := List.mem_map.mp hx
    exact h.closes_pos w hw
  have hheld :=
    h.remains.held (fun lot hlot => (h.original_pos lot hlot).le)
    (by rw [h.parcels, zero_add]; exact h.within)
  rw [hheld, h.parcels, max_eq_left htaken, zero_add]

theorem Tracks.held_nonneg (h : Tracks t p) : 0 ≤ heldOf p.lots := by
  rw [h.held]
  exact sub_nonneg.mpr h.within

theorem isFlat_iff_held (p : PositionState) : p.isFlat .exact ↔ heldOf p.lots = 0 := by
  rw [isFlat, quantity_eq_held]

/-! ## one lemma for each call -/

variable {price n : ℚ} {fillAt : Time} {fee : ℚ}

theorem Tracks.openFill {fillId : UUID} {side : Direction} (h : Tracks t p)
    (hq : p.openFill .exact fillId side n price fee fillAt = .ok q) :
    Tracks (t.add (.openFill fillId side n price fee fillAt)) q := by
  simp only [PositionState.openFill, bind_eq_ok, raiseIf_eq_ok, requirePositiveDecimal_eq_ok,
    requireNonnegative_eq_ok, pure_ok_iff] at hq
  obtain ⟨_, hside, _, _, _, hn, _, _, _, _, rfl⟩ := hq
  have hheld : ∀ lots : List PositionLot,
      lots = p.lots ++ [⟨fillId, fillId, fillAt, price, n, n, fee, fee, 0⟩] →
      heldOf lots = heldOf p.lots + n := by
    rintro _ rfl
    rw [heldOf_append]
    simp
  have hpos : 0 < heldOf p.lots + n := by linarith [h.held_nonneg]
  have hopen : ∀ r : PositionState,
      r.lots = p.lots ++ [⟨fillId, fillId, fillAt, price, n, n, fee, fee, 0⟩] →
      ¬ r.isFlat .exact := fun r hr => by
    rw [isFlat_iff_held, hheld _ hr]
    exact hpos.ne'
  refine
    { parcels := ?_, original_pos := ?_, closes_pos := h.closes_pos, within := ?_,
      remains := ?_, feeShare := ?_
      funding := ?_, average := ?_, flat := fun hf => absurd hf (hopen _ rfl),
        onSide := fun _ => ⟨rfl, hside⟩
      realized := ?_ }
  · show (p.lots ++ [_]).map _ = t.opens ++ [_]
    rw [List.map_append, h.parcels]
    rfl
  · intro lot hlot
    rcases List.mem_append.mp hlot with hlot | hlot
    · exact h.original_pos lot hlot
    · rw [List.mem_singleton.mp hlot]
      exact hn
  · show taken t.closes ≤ laid (t.opens ++ [_])
    rw [laid_concat]
    linarith [h.within]
  · exact h.remains.concat (by rw [h.parcels, zero_add]; exact h.within) hn.le rfl
  · intro lot hlot
    rcases List.mem_append.mp hlot with hlot | hlot
    · exact h.feeShare lot hlot
    · rw [List.mem_singleton.mp hlot]
      exact (mul_div_cancel_right₀ fee hn.ne').symm
  · show ((p.lots ++ [_]).map _).sum = p.funding
    rw [List.map_append, List.sum_append, h.funding]
    simp
  · refine Eq.trans ?_ (if_neg (hopen _ rfl)).symm
    rw [hheld _ rfl]
    simp only [averageOf, Arith.exact_div, Arith.exact_sum, Arith.exact_mul, Arith.exact_add,
      quantity_eq_held]
    rfl
  · show p.realizedPnl = fifo (t.opens ++ [_]) 0 t.closes
    rw [fifo_opens_concat h.closes_pos (by rw [zero_add]; exact h.within), h.realized]

theorem closeFill_cases (hq : p.closeFill .exact n price fee fillAt = .ok q) :
    ¬ p.isFlat .exact ∧ 0 < n ∧ n ≤ heldOf p.lots ∧ q = p.closed n price fee fillAt := by
  have hq' := hq
  simp only [PositionState.closeFill, bind_eq_ok, raiseIf_eq_ok, requirePositiveDecimal_eq_ok,
    requireNonnegative_eq_ok, pure_ok_iff, not_or, not_lt] at hq'
  obtain ⟨_, hn, _, hp, _, hf, _, ⟨hopen, hle⟩, _⟩ := hq'
  rw [closeFill_eq_closed fillAt hopen hn hle hp hf] at hq
  exact ⟨hopen, hn, quantity_eq_held p ▸ hle, (Except.ok.inj hq).symm⟩

theorem Tracks.closeFill (h : Tracks t p)
    (hq : p.closeFill .exact n price fee fillAt = .ok q) :
    Tracks (t.add (.closeFill n price fee fillAt)) q := by
  obtain ⟨hopen, hn, hle, rfl⟩ := closeFill_cases hq
  obtain ⟨hside, hne⟩ := h.onSide hopen
  have htaken : 0 ≤ taken t.closes := List.sum_nonneg fun x hx => by
    obtain ⟨w, hw, rfl⟩ := List.mem_map.mp hx
    exact h.closes_pos w hw
  obtain ⟨hrem, hgain⟩ := closeLots_remains (hside ▸ hne) price (le_add_of_nonneg_right hn.le)
    (fun lot hlot => (h.original_pos lot hlot).le) h.remains (d := taken t.closes + n) (r := n)
    (by rw [max_eq_left htaken, add_sub_cancel_left, max_eq_right hn.le])
  obtain ⟨hparcels, hfunding⟩ := closeLots_parcels p.side price p.lots n
  have hheld : heldOf (p.closed n price fee fillAt).lots = heldOf p.lots - n :=
    closed_held hn.le hle
  have hflat : (p.closed n price fee fillAt).isFlat .exact ↔ ¬ 0 < heldOf p.lots - n := by
    rw [isFlat_iff_held, hheld, not_lt]
    exact ⟨fun h => h.le, fun h => le_antisymm h (sub_nonneg.mpr hle)⟩
  have hclosed : taken (t.closes ++ [⟨t.held.sign, n, price⟩]) = taken t.closes + n :=
    taken_concat _ _
  refine
    { parcels := hparcels.trans h.parcels, original_pos := ?_, closes_pos := ?_,
      within := ?_, remains := ?_
      feeShare := closeLots_feeShare p.side price h.feeShare n, funding := ?_, average := ?_,
        flat := ?_, onSide := ?_
      realized := ?_ }
  · intro lot hlot
    have hmem : lot.parcel ∈ p.lots.map (·.parcel) := hparcels ▸ List.mem_map_of_mem hlot
    obtain ⟨x, hx, heq⟩ := List.mem_map.mp hmem
    have hsize : x.originalQuantity = lot.originalQuantity := congrArg Parcel.size heq
    exact hsize ▸ h.original_pos x hx
  · intro w hw
    rcases List.mem_append.mp hw with hw | hw
    · exact h.closes_pos w hw
    · rw [List.mem_singleton.mp hw]
      exact hn.le
  · show taken (t.closes ++ [_]) ≤ laid t.opens
    rw [hclosed]
    linarith [h.held]
  · show Remains (taken (t.closes ++ [_])) 0 _
    rw [hclosed]
    exact hrem
  · exact (congrArg List.sum hfunding).trans h.funding
  · show (if 0 < heldOf p.lots - n then _ else 0) = _
    by_cases hpos : 0 < heldOf p.lots - n
    · rw [if_pos hpos, if_neg (mt hflat.mp (not_not.mpr hpos)), hheld]
      rfl
    · rw [if_neg hpos, if_pos (hflat.mpr hpos)]
  · intro hf
    exact if_neg (hflat.mp hf)
  · intro hf
    have hpos : 0 < heldOf p.lots - n := not_not.mp (mt hflat.mpr hf)
    exact ⟨(if_pos hpos).trans hside, hne⟩
  · show p.realizedPnl + (closeLots .exact p.side price p.lots n 0).2 =
      fifo t.opens 0 (t.closes ++ [_])
    rw [fifo_concat, hgain, h.realized, zero_add, h.parcels, hside]

theorem Tracks.mark (h : Tracks t p) (hq : p.mark price = .ok q) :
    Tracks (t.add (.mark price)) q := by
  obtain ⟨_, rfl⟩ := mark_eq hq
  exact
    { parcels := h.parcels, original_pos := h.original_pos, closes_pos := h.closes_pos,
      within := h.within
      remains := h.remains, feeShare := h.feeShare, funding := h.funding,
        average := h.average, flat := h.flat
      onSide := h.onSide, realized := h.realized }

theorem fundLot_eq (amount n : ℚ) (lot : PositionLot) :
    fundLot .exact amount n lot =
    { lot with funding := (fundLot .exact amount n lot).funding } := by
  unfold fundLot
  split <;> rfl

variable {l : List PositionLot}

theorem sum_fundLot (amount n : ℚ) (h0 : ∀ lot ∈ l, 0 ≤ lot.remainingQuantity) :
    ((l.map (fundLot .exact amount n)).map (·.funding)).sum = (l.map (·.funding)).sum + amount *
    heldOf l / n := by
  induction l with
  | nil => simp
  | cons lot l ih =>
    have hone : (fundLot .exact amount n lot).funding = lot.funding + amount *
        lot.remainingQuantity / n := by
      unfold fundLot
      split
      · rfl
      · rename_i hnot
        rw [le_antisymm (not_lt.mp hnot) (h0 lot List.mem_cons_self), mul_zero, zero_div, add_zero]
    rw [List.map_cons, List.map_cons, List.sum_cons,
      ih (fun x hx => h0 x (List.mem_cons_of_mem lot hx)), hone, List.map_cons,
      List.sum_cons, heldOf_cons]
    ring

theorem Remains.fundLot {c s amount : ℚ} (h : Remains c s l) :
    Remains c s (l.map (fundLot .exact amount n)) := by
  induction l generalizing s with
  | nil => trivial
  | cons lot l ih =>
    rw [List.map_cons, fundLot_eq]
    exact ⟨h.1, ih h.2⟩

theorem Remains.remaining_nonneg {c s : ℚ} (h : Remains c s l) :
    ∀ lot ∈ l, 0 ≤ lot.remainingQuantity := by
  induction l generalizing s with
  | nil => exact fun lot hlot => nomatch hlot
  | cons lot l ih =>
    rintro x (_ | ⟨_, hx⟩)
    · rw [h.1]
      exact unused_nonneg _ _ _
    · exact ih h.2 x hx

theorem Remains.remaining_le {c s : ℚ} (h : Remains c s l)
    (h0 : ∀ lot ∈ l, 0 ≤ lot.originalQuantity) :
    ∀ lot ∈ l, lot.remainingQuantity ≤ lot.originalQuantity := by
  induction l generalizing s with
  | nil => exact fun lot hlot => nomatch hlot
  | cons lot l ih =>
    rintro x (_ | ⟨_, hx⟩)
    · rw [h.1]
      exact unused_le (h0 lot List.mem_cons_self)
    · exact ih h.2 (fun y hy => h0 y (List.mem_cons_of_mem lot hy)) x hx

theorem Tracks.applyFunding {amount : ℚ} (h : Tracks t p)
    (hq : p.applyFunding .exact amount = .ok q) : Tracks (t.add (.applyFunding amount)) q := by
  simp only [PositionState.applyFunding, bind_eq_ok, raiseIf_eq_ok, pure_ok_iff] at hq
  obtain ⟨_, hopen, rfl⟩ := hq
  have hheld : heldOf (p.lots.map (PositionState.fundLot .exact amount (p.quantity .exact))) =
      heldOf p.lots :=
    heldOf_fundLot amount _ p.lots
  have hflat : ∀ r : PositionState,
      r.lots = p.lots.map (PositionState.fundLot .exact amount (p.quantity .exact)) →
      (r.isFlat .exact ↔ p.isFlat .exact) := fun r hr => by
    rw [isFlat_iff_held, isFlat_iff_held, hr, hheld]
  have hlots : ∀ P : PositionLot → Prop, (∀ lot x, P lot → P { lot with funding := x }) →
      (∀ lot ∈ p.lots, P lot) →
      ∀ lot ∈ p.lots.map (PositionState.fundLot .exact amount (p.quantity .exact)), P lot := by
    intro P hP hall lot hlot
    obtain ⟨x, hx, rfl⟩ := List.mem_map.mp hlot
    rw [fundLot_eq]
    exact hP x _ (hall x hx)
  refine
    { parcels := ?_, original_pos := hlots _ (fun _ _ h => h) h.original_pos,
      closes_pos := h.closes_pos
      within := h.within, remains := h.remains.fundLot,
        feeShare := hlots _ (fun _ _ h => h) h.feeShare, funding := ?_
      average := ?_, flat := fun hf => h.flat ((hflat _ rfl).mp hf)
      onSide := fun hf => h.onSide (mt (hflat _ rfl).mpr hf), realized := h.realized }
  · show (p.lots.map _).map _ = t.opens
    rw [← h.parcels, List.map_map]
    refine List.map_congr_left fun lot _ => ?_
    show (PositionState.fundLot .exact amount (p.quantity .exact) lot).parcel = lot.parcel
    rw [fundLot_eq]
    rfl
  · show ((p.lots.map _).map _).sum = p.funding + amount
    rw [sum_fundLot amount _ h.remains.remaining_nonneg, h.funding, ← quantity_eq_held,
      mul_div_cancel_right₀ amount (show p.quantity .exact ≠ 0 from hopen)]
  · show p.averageEntry = if _ then 0 else costOf (p.lots.map _) / heldOf (p.lots.map _)
    rw [h.average, costOf_fundLot, hheld, if_neg hopen, if_neg (mt (hflat _ rfl).mp hopen)]

theorem Tracks.call {c : PositionCall} (h : Tracks t p) (hq : p.call c = .ok q) :
    Tracks (t.add c) q := by
  cases c with
  | openFill fillId side n price fee fillAt => exact h.openFill hq
  | closeFill n price fee fillAt => exact h.closeFill hq
  | mark price => exact h.mark hq
  | applyFunding amount => exact h.applyFunding hq

theorem Tracks.run {calls : List PositionCall} (h : Tracks t p)
    (hq : calls.foldlM PositionState.call p = .ok q) : Tracks (calls.foldl Tally.add t) q := by
  induction calls generalizing t p with
  | nil =>
    cases hq
    exact h
  | cons c calls ih =>
    rw [List.foldlM_cons] at hq
    obtain ⟨p', hp', hq⟩ := bind_eq_ok.mp hq
    exact ih (h.call hp') hq

end

/-! ## whole histories -/

structure Matches (t : Tally) (p : PositionState) : Prop where
  /-- exhausted lots first; of the others at most the first is partly closed -/
  inOrder : ∃ exhausted rest, p.lots = exhausted ++ rest ∧
    (∀ lot ∈ exhausted, lot.remainingQuantity = 0) ∧ (∀ lot ∈ rest, 0 < lot.remainingQuantity) ∧
    ∀ lot ∈ rest.tail, lot.remainingQuantity = lot.originalQuantity
  lots : ∀ lot ∈ p.lots, 0 ≤ lot.remainingQuantity ∧ lot.remainingQuantity ≤ lot.originalQuantity ∧
    lot.remainingOpeningFee = lot.openingFee * lot.remainingQuantity / lot.originalQuantity
  funding : (p.lots.map (·.funding)).sum = p.funding
  quantity : p.quantity .exact = laid t.opens - taken t.closes
  average : p.averageEntry = if p.isFlat .exact then 0 else
    (p.lots.map (fun lot => lot.entryPrice * lot.remainingQuantity)).sum / p.quantity .exact
  side : p.side = .neutral ↔ p.isFlat .exact
  realized : p.realizedPnl = fifo t.opens 0 t.closes

theorem positions_match (positionId experimentId : UUID) (symbol : String)
    (calls : List PositionCall) (p₀ p : PositionState)
    (h₀ : empty positionId experimentId symbol = .ok p₀) (h : calls.foldlM call p₀ = .ok p) :
    Matches (Tally.ofCalls calls) p := by
  have ht : Tracks (Tally.ofCalls calls) p := (Tracks.empty h₀).run h
  refine
    { inOrder := ht.remains.split ht.original_pos, lots := fun lot hlot => ?_, funding := ht.funding
      quantity := (quantity_eq_held p).trans ht.held, average := ?_, side := ⟨fun hn => ?_, ht.flat⟩
      realized := ht.realized }
  · exact ⟨ht.remains.remaining_nonneg lot hlot,
      ht.remains.remaining_le (fun x hx => (ht.original_pos x hx).le) lot hlot,
      ht.feeShare lot hlot⟩
  · rw [quantity_eq_held]
    exact ht.average
  · by_contra hopen
    obtain ⟨hside, hne⟩ := ht.onSide hopen
    exact hne (hside.symm.trans hn)

namespace Demo

/-- bought in two parts, sold across both, funded, closed and sold short -/
def roundTrip : List PositionCall :=
  [.openFill ⟨"uuid:a"⟩ .long 2 100 1 0, .openFill ⟨"uuid:b"⟩ .long 3 110 3 1, .closeFill 4 120 1 2,
    .applyFunding (-1), .mark 90, .closeFill 1 100 1 3, .openFill ⟨"uuid:c"⟩ .short 1 95 1 4,
    .closeFill (1 / 2) 90 0 5]

def afterRoundTrip : PositionState :=
  { positionId := ⟨"uuid:p"⟩, experimentId := ⟨"uuid:e"⟩, symbol := "BTCUSDT", side := .short,
    markPrice := 90, averageEntry := 95, realizedPnl := 105 / 2, fees := 7, funding := -1,
    lots :=
      [⟨⟨"uuid:a"⟩, ⟨"uuid:a"⟩, 0, 100, 2, 0, 1, 0, 0⟩,
      ⟨⟨"uuid:b"⟩, ⟨"uuid:b"⟩, 1, 110, 3, 0, 3, 0, -1⟩,
      ⟨⟨"uuid:c"⟩, ⟨"uuid:c"⟩, 4, 95, 1, 1 / 2, 1, 1 / 2, 0⟩],
    openedAt := some 4, closedAt := none, version := 8 }

theorem roundTrip_matches :
    ∃ p₀, empty ⟨"uuid:p"⟩ ⟨"uuid:e"⟩ "BTCUSDT" = .ok p₀ ∧
      roundTrip.foldlM call p₀ = .ok afterRoundTrip ∧
      Matches (Tally.ofCalls roundTrip) afterRoundTrip := by
  obtain ⟨p₀, hp₀, hrun⟩ := exists_ok_of_any (x := empty ⟨"uuid:p"⟩ ⟨"uuid:e"⟩ "BTCUSDT")
    (p := fun p₀ => decide ((roundTrip.foldlM call p₀).toOption = some afterRoundTrip))
      (by decide +kernel)
  have hok := eq_ok_of_toOption (of_decide_eq_true hrun)
  exact ⟨p₀, hp₀, hok, positions_match _ _ _ roundTrip p₀ afterRoundTrip hp₀ hok⟩

end Demo

end PositionState

end Maais
