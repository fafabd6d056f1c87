import Mathlib.Algebra.BigOperators.Group.List.Basic
import Mathlib.Algebra.Order.BigOperators.Group.List
import Mathlib.Algebra.Order.Field.Basic
import Mathlib.Algebra.Order.Group.MinMax
import Mathlib.Tactic.Linarith
import Mathlib.Tactic.Ring

/-!
# First in, first out, by cumulative quantity

Parcels come in one after the other and are taken out in the same order. Laid end to end, the
parcels that came in cover an interval, and so do the amounts that were taken out; the `x`-th unit
taken out is the `x`-th unit that came in.

* `overlap`  how much two intervals have in common;
* `paired`  what the units from `a` to `b` gain at a price, each against the price it came in at;
* `fifo`  the gain of a list of withdrawals;
* `unused`  what is left of a parcel when everything up to `c` was taken out.
-/

set_option linter.unusedSectionVars false

namespace Lib

variable {K : Type*} [Field K] [LinearOrder K] [IsStrictOrderedRing K]

/-! ## intervals -/

/-- the length that two intervals share -/
def overlap (a b c d : K) : K := max 0 (min b d - max a c)

variable {c : K}

theorem overlap_of_le {a b d : K} (h : b ≤ c) : overlap a b c d = 0 :=
  max_eq_left (by linarith [min_le_left b d, le_max_right a c])

/-- the part of the interval from `s` that lies behind `c` -/
def unused (c s size : K) : K := max 0 (s + size - max c s)

theorem unused_nonneg (c s size : K) : 0 ≤ unused c s size := le_max_left _ _

variable {s size : K}

theorem unused_le (h : 0 ≤ size) : unused c s size ≤ size :=
  max_le h (by linarith [le_max_right c s])

theorem unused_of_le (h : s + size ≤ c) : unused c s size = 0 :=
  max_eq_left (by linarith [le_max_left c s])

theorem unused_of_lt (hsize : 0 ≤ size) (h : c ≤ s + size) : unused c s size = s + size - max c s :=
  max_eq_right (sub_nonneg.mpr (max_le h (by linarith)))

theorem unused_of_start (hsize : 0 ≤ size) (h : c ≤ s) : unused c s size = size := by
  rw [unused_of_lt hsize (by linarith), max_eq_right h]
  ring

theorem unused_sub {d : K} (hcd : c ≤ d) (hsize : 0 ≤ size) :
    unused d s size = unused c s size - overlap c d s (s + size) := by
  unfold unused overlap
  rcases le_total c s with hc | hc
  · rcases le_total d s with hd | hd
    · rw [max_eq_right hc, max_eq_right hd, min_eq_left (by linarith), max_eq_right (by linarith),
        max_eq_left (by linarith : d - s ≤ 0)]
      ring
    · rw [max_eq_right hc, max_eq_left hd, max_eq_right (by linarith : 0 ≤ s + size - s)]
      rcases le_total d (s + size) with hb | hb
      · rw [min_eq_left hb, max_eq_right (by linarith), max_eq_right (by linarith)]
        ring
      · rw [min_eq_right hb, max_eq_left (by linarith), max_eq_right (by linarith)]
        ring
  · rw [max_eq_left hc, max_eq_left (hc.trans hcd)]
    rcases le_total (s + size) c with hb | hb
    · rw [min_eq_right (by linarith), max_eq_left (by linarith), max_eq_left (by linarith)]
      ring
    · rw [max_eq_right (by linarith : 0 ≤ s + size - c)]
      rcases le_total d (s + size) with hd | hd
      · rw [min_eq_left hd, max_eq_right (by linarith), max_eq_right (by linarith)]
        ring
      · rw [min_eq_right hd, max_eq_left (by linarith), max_eq_right (by linarith)]
        ring

theorem overlap_eq_min (c d s size : K) :
    overlap c d s (s + size) = min (unused c s size) (max 0 (d - max c s)) := by
  rw [overlap, unused, ← max_min_distrib_left, min_sub_sub_right, min_comm]

theorem overlap_rest {d : K} (hsize : 0 ≤ size) :
    max 0 (d - max c s) - overlap c d s (s + size) = max 0 (d - max c (s + size)) := by
  unfold overlap
  rcases le_total c s with hc | hc
  · rw [max_eq_right hc, max_eq_right (by linarith : c ≤ s + size)]
    rcases le_total d (s + size) with hd | hd
    · rw [min_eq_left hd, max_eq_left (by linarith : d - (s + size) ≤ 0), sub_self]
    · rw [min_eq_right hd, max_eq_right (by linarith), max_eq_right (by linarith),
        max_eq_right (by linarith)]
      ring
  · rw [max_eq_left hc]
    rcases le_total c (s + size) with hb | hb
    · rw [max_eq_right hb]
      rcases le_total d (s + size) with hd | hd
      · rw [min_eq_left hd, max_eq_left (by linarith : d - (s + size) ≤ 0), sub_self]
      · rw [min_eq_right hd, max_eq_right (by linarith), max_eq_right (by linarith),
          max_eq_right (by linarith)]
        ring
    · rw [max_eq_left hb,
        max_eq_left (by linarith [min_le_right d (s + size)] : min d (s + size) - c ≤ 0), sub_zero]

/-! ## parcels -/

/-- an amount put in at a price -/
structure Parcel (K : Type*) where
  size : K
  price : K

def laid (l : List (Parcel K)) : K := (l.map (·.size)).sum

@[simp] theorem laid_nil : laid ([] : List (Parcel K)) = 0 := rfl

@[simp] theorem laid_cons (o : Parcel K) (l : List (Parcel K)) :
    laid (o :: l) = o.size + laid l := by
  simp [laid]

theorem laid_concat (l : List (Parcel K)) (o : Parcel K) : laid (l ++ [o]) = laid l + o.size := by
  simp [laid]

/-- the gain of taking the amounts from `a` to `b` out at a price -/
def paired (a b price : K) : K → List (Parcel K) → K
  | _, [] => 0
  | s, o :: l => overlap a b s (s + o.size) * (price - o.price) + paired a b price (s + o.size) l

theorem paired_concat {a b price : K} {l : List (Parcel K)} {o : Parcel K} (h : b ≤ s + laid l) :
    paired a b price s (l ++ [o]) = paired a b price s l := by
  induction l generalizing s with
  | nil =>
    rw [laid_nil, add_zero] at h
    simp only [List.nil_append, paired, overlap_of_le h, zero_mul, add_zero]
  | cons x l ih =>
    rw [laid_cons] at h
    simp only [List.cons_append, paired]
    rw [ih (by linarith)]

/-! ## withdrawals -/

/-- an amount taken out at a price, and with which sign its gain counts -/
structure Withdrawal (K : Type*) where
  sign : K
  size : K
  price : K

def taken (l : List (Withdrawal K)) : K := (l.map (·.size)).sum

@[simp] theorem taken_nil : taken ([] : List (Withdrawal K)) = 0 := rfl

@[simp] theorem taken_cons (w : Withdrawal K) (l : List (Withdrawal K)) :
    taken (w :: l) = w.size + taken l := by
  simp [taken]

theorem taken_concat (l : List (Withdrawal K)) (w : Withdrawal K) :
    taken (l ++ [w]) = taken l + w.size := by
  simp [taken]

/-- **the gain of first in, first out**: each withdrawal against the parcels that cover its
interval -/
def fifo (opens : List (Parcel K)) : K → List (Withdrawal K) → K
  | _, [] => 0
  | c, w :: l => w.sign * paired c (c + w.size) w.price 0 opens + fifo opens (c + w.size) l

theorem fifo_concat (opens : List (Parcel K)) (c : K) (l : List (Withdrawal K)) (w : Withdrawal K) :
    fifo opens c (l ++ [w]) =
      fifo opens c l + w.sign * paired (c + taken l) (c + taken l + w.size) w.price 0 opens := by
  induction l generalizing c with
  | nil => simp [fifo]
  | cons x l ih =>
    simp only [List.cons_append, fifo, taken_cons]
    rw [ih, add_assoc c]
    ring

/-- a parcel behind everything taken changes no gain -/
theorem fifo_opens_concat {opens : List (Parcel K)} {o : Parcel K} {l : List (Withdrawal K)}
    (hpos : ∀ w ∈ l, 0 ≤ w.size) (h : c + taken l ≤ laid opens) :
    fifo (opens ++ [o]) c l = fifo opens c l := by
  induction l generalizing c with
  | nil => rfl
  | cons w l ih =>
    have hrest : 0 ≤ taken l := List.sum_nonneg fun x hx => by
      obtain ⟨y, hy, rfl⟩ := List.mem_map.mp hx
      exact hpos y (List.mem_cons_of_mem w hy)
    rw [taken_cons] at h
    simp only [fifo]
    rw [paired_concat (by linarith),
      ih (fun x hx => hpos x (List.mem_cons_of_mem w hx)) (by linarith)]

end Lib
