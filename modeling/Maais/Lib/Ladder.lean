import Mathlib.Algebra.BigOperators.Group.List.Basic
import Mathlib.Algebra.Order.BigOperators.Group.List
import Mathlib.Algebra.Order.Field.Basic
import Mathlib.Algebra.Order.Group.MinMax
import Mathlib.Tactic.Linarith
import Mathlib.Tactic.Ring

/-!
# Taking an amount from a ladder of rungs

A rung offers a size at a unit price. A way of taking an amount names, rung by rung, how much is
taken; the greedy walk takes each rung whole until the amount is reached.

* `walked_le`  over rungs of ascending price no way of taking the amount costs less;
* `exists_walked`  the walk is itself a way of taking the amount;
* `walked_average`  the unit cost of the walk does not fall when more is taken.

The proof of `walked_le` moves the part of a rung that a way leaves out from the later rungs back to
this one: `walked_add` says that it costs there at least the price of this rung.
-/

set_option linter.unusedSectionVars false

namespace Lib.Ladder

variable {K : Type*} [Field K] [LinearOrder K] [IsStrictOrderedRing K]

/-- an amount offered at a price -/
structure Rung (K : Type*) where
  price : K
  size : K

/-- an amount from each rung, none above its size -/
def Taking (l : List (Rung K)) (x : List K) : Prop :=
  List.Forall₂ (fun rung amount => 0 ≤ amount ∧ amount ≤ rung.size) l x

/-- what a taking costs -/
def spent (l : List (Rung K)) (x : List K) : K :=
  (List.zipWith (fun rung amount => rung.price * amount) l x).sum

/-- the cost of an amount taken from the first rungs on -/
def walked : List (Rung K) → K → K
  | [], _ => 0
  | rung :: l, r => rung.price * min rung.size r + walked l (r - min rung.size r)

@[simp] theorem spent_nil (x : List K) : spent ([] : List (Rung K)) x = 0 := by
  simp [spent]

@[simp] theorem spent_cons (rung : Rung K) (l : List (Rung K)) (amount : K) (x : List K) :
    spent (rung :: l) (amount :: x) = rung.price * amount + spent l x := by
  simp [spent]

def Sized (l : List (Rung K)) : Prop := ∀ rung ∈ l, 0 ≤ rung.size

variable {l : List (Rung K)}

theorem Sized.tail {rung : Rung K} (h : Sized (rung :: l)) : Sized l :=
  fun other ho => h other (List.mem_cons_of_mem rung ho)

variable {x : List K}

theorem Taking.sum_nonneg (h : Taking l x) : 0 ≤ x.sum := by
  induction h with
  | nil => simp
  | cons hb _ ih =>
    rw [List.sum_cons]
    exact add_nonneg hb.1 ih

theorem Taking.sum_le (h : Taking l x) :
    x.sum ≤ (l.map (·.size)).sum := by
  induction h with
  | nil => simp
  | cons hb _ ih =>
    rw [List.map_cons, List.sum_cons, List.sum_cons]
    exact add_le_add hb.2 ih

theorem walked_zero (hs : Sized l) : walked l 0 = 0 := by
  induction l with
  | nil => rfl
  | cons rung l ih =>
    rw [walked, min_eq_right (hs rung List.mem_cons_self), mul_zero, sub_zero, ih hs.tail, add_zero]

theorem Sized.sum_nonneg (hs : Sized l) : 0 ≤ (l.map (·.size)).sum :=
  List.sum_nonneg fun y hy => by
    obtain ⟨rung, hrung, rfl⟩ := List.mem_map.mp hy
    exact hs rung hrung

variable {r : K}

theorem Sized.rest_le {rung : Rung K} (hs : Sized (rung :: l))
    (hr : r ≤ ((rung :: l).map (·.size)).sum) : r - min rung.size r ≤ (l.map (·.size)).sum := by
  rw [List.map_cons, List.sum_cons] at hr
  rcases le_total rung.size r with hle | hle
  · rw [min_eq_left hle]
    linarith
  · rw [min_eq_right hle, sub_self]
    exact hs.tail.sum_nonneg

theorem exists_walked (hs : Sized l) (h0 : 0 ≤ r)
    (hr : r ≤ (l.map (·.size)).sum) : ∃ x, Taking l x ∧ x.sum = r ∧ spent l x = walked l r := by
  induction l generalizing r with
  | nil =>
    have hr' : r = 0 := le_antisymm (by simpa using hr) h0
    exact ⟨[], .nil, by simp [hr'], by simp [walked]⟩
  | cons rung l ih =>
    have hsize : 0 ≤ rung.size := hs rung List.mem_cons_self
    obtain ⟨x, hx, hsum, hcost⟩ := ih hs.tail (sub_nonneg.mpr (min_le_right _ _)) (hs.rest_le hr)
    refine ⟨min rung.size r :: x, .cons ⟨le_min hsize h0, min_le_left _ _⟩ hx, ?_, ?_⟩
    · rw [List.sum_cons, hsum]
      ring
    · rw [spent_cons, hcost, walked]

theorem walked_add (hs : Sized l) {price d : K} (hp : ∀ rung ∈ l, price ≤ rung.price) (h0 : 0 ≤ r)
    (hd : 0 ≤ d) (hr : r + d ≤ (l.map (·.size)).sum) :
    walked l r + price * d ≤ walked l (r + d) := by
  induction l generalizing r d with
  | nil =>
    have hd0 : d = 0 := le_antisymm (by simp at hr; linarith) hd
    simp [walked, hd0]
  | cons rung l ih =>
    have hprice : price ≤ rung.price := hp rung List.mem_cons_self
    -- the additional amount is split between this rung and the later ones
    obtain ⟨e, he⟩ : ∃ e, min rung.size (r + d) = min rung.size r + e :=
      ⟨_, (add_sub_cancel _ _).symm⟩
    have he0 : 0 ≤ e := by
      have := min_le_min_left rung.size (show r ≤ r + d by linarith)
      linarith
    have hed : e ≤ d := by
      rcases le_total rung.size r with hle | hle
      · rw [min_eq_left hle, min_eq_left (by linarith)] at he
        linarith
      · rw [min_eq_right hle] at he
        have := min_le_right rung.size (r + d)
        linarith
    have hrest : (r + d) - (min rung.size r + e) = (r - min rung.size r) + (d - e) := by ring
    have hfits : (r - min rung.size r) + (d - e) ≤ (l.map (·.size)).sum := by
      rw [← hrest, ← he]
      exact hs.rest_le hr
    have hmore := ih hs.tail (fun other ho => hp other (List.mem_cons_of_mem rung ho))
      (sub_nonneg.mpr (min_le_right _ _)) (sub_nonneg.mpr hed) hfits
    have hhere : price * e ≤ rung.price * e := mul_le_mul_of_nonneg_right hprice he0
    rw [walked, walked, he, hrest]
    linarith

/-- no taking of the same amount is cheaper than the walk -/
theorem walked_le (hl : l.Pairwise fun a b => a.price ≤ b.price)
    (hs : Sized l) (hx : Taking l x) : walked l x.sum ≤ spent l x := by
  induction hx with
  | nil => simp [walked]
  | @cons rung amount l x hb hx ih =>
    obtain ⟨hfirst, hrest⟩ := List.pairwise_cons.mp hl
    have hx0 : 0 ≤ x.sum := Taking.sum_nonneg hx
    rw [List.sum_cons, walked, spent_cons]
    -- the walk takes at least this amount here, so it takes at most `x.sum` later
    have hmin : amount ≤ min rung.size (amount + x.sum) := le_min hb.2 (by linarith)
    have hle : min rung.size (amount + x.sum) ≤ amount + x.sum := min_le_right _ _
    have hlater := walked_add hs.tail hfirst (r := amount + x.sum - min rung.size (amount + x.sum))
      (d := min rung.size (amount + x.sum) - amount) (sub_nonneg.mpr hle) (sub_nonneg.mpr hmin)
      (le_trans (le_of_eq (by ring)) (Taking.sum_le hx))
    have htotal : amount + x.sum - min rung.size (amount + x.sum) +
        (min rung.size (amount + x.sum) - amount) = x.sum := by ring
    rw [htotal] at hlater
    have := ih hrest hs.tail
    linarith

theorem Taking.scaled (h : Taking l x) {c : K} (h0 : 0 ≤ c)
    (h1 : c ≤ 1) : Taking l (x.map (c * ·)) ∧ (x.map (c * ·)).sum = c * x.sum ∧
      spent l (x.map (c * ·)) = c * spent l x := by
  induction h with
  | nil => exact ⟨.nil, by simp, by simp⟩
  | cons hb _ ih =>
    obtain ⟨htaking, hsum, hcost⟩ := ih
    refine ⟨.cons ⟨mul_nonneg h0 hb.1, ?_⟩ htaking, ?_, ?_⟩
    · exact le_trans (mul_le_of_le_one_left hb.1 h1) hb.2
    · rw [List.map_cons, List.sum_cons, List.sum_cons, hsum, mul_add]
    · rw [List.map_cons, spent_cons, spent_cons, hcost]
      ring

/-- a longer walk has no lower average price -/
theorem walked_average (hl : l.Pairwise fun a b => a.price ≤ b.price)
    (hs : Sized l) {s : K} (h0 : 0 < r) (hrs : r ≤ s) (hsum : s ≤ (l.map (·.size)).sum) :
    walked l r / r ≤ walked l s / s := by
  have hspos : 0 < s := lt_of_lt_of_le h0 hrs
  obtain ⟨x, hx, hxs, hcost⟩ := exists_walked hs hspos.le hsum
  obtain ⟨hscaled, hamount, hspent⟩ :=
    hx.scaled (div_nonneg h0.le hspos.le) ((div_le_one hspos).mpr hrs)
  have hle := walked_le hl hs hscaled
  rw [hamount, hxs, div_mul_cancel₀ _ hspos.ne', hspent, hcost] at hle
  rw [div_le_iff₀ h0]
  calc walked l r ≤ r / s * walked l s := hle
    _ = walked l s / s * r := by ring

end Lib.Ladder
