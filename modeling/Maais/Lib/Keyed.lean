import Mathlib.Algebra.Order.Monoid.Defs
import Mathlib.Algebra.BigOperators.Group.List.Basic
import Mathlib.Algebra.Order.BigOperators.Group.List
import Mathlib.Data.List.Sort

/-!
# Lists of items with a key

* `sum_le_of_covered`  a list whose items are each matched, key by key, by a larger one has the
  smaller sum;
* `insertionSort_eq_of_perm`  with distinct keys the order in which the items came does not matter;
* `find?_key_eq_some`  with distinct keys the item of a key is found.
-/

namespace Lib

variable {α κ : Type*} {key : α → κ} {l l' : List α}

/-- a list that is covered key by key has no larger sum -/
theorem sum_le_of_covered {M : Type*} [AddCommMonoid M] [PartialOrder M] [IsOrderedAddMonoid M]
    (f : α → M) (hkeys : (l.map key).Nodup) (hpos : ∀ b ∈ l', 0 ≤ f b)
    (hcover : ∀ a ∈ l, ∃ b ∈ l', key b = key a ∧ f a ≤ f b) : (l.map f).sum ≤ (l'.map f).sum := by
  induction l generalizing l' with
  | nil =>
    refine List.sum_nonneg fun x hx => ?_
    obtain ⟨b, hb, rfl⟩ := List.mem_map.mp hx
    exact hpos b hb
  | cons a l ih =>
    obtain ⟨b, hb, hkey, hle⟩ := hcover a List.mem_cons_self
    obtain ⟨s, t, rfl⟩ := List.append_of_mem hb
    rw [List.map_cons, List.nodup_cons] at hkeys
    -- the match of `a` is taken out: the others have other keys
    have hrest : (l.map f).sum ≤ ((s ++ t).map f).sum := by
      apply ih hkeys.2
      · intro c hc
        exact hpos c (by rw [List.mem_append] at hc; rw [List.mem_append, List.mem_cons]; tauto)
      · intro c hc
        obtain ⟨d, hd, hkey', hle'⟩ := hcover c (List.mem_cons_of_mem a hc)
        have hne : d ≠ b := by
          intro h
          exact hkeys.1 (List.mem_map.mpr ⟨c, hc, by rw [← hkey', h, hkey]⟩)
        refine ⟨d, ?_, hkey', hle'⟩
        rw [List.mem_append, List.mem_cons] at hd
        rw [List.mem_append]
        tauto
    calc ((a :: l).map f).sum = f a + (l.map f).sum := by rw [List.map_cons, List.sum_cons]
      _ ≤ f b + ((s ++ t).map f).sum := add_le_add hle hrest
      _ = ((s ++ b :: t).map f).sum := by
        rw [List.map_append, List.map_append, List.map_cons, List.sum_append, List.sum_append,
          List.sum_cons, add_left_comm]

theorem insertionSort_eq_of_injOn [LinearOrder κ] (hperm : l.Perm l')
    (hinj : ∀ a ∈ l, ∀ b ∈ l, key a = key b → a = b) :
    l.insertionSort (fun a b => key a ≤ key b) = l'.insertionSort (fun a b => key a ≤ key b) := by
  have : Std.Total (fun a b : α => key a ≤ key b) := ⟨fun a b => le_total (key a) (key b)⟩
  have : IsTrans α (fun a b : α => key a ≤ key b) := ⟨fun _ _ _ => le_trans⟩
  have hsame :
      (l.insertionSort (fun a b => key a ≤ key b)).Perm
      (l'.insertionSort (fun a b => key a ≤ key b)) :=
    ((List.perm_insertionSort _ l).trans hperm).trans (List.perm_insertionSort _ l').symm
  refine hsame.eq_of_pairwise ?_ (List.pairwise_insertionSort _ l)
    (List.pairwise_insertionSort _ l')
  intro a b ha hb hab hba
  rw [List.mem_insertionSort] at ha hb
  exact hinj a ha b (hperm.mem_iff.mpr hb) (le_antisymm hab hba)

/-- the order of arrival is lost when keys differ -/
theorem insertionSort_eq_of_perm [LinearOrder κ] (hperm : l.Perm l') (hkeys : (l.map key).Nodup) :
    l.insertionSort (fun a b => key a ≤ key b) = l'.insertionSort (fun a b => key a ≤ key b) :=
  insertionSort_eq_of_injOn hperm fun _ ha _ hb => List.inj_on_of_nodup_map hkeys ha hb

theorem find?_key_eq_some [DecidableEq κ] (hkeys : (l.map key).Nodup) {k : κ} {a : α} :
    l.find? (fun b => key b = k) = some a ↔ a ∈ l ∧ key a = k := by
  constructor
  · intro h
    exact ⟨List.mem_of_find?_eq_some h, by simpa using List.find?_some h⟩
  · rintro ⟨ha, rfl⟩
    cases h : l.find? (fun b => key b = key a) with
    | none => simpa using List.find?_eq_none.mp h a ha
    | some b =>
      have hb : key b = key a := by simpa using List.find?_some h
      rw [List.inj_on_of_nodup_map hkeys (List.mem_of_find?_eq_some h) ha hb]

end Lib
