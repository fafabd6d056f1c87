import Maais.Lib.Dict
import Mathlib.Data.List.Sort

/-!
# Replaying absolute changes

A change names a key and what the key holds from then on; `none` takes it away. A log says what
every update id changed, and a summary of a range of ids lists the keys it touched with what they
hold at its end.

* `Log.after`  the map a log has reached at an update id;
* `Log.Summary.replay`  a summary takes the map at any id of its range to the map at its end;
* `Dict.get?_changeAll`  a dictionary to which changes are applied replays them;
* `Best`  the leading entries of a map in an order; `Dict.best` computes them.
-/

set_option linter.unusedSectionVars false

namespace Lib

variable {κ υ : Type} [DecidableEq κ]

abbrev Change (κ υ : Type) := κ × Option υ

/-- the map after the changes, applied in order -/
def replay (m : κ → Option υ) (l : List (Change κ υ)) : κ → Option υ :=
  l.foldl (fun m c => Function.update m c.1 c.2) m

@[simp] theorem replay_nil (m : κ → Option υ) : replay m [] = m := rfl

@[simp] theorem replay_cons (m : κ → Option υ) (c : Change κ υ) (l : List (Change κ υ)) :
    replay m (c :: l) = replay (Function.update m c.1 c.2) l := rfl

variable {l : List (Change κ υ)}

theorem replay_of_not_mem {k : κ} (h : k ∉ l.map Prod.fst) (m : κ → Option υ) :
    replay m l k = m k := by
  induction l generalizing m with
  | nil => rfl
  | cons c l ih =>
    rw [List.map_cons, List.mem_cons, not_or] at h
    rw [replay_cons, ih h.2, Function.update_of_ne h.1]

theorem replay_of_mem {k : κ} (h : k ∈ l.map Prod.fst) (m m' : κ → Option υ) :
    replay m l k = replay m' l k := by
  induction l generalizing m m' with
  | nil => cases h
  | cons c l ih =>
    rw [replay_cons, replay_cons]
    by_cases hl : k ∈ l.map Prod.fst
    · exact ih hl _ _
    · have hk : k = c.1 := by
        rw [List.map_cons, List.mem_cons] at h
        exact h.resolve_right hl
      rw [replay_of_not_mem hl, replay_of_not_mem hl, hk, Function.update_self,
        Function.update_self]

/-! ## logs -/

/-- what every update id changed, over the map it started from -/
structure Log (κ υ : Type) where
  initial : κ → Option υ
  updates : Nat → List (Change κ υ)

namespace Log

variable (log : Log κ υ)

/-- the map at an update id -/
def after (log : Log κ υ) : Nat → κ → Option υ
  | 0 => replay log.initial (log.updates 0)
  | n + 1 => replay (log.after n) (log.updates (n + 1))

/-- the changes sum up the updates of `first .. last`, and nothing happened between `previous` and
`first` -/
structure Summary (previous first last : Nat) (changes : List (Change κ υ)) : Prop where
  silent : ∀ n, previous < n → n < first → log.updates n = []
  listed : ∀ n, first ≤ n → n ≤ last → ∀ c ∈ log.updates n, c.1 ∈ changes.map Prod.fst
  absolute : ∀ k ∈ changes.map Prod.fst, replay (fun _ => none) changes k = log.after last k

variable {log} {previous first last : Nat} {changes : List (Change κ υ)}

theorem Summary.untouched (h : log.Summary previous first last changes) {k : κ}
    (hk : k ∉ changes.map Prod.fst) {n : Nat} (hlo : previous < n) (hhi : n ≤ last) :
    k ∉ (log.updates n).map Prod.fst := by
  intro hmem
  obtain ⟨c, hc, rfl⟩ := List.mem_map.mp hmem
  by_cases hf : first ≤ n
  · exact hk (h.listed n hf hhi c hc)
  · rw [h.silent n hlo (not_le.mp hf)] at hc
    cases hc

theorem Summary.constant (h : log.Summary previous first last changes) {k : κ}
    (hk : k ∉ changes.map Prod.fst) {x : Nat} (hx : previous ≤ x) (d : Nat) (hd : x + d ≤ last) :
    log.after (x + d) k = log.after x k := by
  induction d with
  | zero => rfl
  | succ d ih =>
    show replay (log.after (x + d)) (log.updates (x + d + 1)) k = _
    rw [replay_of_not_mem (h.untouched hk (by omega) (by omega))]
    exact ih (by omega)

/-- a summary may be replayed from anywhere inside its range -/
theorem Summary.replay (h : log.Summary previous first last changes) {x : Nat} (hx : previous ≤ x)
    (hl : x ≤ last) : Lib.replay (log.after x) changes = log.after last := by
  funext k
  by_cases hk : k ∈ changes.map Prod.fst
  · rw [replay_of_mem hk _ (fun _ => none)]
    exact h.absolute k hk
  · rw [replay_of_not_mem hk]
    have hc := h.constant hk hx (last - x) (by omega)
    rw [show x + (last - x) = last by omega] at hc
    exact hc.symm

end Log

/-! ## changes of a dictionary -/

namespace Entries

def pop (k : κ) : List (κ × υ) → List (κ × υ)
  | [] => []
  | e :: l => if e.1 = k then l else e :: pop k l

theorem pop_sublist (k : κ) (l : List (κ × υ)) : (pop k l).Sublist l := by
  induction l with
  | nil => exact List.Sublist.refl _
  | cons e l ih =>
    by_cases h : e.1 = k
    · rw [pop, if_pos h]
      exact List.sublist_cons_self e l
    · rw [pop, if_neg h]
      exact ih.cons_cons e

theorem lookup_pop_self (k : κ) {l : List (κ × υ)} (hn : (l.map Prod.fst).Nodup) :
    lookup k (pop k l) = none := by
  induction l with
  | nil => rfl
  | cons e l ih =>
    rw [List.map_cons, List.nodup_cons] at hn
    by_cases h : e.1 = k
    · rw [pop, if_pos h, lookup_eq_none, ← h]
      exact hn.1
    · rw [pop, if_neg h, lookup, if_neg h]
      exact ih hn.2

theorem lookup_pop_of_ne {k k' : κ} (h : k' ≠ k) (l : List (κ × υ)) :
    lookup k' (pop k l) = lookup k' l := by
  induction l with
  | nil => rfl
  | cons e l ih =>
    by_cases he : e.1 = k
    · rw [pop, if_pos he, lookup, if_neg (he ▸ h.symm)]
    · rw [pop, if_neg he, lookup, lookup, ih]

end Entries

namespace Dict

variable (d : Dict κ υ)

/-- `d.pop(k, None)` -/
def pop (k : κ) : Dict κ υ :=
  ⟨Entries.pop k d.entries, d.nodup.sublist ((Entries.pop_sublist k d.entries).map Prod.fst)⟩

theorem get?_pop (k : κ) : (d.pop k).get? = Function.update d.get? k none := by
  funext k'
  by_cases h : k' = k
  · rw [h, Function.update_self]
    exact Entries.lookup_pop_self k d.nodup
  · rw [Function.update_of_ne h]
    exact Entries.lookup_pop_of_ne h d.entries

def change (d : Dict κ υ) (c : Change κ υ) : Dict κ υ :=
  match c.2 with
  | none => d.pop c.1
  | some v => d.set c.1 v

theorem get?_change_one (c : Change κ υ) : (d.change c).get? = Function.update d.get? c.1 c.2 := by
  obtain ⟨k, v | v⟩ := c
  · exact d.get?_pop k
  · funext k'
    show (d.set k v).get? k' = _
    rw [get?_set, Function.update_apply]

def changeAll (d : Dict κ υ) (l : List (Change κ υ)) : Dict κ υ := l.foldl change d

theorem get?_changeAll (l : List (Change κ υ)) : (d.changeAll l).get? = replay d.get? l := by
  induction l generalizing d with
  | nil => rfl
  | cons c l ih =>
    show ((d.change c).changeAll l).get? = _
    rw [ih, get?_change_one]
    rfl

end Dict

/-! ## the leading entries of a map -/

/-- `l` lists the first `n` entries of `m` in the order `r` of their keys, all of them when there
are fewer -/
structure Best (r : κ → κ → Prop) (n : Nat) (m : κ → Option υ) (l : List (κ × υ)) : Prop where
  sorted : (l.map Prod.fst).Pairwise (fun a b => r a b ∧ a ≠ b)
  holds : ∀ e ∈ l, m e.1 = some e.2
  short : l.length ≤ n
  leads : ∀ k v, m k = some v → (k, v) ∈ l ∨ l.length = n ∧ ∀ e ∈ l, r e.1 k

namespace Dict

variable (r : κ → κ → Prop) [DecidableRel r] (d : Dict κ υ)

/-- `sorted(d)[:n]` with what the keys hold -/
def best (n : Nat) : List (κ × υ) := (d.entries.insertionSort (fun a b => r a.1 b.1)).take n

variable [Std.Total r] [IsTrans κ r]

instance : Std.Total (fun a b : κ × υ => r a.1 b.1) := ⟨fun a b => Std.Total.total a.1 b.1⟩

instance : IsTrans (κ × υ) (fun a b => r a.1 b.1) := ⟨fun a b c => IsTrans.trans a.1 b.1 c.1⟩

theorem sorted_entries :
    ((d.entries.insertionSort (fun a b => r a.1 b.1)).map Prod.fst).Pairwise
    (fun a b => r a b ∧ a ≠ b) := by
  refine List.Pairwise.and ?_ ?_
  · rw [List.pairwise_map]
    exact List.pairwise_insertionSort (fun a b : κ × υ => r a.1 b.1) d.entries
  · exact ((List.perm_insertionSort _ d.entries).map Prod.fst).nodup_iff.mpr d.nodup

theorem mem_best {n : Nat} {e : κ × υ} (h : e ∈ d.best r n) : d.get? e.1 = some e.2 := by
  have hmem := List.mem_of_mem_take h
  rw [List.mem_insertionSort] at hmem
  exact (mem_entries_iff d).mp hmem

/-- sorting and cutting gives the leading entries -/
theorem best_best (n : Nat) : Best r n d.get? (d.best r n) where
  sorted := by
    rw [best, List.map_take]
    exact (d.sorted_entries r).sublist (List.take_sublist _ _)
  holds := fun e he => d.mem_best r he
  short := List.length_take_le n _
  leads := by
    intro k v h
    -- an entry that is cut off stands behind all that are kept
    have hmem : (k, v) ∈ d.entries.insertionSort (fun a b => r a.1 b.1) := by
      rw [List.mem_insertionSort]
      exact (mem_entries_iff d).mpr h
    rw [← List.take_append_drop n (d.entries.insertionSort (fun a b => r a.1 b.1)),
      List.mem_append] at hmem
    obtain hk | hd := hmem
    · exact Or.inl hk
    · refine Or.inr ⟨?_, ?_⟩
      · have hpos := List.length_pos_of_mem hd
        rw [List.length_drop] at hpos
        rw [best, List.length_take]
        omega
      · intro e he
        have hs := List.pairwise_insertionSort (fun a b : κ × υ => r a.1 b.1) d.entries
        rw [← List.take_append_drop n (d.entries.insertionSort (fun a b => r a.1 b.1)),
          List.pairwise_append] at hs
        exact hs.2.2 e he _ hd

end Dict

end Lib
