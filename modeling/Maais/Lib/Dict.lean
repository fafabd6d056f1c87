import Mathlib.Data.List.Nodup
import Mathlib.Algebra.BigOperators.Group.List.Basic
import Mathlib.Tactic.Common
import Mathlib.Tactic.Abel

/-!
# Dictionaries that keep the order of insertion

`Dict κ υ` is a list of entries with distinct keys.  `set` overwrites the value of a key in place
and appends a new key at the end, so iteration follows the order in which the keys first came.

* `get?_set_self`, `get?_set_of_ne`  reading after a write;
* `mem_entries_iff`, `mem_values_iff`  iteration sees exactly what `get?` sees;
* `sum_values_set`  a sum over the values moves by the difference at the written key;
* `setAll_entries`  writing a whole list over a dictionary whose keys lead that list;
* `Kept`  a table whose rows are never lost and only move on, each along a given order;
* `Unique`  a column that no two rows share.
-/

set_option linter.unusedSectionVars false

namespace Lib

variable {κ υ ω α : Type} [DecidableEq κ]

/-! ## entry lists -/

namespace Entries

def lookup (k : κ) : List (κ × υ) → Option υ
  | [] => none
  | e :: l => if e.1 = k then some e.2 else lookup k l

/-- a known key keeps its place, a new one comes last -/
def set (k : κ) (v : υ) : List (κ × υ) → List (κ × υ)
  | [] => [(k, v)]
  | e :: l => if e.1 = k then (k, v) :: l else e :: set k v l

theorem lookup_set_self (k : κ) (v : υ) (l : List (κ × υ)) : lookup k (set k v l) = some v := by
  induction l with
  | nil => simp [set, lookup]
  | cons e l ih =>
    by_cases h : e.1 = k
    · simp [set, lookup, h]
    · simp [set, lookup, h, ih]

variable {k : κ}

theorem lookup_set_of_ne {k' : κ} (h : k' ≠ k) (v : υ) (l : List (κ × υ)) :
    lookup k' (set k v l) = lookup k' l := by
  induction l with
  | nil => simp [set, lookup, Ne.symm h]
  | cons e l ih =>
    by_cases he : e.1 = k
    · simp [set, lookup, he, Ne.symm h]
    · simp [set, lookup, he, ih]

variable {l : List (κ × υ)}

/-- to set what is there changes nothing -/
theorem set_of_lookup {v : υ} (h : lookup k l = some v) : set k v l = l := by
  induction l with
  | nil => cases h
  | cons p l ih =>
    rw [lookup] at h
    rw [set]
    split at h
    · rename_i hk
      cases h
      rw [if_pos hk, ← hk]
    · rename_i hk
      rw [if_neg hk, ih h]

theorem lookup_eq_none : lookup k l = none ↔ k ∉ l.map Prod.fst := by
  induction l with
  | nil => simp [lookup]
  | cons e l ih =>
    by_cases h : e.1 = k
    · simp [lookup, h]
    · simp [lookup, h, ih, Ne.symm h]

theorem mem_of_lookup {v : υ} (h : lookup k l = some v) : (k, v) ∈ l := by
  induction l with
  | nil => simp [lookup] at h
  | cons e l ih =>
    by_cases he : e.1 = k
    · simp only [lookup, if_pos he, Option.some.injEq] at h
      subst he h
      exact List.mem_cons_self
    · simp only [lookup, if_neg he] at h
      exact List.mem_cons_of_mem _ (ih h)

theorem lookup_of_mem {v : υ} (hn : (l.map Prod.fst).Nodup) (h : (k, v) ∈ l) :
    lookup k l = some v := by
  induction l with
  | nil => simp at h
  | cons e l ih =>
    rw [List.map_cons, List.nodup_cons] at hn
    rcases List.mem_cons.mp h with rfl | h
    · simp [lookup]
    · have hk : e.1 ≠ k := fun e' => hn.1 (e' ▸ List.mem_map_of_mem h)
      simp [lookup, hk, ih hn.2 h]

theorem keys_set (k : κ) (v : υ) (l : List (κ × υ)) :
    (set k v l).map Prod.fst =
      if k ∈ l.map Prod.fst then l.map Prod.fst else l.map Prod.fst ++ [k] := by
  induction l with
  | nil => simp [set]
  | cons e l ih =>
    by_cases h : e.1 = k
    · simp [set, h]
    · by_cases hm : k ∈ l.map Prod.fst
      · simp [set, h, ih, hm]
      · simp [set, h, ih, hm, Ne.symm h]

theorem nodup_set (k : κ) (v : υ) (hn : (l.map Prod.fst).Nodup) :
    ((set k v l).map Prod.fst).Nodup := by
  rw [keys_set]
  split
  · exact hn
  · rename_i h
    exact List.nodup_append.mpr ⟨hn, List.nodup_singleton k, by
      intro a ha b hb
      rw [List.mem_singleton] at hb
      exact fun e => h (hb ▸ e ▸ ha)⟩

theorem set_append_of_not_mem (v : υ) {l' : List (κ × υ)} (h : k ∉ l.map Prod.fst) :
    set k v (l ++ l') = l ++ set k v l' := by
  induction l with
  | nil => rfl
  | cons e l ih =>
    rw [List.map_cons, List.mem_cons, not_or] at h
    simp [set, Ne.symm h.1, ih h.2]

theorem sum_set [AddCommGroup ω] (f : υ → ω) (k : κ) (v : υ) (l : List (κ × υ)) :
    ((set k v l).map (fun e => f e.2)).sum =
      (l.map (fun e => f e.2)).sum - ((lookup k l).map f).getD 0 + f v := by
  induction l with
  | nil => simp [set, lookup]
  | cons e l ih =>
    by_cases h : e.1 = k
    · simp only [set, lookup, if_pos h, List.map_cons, List.sum_cons, Option.map_some,
        Option.getD_some]
      abel
    · simp only [set, lookup, if_neg h, List.map_cons, List.sum_cons, ih]
      abel

end Entries

/-! ## dictionaries -/

/-- a list of entries whose keys differ -/
structure Dict (κ υ : Type) where
  entries : List (κ × υ)
  nodup : (entries.map Prod.fst).Nodup
deriving DecidableEq

namespace Dict

def empty : Dict κ υ := ⟨[], List.nodup_nil⟩

def get? (d : Dict κ υ) (k : κ) : Option υ := Entries.lookup k d.entries

def set (d : Dict κ υ) (k : κ) (v : υ) : Dict κ υ :=
  ⟨Entries.set k v d.entries, Entries.nodup_set k v d.nodup⟩

def keys (d : Dict κ υ) : List κ := d.entries.map Prod.fst

def values (d : Dict κ υ) : List υ := d.entries.map Prod.snd

variable (d : Dict κ υ)

omit [DecidableEq κ] in
theorem ext {d e : Dict κ υ} (h : d.entries = e.entries) : d = e := by
  cases d
  cases e
  simpa using h

@[simp] theorem get?_empty (k : κ) : (empty : Dict κ υ).get? k = none := rfl

@[simp] theorem values_empty : (empty : Dict κ υ).values = [] := rfl

@[simp] theorem get?_set_self (k : κ) (v : υ) : (d.set k v).get? k = some v :=
  Entries.lookup_set_self k v d.entries

variable {k : κ}

theorem get?_set_of_ne {k' : κ} (h : k' ≠ k) (v : υ) : (d.set k v).get? k' = d.get? k' :=
  Entries.lookup_set_of_ne h v d.entries

variable {v : υ}

theorem set_of_get? (h : d.get? k = some v) : d.set k v = d := ext (Entries.set_of_lookup h)

theorem get?_set (k k' : κ) (v : υ) :
    (d.set k v).get? k' = if k' = k then some v else d.get? k' := by
  by_cases h : k' = k
  · rw [if_pos h, h, get?_set_self]
  · rw [if_neg h, get?_set_of_ne d h]

theorem mem_entries_iff : (k, v) ∈ d.entries ↔ d.get? k = some v :=
  ⟨Entries.lookup_of_mem d.nodup, Entries.mem_of_lookup⟩

theorem mem_values_iff : v ∈ d.values ↔ ∃ k, d.get? k = some v := by
  simp only [values, List.mem_map, Prod.exists, exists_eq_right, mem_entries_iff]

theorem mem_keys_iff : k ∈ d.keys ↔ ∃ v, d.get? k = some v := by
  rw [← Option.isSome_iff_exists, ← Option.ne_none_iff_isSome, get?, Ne, Entries.lookup_eq_none,
    not_not]
  rfl

theorem mem_values_set {x : υ} :
    x ∈ (d.set k v).values ↔ x = v ∨ ∃ k', k' ≠ k ∧ d.get? k' = some x := by
  rw [mem_values_iff]
  constructor
  · rintro ⟨k', hk'⟩
    by_cases hk : k' = k
    · rw [hk, get?_set_self, Option.some.injEq] at hk'
      exact Or.inl hk'.symm
    · rw [get?_set_of_ne d hk] at hk'
      exact Or.inr ⟨k', hk, hk'⟩
  · rintro (rfl | ⟨k', hk, hx⟩)
    · exact ⟨k, get?_set_self d k x⟩
    · exact ⟨k', by rw [get?_set_of_ne d hk, hx]⟩

/-- what holds of every entry and of the new one holds after a `set` -/
theorem forall_set {P : κ → υ → Prop} (h : ∀ k' v', d.get? k' = some v' → P k' v')
    (hv : P k v) : ∀ k' v', (d.set k v).get? k' = some v' → P k' v' := by
  intro k' v' h'
  rw [get?_set] at h'
  split at h'
  · rename_i e
    cases h'
    exact e ▸ hv
  · exact h k' v' h'

/-- every value is stored under its own key -/
def Keyed (key : υ → κ) (d : Dict κ υ) : Prop := ∀ k v, d.get? k = some v → key v = k

theorem Keyed.empty {key : υ → κ} : Keyed key (Dict.empty : Dict κ υ) := by
  intro k v h
  cases h

theorem Keyed.set {key : υ → κ} {d : Dict κ υ} (h : Keyed key d) (hk : key v = k) :
    Keyed key (d.set k v) :=
  forall_set d h hk

theorem Keyed.get?_of_mem {key : υ → κ} {d : Dict κ υ} (h : Keyed key d) (hv : v ∈ d.values) :
    d.get? (key v) = some v := by
  obtain ⟨k, hk⟩ := (mem_values_iff d).mp hv
  rwa [h k v hk]

theorem Keyed.map_values {key : υ → κ} {d : Dict κ υ} (h : Keyed key d) :
    d.values.map key = d.keys := by
  rw [values, keys, List.map_map]
  apply List.map_congr_left
  intro entry hentry
  exact h entry.1 entry.2 ((mem_entries_iff d).mp hentry)

theorem Keyed.nodup_values {key : υ → κ} {d : Dict κ υ} (h : Keyed key d) :
    (d.values.map key).Nodup := by
  rw [h.map_values]
  exact d.nodup

/-- a sum over the values changes by the value that was replaced -/
theorem sum_values_set [AddCommGroup ω] (f : υ → ω) (k : κ) (v : υ) :
    ((d.set k v).values.map f).sum =
      (d.values.map f).sum - ((d.get? k).map f).getD 0 + f v := by
  have h := Entries.sum_set f k v d.entries
  simpa only [values, get?, set, List.map_map, Function.comp_def] using h

/-! ## writing a list over a dictionary -/

variable (key : α → κ) (val : α → υ)

/-- `set` for each element, in order -/
def setAll (d : Dict κ υ) (l : List α) : Dict κ υ := l.foldl (fun d a => d.set (key a) (val a)) d

@[simp] theorem setAll_nil : d.setAll key val [] = d := rfl

@[simp] theorem setAll_cons (a : α) (l : List α) :
    d.setAll key val (a :: l) = (d.set (key a) (val a)).setAll key val l := rfl

variable {l : List α}

theorem get?_setAll_of_not_mem (h : k ∉ l.map key) :
    (d.setAll key val l).get? k = d.get? k := by
  induction l generalizing d with
  | nil => rfl
  | cons a l ih =>
    rw [List.map_cons, List.mem_cons, not_or] at h
    rw [setAll_cons, ih _ h.2, get?_set_of_ne d h.1]

/-- an entry after `setAll` is of the list, or was there before -/
theorem get?_setAll_cases (h : (d.setAll key val l).get? k = some v) :
    (∃ a ∈ l, key a = k ∧ v = val a) ∨ d.get? k = some v := by
  induction l generalizing d with
  | nil => exact Or.inr h
  | cons a l ih =>
    rw [setAll_cons] at h
    obtain ⟨b, hb, hv⟩ | h := ih _ h
    · exact Or.inl ⟨b, List.mem_cons_of_mem a hb, hv⟩
    · rw [get?_set] at h
      split at h
      · rename_i hk
        cases h
        exact Or.inl ⟨a, List.mem_cons_self, hk.symm, rfl⟩
      · exact Or.inr h

theorem get?_setAll_of_mem (hn : (l.map key).Nodup) {a : α} (ha : a ∈ l) :
    (d.setAll key val l).get? (key a) = some (val a) := by
  induction l generalizing d with
  | nil => simp at ha
  | cons b l ih =>
    rw [List.map_cons, List.nodup_cons] at hn
    rw [setAll_cons]
    rcases List.mem_cons.mp ha with rfl | ha
    · rw [get?_setAll_of_not_mem _ key val hn.1, get?_set_self]
    · exact ih _ hn.2 ha

/-- a dictionary whose keys are the leading keys of the list ends up with exactly the list -/
theorem setAll_entries (hn : (l.map key).Nodup) (hp : d.keys <+: l.map key) :
    (d.setAll key val l).entries = l.map (fun a => (key a, val a)) := by
  -- the entries already written stay in front of those still to come
  suffices h : ∀ (todo : List α) (pre rest : List (κ × υ)) (d : Dict κ υ),
      d.entries = pre ++ rest → (∀ k ∈ pre.map Prod.fst, k ∉ todo.map key) →
      rest.map Prod.fst <+: todo.map key → (todo.map key).Nodup →
      (d.setAll key val todo).entries = pre ++ todo.map (fun a => (key a, val a)) from
    h l [] d.entries d rfl (by simp) hp hn
  intro todo
  induction todo with
  | nil =>
    intro pre rest d hd _ hr _
    have : rest = [] := by simpa using hr
    simp [hd, this]
  | cons a todo ih =>
    intro pre rest d hd hpre hr hn
    rw [List.map_cons, List.nodup_cons] at hn
    have ha : key a ∉ pre.map Prod.fst := fun h => hpre _ h (by simp)
    have hset : (d.set (key a) (val a)).entries = (pre ++ [(key a, val a)]) ++ rest.tail := by
      show Entries.set _ _ d.entries = _
      rw [hd, Entries.set_append_of_not_mem _ ha]
      cases rest with
      | nil => simp [Entries.set]
      | cons e rest =>
        rw [List.map_cons, List.map_cons, List.cons_prefix_cons] at hr
        simp [Entries.set, hr.1]
    rw [setAll_cons, ih (pre ++ [(key a, val a)]) rest.tail _ hset ?_ ?_ hn.2]
    · simp
    · intro k hk
      rw [List.map_append, List.mem_append] at hk
      rcases hk with hk | hk
      · exact fun h => hpre k hk (by simp only [List.map_cons, List.mem_cons]; exact Or.inr h)
      · have : k = key a := by simpa using hk
        exact this ▸ hn.1
    · cases rest with
      | nil => simp
      | cons e rest =>
        rw [List.map_cons, List.map_cons, List.cons_prefix_cons] at hr
        exact hr.2

theorem entries_nodup : d.entries.Nodup := List.Nodup.of_map _ d.nodup

theorem values_setAll_perm (hn : (l.map key).Nodup) (hk : ∀ k ∈ d.keys, k ∈ l.map key) :
    (d.setAll key val l).values.Perm (l.map val) := by
  have hpairs : (l.map (fun a => (key a, val a))).Nodup :=
    List.Nodup.of_map Prod.fst (by rw [List.map_map]; exact hn)
  have hperm : (d.setAll key val l).entries.Perm (l.map (fun a => (key a, val a))) := by
    refine (List.perm_ext_iff_of_nodup (entries_nodup _) hpairs).mpr ?_
    rintro ⟨k, v⟩
    rw [mem_entries_iff, List.mem_map]
    constructor
    · intro h
      -- the key is one of the list, and the list has the last word on it
      have hmem : k ∈ l.map key := by
        obtain ⟨a, ha, rfl, -⟩ | h := get?_setAll_cases _ _ _ h
        · exact List.mem_map_of_mem ha
        · exact hk k ((mem_keys_iff _).mpr ⟨v, h⟩)
      obtain ⟨a, ha, rfl⟩ := List.mem_map.mp hmem
      rw [get?_setAll_of_mem _ _ _ hn ha, Option.some.injEq] at h
      exact ⟨a, ha, by rw [h]⟩
    · rintro ⟨a, ha, hkv⟩
      cases hkv
      exact get?_setAll_of_mem _ _ _ hn ha
  have hvalues := hperm.map Prod.snd
  rwa [List.map_map] at hvalues

/-! ## tables that only move on -/

/-- every entry is still there, with a value that `R` relates to the old one -/
def Kept (R : υ → υ → Prop) (d d' : Dict κ υ) : Prop :=
  ∀ k v, d.get? k = some v → ∃ v', d'.get? k = some v' ∧ R v v'

variable {R : υ → υ → Prop} {d d₁ d₂ : Dict κ υ}

theorem Kept.refl (hR : ∀ v, R v v) (d : Dict κ υ) : Kept R d d := by
  intro k v h
  exact ⟨v, h, hR v⟩

theorem Kept.trans (hR : ∀ a b c, R a b → R b c → R a c) (h : Kept R d d₁) (h' : Kept R d₁ d₂) :
    Kept R d d₂ := by
  intro k v hv
  obtain ⟨v₁, hv₁, hR₁⟩ := h k v hv
  obtain ⟨v₂, hv₂, hR₂⟩ := h' k v₁ hv₁
  exact ⟨v₂, hv₂, hR v v₁ v₂ hR₁ hR₂⟩

theorem Kept.set (hR : ∀ v, R v v) {x : υ} (h : ∀ v, d.get? k = some v → R v x) :
    Kept R d (d.set k x) := by
  intro k' v hv
  by_cases hk : k' = k
  · rw [hk] at hv ⊢
    exact ⟨x, get?_set_self d k x, h v hv⟩
  · exact ⟨v, by rw [get?_set_of_ne d hk, hv], hR v⟩

theorem Kept.set_old (hR : ∀ v, R v v) {x : υ} (h : d.get? k = some v) (hx : R v x) :
    Kept R d (d.set k x) := by
  refine .set hR fun v' hv => ?_
  rw [h, Option.some.injEq] at hv
  exact hv ▸ hx

theorem Kept.set_new (hR : ∀ v, R v v) {x : υ} (h : d.get? k = none) : Kept R d (d.set k x) := by
  refine .set hR fun v hv => ?_
  rw [h] at hv
  cases hv

/-- no two entries share `f` -/
def Unique (f : υ → α) (d : Dict κ υ) : Prop :=
  ∀ k k' v v', d.get? k = some v → d.get? k' = some v' → f v = f v' → k = k'

variable {f : υ → α} {x : υ}

theorem Unique.empty : (Dict.empty : Dict κ υ).Unique f := by
  intro k k' v v' h
  cases h

theorem Unique.insert (h : d.Unique f) (hx : ∀ k' v, k' ≠ k → d.get? k' = some v → f v ≠ f x) :
    (d.set k x).Unique f := by
  intro a b v w ha hb hf
  by_cases hak : a = k
  · by_cases hbk : b = k
    · rw [hak, hbk]
    · rw [hak, get?_set_self, Option.some.injEq] at ha
      rw [get?_set_of_ne d hbk] at hb
      exact absurd (ha ▸ hf.symm) (hx b w hbk hb)
  · rw [get?_set_of_ne d hak] at ha
    by_cases hbk : b = k
    · rw [hbk, get?_set_self, Option.some.injEq] at hb
      exact absurd (hb ▸ hf) (hx a v hak ha)
    · rw [get?_set_of_ne d hbk] at hb
      exact h a b v w ha hb hf

theorem Unique.update (h : d.Unique f) (hv : d.get? k = some v) (hx : f x = f v) :
    (d.set k x).Unique f := by
  refine h.insert fun k' w hk hw he => hk ?_
  exact h k' k w v hw hv (he.trans hx)

end Dict

/-- the same value, or a related one of a higher version -/
def Later {υ : Type} (version : υ → Nat) (same : υ → υ → Prop) (a b : υ) : Prop :=
  b = a ∨ version a < version b ∧ same a b

section
variable {υ : Type} {version : υ → Nat} {same : υ → υ → Prop}

theorem Later.refl (a : υ) : Later version same a a := Or.inl rfl

theorem Later.trans (hs : ∀ a b c, same a b → same b c → same a c) (a b c : υ)
    (h : Later version same a b) (h' : Later version same b c) : Later version same a c := by
  obtain rfl | ⟨hv, hab⟩ := h
  · exact h'
  · obtain rfl | ⟨hv', hbc⟩ := h'
    · exact Or.inr ⟨hv, hab⟩
    · exact Or.inr ⟨by omega, hs a b c hab hbc⟩

end

end Lib
