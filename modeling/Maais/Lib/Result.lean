import Mathlib.Data.List.Forall2
import Mathlib.Tactic.Common

/-!
# Computations that may raise

A function that may raise returns `Except ε α`.  `raiseIf c e` is the guard `if c: raise e`; a body
is a chain of guards and calls joined by `bind`.

* `bind_eq_ok`, `bind_eq_error`  what a chain returned, or where it raised;
* `raiseIf_eq_ok`, `raiseIf_eq_error`  the same for one guard;
* `RaisesOnly`  which errors a chain may raise, read off its parts;
* `foldlM_ok_inv`, `mapM_eq_ok`  loops: what every turn keeps, and what a loop that returned has
  done.
-/

namespace Lib

variable {ε α β σ : Type}

/-- the guard `if c: raise e` -/
def raiseIf (c : Prop) [Decidable c] (e : ε) : Except ε Unit :=
  if c then .error e else .ok ()

variable {c : Prop}

theorem raiseIf_pos [Decidable c] (e : ε) (h : c) : raiseIf c e = .error e := if_pos h

theorem raiseIf_neg [Decidable c] (e : ε) (h : ¬ c) : raiseIf c e = .ok () := if_neg h

@[simp] theorem raiseIf_eq_ok [Decidable c] {e : ε} {u : Unit} :
    raiseIf c e = .ok u ↔ ¬ c := by
  by_cases h : c
  · rw [raiseIf_pos e h]
    simp [h]
  · rw [raiseIf_neg e h]
    simp [h]

@[simp] theorem raiseIf_eq_error [Decidable c] {e e' : ε} :
    raiseIf c e = .error e' ↔ c ∧ e = e' := by
  by_cases h : c
  · rw [raiseIf_pos e h]
    simp [h]
  · rw [raiseIf_neg e h]
    simp [h]

/-! ## chains -/

@[simp] theorem ok_bind (a : α) (f : α → Except ε β) : (Except.ok a >>= f) = f a := rfl

@[simp] theorem error_bind (e : ε) (f : α → Except ε β) :
    ((Except.error e : Except ε α) >>= f) = .error e := rfl

@[simp] theorem pure_eq_ok (a : α) : (pure a : Except ε α) = .ok a := rfl

theorem pure_ok_iff {a b : α} : (pure a : Except ε α) = .ok b ↔ a = b := by
  rw [pure_eq_ok, Except.ok.injEq]

/-- a chain that returned: its first part returned, and so did the rest -/
theorem bind_eq_ok {x : Except ε α} {f : α → Except ε β} {b : β} :
    (x >>= f) = .ok b ↔ ∃ a, x = .ok a ∧ f a = .ok b := by
  cases x with
  | error e => simp
  | ok a => simp

theorem bind_eq_error {x : Except ε α} {f : α → Except ε β} {e : ε} :
    (x >>= f) = .error e ↔ x = .error e ∨ ∃ a, x = .ok a ∧ f a = .error e := by
  cases x with
  | error e' => simp
  | ok a => simp

theorem raiseIf_bind_eq_ok [Decidable c] {e : ε} {f : Unit → Except ε β} {b : β} :
    (raiseIf c e >>= f) = .ok b ↔ ¬ c ∧ f () = .ok b := by
  rw [bind_eq_ok]
  constructor
  · rintro ⟨u, h, hf⟩
    exact ⟨raiseIf_eq_ok.mp h, hf⟩
  · rintro ⟨h, hf⟩
    exact ⟨(), raiseIf_eq_ok.mpr h, hf⟩

theorem raiseIf_bind_pos [Decidable c] {e : ε} {f : Unit → Except ε β} (h : c) :
    (raiseIf c e >>= f) = .error e := by
  rw [raiseIf_pos e h]
  rfl

theorem raiseIf_bind_neg [Decidable c] {e : ε} {f : Unit → Except ε β} (h : ¬ c) :
    (raiseIf c e >>= f) = f () := by
  rw [raiseIf_neg e h]
  rfl

theorem raiseIf_not_bind [Decidable ¬c] {e : ε} {f : Unit → Except ε β} (h : c) :
    (raiseIf (¬c) e >>= f) = f () :=
  raiseIf_bind_neg (not_not.mpr h)

/-- the value that must be there -/
def orRaise (o : Option α) (e : ε) : Except ε α :=
  match o with
  | some a => .ok a
  | none => .error e

@[simp] theorem orRaise_some (a : α) (e : ε) : orRaise (some a) e = .ok a := rfl

@[simp] theorem orRaise_none (e : ε) : orRaise (none : Option α) e = .error e := rfl

@[simp] theorem orRaise_eq_ok {o : Option α} {e : ε} {a : α} :
    orRaise o e = .ok a ↔ o = some a := by
  cases o <;> simp [orRaise]

def raises (x : Except ε α) : Prop := ∃ e, x = .error e

theorem not_raises_iff {x : Except ε α} : ¬ raises x ↔ ∃ a, x = .ok a := by
  cases x with
  | error e => simp [raises]
  | ok a => simp [raises]

theorem eq_ok_of_toOption {x : Except ε α} {a : α} (h : x.toOption = some a) : x = .ok a := by
  cases x with
  | error e => cases h
  | ok b =>
    cases h
    rfl

theorem exists_ok_of_any {x : Except ε α} {p : α → Bool} (h : x.toOption.any p = true) :
    ∃ a, x = .ok a ∧ p a = true := by
  cases x with
  | error e => cases h
  | ok a => exact ⟨a, rfl, h⟩

/-! ## which errors -/

/-- every error the call may raise is of the kind `P` -/
def RaisesOnly (P : ε → Prop) (x : Except ε α) : Prop := ∀ e, x = .error e → P e

namespace RaisesOnly

variable {P : ε → Prop} {x : Except ε α} {f : α → Except ε β} {e : ε}

theorem ok {a : α} : RaisesOnly P (Except.ok a : Except ε α) := fun _ h => nomatch h

theorem error (he : P e) : RaisesOnly P (Except.error e : Except ε α) := by
  intro e' h
  cases h
  exact he

theorem bind_ok (hx : RaisesOnly P x) (hf : ∀ a, x = .ok a → RaisesOnly P (f a)) :
    RaisesOnly P (x >>= f) := by
  intro e h
  rcases bind_eq_error.mp h with h | ⟨a, ha, h⟩
  · exact hx e h
  · exact hf a ha e h

theorem bind (hx : RaisesOnly P x) (hf : ∀ a, RaisesOnly P (f a)) : RaisesOnly P (x >>= f) :=
  hx.bind_ok fun a _ => hf a

theorem raiseIf {c : Prop} [Decidable c] (he : P e) : RaisesOnly P (Lib.raiseIf c e) := by
  intro e' h
  obtain ⟨_, rfl⟩ := raiseIf_eq_error.mp h
  exact he

/-- a guard and what follows it -/
theorem guard {c : Prop} [Decidable c] {f : Unit → Except ε β} (he : P e)
    (hf : RaisesOnly P (f ())) : RaisesOnly P (Lib.raiseIf c e >>= f) :=
  (RaisesOnly.raiseIf he).bind fun _ => hf

theorem orRaise {o : Option α} (he : P e) : RaisesOnly P (Lib.orRaise o e) := by
  cases o with
  | none => exact .error he
  | some a => exact .ok

variable {g : σ → α → Except ε σ}

theorem foldlM_mem {l : List α} {s : σ} (hg : ∀ a ∈ l, ∀ s, RaisesOnly P (g s a)) :
    RaisesOnly P (l.foldlM g s) := by
  induction l generalizing s with
  | nil => exact .ok
  | cons a l ih =>
    rw [List.foldlM_cons]
    exact (hg a List.mem_cons_self s).bind fun _ => ih fun b hb => hg b (List.mem_cons_of_mem a hb)

theorem foldlM {l : List α} {s : σ} (hg : ∀ s a, RaisesOnly P (g s a)) :
    RaisesOnly P (l.foldlM g s) :=
  foldlM_mem fun a _ s => hg s a

theorem mapM {g : α → Except ε β} {l : List α} (hg : ∀ a, RaisesOnly P (g a)) :
    RaisesOnly P (l.mapM g) := by
  induction l with
  | nil => exact .ok
  | cons a l ih =>
    rw [List.mapM_cons]
    exact (hg a).bind fun _ => ih.bind fun _ => .ok

end RaisesOnly

/-! ## loops -/

variable {l : List α}

/-- a loop body that keeps `I` on every turn that returns keeps it over the whole loop -/
theorem foldlM_ok_inv {I : σ → Prop} {f : σ → α → Except ε σ} {s t : σ}
    (hstep : ∀ a ∈ l, ∀ s t, I s → f s a = .ok t → I t) (hs : I s)
    (h : l.foldlM f s = .ok t) : I t := by
  induction l generalizing s with
  | nil =>
    rw [List.foldlM_nil, pure_eq_ok, Except.ok.injEq] at h
    exact h ▸ hs
  | cons a l ih =>
    rw [List.foldlM_cons, bind_eq_ok] at h
    obtain ⟨s', hs', h⟩ := h
    have hI := hstep a List.mem_cons_self s s' hs hs'
    exact ih (fun b hb => hstep b (List.mem_cons_of_mem a hb)) hI h

theorem forM_eq_ok {f : α → Except ε Unit} : l.forM f = .ok () ↔ ∀ a ∈ l, f a = .ok () := by
  induction l with
  | nil => exact iff_of_true rfl fun a ha => nomatch ha
  | cons a l ih =>
    rw [List.forall_mem_cons, ← ih]
    show (f a >>= fun _ => l.forM f) = .ok () ↔ _
    rw [bind_eq_ok]
    exact ⟨fun ⟨_, ha, hl⟩ => ⟨ha, hl⟩, fun ⟨ha, hl⟩ => ⟨(), ha, hl⟩⟩

variable {l' : List β}

/-- a loop returned: every element gave its result -/
theorem mapM_eq_ok {f : α → Except ε β} :
    l.mapM f = .ok l' ↔ List.Forall₂ (fun a b => f a = .ok b) l l' := by
  induction l generalizing l' with
  | nil =>
    rw [List.mapM_nil, pure_eq_ok, Except.ok.injEq, List.forall₂_nil_left_iff]
    exact eq_comm
  | cons a l ih =>
    simp only [List.mapM_cons, bind_eq_ok, pure_eq_ok, Except.ok.injEq,
      List.forall₂_cons_left_iff, ih]
    constructor
    · rintro ⟨b, hb, bs, hbs, rfl⟩
      exact ⟨b, bs, hb, hbs, rfl⟩
    · rintro ⟨b, bs, hb, hbs, rfl⟩
      exact ⟨b, hb, bs, hbs, rfl⟩

theorem mapM_eq_error {f : α → Except ε β} {e : ε} (h : l.mapM f = .error e) :
    ∃ a ∈ l, f a = .error e := by
  induction l with
  | nil => cases h
  | cons a l ih =>
    rw [List.mapM_cons, bind_eq_error] at h
    rcases h with h | ⟨b, _, h⟩
    · exact ⟨a, List.mem_cons_self, h⟩
    · rcases bind_eq_error.mp h with h | ⟨_, _, h⟩
      · obtain ⟨a', ha', he⟩ := ih h
        exact ⟨a', List.mem_cons_of_mem a ha', he⟩
      · cases h

variable {R : α → β → Prop}

theorem forall₂_mem_right (h : List.Forall₂ R l l') {b : β} (hb : b ∈ l') : ∃ a ∈ l, R a b := by
  induction h with
  | nil => cases hb
  | @cons a b' l l' hR _ ih =>
    rcases List.mem_cons.mp hb with rfl | hb
    · exact ⟨a, List.mem_cons_self, hR⟩
    · obtain ⟨x, hx, hxb⟩ := ih hb
      exact ⟨x, List.mem_cons_of_mem a hx, hxb⟩

theorem forall₂_map_eq {γ : Type} {f : α → γ} {g : β → γ}
    (h : List.Forall₂ R l l') (hR : ∀ a b, R a b → f a = g b) : l.map f = l'.map g := by
  induction h with
  | nil => rfl
  | cons hab _ ih => rw [List.map_cons, List.map_cons, hR _ _ hab, ih]

end Lib
