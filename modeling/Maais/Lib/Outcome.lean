import Mathlib.Tactic.Common

/-!
# Calls that keep their effects when they raise

A call ends in a state and returns or raises; what it did before it raised stays done.

* `Outcome.andThen`  go on from where a call returned;
* `Outcome.Ends`  an invariant of every end, with a postcondition of the ends that return;
* `Outcome.Alike`  two calls end in related states, and both return or both raise.
-/

namespace Lib

variable {σ τ ε α β : Type}

abbrev Outcome (σ ε α : Type) := σ × Except ε α

namespace Outcome

def andThen (t : Outcome σ ε α) (f : σ → α → Outcome σ ε β) : Outcome σ ε β :=
  match t.2 with
  | .error e => (t.1, .error e)
  | .ok a => f t.1 a

theorem ok_andThen (s : σ) (a : α) (f : σ → α → Outcome σ ε β) : andThen (s, .ok a) f = f s a := rfl

/-- a call without effect -/
def attempt (s : σ) (x : Except ε α) : Outcome σ ε α := (s, x)

/-- `I` of every end, `Q` of the ends that return -/
def Ends (I : σ → Prop) (Q : σ → α → Prop) (t : Outcome σ ε α) : Prop := I t.1 ∧
    ∀ a, t.2 = .ok a → Q t.1 a

variable {I : σ → Prop} {Q : σ → α → Prop}

theorem Ends.andThen {R : σ → β → Prop} {t : Outcome σ ε α}
    {f : σ → α → Outcome σ ε β} (h : Ends I Q t) (hf : ∀ s a, I s → Q s a → Ends I R (f s a)) :
    Ends I R (t.andThen f) := by
  obtain ⟨s, x⟩ := t
  cases x with
  | error e => exact ⟨h.1, fun _ hb => nomatch hb⟩
  | ok a => exact hf s a h.1 (h.2 a rfl)

theorem Ends.attempt {s : σ} {x : Except ε α} (hs : I s) :
    Ends I (fun s' a => s' = s ∧ x = .ok a) (Outcome.attempt s x) :=
  ⟨hs, fun _ ha => ⟨rfl, ha⟩⟩

theorem Ends.pure {s : σ} {a : α} (hs : I s) (hq : Q s a) :
    Ends I Q ((s, .ok a) : Outcome σ ε α) :=
  ⟨hs, fun _ h => by cases h; exact hq⟩

theorem Ends.raise {s : σ} {e : ε} (hs : I s) :
    Ends I Q ((s, .error e) : Outcome σ ε α) :=
  ⟨hs, fun _ h => nomatch h⟩

/-- related ends: of two calls that return related values, or raise the same exception -/
inductive Alike (S : σ → τ → Prop) (R : α → β → Prop) : Outcome σ ε α → Outcome τ ε β → Prop
  | ok {s : σ} {t : τ} {a : α} {b : β} : S s t → R a b → Alike S R (s, .ok a) (t, .ok b)
  | error {s : σ} {t : τ} {e : ε} : S s t → Alike S R (s, .error e) (t, .error e)

theorem Alike.andThen {S : σ → τ → Prop} {α' β' : Type} {R : α → β → Prop} {R' : α' → β' → Prop}
    {x : Outcome σ ε α} {y : Outcome τ ε β} {f : σ → α → Outcome σ ε α'}
    {g : τ → β → Outcome τ ε β'} (h : Alike S R x y)
    (hf : ∀ s t a b, S s t → R a b → Alike S R' (f s a) (g t b)) :
    Alike S R' (x.andThen f) (y.andThen g) := by
  cases h with
  | ok hs hr => exact hf _ _ _ _ hs hr
  | error hs => exact .error hs

/-- the second call goes on where the first has returned -/
theorem Alike.then_right {S : σ → τ → Prop} {β' : Type} {R : α → β → Prop} {R' : α → β' → Prop}
    {x : Outcome σ ε α} {y : Outcome τ ε β} {g : τ → β → Outcome τ ε β'} (h : Alike S R x y)
    (hg : ∀ s t a b, S s t → R a b → Alike S R' (s, .ok a) (g t b)) :
    Alike S R' x (y.andThen g) := by
  cases h with
  | ok hs hr => exact hg _ _ _ _ hs hr
  | error hs => exact .error hs

theorem Alike.attempt {S : σ → τ → Prop} {s : σ} {t : τ} {x : Except ε α} {α' β' : Type}
    {R : α' → β' → Prop} {f : σ → α → Outcome σ ε α'} {g : τ → α → Outcome τ ε β'} (h : S s t)
    (hf : ∀ a, x = .ok a → Alike S R (f s a) (g t a)) :
    Alike S R ((Outcome.attempt s x).andThen f) ((Outcome.attempt t x).andThen g) := by
  cases x with
  | ok a => exact hf a rfl
  | error e => exact .error h

end Outcome

end Lib
