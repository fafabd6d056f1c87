import Mathlib.Tactic.Common

/-!
# Runs of a total step function

A step takes the state and an input to the next state; a run is a list of inputs.

* `run_inv`  what every step keeps holds along the whole run;
* `run_inv_of`  the same when only the steps that meet a condition keep it;
* `Reachable`  the states of all runs from a start.
-/

namespace Lib

variable {α σ : Type} (step : σ → α → σ)

/-- the state after the inputs, taken one by one -/
def run (s : σ) (l : List α) : σ := l.foldl step s

@[simp] theorem run_nil (s : σ) : run step s [] = s := rfl

@[simp] theorem run_cons (s : σ) (a : α) (l : List α) :
    run step s (a :: l) = run step (step s a) l := rfl

theorem run_append (s : σ) (l l' : List α) : run step s (l ++ l') = run step (run step s l) l' :=
  List.foldl_append

/-- every input of the run meets `ok` in the state it is taken in -/
def AllSteps (ok : σ → α → Prop) : σ → List α → Prop
  | _, [] => True
  | s, a :: l => ok s a ∧ AllSteps ok (step s a) l

instance AllSteps.decidable {ok : σ → α → Prop} [∀ s a, Decidable (ok s a)] :
    ∀ (s : σ) (l : List α), Decidable (AllSteps step ok s l)
  | _, [] => .isTrue trivial
  | s, a :: l => @instDecidableAnd _ _ _ (AllSteps.decidable (step s a) l)

variable {I : σ → Prop} {ok : σ → α → Prop} {s : σ} {l : List α}

/-- what every allowed step keeps, a run of allowed steps keeps -/
theorem run_inv_of (hstep : ∀ s a, I s → ok s a → I (step s a)) (hs : I s)
    (hok : AllSteps step ok s l) : I (run step s l) := by
  induction l generalizing s with
  | nil => exact hs
  | cons a l ih => exact ih (hstep s a hs hok.1) hok.2

theorem AllSteps.append {l' : List α} :
    AllSteps step ok s (l ++ l') ↔ AllSteps step ok s l ∧ AllSteps step ok (run step s l) l' := by
  induction l generalizing s with
  | nil => exact (and_iff_right trivial).symm
  | cons a l ih => exact (and_congr_right fun _ => ih).trans and_assoc.symm

variable {Q : σ → α → Prop}

/-- a condition that an invariant implies is met by every step -/
theorem AllSteps.of_inv (hstep : ∀ s a, I s → ok s a → I (step s a))
    (hQ : ∀ s a, I s → ok s a → Q s a) (hs : I s) (hok : AllSteps step ok s l) :
    AllSteps step Q s l := by
  induction l generalizing s with
  | nil => trivial
  | cons a l ih => exact ⟨hQ s a hs hok.1, ih (hstep s a hs hok.1) hok.2⟩

theorem run_inv (hstep : ∀ s a, I s → I (step s a)) (hs : I s) (l : List α) :
    I (run step s l) := by
  induction l generalizing s with
  | nil => exact hs
  | cons a l ih => exact ih (hstep s a hs)

theorem AllSteps.of_kept (hstep : ∀ s a, I s → I (step s a))
    (hQ : ∀ s a, I s → Q s a) (hs : I s) (l : List α) : AllSteps step Q s l := by
  induction l generalizing s with
  | nil => trivial
  | cons a l ih => exact ⟨hQ s a hs, ih (hstep s a hs)⟩

theorem AllSteps.congr {P : σ → α → Prop} (hstep : ∀ s a, I s → ok s a → I (step s a))
    (hPQ : ∀ s a, I s → ok s a → (P s a ↔ Q s a)) (hs : I s) (hok : AllSteps step ok s l) :
    AllSteps step P s l ↔ AllSteps step Q s l := by
  induction l generalizing s with
  | nil => exact Iff.rfl
  | cons a l ih => exact and_congr (hPQ s a hs hok.1) (ih (hstep s a hs hok.1) hok.2)

/-- the end of some run -/
def Reachable (s₀ s : σ) : Prop := ∃ l, s = run step s₀ l

theorem Reachable.inv (hstep : ∀ s a, I s → I (step s a)) {s₀ : σ} (h₀ : I s₀)
    (h : Reachable step s₀ s) : I s := by
  obtain ⟨l, rfl⟩ := h
  exact run_inv step hstep h₀ l

end Lib
