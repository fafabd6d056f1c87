import Maais.Lib.Run
import Maais.Paper.Exits

/-!
# The life of an exit plan

Any sequence of the six operations that change a plan, as far as none raises.

* `call_steps`  what one operation can do: nothing, change an active plan, trigger it, or close a
  triggered one;
* `exit_plan_kept`  over whole runs: the stop only tightens, the plan triggers once, what the
  trigger wrote stays, and the version moves with every change.

A closed plan keeps the data of its trigger, but `pending_intent` refuses it: the intent is pending
only as long as the plan is triggered.
-/

namespace Maais
open Lib

inductive ExitCall
  | evaluateMark (markPrice : ℚ) (observedAt : Time) (executablePrice : Option ℚ)
  | observeClosedBar (decisionDirection : Direction) (decisionApproved : Bool) (closedAt : Time)
    (executablePrice : ℚ)
  | resize (quantity averageEntry : ℚ) (changedAt : Time)
  | tightenStop (stopPrice : ℚ) (changedAt : Time)
  | emergencyFlatten (triggeredAt : Time) (executablePrice : ℚ)
  | close (closedAt : Time)

namespace ExitPlan

def call (A : Arith) (plan : ExitPlan) : ExitCall → Py ExitEvaluation
  | .evaluateMark mark t exec => plan.evaluateMark mark t exec
  | .observeClosedBar d approved t exec => plan.observeClosedBar d approved t exec
  | .resize n avg t => do return ⟨← plan.resize A n avg t, none⟩
  | .tightenStop stop t => do return ⟨← plan.tightenStop stop t, none⟩
  | .emergencyFlatten t exec => plan.emergencyFlatten t exec
  | .close t => do return ⟨← plan.close t, none⟩

def perform (A : Arith) : ExitPlan → List ExitCall → Py (List ExitEvaluation)
  | _, [] => .ok []
  | plan, c :: calls => do
    let e ← plan.call A c
    let rest ← e.plan.perform A calls
    return e :: rest

/-! ## one operation -/

/-- a stop moves towards the price only -/
def Tightens : Direction → ℚ → ℚ → Prop
  | .long, before, after => before ≤ after
  | .short, before, after => after ≤ before
  | .neutral, _, _ => True

theorem Tightens.refl (side : Direction) (x : ℚ) : Tightens side x x := by
  cases side with
  | long => exact le_rfl
  | short => exact le_rfl
  | neutral => trivial

theorem Tightens.trans {side : Direction} {x y z : ℚ} (h : Tightens side x y)
    (h' : Tightens side y z) : Tightens side x z := by
  cases side with
  | long => exact le_trans h h'
  | short => exact le_trans h' h
  | neutral => trivial

structure SameTrigger (p q : ExitPlan) : Prop where
  positionId : q.positionId = p.positionId
  side : q.side = p.side
  quantity : q.quantity = p.quantity
  stopPrice : q.stopPrice = p.stopPrice
  triggerReason : q.triggerReason = p.triggerReason
  triggeredAt : q.triggeredAt = p.triggeredAt
  triggerPrice : q.triggerPrice = p.triggerPrice
  triggerExecutablePrice : q.triggerExecutablePrice = p.triggerExecutablePrice

inductive Step (p : ExitPlan) : ExitEvaluation → Prop
  | idle (active : p.status = .active) : Step p ⟨p, none⟩
  | changed (q : ExitPlan) (active : p.status = .active) (status : q.status = .active)
      (side : q.side = p.side) (stop : Tightens p.side p.stopPrice q.stopPrice)
      (version : p.version < q.version) : Step p ⟨q, none⟩
  | triggers (q : ExitPlan) (i : ExitIntent) (active : p.status = .active)
      (status : q.status = .triggered) (side : q.side = p.side) (stop : q.stopPrice = p.stopPrice)
      (version : p.version < q.version) (pending : q.pendingIntent = .ok i) : Step p ⟨q, some i⟩
  | closes (q : ExitPlan) (triggered : p.status = .triggered) (status : q.status = .closed)
      (same : SameTrigger p q) (version : p.version < q.version) : Step p ⟨q, none⟩

section
variable {A : Arith} {plan : ExitPlan}

theorem pendingIntent_triggered (reason : ExitReason) (t : Time) (price : Option ℚ) (exec : ℚ) :
    (plan.triggered reason t price exec).pendingIntent = .ok (plan.intentFor reason t price) := by
  simp [pendingIntent, triggered, intentFor, raiseIf]

theorem triggered_steps {p : ExitPlan} (reason : ExitReason) (t : Time) (price : Option ℚ)
    (exec : ℚ) (ha : p.status = .active) (hside : plan.side = p.side)
    (hstop : plan.stopPrice = p.stopPrice) (hversion : p.version ≤ plan.version) :
    Step p ⟨plan.triggered reason t price exec, some (plan.intentFor reason t price)⟩ :=
  .triggers _ _ ha rfl hside hstop (Nat.lt_succ_of_le hversion)
    (pendingIntent_triggered reason t price exec)

variable {e : ExitEvaluation} {t : Time}

theorem observeClosedBar_steps {d : Direction} {approved : Bool} {exec : ℚ}
    (h : plan.observeClosedBar d approved t exec = .ok e) : Step plan e := by
  simp only [observeClosedBar, requireActive, bind_eq_ok, raiseIf_eq_ok, ne_eq, not_not] at h
  obtain ⟨_, ha, _, _, q, hq, h⟩ := h
  rw [postInit_eq hq] at h
  unfold afterBar at h
  split at h
  · rw [trigger_eq h]
    exact triggered_steps _ _ _ _ ha rfl rfl (Nat.le_succ _)
  · cases h
    exact .changed _ ha ha rfl (.refl _ _) (Nat.lt_succ_self _)

theorem resize_steps {n avg : ℚ} {q : ExitPlan} (h : plan.resize A n avg t = .ok q) :
    Step plan ⟨q, none⟩ := by
  obtain ⟨hsteps, hstatus, _⟩ := resize_eq h
  simp only [resize, requireActive, bind_eq_ok, raiseIf_eq_ok, ne_eq, not_not] at h
  obtain ⟨_, ha, _, _, _, _, h⟩ := h
  refine .changed q ha hstatus hsteps.side ?_ hsteps.version
  rw [postInit_eq h]
  cases hs : plan.side with
  | long => exact le_max_left _ _
  | short => exact min_le_left _ _
  | neutral => trivial

theorem tightenStop_steps {stop : ℚ} {q : ExitPlan} (h : plan.tightenStop stop t = .ok q) :
    Step plan ⟨q, none⟩ := by
  simp only [tightenStop, requireActive, bind_eq_ok, raiseIf_eq_ok, ne_eq, not_not] at h
  obtain ⟨_, ha, _, _, _, haway, h⟩ := h
  rw [postInit_eq h]
  refine .changed _ ha ha rfl ?_ (Nat.lt_succ_self _)
  cases hs : plan.side with
  | long => exact not_lt.mp fun hlt => haway (Or.inl ⟨hs, hlt⟩)
  | short => exact not_lt.mp fun hlt => haway (Or.inr ⟨hs, hlt⟩)
  | neutral => trivial

theorem call_steps {c : ExitCall} (h : plan.call A c = .ok e) : Step plan e := by
  cases c with
  | evaluateMark mark t exec =>
    obtain ⟨ha, _, ⟨_, rfl⟩ | ⟨reason, _, rfl⟩⟩ := evaluateMark_cases h
    · exact .idle ha
    · exact triggered_steps _ _ _ _ ha rfl rfl le_rfl
  | observeClosedBar d approved t exec => exact observeClosedBar_steps h
  | resize n avg t =>
    simp only [call, bind_eq_ok, pure_ok_iff] at h
    obtain ⟨q, hq, rfl⟩ := h
    exact resize_steps hq
  | tightenStop stop t =>
    simp only [call, bind_eq_ok, pure_ok_iff] at h
    obtain ⟨q, hq, rfl⟩ := h
    exact tightenStop_steps hq
  | emergencyFlatten t exec =>
    obtain ⟨ha, rfl⟩ := emergencyFlatten_eq h
    exact triggered_steps _ _ _ _ ha rfl rfl le_rfl
  | close t =>
    simp only [call, bind_eq_ok, pure_ok_iff] at h
    obtain ⟨q, hq, rfl⟩ := h
    obtain ⟨ht, rfl⟩ := close_eq hq
    exact .closes _ ht rfl ⟨rfl, rfl, rfl, rfl, rfl, rfl, rfl, rfl⟩ (Nat.lt_succ_self _)

/-! ## runs -/

def Steps (plan : ExitPlan) (es : List ExitEvaluation) : Prop :=
  AllSteps (fun _ (e : ExitEvaluation) => e.plan) Step plan es

variable {es : List ExitEvaluation}

theorem perform_steps {calls : List ExitCall} (h : plan.perform A calls = .ok es) :
    Steps plan es := by
  induction calls generalizing plan es with
  | nil =>
    cases h
    trivial
  | cons c calls ih =>
    simp only [perform, bind_eq_ok, pure_ok_iff] at h
    obtain ⟨e, he, rest, hrest, rfl⟩ := h
    exact ⟨call_steps he, ih hrest⟩

theorem Step.status (h : Step plan e) :
    plan.status = .active ∨ plan.status = .triggered := by
  cases h with
  | idle ha => exact Or.inl ha
  | changed _ ha => exact Or.inl ha
  | triggers _ _ ha => exact Or.inl ha
  | closes _ ht => exact Or.inr ht

theorem Steps.ended (h : Steps plan es) (ha : plan.status ≠ .active)
    (ht : plan.status ≠ .triggered) : es = [] := by
  cases es with
  | nil => rfl
  | cons e es =>
    obtain hs | hs := h.1.status
    · exact absurd hs ha
    · exact absurd hs ht

theorem Step.tightens (h : Step plan e) :
    e.plan.side = plan.side ∧ Tightens plan.side plan.stopPrice e.plan.stopPrice := by
  cases h with
  | idle => exact ⟨rfl, .refl _ _⟩
  | changed q _ _ hside hstop => exact ⟨hside, hstop⟩
  | triggers q i _ _ hside hstop => exact ⟨hside, hstop ▸ .refl _ _⟩
  | closes q _ _ hsame => exact ⟨hsame.side, hsame.stopPrice ▸ .refl _ _⟩

theorem Steps.tightens (h : Steps plan es) (he : e ∈ es) :
    e.plan.side = plan.side ∧ Tightens plan.side plan.stopPrice e.plan.stopPrice := by
  induction es generalizing plan with
  | nil => cases he
  | cons first es ih =>
    obtain ⟨hside, hstop⟩ := h.1.tightens
    obtain rfl | he := List.mem_cons.mp he
    · exact ⟨hside, hstop⟩
    · obtain ⟨hside', hstop'⟩ := ih h.2 he
      exact ⟨hside'.trans hside, hstop.trans (hside ▸ hstop')⟩

theorem Steps.after_trigger (h : Steps plan es) (ht : plan.status = .triggered) :
    es = [] ∨ ∃ q, es = [⟨q, none⟩] ∧ q.status = .closed ∧ SameTrigger plan q := by
  cases es with
  | nil => exact Or.inl rfl
  | cons e es =>
    have hactive : plan.status ≠ .active := by simp [ht]
    obtain ⟨hstep, hrest⟩ : Step plan e ∧ Steps e.plan es := h
    cases hstep with
    | idle ha => exact absurd ha hactive
    | changed _ ha => exact absurd ha hactive
    | triggers _ _ ha => exact absurd ha hactive
    | closes q _ hstatus hsame =>
      obtain rfl := hrest.ended (by simp [hstatus]) (by simp [hstatus])
      exact Or.inr ⟨q, rfl, hstatus, hsame⟩

variable {before after : List ExitEvaluation}

theorem Steps.split (h : Steps plan (before ++ e :: after)) : ∃ p : ExitPlan, Step p e ∧
    Steps e.plan after := by
  obtain ⟨-, hstep, hrest⟩ := (AllSteps.append _).mp h
  exact ⟨_, hstep, hrest⟩

theorem Steps.once (h : Steps plan es) :
    (es.filter (·.intent.isSome)).length ≤ 1 := by
  induction es generalizing plan with
  | nil => exact Nat.zero_le 1
  | cons e es ih =>
    obtain ⟨hstep, hrest⟩ : Step plan e ∧ Steps e.plan es := h
    cases hstep with
    | idle => exact ih hrest
    | changed q => exact ih hrest
    | closes q => exact ih hrest
    | triggers q i _ hstatus =>
      -- the intent has been returned: what follows returns none
      obtain rfl | ⟨r, rfl, -⟩ := hrest.after_trigger hstatus
      · exact le_rfl
      · exact le_rfl

structure Between (p : ExitPlan) (e : ExitEvaluation) : Prop where
  triggers : e.intent.isSome ↔ p.status ≠ .triggered ∧ e.plan.status = .triggered
  closes : e.plan.status = .closed → p.status = .triggered
  version : e.plan ≠ p → p.version < e.plan.version

theorem Step.between (h : Step plan e) : Between plan e := by
  cases h with
  | idle ha => exact ⟨by simp [ha], by simp [ha], fun hne => absurd rfl hne⟩
  | changed q ha hs _ _ hv => exact ⟨by simp [hs], by simp [hs], fun _ => hv⟩
  | triggers q i ha hs _ _ hv => exact ⟨by simp [ha, hs], by simp [hs], fun _ => hv⟩
  | closes q ht hs _ hv => exact ⟨by simp [hs], fun _ => ht, fun _ => hv⟩

theorem pendingIntent_closed (h : plan.status = .closed) : plan.pendingIntent =
    .error (.runtimeError "only a triggered exit plan has a pending intent") := by
  rw [pendingIntent, raiseIf_bind_pos (by simp [h])]

/-- what holds along the life of a plan -/
structure Orderly (plan : ExitPlan) (es : List ExitEvaluation) : Prop where
  stops : (plan :: es.map (·.plan)).Pairwise fun p q =>
    q.side = p.side ∧ Tightens p.side p.stopPrice q.stopPrice
  once : (es.filter (·.intent.isSome)).length ≤ 1
  between : AllSteps (fun _ (e : ExitEvaluation) => e.plan) Between plan es
  fixed : ∀ before e after i, es = before ++ e :: after → e.intent = some i →
    ∀ later ∈ e :: after, SameTrigger e.plan later.plan ∧
      (later.plan.status = .triggered ∧ later.plan.pendingIntent = .ok i ∨
        later.plan.status = .closed ∧ later.plan.pendingIntent =
          .error (.runtimeError "only a triggered exit plan has a pending intent"))
  final : ∀ before e after, es = before ++ e :: after → e.plan.status = .closed → after = []

theorem Steps.stops (h : Steps plan es) :
    (plan :: es.map (·.plan)).Pairwise fun p q =>
      q.side = p.side ∧ Tightens p.side p.stopPrice q.stopPrice := by
  induction es generalizing plan with
  | nil => exact List.pairwise_singleton _ _
  | cons e es ih =>
    refine List.pairwise_cons.mpr ⟨fun q hq => ?_, ih h.2⟩
    obtain ⟨later, hl, rfl⟩ := List.mem_map.mp hq
    exact h.tightens hl

theorem Steps.fixed {i : ExitIntent} (h : Steps plan es) (hes : es = before ++ e :: after)
    (hi : e.intent = some i) : ∀ later ∈ e :: after, SameTrigger e.plan later.plan ∧
      (later.plan.status = .triggered ∧ later.plan.pendingIntent = .ok i ∨
        later.plan.status = .closed ∧ later.plan.pendingIntent =
          .error (.runtimeError "only a triggered exit plan has a pending intent")) := by
  subst hes
  obtain ⟨p, hstep, hrest⟩ := h.split
  cases hstep with
  | idle => cases hi
  | changed => cases hi
  | closes => cases hi
  | triggers q j _ hstatus _ _ _ hpending =>
    obtain rfl : j = i := Option.some.inj hi
    intro later hlater
    obtain rfl | hlater := List.mem_cons.mp hlater
    · exact ⟨⟨rfl, rfl, rfl, rfl, rfl, rfl, rfl, rfl⟩, Or.inl ⟨hstatus, hpending⟩⟩
    · obtain rfl | ⟨r, rfl, hr, hsame⟩ := hrest.after_trigger hstatus
      · cases hlater
      · obtain rfl := List.mem_singleton.mp hlater
        exact ⟨hsame, Or.inr ⟨hr, pendingIntent_closed hr⟩⟩

end

theorem exit_plan_kept (A : Arith) (plan : ExitPlan) (calls : List ExitCall)
    (es : List ExitEvaluation) (h : plan.perform A calls = .ok es) : Orderly plan es := by
  have hsteps := perform_steps h
  refine ⟨hsteps.stops, hsteps.once, ?_, fun before e after i hes => hsteps.fixed hes, ?_⟩
  · exact AllSteps.of_inv _ (I := fun _ => True) (fun _ _ _ _ => trivial)
      (fun _ _ _ hs => hs.between)
      trivial hsteps
  · rintro before e after rfl hclosed
    obtain ⟨p, -, hrest⟩ := hsteps.split
    exact hrest.ended (by simp [hclosed]) (by simp [hclosed])

namespace Demo

def longPlan : ExitPlan :=
  { planId := ⟨"uuid:plan"⟩, positionId := ⟨"uuid:position"⟩, side := .long, quantity := 1,
    averageEntry := 100, expectedLossFraction := 1 / 100, expectedGainFraction := 2 / 100,
    stopPrice := 99, targetPrice := 102, maximumBars := 60, barsElapsed := 0,
    oppositeSignalStreak := 0, status := .active, createdAt := 0, changedAt := 0, version := 1,
    triggerReason := none, triggeredAt := none, triggerPrice := none,
    triggerExecutablePrice := none }

/-- a quiet mark, a tighter stop, the mark that reaches it, and the close -/
def stoppedOut : List ExitCall :=
  [.evaluateMark 100 1 none, .tightenStop (199 / 2) 2, .evaluateMark 99 3 none, .close 4]

theorem stoppedOut_kept : ∃ es, longPlan.perform .exact stoppedOut = .ok es ∧
    es.map (·.intent.isSome) = [false, false, true, false] ∧ Orderly longPlan es := by
  obtain ⟨es, hes, hintents⟩ := exists_ok_of_any (x := longPlan.perform .exact stoppedOut)
    (p := fun es => es.map (·.intent.isSome) == [false, false, true, false]) (by decide +kernel)
  exact ⟨es, hes, eq_of_beq hintents, exit_plan_kept .exact longPlan stoppedOut es hes⟩

def flattened : ExitEvaluation :=
  ⟨longPlan.triggered .emergency 1 none 99, some (longPlan.intentFor .emergency 1 none)⟩

theorem closed_not_pending :
    create .exact ⟨"uuid:plan"⟩ ⟨"uuid:position"⟩ .long 1 100 (1 / 100)
    (2 / 100) 0 60 = .ok longPlan ∧ longPlan.perform .exact [.emergencyFlatten 1 99, .close 2] =
      .ok [flattened, ⟨flattened.plan.closed 2, none⟩] ∧
    flattened.intent = some (longPlan.intentFor .emergency 1 none) ∧
    (flattened.plan.closed 2).pendingIntent ≠ .ok (longPlan.intentFor .emergency 1 none) := by
  refine ⟨eq_ok_of_toOption (by decide +kernel), eq_ok_of_toOption (by decide +kernel), rfl, ?_⟩
  rw [pendingIntent_closed rfl]
  nofun

end Demo

end ExitPlan
end Maais
