import Maais.Domain

/-!
# Protective exit plans

* `ExitPlan.create`, `evaluateMark`, `observeClosedBar`, `resize`, `tightenStop`,
  `emergencyFlatten`, `close` the life of a plan, with the checks of its constructor (`postInit`)
  after every change;
* `evaluateMark_cases`  a mark leaves an active plan alone or triggers it;
* `StepsTo`  every change moves the version up and keeps the identity of the plan.
-/

namespace Maais
open Lib

inductive ExitPlanStatus
  | active | triggered | superseded | closed
deriving DecidableEq

def ExitPlanStatus.value : ExitPlanStatus → String
  | .active => "active"
  | .triggered => "triggered"
  | .superseded => "superseded"
  | .closed => "closed"

inductive ExitReason
  | stop | target | maximumHold | opposingSignal | emergency
deriving DecidableEq

structure ExitIntent where
  positionId : UUID
  side : PaperOrderSide
  orderType : PaperOrderType
  quantity : ℚ
  reduceOnly : Bool
  reason : ExitReason
  triggeredAt : Time
  triggerPrice : Option ℚ
deriving DecidableEq

structure ExitPlan where
  planId : UUID
  positionId : UUID
  side : Direction
  quantity : ℚ
  averageEntry : ℚ
  expectedLossFraction : ℚ
  expectedGainFraction : ℚ
  stopPrice : ℚ
  targetPrice : ℚ
  maximumBars : Nat
  barsElapsed : Nat
  oppositeSignalStreak : Nat
  status : ExitPlanStatus
  createdAt : Time
  changedAt : Time
  version : Nat
  triggerReason : Option ExitReason
  triggeredAt : Option Time
  triggerPrice : Option ℚ
  triggerExecutablePrice : Option ℚ
deriving DecidableEq

structure ExitEvaluation where
  plan : ExitPlan
  intent : Option ExitIntent
deriving DecidableEq

def requireFraction (value : ℚ) (field : String) : Py Unit :=
  raiseIf (¬ (0 < value ∧ value < 1)) (.valueError (field ++ " must be a finite Decimal in (0, 1)"))

def levels (A : Arith) (side : Direction) (averageEntry loss gain : ℚ) : ℚ × ℚ :=
  if side = .long then (A.mul averageEntry (A.sub 1 loss), A.mul averageEntry (A.add 1 gain))
  else (A.mul averageEntry (A.add 1 loss), A.mul averageEntry (A.sub 1 gain))

namespace ExitPlan

def postInit (plan : ExitPlan) : Py ExitPlan := do
  raiseIf (plan.status = .active ∧ (plan.triggerReason.isSome ∨ plan.triggeredAt.isSome ∨
      plan.triggerExecutablePrice.isSome ∨ plan.triggerPrice.isSome))
    (.valueError "active exit plan cannot contain trigger metadata")
  raiseIf ((plan.status = .triggered ∨ plan.status = .closed) ∧ (plan.triggerReason.isNone ∨
      plan.triggeredAt.isNone ∨ plan.triggerExecutablePrice.isNone))
    (.valueError "triggered and closed exit plans require restart metadata")
  raiseIf (∃ t ∈ plan.triggeredAt, t < plan.createdAt)
    (.valueError "exit trigger cannot precede plan creation")
  raiseIf (∃ x ∈ plan.triggerPrice, x ≤ 0)
    (.valueError "trigger_price must be a positive finite Decimal")
  raiseIf (∃ x ∈ plan.triggerExecutablePrice, x ≤ 0)
    (.valueError "trigger_executable_price must be a positive finite Decimal")
  return plan

def create (A : Arith) (planId positionId : UUID) (side : Direction)
    (quantity averageEntry expectedLossFraction expectedGainFraction : ℚ) (createdAt : Time)
    (maximumBars : Nat) : Py ExitPlan := do
  raiseIf (side = .neutral) (.valueError "exit plan side must be long or short")
  requirePositiveDecimal quantity "quantity"
  requirePositiveDecimal averageEntry "average_entry"
  requireFraction expectedLossFraction "expected_loss_fraction"
  requireFraction expectedGainFraction "expected_gain_fraction"
  raiseIf (maximumBars = 0) (.valueError "maximum_bars must be positive")
  let prices := levels A side averageEntry expectedLossFraction expectedGainFraction
  postInit
    { planId, positionId, side, quantity, averageEntry, expectedLossFraction, expectedGainFraction,
      stopPrice := prices.1, targetPrice := prices.2, maximumBars, barsElapsed := 0,
      oppositeSignalStreak := 0, status := .active, createdAt, changedAt := createdAt, version := 1,
      triggerReason := none, triggeredAt := none, triggerPrice := none,
      triggerExecutablePrice := none }

variable (plan : ExitPlan)

def requireActive : Py Unit :=
  raiseIf (plan.status ≠ .active) (.runtimeError ("exit plan is not active: " ++ plan.status.value))

def intentFor (reason : ExitReason) (triggeredAt : Time) (triggerPrice : Option ℚ) : ExitIntent :=
  { positionId := plan.positionId, side := plan.side.closingSide, orderType := .market,
    quantity := plan.quantity, reduceOnly := true, reason, triggeredAt, triggerPrice }

/-- the plan `_trigger` replaces the current one by -/
def triggered (reason : ExitReason) (triggeredAt : Time) (triggerPrice : Option ℚ)
    (executablePrice : ℚ) : ExitPlan :=
  { plan with
    status := .triggered, changedAt := triggeredAt, version := plan.version + 1,
    triggerReason := some reason, triggeredAt := some triggeredAt, triggerPrice := triggerPrice,
    triggerExecutablePrice := some executablePrice }

def trigger (reason : ExitReason) (triggeredAt : Time) (triggerPrice : Option ℚ)
    (executablePrice : ℚ) : Py ExitEvaluation := do
  let triggered ← (plan.triggered reason triggeredAt triggerPrice executablePrice).postInit
  return ⟨triggered, some (plan.intentFor reason triggeredAt triggerPrice)⟩

def markReason (markPrice : ℚ) : Option ExitReason :=
  if plan.side = .long then
    if markPrice ≤ plan.stopPrice then some .stop
    else if markPrice ≥ plan.targetPrice then some .target
    else none
  else
    if markPrice ≥ plan.stopPrice then some .stop
    else if markPrice ≤ plan.targetPrice then some .target
    else none

def evaluateMark (markPrice : ℚ) (observedAt : Time) (executablePrice : Option ℚ) :
    Py ExitEvaluation := do
  plan.requireActive
  requirePositiveDecimal markPrice "mark_price"
  raiseIf (∃ x ∈ executablePrice, x ≤ 0)
    (.valueError "executable_price must be a positive finite Decimal")
  match plan.markReason markPrice with
  | some reason => plan.trigger reason observedAt (some markPrice) (executablePrice.getD markPrice)
  | none => return ⟨plan, none⟩

def opposes (decisionDirection : Direction) (decisionApproved : Bool) : Prop :=
  decisionApproved = true ∧
    (plan.side = .long ∧ decisionDirection = .short ∨ plan.side = .short ∧
    decisionDirection = .long)

instance {d : Direction} {b : Bool} : Decidable (plan.opposes d b) := by
  unfold opposes
  infer_instance

def countBar (decisionDirection : Direction) (decisionApproved : Bool)
    (closedAt : Time) : ExitPlan :=
  { plan with
    barsElapsed := plan.barsElapsed + 1
    oppositeSignalStreak :=
      if plan.opposes decisionDirection decisionApproved then plan.oppositeSignalStreak + 1 else 0
    changedAt := closedAt
    version := plan.version + 1 }

def barReason : Option ExitReason :=
  if plan.oppositeSignalStreak ≥ 2 then some .opposingSignal
  else if plan.barsElapsed ≥ plan.maximumBars then some .maximumHold
  else none

/-- the end of `observe_closed_bar` -/
def afterBar (closedAt : Time) (executablePrice : ℚ) : Py ExitEvaluation :=
  match plan.barReason with
  | some reason => plan.trigger reason closedAt none executablePrice
  | none => .ok ⟨plan, none⟩

def observeClosedBar (decisionDirection : Direction) (decisionApproved : Bool) (closedAt : Time)
    (executablePrice : ℚ) : Py ExitEvaluation := do
  plan.requireActive
  requirePositiveDecimal executablePrice "executable_price"
  let updated ← (plan.countBar decisionDirection decisionApproved closedAt).postInit
  updated.afterBar closedAt executablePrice

def resize (A : Arith) (quantity averageEntry : ℚ) (changedAt : Time) : Py ExitPlan := do
  plan.requireActive
  requirePositiveDecimal quantity "quantity"
  requirePositiveDecimal averageEntry "average_entry"
  let prices := levels A plan.side averageEntry plan.expectedLossFraction plan.expectedGainFraction
  postInit
    { plan with
      quantity, averageEntry
      stopPrice := if plan.side = .long then
        max plan.stopPrice prices.1 else min plan.stopPrice prices.1
      targetPrice := prices.2
      changedAt
      version := plan.version + 1 }

def tightenStop (stopPrice : ℚ) (changedAt : Time) : Py ExitPlan := do
  plan.requireActive
  requirePositiveDecimal stopPrice "stop_price"
  raiseIf (plan.side = .long ∧ stopPrice < plan.stopPrice ∨ plan.side = .short ∧
    stopPrice > plan.stopPrice) (.valueError "stop cannot move away from risk")
  postInit { plan with stopPrice, changedAt, version := plan.version + 1 }

def emergencyFlatten (triggeredAt : Time) (executablePrice : ℚ) : Py ExitEvaluation := do
  plan.requireActive
  requirePositiveDecimal executablePrice "executable_price"
  plan.trigger .emergency triggeredAt none executablePrice

/-- the two asserts hold of every plan that passed `postInit` -/
def pendingIntent : Py ExitIntent := do
  raiseIf (plan.status ≠ .triggered)
    (.runtimeError "only a triggered exit plan has a pending intent")
  let reason ← orRaise plan.triggerReason (.runtimeError "AssertionError")
  let triggeredAt ← orRaise plan.triggeredAt (.runtimeError "AssertionError")
  return plan.intentFor reason triggeredAt plan.triggerPrice

/-- the plan `close` replaces the current one by -/
def closed (closedAt : Time) : ExitPlan :=
  { plan with status := .closed, changedAt := closedAt, version := plan.version + 1 }

def close (closedAt : Time) : Py ExitPlan := do
  raiseIf (plan.status ≠ .triggered) (.runtimeError "only a triggered exit plan can be closed")
  (plan.closed closedAt).postInit

/-! ## what a change does -/

structure StepsTo (p q : ExitPlan) : Prop where
  planId : q.planId = p.planId
  positionId : q.positionId = p.positionId
  side : q.side = p.side
  createdAt : q.createdAt = p.createdAt
  version : p.version < q.version

section
variable {plan}

structure WellFormed (plan : ExitPlan) : Prop where
  active : plan.status = .active → plan.triggerReason = none ∧ plan.triggeredAt = none ∧
    plan.triggerExecutablePrice = none ∧ plan.triggerPrice = none
  triggered : plan.status = .triggered ∨ plan.status = .closed →
    plan.triggerReason ≠ none ∧ plan.triggeredAt ≠ none ∧ plan.triggerExecutablePrice ≠ none
  ordered : ∀ t ∈ plan.triggeredAt, plan.createdAt ≤ t
  triggerPrice_pos : ∀ x ∈ plan.triggerPrice, 0 < x
  executablePrice_pos : ∀ x ∈ plan.triggerExecutablePrice, 0 < x

variable {q : ExitPlan}

theorem postInit_eq_ok : plan.postInit = .ok q ↔ plan.WellFormed ∧ q = plan := by
  simp only [postInit, bind_eq_ok, raiseIf_eq_ok, pure_ok_iff, exists_const]
  constructor
  · rintro ⟨h1, h2, h3, h4, h5, rfl⟩
    refine ⟨⟨fun h => ?_, fun h => ?_, ?_, ?_, ?_⟩, rfl⟩
    · simp only [h, true_and, not_or, Option.not_isSome_iff_eq_none] at h1
      exact h1
    · simp only [h, true_and, not_or, Option.isNone_iff_eq_none] at h2
      exact h2
    · exact fun t ht => not_lt.mp fun hlt => h3 ⟨t, ht, hlt⟩
    · exact fun x hx => not_le.mp fun hle => h4 ⟨x, hx, hle⟩
    · exact fun x hx => not_le.mp fun hle => h5 ⟨x, hx, hle⟩
  · rintro ⟨h, rfl⟩
    refine ⟨?_, ?_, ?_, ?_, ?_, rfl⟩
    · rintro ⟨ha, hsome⟩
      obtain ⟨h1, h2, h3, h4⟩ := h.active ha
      simp [h1, h2, h3, h4] at hsome
    · rintro ⟨ht, hnone⟩
      obtain ⟨h1, h2, h3⟩ := h.triggered ht
      simp [h1, h2, h3] at hnone
    · exact fun ⟨t, ht, hlt⟩ => absurd (h.ordered t ht) (not_le.mpr hlt)
    · exact fun ⟨x, hx, hle⟩ => absurd (h.triggerPrice_pos x hx) (not_lt.mpr hle)
    · exact fun ⟨x, hx, hle⟩ => absurd (h.executablePrice_pos x hx) (not_lt.mpr hle)

theorem postInit_eq (h : plan.postInit = .ok q) : q = plan := (postInit_eq_ok.mp h).2

variable {t : Time} {price : Option ℚ} {exec : ℚ} {e : ExitEvaluation} {reason : ExitReason}

theorem trigger_eq (h : plan.trigger reason t price exec = .ok e) :
    e = ⟨plan.triggered reason t price exec, some (plan.intentFor reason t price)⟩ := by
  simp only [trigger, bind_eq_ok, pure_ok_iff] at h
  obtain ⟨q, hq, rfl⟩ := h
  rw [postInit_eq hq]

theorem triggered_wellFormed (reason : ExitReason)
    (ht : plan.createdAt ≤ t) (hp : ∀ x ∈ price, 0 < x) (he : 0 < exec) :
    (plan.triggered reason t price exec).WellFormed := by
  refine ⟨fun h => (by cases h),
    fun _ => ⟨by simp [triggered], by simp [triggered], by simp [triggered]⟩, ?_, hp, ?_⟩
  · intro s hs
    cases hs
    exact ht
  · intro x hx
    cases hx
    exact he

theorem create_eq {A : Arith} {planId positionId : UUID} {side : Direction} {n avg loss gain : ℚ}
    {bars : Nat} (h : create A planId positionId side n avg loss gain t bars = .ok q) :
    q.planId = planId ∧ q.positionId = positionId ∧ q.side = side ∧ q.quantity = n ∧
      q.averageEntry = avg ∧ q.status = .active ∧ q.createdAt = t ∧ q.version = 1 ∧
      q.barsElapsed = 0 ∧ q.oppositeSignalStreak = 0 ∧ q.maximumBars = bars ∧ 0 < bars ∧
      0 < n ∧ 0 < avg ∧ side ≠ .neutral := by
  simp only [create, bind_eq_ok, raiseIf_eq_ok, requirePositiveDecimal_eq_ok] at h
  obtain ⟨_, hs, _, hn, _, ha, _, _, _, _, _, hb, h⟩ := h
  rw [postInit_eq h]
  exact ⟨rfl, rfl, rfl, rfl, rfl, rfl, rfl, rfl, rfl, rfl, rfl, Nat.pos_of_ne_zero hb, hn, ha, hs⟩

theorem evaluateMark_cases {mark : ℚ} {exec : Option ℚ}
    (h : plan.evaluateMark mark t exec = .ok e) : plan.status = .active ∧ 0 < mark ∧
      (plan.markReason mark = none ∧ e = ⟨plan, none⟩ ∨
       ∃ reason, plan.markReason mark = some reason ∧
        e = ⟨plan.triggered reason t (some mark) (exec.getD mark),
          some (plan.intentFor reason t (some mark))⟩) := by
  simp only [evaluateMark, requireActive, bind_eq_ok, raiseIf_eq_ok, requirePositiveDecimal_eq_ok,
    ne_eq, not_not] at h
  obtain ⟨_, ha, _, hm, _, _, h⟩ := h
  refine ⟨ha, hm, ?_⟩
  cases hr : plan.markReason mark with
  | none =>
    rw [hr] at h
    simp only [pure_ok_iff] at h
    exact Or.inl ⟨rfl, h.symm⟩
  | some reason =>
    rw [hr] at h
    exact Or.inr ⟨reason, rfl, trigger_eq h⟩

theorem resize_eq {A : Arith} {n avg : ℚ}
    (h : plan.resize A n avg t = .ok q) : StepsTo plan q ∧ q.status = .active ∧ q.quantity = n ∧
      q.averageEntry = avg ∧ q.version = plan.version + 1 ∧ q.barsElapsed = plan.barsElapsed ∧
      q.maximumBars = plan.maximumBars ∧ 0 < n ∧ 0 < avg ∧
      q.oppositeSignalStreak = plan.oppositeSignalStreak := by
  simp only [resize, requireActive, bind_eq_ok, raiseIf_eq_ok, requirePositiveDecimal_eq_ok, ne_eq,
    not_not] at h
  obtain ⟨_, ha, _, hn, _, hav, h⟩ := h
  rw [postInit_eq h]
  exact ⟨⟨rfl, rfl, rfl, rfl, Nat.lt_succ_self _⟩, ha, rfl, rfl, rfl, rfl, rfl, hn, hav, rfl⟩

theorem close_ok (t : Time) (hs : plan.status = .triggered) (hw : plan.WellFormed) :
    plan.close t = .ok (plan.closed t) := by
  rw [close, raiseIf_not_bind hs, postInit_eq_ok]
  exact ⟨⟨fun hc => (by cases hc), fun _ => hw.triggered (Or.inl hs), hw.ordered,
    hw.triggerPrice_pos, hw.executablePrice_pos⟩, rfl⟩

theorem close_eq (h : plan.close t = .ok q) :
    plan.status = .triggered ∧ q = plan.closed t := by
  simp only [close, bind_eq_ok, raiseIf_eq_ok, ne_eq, not_not] at h
  obtain ⟨_, hs, h⟩ := h
  exact ⟨hs, postInit_eq h⟩

theorem emergencyFlatten_eq (h : plan.emergencyFlatten t exec = .ok e) : plan.status = .active ∧
      e = ⟨plan.triggered .emergency t none exec, some (plan.intentFor .emergency t none)⟩ := by
  simp only [emergencyFlatten, requireActive, bind_eq_ok, raiseIf_eq_ok, ne_eq, not_not] at h
  obtain ⟨_, ha, _, _, h⟩ := h
  exact ⟨ha, trigger_eq h⟩

/-! ## the closed-bar policy -/

variable {d : Direction} {approved : Bool}

theorem observeClosedBar_stepsTo (h : plan.observeClosedBar d approved t exec = .ok e) :
    StepsTo plan e.plan := by
  simp only [observeClosedBar, bind_eq_ok] at h
  obtain ⟨_, _, _, _, q, hq, h⟩ := h
  rw [postInit_eq hq] at h
  unfold afterBar at h
  split at h
  · rw [trigger_eq h]
    exact ⟨rfl, rfl, rfl, rfl, Nat.lt_succ_of_lt (Nat.lt_succ_self _)⟩
  · cases h
    exact ⟨rfl, rfl, rfl, rfl, Nat.lt_succ_self _⟩

theorem observeClosedBar_quiet
    (h : plan.observeClosedBar d approved t exec = .ok e) (hquiet : e.intent = none)
    (ha : plan.status = .active) : e.plan.status = .active ∧
    ∀ x, e.plan.markReason x = plan.markReason x := by
  simp only [observeClosedBar, bind_eq_ok] at h
  obtain ⟨_, _, _, _, q, hq, h⟩ := h
  rw [postInit_eq hq] at h
  unfold afterBar at h
  split at h
  · rw [trigger_eq h] at hquiet
    cases hquiet
  · cases h
    exact ⟨ha, fun _ => rfl⟩

/-! ## a trigger before the creation of its plan -/

/-- what the constructor says to a plan that was triggered before it was created -/
def tooEarly : PyError := .valueError "exit trigger cannot precede plan creation"

theorem postInit_raises (h : ∀ t ∈ plan.triggeredAt, plan.status = .active ∨ plan.createdAt ≤ t) :
    RaisesOnly (· ≠ tooEarly) plan.postInit := by
  unfold postInit
  -- an active plan with a trigger time is refused by the first check
  by_cases hfirst : plan.status = .active ∧ (plan.triggerReason.isSome ∨ plan.triggeredAt.isSome ∨
      plan.triggerExecutablePrice.isSome ∨ plan.triggerPrice.isSome)
  · rw [raiseIf_bind_pos hfirst]
    exact RaisesOnly.error (by decide)
  · rw [raiseIf_bind_neg hfirst]
    refine RaisesOnly.guard (by decide) ?_
    have hordered : ¬ ∃ t ∈ plan.triggeredAt, t < plan.createdAt := by
      rintro ⟨t, ht, hlt⟩
      obtain hactive | hle := h t ht
      · exact hfirst ⟨hactive, Or.inr (Or.inl (Option.isSome_iff_exists.mpr ⟨t, ht⟩))⟩
      · exact absurd hlt (not_lt.mpr hle)
    rw [raiseIf_bind_neg hordered]
    exact RaisesOnly.guard (by decide) (RaisesOnly.guard (by decide) RaisesOnly.ok)

theorem trigger_raises (h : plan.createdAt ≤ t) :
    RaisesOnly (· ≠ tooEarly) (plan.trigger reason t price exec) := by
  refine RaisesOnly.bind (postInit_raises fun s hs => Or.inr ?_) fun _ => RaisesOnly.ok
  obtain rfl : t = s := Option.some.inj hs
  exact h

theorem requireActive_raises : RaisesOnly (· ≠ tooEarly) plan.requireActive :=
  RaisesOnly.raiseIf (by simp [tooEarly])

theorem requirePositiveDecimal_raises {x : ℚ} {field : String}
    (h : field ++ " must be a positive finite Decimal" ≠
    "exit trigger cannot precede plan creation") :
    RaisesOnly (· ≠ tooEarly) (requirePositiveDecimal x field) :=
  RaisesOnly.raiseIf (by simpa [tooEarly] using h)

theorem evaluateMark_raises {mark : ℚ} {exec : Option ℚ} (h : plan.createdAt ≤ t) :
    RaisesOnly (· ≠ tooEarly) (plan.evaluateMark mark t exec) := by
  refine RaisesOnly.bind requireActive_raises fun _ => ?_
  refine RaisesOnly.bind (requirePositiveDecimal_raises (by decide)) fun _ => ?_
  refine RaisesOnly.guard (by decide) ?_
  cases plan.markReason mark with
  | some reason => exact trigger_raises h
  | none => exact RaisesOnly.ok

theorem observeClosedBar_raises (h : plan.createdAt ≤ t) :
    RaisesOnly (· ≠ tooEarly) (plan.observeClosedBar d approved t exec) := by
  refine RaisesOnly.bind_ok requireActive_raises fun _ hactive => ?_
  rw [requireActive, raiseIf_eq_ok, ne_eq, not_not] at hactive
  refine RaisesOnly.bind (requirePositiveDecimal_raises (by decide)) fun _ => ?_
  refine RaisesOnly.bind_ok (postInit_raises fun _ _ => Or.inl hactive) fun q hq => ?_
  rw [postInit_eq hq]
  unfold afterBar
  cases (plan.countBar d approved t).barReason with
  | some reason => exact trigger_raises h
  | none => exact RaisesOnly.ok

end

end ExitPlan

end Maais
