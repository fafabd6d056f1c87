import Maais.Paper.Broker
import Maais.Paper.History
import Mathlib.Algebra.Order.Group.MinMax

/-!
# Stops and targets of a position that is scaled into

The first entry fill of a position creates its exit plan, every further one resizes it to the new
average entry. The target follows the average; the stop is a ratchet and keeps the tightest level
that any average so far gave.

* `EntryFilled.enters`, `EntryFilled.scalesIn`  the broker's entries are steps of the model;
* `Guarded`  what every fill keeps: the stop is the tightest of the levels so far;
* `scale_ins_guarded`  the average stays short of the target, and it stays beyond the stop exactly
  as long as it has not given back the loss fraction of its best value.

An average that falls through the ratcheted stop leaves the stop on the winning side of the entry;
the resize does not refuse it.
-/

namespace Maais
open Lib

/-! ## entry fills -/

structure EntryFill where
  fillId : UUID
  side : PaperOrderSide
  quantity : ℚ
  price : ℚ
  fee : ℚ
  fillAt : Time

structure Protected where
  position : PositionState
  plan : ExitPlan

namespace Protected

def filled (A : Arith) (p : PositionState) (f : EntryFill) : Py PositionState :=
  p.openFill A f.fillId f.side.openingDirection f.quantity f.price f.fee f.fillAt

def enter (A : Arith) (p : PositionState) (planId : UUID) (loss gain : ℚ) (f : EntryFill) :
    Py Protected := do
  let position ← filled A p f
  let plan ← ExitPlan.create A planId position.positionId position.side (position.quantity A)
    position.averageEntry loss gain f.fillAt defaultMaximumBars
  return ⟨position, plan⟩

def scaleIn (A : Arith) (h : Protected) (f : EntryFill) : Py Protected := do
  let position ← filled A h.position f
  raiseIf (h.plan.positionId ≠ position.positionId)
    (.valueError "active exit plan belongs to another position")
  let plan ← h.plan.resize A (position.quantity A) position.averageEntry f.fillAt
  return ⟨position, plan⟩

def scaleIns (A : Arith) : Protected → List EntryFill → Py (List Protected)
  | h, [] => .ok [h]
  | h, f :: fills => do
    let next ← h.scaleIn A f
    let rest ← next.scaleIns A fills
    return h :: rest

end Protected

/-! ### the broker's entries -/

namespace PaperBroker

variable {A : Arith} {command : MarketEntryCommand} {account next : AccountState}
  {books : List BookSnapshot} {active : Option ExitPlan} {plan plan₀ : ExitPlan}
  {r : PaperBrokerResult} {p : PositionState}

def entryFill (command : MarketEntryCommand) (fill : PaperFill) : EntryFill :=
  ⟨command.fillId, command.side, fill.quantity, fill.price, fill.fee, fill.fillAt⟩

theorem EntryFilled.opened (h : EntryFilled A command account books active r next p plan) :
    ∃ current, account.OpensFrom command.positionId command.symbol current ∧
      Protected.filled A current (entryFill command r.fill) = .ok p := by
  obtain ⟨q, cash, rfl, _, ⟨_, current, hc, hq, _⟩ | ⟨hbad, _⟩⟩ :=
    AccountState.applyFill_cases h.filled
  · have hp : p = q := Option.mem_unique h.position (Dict.get?_set_self _ _ _)
    exact ⟨current, hc, hp ▸ hq⟩
  · cases hbad

/-- the first entry of a position -/
theorem EntryFilled.enters (h : EntryFilled A command account books none r next p plan) :
    ∃ current, account.OpensFrom command.positionId command.symbol current ∧
      Protected.enter A current command.exitPlanId command.expectedLossFraction
        command.expectedGainFraction (entryFill command r.fill) = .ok ⟨p, plan⟩ := by
  obtain ⟨current, hc, hp⟩ := h.opened
  refine ⟨current, hc, ?_⟩
  rw [Protected.enter, hp, ok_bind]
  exact bind_eq_ok.mpr ⟨plan, h.planned, rfl⟩

/-- an entry under the active plan of the position -/
theorem EntryFilled.scalesIn (h : EntryFilled A command account books (some plan₀) r next p plan) :
    ∃ current, account.OpensFrom command.positionId command.symbol current ∧
      Protected.scaleIn A ⟨current, plan₀⟩ (entryFill command r.fill) = .ok ⟨p, plan⟩ := by
  obtain ⟨current, hc, hp⟩ := h.opened
  obtain ⟨_, hid, hplan⟩ := bind_eq_ok.mp h.planned
  refine ⟨current, hc, ?_⟩
  rw [Protected.scaleIn, hp, ok_bind]
  exact bind_eq_ok.mpr ⟨(), hid, bind_eq_ok.mpr ⟨plan, hplan, rfl⟩⟩

end PaperBroker

namespace Protected

/-- `loss_at_stop`, as the entry context computes it for the risk engine -/
def lossAtStop (A : Arith) (h : Protected) : ℚ :=
  A.mul (h.position.quantity A) (A.abs (A.sub h.position.averageEntry h.plan.stopPrice))

def lossIfStopped (h : Protected) : ℚ :=
  -({ h.position with markPrice := h.plan.stopPrice } : PositionState).unrealizedPnl .exact

def StopBehind (plan : ExitPlan) : Prop :=
  if plan.side = .long then
    plan.stopPrice < plan.averageEntry else plan.averageEntry < plan.stopPrice

def TargetAhead (plan : ExitPlan) : Prop :=
  if plan.side = .long then plan.averageEntry < plan.targetPrice else plan.targetPrice <
    plan.averageEntry

/-- the average has not given back the loss fraction of an earlier one -/
def Within (side : Direction) (loss earlier average : ℚ) : Prop :=
  if side = .long then earlier * (1 - loss) < average else average < earlier * (1 + loss)

instance {plan : ExitPlan} : Decidable (StopBehind plan) := by
  unfold StopBehind
  infer_instance

/-! ## what every fill keeps -/

theorem levels_exact {side : Direction} (hs : side ≠ .neutral) (average loss gain : ℚ) :
    levels .exact side average loss gain =
      (average * (1 - side.sign * loss), average * (1 + side.sign * gain)) := by
  cases side with
  | long => simp [levels, Direction.sign]
  | short => simp [levels, Direction.sign, sub_eq_add_neg]
  | neutral => exact absurd rfl hs

/-- the plan after fills whose averages were those of `past` and its own: the target follows the
last average, the stop is the tightest level -/
structure Guarded (loss gain : ℚ) (past : List Protected) (h : Protected) : Prop where
  directed : h.plan.side ≠ .neutral
  side : h.position.side = h.plan.side
  fractions : h.plan.expectedLossFraction = loss ∧ h.plan.expectedGainFraction = gain
  average : h.plan.averageEntry = h.position.averageEntry
  average_pos : 0 < h.position.averageEntry
  held_pos : 0 < PositionState.heldOf h.position.lots
  cost : h.position.averageEntry * PositionState.heldOf h.position.lots =
    PositionState.costOf h.position.lots
  target : h.plan.targetPrice = h.plan.averageEntry * (1 + h.plan.side.sign * gain)
  tightest : ∀ g ∈ h :: past,
    h.plan.side.sign * (g.plan.averageEntry * (1 - h.plan.side.sign * loss)) ≤ h.plan.side.sign *
    h.plan.stopPrice
  reached : ∃ g ∈ h :: past, h.plan.stopPrice = g.plan.averageEntry * (1 - h.plan.side.sign * loss)

section
variable {loss gain : ℚ} {past : List Protected} {h next : Protected} {f : EntryFill}

theorem filled_exact {p q : PositionState} (hq : filled .exact p f = .ok q)
    (h0 : 0 ≤ PositionState.heldOf p.lots) : q.side = f.side.openingDirection ∧
      q.positionId = p.positionId ∧ (¬ p.isFlat .exact → p.side = f.side.openingDirection) ∧
      0 < PositionState.heldOf q.lots ∧
      q.averageEntry * PositionState.heldOf q.lots = PositionState.costOf q.lots := by
  obtain ⟨⟨hid, _⟩, _, hside, _, _, hsame⟩ := PositionState.openFill_step hq
  simp only [filled, PositionState.openFill, bind_eq_ok, raiseIf_eq_ok,
    requirePositiveDecimal_eq_ok, requireNonnegative_eq_ok, pure_ok_iff] at hq
  obtain ⟨_, _, _, _, _, hn, _, _, _, _, rfl⟩ := hq
  have hheld : PositionState.heldOf (p.lots ++ [⟨f.fillId, f.fillId, f.fillAt, f.price, f.quantity,
      f.quantity, f.fee, f.fee, 0⟩]) = p.quantity .exact + f.quantity := by
    rw [PositionState.heldOf_append, PositionState.heldOf_cons, PositionState.heldOf_nil, add_zero,
      PositionState.quantity_eq_held]
  have hpos : 0 < p.quantity .exact + f.quantity := by
    rw [PositionState.quantity_eq_held]
    exact add_pos_of_nonneg_of_pos h0 hn
  refine ⟨hside, hid, hsame, hheld ▸ hpos, ?_⟩
  show PositionState.averageOf .exact _ (p.quantity .exact + f.quantity) *
    PositionState.heldOf _ = _
  rw [hheld, PositionState.averageOf, Arith.exact_div, div_mul_cancel₀ _ hpos.ne', Arith.exact_sum]
  rfl

theorem enter_guarded {p : PositionState} {planId : UUID} (h0 : 0 ≤ p.quantity .exact)
    (he : enter .exact p planId loss gain f = .ok h) :
    Guarded loss gain [] h ∧ 0 < loss ∧ 0 < gain := by
  simp only [enter, bind_eq_ok, pure_ok_iff] at he
  obtain ⟨q, hq, plan, hplan, rfl⟩ := he
  rw [PositionState.quantity_eq_held] at h0
  obtain ⟨_, _, _, hheld, hcost⟩ := filled_exact hq h0
  simp only [ExitPlan.create, requireFraction, bind_eq_ok, raiseIf_eq_ok,
    requirePositiveDecimal_eq_ok, not_not] at hplan
  obtain ⟨_, hside, _, _, _, havg, _, hloss, _, hgain, _, _, hplan⟩ := hplan
  rw [ExitPlan.postInit_eq hplan]
  have hlevels := levels_exact hside q.averageEntry loss gain
  refine ⟨⟨hside, rfl, ⟨rfl, rfl⟩, rfl, havg, hheld, hcost, congrArg Prod.snd hlevels, ?_, ?_⟩,
    hloss.1, hgain.1⟩
  · intro g hg
    obtain rfl := List.mem_singleton.mp hg
    exact (congrArg (q.side.sign * ·) (congrArg Prod.fst hlevels)).ge
  · exact ⟨_, List.mem_singleton_self _, congrArg Prod.fst hlevels⟩

theorem ratchet_sign {side : Direction} (hs : side ≠ .neutral) (a b : ℚ) :
    side.sign * (if side = .long then max a b else min a b) = max (side.sign * a) (side.sign * b) ∧
      ((if side = .long then max a b else min a b) = a ∨
      (if side = .long then max a b else min a b) = b) := by
  cases side with
  | long => exact ⟨by simp [Direction.sign], max_choice a b⟩
  | short => exact ⟨by simp [Direction.sign, max_neg_neg], min_choice a b⟩
  | neutral => exact absurd rfl hs

theorem Guarded.scaleIn (hg : Guarded loss gain past h) (hs : h.scaleIn .exact f = .ok next) :
    Guarded loss gain (past ++ [h]) next := by
  simp only [Protected.scaleIn, bind_eq_ok, raiseIf_eq_ok, pure_ok_iff] at hs
  obtain ⟨q, hq, _, _, plan, hplan, rfl⟩ := hs
  obtain ⟨hside, _, hsame, hheld, hcost⟩ := filled_exact hq hg.held_pos.le
  have hopen : ¬ h.position.isFlat .exact := by
    rw [PositionState.isFlat, PositionState.quantity_eq_held]
    exact hg.held_pos.ne'
  simp only [ExitPlan.resize, bind_eq_ok, requirePositiveDecimal_eq_ok] at hplan
  obtain ⟨_, _, _, _, _, havg, hplan⟩ := hplan
  rw [ExitPlan.postInit_eq hplan, hg.fractions.1, hg.fractions.2,
    levels_exact hg.directed q.averageEntry loss gain]
  obtain ⟨hratchet, hchoice⟩ := ratchet_sign hg.directed h.plan.stopPrice
    (q.averageEntry * (1 - h.plan.side.sign * loss))
  refine ⟨hg.directed, ?_, ⟨rfl, rfl⟩, rfl, havg, hheld, hcost, rfl, ?_, ?_⟩
  · exact hside.trans ((hsame hopen).symm.trans hg.side)
  · intro g hmem
    refine le_of_le_of_eq ?_ hratchet.symm
    obtain rfl | hmem := List.mem_cons.mp hmem
    · exact le_max_right _ _
    · refine le_trans (hg.tightest g ?_) (le_max_left _ _)
      rw [List.mem_cons]
      obtain hm | hm := List.mem_append.mp hmem
      · exact Or.inr hm
      · exact Or.inl (List.mem_singleton.mp hm)
  · obtain hkeep | hmove := hchoice
    · obtain ⟨g, hmem, hstop⟩ := hg.reached
      refine ⟨g, List.mem_cons_of_mem _ ?_, hkeep.trans hstop⟩
      rw [List.mem_append, List.mem_singleton]
      exact (List.mem_cons.mp hmem).symm
    · exact ⟨_, List.mem_cons_self, hmove⟩

theorem Guarded.scaleIns {fills : List EntryFill} {hs : List Protected}
    (hg : Guarded loss gain past h) (hrun : h.scaleIns .exact fills = .ok hs)
    {before after : List Protected} {x : Protected} (hx : hs = before ++ x :: after) :
    Guarded loss gain (past ++ before) x := by
  induction fills generalizing past h hs before with
  | nil =>
    cases hrun
    match before, hx with
    | [], hx =>
      obtain ⟨rfl, _⟩ := List.cons.inj hx
      simpa using hg
    | b :: before, hx => simp at hx
  | cons f fills ih =>
    simp only [Protected.scaleIns, bind_eq_ok, pure_ok_iff] at hrun
    obtain ⟨next, hnext, rest, hrest, rfl⟩ := hrun
    match before, hx with
    | [], hx =>
      obtain ⟨rfl, _⟩ := List.cons.inj hx
      simpa using hg
    | b :: before, hx =>
      obtain ⟨rfl, hrest'⟩ := List.cons.inj hx
      have := ih (hg.scaleIn hnext) hrest hrest'
      simpa using this

/-! ## where the stop stands -/

theorem Guarded.targetAhead (hg : Guarded loss gain past h) (hgain : 0 < gain) :
    TargetAhead h.plan := by
  have havg : 0 < h.plan.averageEntry := hg.average ▸ hg.average_pos
  have hpos : 0 < h.plan.averageEntry * gain := mul_pos havg hgain
  unfold TargetAhead
  rw [hg.target]
  cases hside : h.plan.side with
  | long =>
    rw [if_pos rfl, Direction.sign]
    linarith
  | short =>
    rw [if_neg (by decide), Direction.sign]
    linarith
  | neutral => exact absurd hside hg.directed

theorem stopBehind_iff_sign {plan : ExitPlan} (hs : plan.side ≠ .neutral) :
    StopBehind plan ↔ plan.side.sign * plan.stopPrice < plan.side.sign * plan.averageEntry := by
  unfold StopBehind
  cases hside : plan.side with
  | long => simp [Direction.sign]
  | short => simp [Direction.sign]
  | neutral => exact absurd hside hs

theorem within_iff_sign {side : Direction} (hs : side ≠ .neutral) {earlier average : ℚ} :
    Within side loss earlier average ↔
      side.sign * (earlier * (1 - side.sign * loss)) < side.sign * average := by
  unfold Within
  cases side with
  | long => simp [Direction.sign]
  | short => simp [Direction.sign]
  | neutral => exact absurd rfl hs

theorem Guarded.stopBehind_iff (hg : Guarded loss gain past h) (hloss : 0 < loss) :
    StopBehind h.plan ↔
      ∀ g ∈ past, Within h.plan.side loss g.plan.averageEntry h.plan.averageEntry := by
  rw [stopBehind_iff_sign hg.directed]
  constructor
  · intro hstop g hmem
    rw [within_iff_sign hg.directed]
    exact lt_of_le_of_lt (hg.tightest g (List.mem_cons_of_mem h hmem)) hstop
  · intro hwithin
    obtain ⟨g, hmem, hstop⟩ := hg.reached
    rw [hstop]
    obtain rfl | hmem := List.mem_cons.mp hmem
    · -- its own level lies behind every average
      have havg : 0 < g.plan.averageEntry := hg.average ▸ hg.average_pos
      have hpos : 0 < g.plan.averageEntry * loss := mul_pos havg hloss
      cases hside : g.plan.side with
      | long =>
        rw [Direction.sign]
        linarith
      | short =>
        rw [Direction.sign]
        linarith
      | neutral => exact absurd hside hg.directed
    · exact (within_iff_sign hg.directed).mp (hwithin g hmem)

theorem Guarded.lossIfStopped_eq (hg : Guarded loss gain past h) : h.lossIfStopped =
    h.position.quantity .exact * (h.plan.side.sign * (h.plan.averageEntry - h.plan.stopPrice)) := by
  have hopen :
      ¬ ({ h.position with markPrice := h.plan.stopPrice } : PositionState).isFlat .exact := by
    rw [PositionState.isFlat, PositionState.quantity_eq_held]
    exact hg.held_pos.ne'
  rw [lossIfStopped, PositionState.unrealizedPnl, if_neg hopen, hg.average,
    PositionState.quantity_eq_held]
  have hcost := hg.cost
  simp only [Arith.exact_mul, Arith.exact_sub, Arith.exact_sum, hg.side]
  cases hside : h.plan.side with
  | long =>
    rw [if_pos rfl, PositionState.sum_long, ← hcost, Direction.sign]
    ring
  | short =>
    rw [if_neg (by decide), PositionState.sum_short, ← hcost, Direction.sign]
    ring
  | neutral => exact absurd hside hg.directed

theorem Guarded.lossAtStop_eq (hg : Guarded loss gain past h) (hstop : StopBehind h.plan) :
    h.lossAtStop .exact = h.lossIfStopped ∧ 0 < h.lossAtStop .exact := by
  have hq : 0 < h.position.quantity .exact := by
    rw [PositionState.quantity_eq_held]
    exact hg.held_pos
  rw [stopBehind_iff_sign hg.directed] at hstop
  have hdistance : |h.plan.averageEntry - h.plan.stopPrice| =
      h.plan.side.sign * (h.plan.averageEntry - h.plan.stopPrice) := by
    cases hside : h.plan.side with
    | long =>
      rw [hside, Direction.sign] at hstop
      rw [Direction.sign, one_mul, abs_of_pos (by linarith)]
    | short =>
      rw [hside, Direction.sign] at hstop
      rw [Direction.sign, abs_of_neg (by linarith)]
      ring
    | neutral => exact absurd hside hg.directed
  have hloss : h.lossAtStop .exact = h.lossIfStopped := by
    rw [hg.lossIfStopped_eq, lossAtStop, ← hg.average, Arith.exact_mul, Arith.exact_abs,
      Arith.exact_sub, hdistance]
  refine ⟨hloss, ?_⟩
  rw [hloss, hg.lossIfStopped_eq]
  refine mul_pos hq ?_
  rw [mul_sub]
  exact sub_pos.mpr hstop

end

/-- **scaling in**: over every run of entry fills that do not raise, the average entry stays short
of the target; it stays beyond the stop exactly as long as it keeps within the loss fraction of all
the averages before it; and then the loss at the stop is what the position would lose there, and
positive. -/
theorem scale_ins_guarded (p : PositionState) (planId : UUID) (loss gain : ℚ) (first : EntryFill)
    (fills : List EntryFill) (h₀ : Protected) (hs : List Protected) (h0 : 0 ≤ p.quantity .exact)
    (henter : enter .exact p planId loss gain first = .ok h₀)
    (hrun : h₀.scaleIns .exact fills = .ok hs) : ∀ before h after, hs = before ++ h :: after →
      TargetAhead h.plan ∧
      (StopBehind h.plan ↔
        ∀ g ∈ before, Within h.plan.side loss g.plan.averageEntry h.plan.averageEntry) ∧
      (StopBehind h.plan → h.lossAtStop .exact = h.lossIfStopped ∧ 0 < h.lossAtStop .exact) := by
  intro before h after hsplit
  obtain ⟨hg₀, hloss, hgain⟩ := enter_guarded h0 henter
  have hg : Guarded loss gain before h := hg₀.scaleIns hrun hsplit
  exact ⟨hg.targetAhead hgain, hg.stopBehind_iff hloss, hg.lossAtStop_eq⟩

namespace Demo

def flat : PositionState :=
  { positionId := ⟨"uuid:position"⟩, experimentId := ⟨"uuid:experiment"⟩, symbol := "BTCUSDT",
    side := .neutral, markPrice := 0, averageEntry := 0, realizedPnl := 0, fees := 0, funding := 0,
    lots := [], openedAt := none, closedAt := none, version := 0 }

def bought (quantity price : Nat) (t : Time) : EntryFill :=
  ⟨⟨"uuid:fill"⟩, .buy, quantity, price, 0, t⟩

def plansOf (hs : List Protected) : List (ℚ × ℚ × ℚ × ℚ) :=
  hs.map fun h => (h.plan.stopPrice, h.plan.averageEntry, h.lossAtStop .exact, h.lossIfStopped)

/-- two bought at ever higher prices: the stop follows -/
theorem higher_guarded : ∃ h₀ hs, enter .exact flat ⟨"uuid:plan"⟩ (1 / 100) (2 / 100)
    (bought 1 100 0) = .ok h₀ ∧ h₀.scaleIns .exact [bought 1 102 1] = .ok hs ∧
    plansOf hs = [(99, 100, 1, 1), (9999 / 100, 101, 101 / 50, 101 / 50)] ∧
    ∀ before h after, hs = before ++ h :: after → TargetAhead h.plan := by
  obtain ⟨h₀, hfirst, hany⟩ := exists_ok_of_any
    (x := enter .exact flat ⟨"uuid:plan"⟩ (1 / 100) (2 / 100) (bought 1 100 0))
    (p := fun h₀ => (h₀.scaleIns .exact [bought 1 102 1]).toOption.any fun hs =>
      plansOf hs == [(99, 100, 1, 1), (9999 / 100, 101, 101 / 50, 101 / 50)]) (by decide +kernel)
  obtain ⟨hs, hrun, hplans⟩ := exists_ok_of_any hany
  refine ⟨h₀, hs, hfirst, hrun, eq_of_beq hplans, fun before h after hx => ?_⟩
  have h0 : 0 ≤ flat.quantity .exact := by decide +kernel
  exact (scale_ins_guarded flat _ _ _ _ _ h₀ hs h0 hfirst hrun before h after hx).1

/-- one more at 98 brings the average down to the stop, nine more at 90 far below it -/
theorem lower_overtaken : ∃ h₀ hs hs', enter .exact flat ⟨"uuid:plan"⟩ (1 / 100) (2 / 100)
    (bought 1 100 0) = .ok h₀ ∧ h₀.scaleIns .exact [bought 1 98 1] = .ok hs ∧
    plansOf hs = [(99, 100, 1, 1), (99, 99, 0, 0)] ∧ h₀.scaleIns .exact [bought 9 90 1] = .ok hs' ∧
    plansOf hs' = [(99, 100, 1, 1), (99, 91, 80, -80)] := by
  obtain ⟨h₀, hfirst, hany⟩ := exists_ok_of_any
    (x := enter .exact flat ⟨"uuid:plan"⟩ (1 / 100) (2 / 100) (bought 1 100 0))
    (p := fun h₀ => ((h₀.scaleIns .exact [bought 1 98 1]).toOption.any fun hs =>
        plansOf hs == [(99, 100, 1, 1), (99, 99, 0, 0)]) &&
      ((h₀.scaleIns .exact [bought 9 90 1]).toOption.any fun hs =>
        plansOf hs == [(99, 100, 1, 1), (99, 91, 80, -80)])) (by decide +kernel)
  obtain ⟨hlevel, hbelow⟩ := Bool.and_eq_true_iff.mp hany
  obtain ⟨hs, hrun, hplans⟩ := exists_ok_of_any hlevel
  obtain ⟨hs', hrun', hplans'⟩ := exists_ok_of_any hbelow
  exact ⟨h₀, hs, hs', hfirst, hrun, eq_of_beq hplans, hrun', eq_of_beq hplans'⟩

end Demo

end Protected
end Maais
