import Maais.Worker.Filed

/-!
# Open plans, and reopening a closed position

The plan of a new position starts again at version 1, under the identity of the plan the closed
position had, and the repository refuses a plan that is older than the stored one.

* `plans_protect`  a plan that is not closed belongs to an open position;
* `plans_age`  no plan is lost or goes back;
* `record_reopening`  no entry in a symbol whose position was closed is ever recorded.
-/

namespace Maais
open Lib Database

variable {cfg : WorkerConfig} {t : ExecutionTables}

/-- the position of the symbol is open, under an active plan -/
def ExecutionTables.Protects (experimentId : UUID) (t : ExecutionTables) (symbol : String) : Prop :=
  ∃ row plan, t.positions.get? (positionIdOf experimentId symbol) = some row ∧ row.status = .open ∧
    t.exitPlans.get? (planIdOf (positionIdOf experimentId symbol)) = some plan ∧
    plan.status = .active

theorem PositionRow.Check.closed {row : PositionRow} (h : row.Check) (hs : row.status = .closed) :
    row.side = .neutral := by
  rcases h.2.2 with ⟨ho, _⟩ | ⟨_, _, hn, _⟩
  · rw [ho] at hs
    cases hs
  · exact hn

theorem AccountFiled.closed_plan {experimentId : UUID} {symbol : String} {row : PositionRow}
    (hf : AccountFiled experimentId t)
    (hrow : t.positions.get? (positionIdOf experimentId symbol) = some row)
    (hs : row.status = .closed) :
    ∃ plan, t.exitPlans.get? (planIdOf (positionIdOf experimentId symbol)) = some plan ∧
      plan.status = .closed := by
  obtain ⟨_, _, hcheck⟩ := hf.positions _ row hrow
  obtain ⟨plan, hplan, hneutral, _⟩ := hf.planned _ row hrow
  exact ⟨plan, hplan, hneutral (hcheck.closed hs)⟩

/-- a plan that is not closed is the one of an open position, and on its side -/
def ExecutionTables.PlansProtect (experimentId : UUID) (t : ExecutionTables) : Prop :=
  ∀ id plan, t.exitPlans.get? id = some plan → plan.status ≠ .closed → ∃ row,
    t.positions.get? plan.positionId = some row ∧ row.status = .open ∧ row.side = plan.side ∧
      plan.positionId = positionIdOf experimentId row.symbol ∧ id = planIdOf plan.positionId

/-- **no plan outlives its position**, in any reachable world -/
theorem plans_protect (cfg : WorkerConfig) (w : World) (hw : w.Reaches cfg) :
    w.db.execution.PlansProtect cfg.manifest.experimentId := by
  intro id plan hplan hopen
  have hf := hw.filed.account
  obtain ⟨row, hrow, hst, hside, _⟩ := hf.open_row hplan hopen
  exact ⟨row, hrow, hst, hside, (hf.positions _ row hrow).2.1, (hf.plans id plan hplan).derived⟩

/-- how a plan may move: one that was triggered is never active again, and a closed one stays as it
is -/
def ExitPlan.Ages (p q : ExitPlan) : Prop :=
  (q.status = .active → p.status = .active) ∧ (p.status = .closed → q = p)

theorem ExitPlan.Ages.refl (p : ExitPlan) : p.Ages p := ⟨id, fun _ => rfl⟩

theorem ExitPlan.Ages.trans (p q r : ExitPlan) (h : p.Ages q) (h' : q.Ages r) : p.Ages r := by
  refine ⟨fun ha => h.1 (h'.1 ha), fun hc => ?_⟩
  obtain rfl := h.2 hc
  exact h'.2 hc

theorem PlansChange.ages {w : World} {input : Input} {t' : ExecutionTables}
    (h : PlansChange cfg w input t t') : t.exitPlans.Kept ExitPlan.Ages t'.exitPlans := by
  cases h with
  | funded _ _ _ h =>
    rw [h]
    exact .refl ExitPlan.Ages.refl _
  | entered _ h =>
    rw [h.after]
    refine .set ExitPlan.Ages.refl fun old hold => ?_
    have hactive := h.before old hold
    refine ⟨fun _ => hactive, fun hc => ?_⟩
    rw [hactive] at hc
    cases hc
  | marked _ _ _ _ h =>
    rw [h.after]
    refine .set_old ExitPlan.Ages.refl h.before ⟨fun ha => ?_, fun hc => absurd hc h.isOpen⟩
    obtain ⟨hactive, _⟩ | ⟨_, hgone⟩ := h.status
    · exact hactive
    · exact absurd ha hgone
  | flattened _ hclosed hkept _ =>
    intro id plan hplan
    by_cases hc : plan.status = .closed
    · exact ⟨plan, hkept id plan hplan hc, .refl plan⟩
    · obtain ⟨plan', hplan', hc'⟩ := hclosed id plan hplan hc
      refine ⟨plan', hplan', fun ha => ?_, fun h => absurd h hc⟩
      rw [hc'] at ha
      cases ha

theorem World.run_ages {w : World} (hf : Filed cfg.manifest.experimentId w.db.execution)
    (l : List Input) : Filed cfg.manifest.experimentId (run (step cfg) w l).db.execution ∧
      w.db.execution.exitPlans.Kept ExitPlan.Ages (run (step cfg) w l).db.execution.exitPlans := by
  refine run_inv (step cfg) (I := fun v => Filed cfg.manifest.experimentId v.db.execution ∧
    w.db.execution.exitPlans.Kept ExitPlan.Ages v.db.execution.exitPlans) (fun v input hv => ?_)
    ⟨hf, .refl ExitPlan.Ages.refl _⟩ l
  refine step_inv (I := fun db => Filed cfg.manifest.experimentId db.execution ∧
    w.db.execution.exitPlans.Kept ExitPlan.Ages db.execution.exitPlans) (fun db db' hdb ht => ?_) hv
  obtain hsame | ⟨hfiled, hplans⟩ := ht.changes.execution.filed hdb.1
  · rwa [hsame]
  · exact ⟨hfiled, hdb.2.trans ExitPlan.Ages.trans hplans.ages⟩

/-- **no plan is lost or goes back**, in any run from a reachable world -/
theorem World.plans_age {w : World} (hw : w.Reaches cfg) (l : List Input) :
    w.db.execution.exitPlans.Kept ExitPlan.Ages (run (step cfg) w l).db.execution.exitPlans :=
  (run_ages hw.filed l).2

/-- **a closed position is never reopened**: whatever entry a cycle fills in the symbol, recording
it raises or writes nothing -/
theorem record_reopening (cfg : WorkerConfig) (w : World) (after : ObservationBuffer)
    (event : ObservedMarketEvent) (bar : ClosedBarPayload) (input : CycleInput) (o : CycleOutcome)
    (row : PositionRow) (record : PaperExecutionRecord) (hw : w.Reaches cfg)
    (hrow : w.db.execution.positions.get? (positionIdOf cfg.manifest.experimentId event.symbol) =
    some row) (hclosed : row.status = .closed)
    (ho : w.db.cycleOutcome cfg after event bar input = .ok o)
    (hfilled : o.execution = some record) :
    ¬ ∃ out, w.db.execution.record cfg.arith record = .ok out ∧
      out.1.Protects cfg.manifest.experimentId event.symbol := by
  rintro ⟨⟨t', res⟩, hrec, row', plan', hrow', hopen, _⟩
  obtain ⟨ctx, a, prepared, capability, r, rfl, hent⟩ := cycleOutcome_entered ho hfilled
  have hf := hw.filed
  obtain rfl | ⟨_, plan, hplan⟩ := hent.filed hf hrec
  · rw [hrow, Option.some.injEq] at hrow'
    rw [← hrow', hclosed] at hopen
    cases hopen
  · obtain ⟨old, hold, hst⟩ := hf.account.closed_plan hrow hclosed
    rw [← hplan.planId] at hold
    rw [hplan.before old hold] at hst
    cases hst

/-! ## open, stopped out, and bought again -/

namespace Demo

def openRun : List Input :=
  started ++ [.ingest (mark 10 99) 10, .ingest (bar 0) 60, .ingest (book 70 99) 70, dispatch buy 71,
    dispatch buy 72, dispatch buy 73]

theorem openRun_plans_protect :
    (run (World.step config) world openRun).db.execution.openExitPlans.length = 1 ∧
      (run (World.step config) world openRun).db.execution.PlansProtect ⟨"uuid:experiment"⟩ :=
  ⟨by decide +kernel, plans_protect config _ (reaches openRun)⟩

/-- the stop is crossed at 80 and the position is sold at 85; the next bar waits with a book behind
it -/
def closedRun : List Input :=
  openRun ++ [.ingest (mark 80 88) 80, .ingest (book 85 99) 85, dispatch buy 86, dispatch buy 87,
    .ingest (bar 1) 120, .ingest (book 130 99) 130]

/-- the worker goes on after the entry, until the plan is closed -/
def closing : World := run (World.step config) (run (World.step config) world openRun)
    (closedRun.drop openRun.length)

theorem closing_plans_age :
    closing.db.execution.openExitPlans.length = 0 ∧
      (run (World.step config) world openRun).db.execution.exitPlans.Kept ExitPlan.Ages
        closing.db.execution.exitPlans :=
  ⟨by decide +kernel, World.plans_age (reaches openRun) _⟩

def closedWorld : World := run (World.step config) world closedRun

def position : UUID := positionIdOf ⟨"uuid:experiment"⟩ "BTCUSDT"

def reopening : Py CycleOutcome :=
  closedWorld.db.cycleOutcome config closedWorld.observations (bar 1)
    ⟨"1m", 60, 120, true, minute_ne, by decide⟩ buy

theorem reopening_stale :
    (closedWorld.db.execution.positions.get? position).map (·.status) = some .closed ∧
      (reopening.toOption.bind (·.execution)).isSome ∧
      (closedWorld.step config (dispatch buy 131)).mode = .halted ∧
      (closedWorld.step config (dispatch buy 131)).db.experiment.failureReason =
        some "paper_worker:StaleExecutionState:exit plan is older than persisted state" ∧
      ((closedWorld.step config (dispatch buy 131)).db.execution.positions.get? position).map
        (·.status) = some .closed := by
  decide +kernel

def reopeningOutcome : CycleOutcome := reopening.toOption.get (by decide +kernel)

theorem record_reopening_stale :
    ¬ ∃ out, closedWorld.db.execution.record config.arith
        (reopeningOutcome.execution.get (by decide +kernel)) = .ok out ∧
      out.1.Protects ⟨"uuid:experiment"⟩ "BTCUSDT" :=
  record_reopening config closedWorld closedWorld.observations (bar 1) _ buy reopeningOutcome
    ((closedWorld.db.execution.positions.get? position).get (by decide +kernel)) _
    (reaches closedRun) (Option.some_get _).symm (by decide +kernel)
    (eq_ok_of_toOption (Option.some_get _).symm) (Option.some_get _).symm

end Demo

end Maais
