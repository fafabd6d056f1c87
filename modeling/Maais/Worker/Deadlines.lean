import Maais.Worker.Reopening

/-!
# What fires an exit plan

A plan counts the bars it has been held for and the decisions against it in `observeClosedBar`,
which no transaction of the worker calls.

* `takesUp_fires`  a step that takes up a mark at or beyond the stop or the target of an active
  plan, or a flatten, fires the plan or halts the worker;
* `exitPlan_deadline_met`  so a plan is fired by its deadline in bars when such a step comes before,
  and a decision against an active plan is never approved.
-/

namespace Maais
open Lib Database

variable {cfg : WorkerConfig} {w : World} {input : Input} {db db' : Database} {symbol : String}

def ExecutionTables.planOf (experimentId : UUID) (t : ExecutionTables) (symbol : String) :
    Option ExitPlan :=
  t.exitPlans.get? (planIdOf (positionIdOf experimentId symbol))

variable {before after : ObservationBuffer} {event : ObservedMarketEvent}
  {mark : MarkFundingPayload} {a : AccountState} {q p : PositionState} {official : OfficialContext}
  {fires : Bool} {e : ExitEvaluation} {o : ProtectionOutcome}

theorem Database.MarkEvaluated.planOf
    (hm : MarkEvaluated cfg db before after event mark a p q official fires e o)
    (hf : Filed cfg.manifest.experimentId db.execution) :
    db.execution.planOf cfg.manifest.experimentId event.symbol = some official.exitPlan := by
  have ha : Agrees cfg.manifest.experimentId db.execution a := .load hf.account hm.loaded
  obtain ⟨_, hpid, _⟩ := ha event.symbol p hm.position
  obtain ⟨hget, _⟩ := hf.account.get?_listed hm.read.listed
  rw [hm.read.plan, hpid] at hget
  exact hget

theorem Database.MarkEvaluated.planId
    (hm : MarkEvaluated cfg db before after event mark a p q official fires e o)
    (hf : Filed cfg.manifest.experimentId db.execution) :
    e.plan.planId = planIdOf (positionIdOf cfg.manifest.experimentId event.symbol) := by
  have hid := (hf.account.plans _ _ (hm.planOf hf)).planId
  obtain ⟨_, he, _⟩ | ⟨_, _, he⟩ | ⟨_, reason, exec, _, he, _⟩ := hm.plan_cases
  · rw [he]
    exact hid
  · rw [he]
    exact hid
  · rw [he]
    exact hid

/-- the exit of a mark is new: a stored order of it would mean that the plan is closed -/
theorem Database.MarkEvaluated.exit_recorded {b next : AccountState} {intent : ExitIntent}
    {price : ℚ} {r : PaperBrokerResult}
    {out : ExecutionTables × ExecutionTables.PaperExecutionResult}
    (hm : MarkEvaluated cfg db before after event mark a p q official fires e o)
    (hf : Filed cfg.manifest.experimentId db.execution) (hx : cfg.broker.executeMarketExit cfg.arith
      ((sortedContext cfg before after event fires official).exitCommand event e.plan intent price)
      b e.plan (sortedContext cfg before after event fires official).books = .ok r)
    (hacc : r.record.account = some next)
    (hrec : db.execution.record cfg.arith r.record = .ok out) :
    ExecutionTables.Recorded cfg.arith db.execution r.record next out.1 := by
  obtain ⟨_, ⟨_, hstored⟩ | hrec⟩ := ExecutionTables.record_cases hacc hrec
  · obtain ⟨_, _, _, hxf⟩ := PaperBroker.executeMarketExit_cases hx
    obtain ⟨fillId, horigin⟩ := hf.orders.stored hstored
    obtain ⟨old, hold, hcl⟩ := horigin.protective_closed (s := "") (Or.inl hxf.order.orderId)
    rw [hm.planId hf] at hold
    obtain rfl : old = official.exitPlan := Option.mem_unique hold (hm.planOf hf)
    obtain ⟨hst, _⟩ | ⟨hst, _⟩ | ⟨hst, _⟩ := hm.plan_cases
    all_goals
      rw [hcl] at hst
      cases hst
  · exact hrec

def ExecutionTables.PlanActive (experimentId : UUID) (t : ExecutionTables)
    (symbol : String) : Prop :=
  ∃ plan ∈ t.planOf experimentId symbol, plan.status = .active

instance {experimentId : UUID} {t : ExecutionTables} : Decidable
    (t.PlanActive experimentId symbol) := by
  unfold ExecutionTables.PlanActive
  infer_instance

def ExecutionTables.PlanFired (experimentId : UUID) (t : ExecutionTables)
    (symbol : String) : Prop :=
  ∃ plan, t.planOf experimentId symbol = some plan ∧ plan.status ≠ .active

theorem planFired_not_active {experimentId : UUID} {t : ExecutionTables}
    (h : t.PlanFired experimentId symbol) : ¬ t.PlanActive experimentId symbol := by
  obtain ⟨plan, hp, hs⟩ := h
  rintro ⟨plan', hp', hs'⟩
  rw [Option.mem_def, hp, Option.some.injEq] at hp'
  exact hs (hp' ▸ hs')

theorem run_fired (hf : Filed cfg.manifest.experimentId w.db.execution)
    (h : w.db.execution.PlanFired cfg.manifest.experimentId symbol) (l : List Input) :
    (run (World.step cfg) w l).db.execution.PlanFired cfg.manifest.experimentId symbol := by
  obtain ⟨plan, hp, hs⟩ := h
  obtain ⟨plan', hp', hages⟩ := (World.run_ages hf l).2 _ plan hp
  exact ⟨plan', hp', fun ha => hs (hages.1 ha)⟩

/-! ## what fires a plan -/

def Database.HoldsPosition (cfg : WorkerConfig) (db : Database) (symbol : String) : Prop :=
  ∃ a ∈ (db.loadAccount cfg).toOption, (openPosition cfg a symbol).isSome

instance : Decidable (db.HoldsPosition cfg symbol) := by
  unfold Database.HoldsPosition
  infer_instance

theorem holdsPosition_cases (h : db.HoldsPosition cfg symbol) :
    ∃ a p, db.loadAccount cfg = .ok a ∧ openPosition cfg a symbol = some p := by
  obtain ⟨a, ha, hp⟩ := h
  obtain ⟨p, hp⟩ := Option.isSome_iff_exists.mp hp
  exact ⟨a, p, eq_ok_of_toOption ha, hp⟩

/-- the event is a mark at or beyond the stop or the target of the plan, new to the worker and to
the store -/
structure World.Crosses (cfg : WorkerConfig) (w : World) (event : ObservedMarketEvent)
    (mark : MarkFundingPayload) (plan : ExitPlan) : Prop where
  payload : event.payload = .markFunding mark
  stored : w.db.execution.planOf cfg.manifest.experimentId event.symbol = some plan
  beyond : plan.markReason mark.markPrice ≠ none
  journal : ∀ known ∈ w.journal, known.identity ≠ event.identity
  unrecorded :
    some (ExecutionTables.snapshotSource cfg.manifest.experimentId "protective_mark" event.eventId)
    ∉ w.db.execution.snapshots.map (·.sourceId)

/-- whatever arrives during the poll, the accepted flatten can be planned -/
def World.Plannable (cfg : WorkerConfig) (w : World) (i : PollInput)
    (first : OperatorCommand) : Prop :=
  ∀ claimed after, w.claimFlatten cfg i first = .ok claimed →
    w.observations.observeAll cfg i.arriving = .ok after →
    ∃ plan, claimed.1.prepareFlatten (w.config cfg) claimed.2 i.plannedAt w.observations after =
    .ok plan

/-- the worker takes up a mark that crosses the plan of the symbol, or a flatten -/
def World.TakesUp (cfg : WorkerConfig) (w : World) (symbol : String) : Input → Prop
  | .dispatch _ _ => (w.mode = .running ∨ w.mode = .stopping) ∧ ∃ event mark plan,
      w.queue.head? = some event ∧ event.symbol = symbol ∧ w.Crosses cfg event mark plan
  | .poll i _ => (w.mode = .standby ∨ w.mode = .running) ∧ ∃ first,
      w.db.acceptedFlattens = [first] ∧ w.Plannable cfg i first
  | _ => False

theorem Database.MarkEvaluated.planFired {t' : ExecutionTables}
    (hm : MarkEvaluated cfg db before after event mark a p q official fires e o)
    (hf : Filed cfg.manifest.experimentId db.execution)
    (hid : o.account.experimentId = cfg.manifest.experimentId)
    (hactive : official.exitPlan.status = .active)
    (hbeyond : official.exitPlan.markReason mark.markPrice ≠ none)
    (hnew :
      some (ExecutionTables.snapshotSource cfg.manifest.experimentId "protective_mark"
      event.eventId) ∉ db.execution.snapshots.map (·.sourceId))
    (h : db.protectedTables cfg o = .ok t') :
    t'.PlanFired cfg.manifest.experimentId event.symbol := by
  have hplanId := hm.planId hf
  have hfired : ∀ {plan : ExitPlan}, plan.planId = e.plan.planId → plan.status ≠ .active →
      t'.exitPlans = db.execution.exitPlans.set plan.planId (storedPlan cfg.arith plan) →
      t'.PlanFired cfg.manifest.experimentId event.symbol := by
    intro plan hp hs hset
    refine ⟨storedPlan cfg.arith plan, ?_, hs⟩
    rw [ExecutionTables.planOf, hset, ← hplanId, ← hp]
    exact Dict.get?_set_self _ _ _
  obtain ⟨hs, _⟩ | ⟨_, hn, _⟩ | ⟨_, reason, exec, _, he, hintent⟩ := hm.plan_cases
  · rw [hactive] at hs
    cases hs
  · exact absurd hn hbeyond
  · have houtcome := hm.outcome
    cases houtcome with
    | marked hi => exact absurd hi hintent
    | halted hi hp hx =>
      simp only [protectedTables, bind_eq_ok, pure_ok_iff] at h
      obtain ⟨recorded, hrec, rfl⟩ := h
      obtain ⟨_, ⟨_, _, hstored⟩ | ⟨_, _, hper, _⟩⟩ := ExecutionTables.recordAccountState_cases hrec
      · rw [← hid] at hnew
        exact absurd hstored hnew
      · refine hfired rfl ?_ (ExecutionTables.persistPlan_eq hper.plans).2.2
        rw [he]
        simp [ExitPlan.triggered]
    | @exited intent price r next closed hi hp hx hacc hrp =>
      simp only [protectedTables, bind_eq_ok, pure_ok_iff] at h
      obtain ⟨recorded, hrec, rfl⟩ := h
      obtain ⟨_, _, closed', hxf⟩ := PaperBroker.executeMarketExit_cases hx
      obtain rfl : closed' = closed := Option.mem_unique hxf.record.2.1 hrp
      obtain ⟨created, hper⟩ := (hm.exit_recorded hf hx hacc hrec).persisted
      have hplans := hper.plans
      rw [hrp] at hplans
      have hclosed := (ExitPlan.close_eq hxf.closed).2
      refine hfired ?_ ?_ (ExecutionTables.persistPlan_eq hplans).2.2
      · rw [hclosed]
        rfl
      · rw [hclosed]
        simp [ExitPlan.closed]

namespace World

variable {i : DispatchInput}

theorem process_mark (cfg : WorkerConfig) (i : DispatchInput)
    (hp : event.payload = .markFunding mark)
    (hnew : ∀ known ∈ w.journal, known.identity ≠ event.identity) :
    (∃ e, (w.process cfg i event).2 = .error e) ∧ (w.process cfg i event).1.db = w.db ∨
      (w.process cfg i event).2 = .ok () ∧ ∃ before after, w.db.observe cfg before after event =
      .ok (w.process cfg i event).1.db := by
  have hprocess : w.process cfg i event =
    w.processEvent cfg i event := by rw [process, heartbeat, hp]
  rw [hprocess, processEvent]
  split
  · exact Or.inl ⟨⟨_, rfl⟩, rfl⟩
  · rename_i hnone
    have hfind : w.journal.find? (fun e => e.identity = event.identity) = none :=
      List.find?_eq_none.mpr fun e he => by simpa using hnew e he
    simp [appendJournal, MarketEventJournal.append, hfind, bind_eq_ok] at hnone
  · rename_i appended ha
    have hdb := (appendJournal_db ha).1
    simp only [processNew, hp, arrive]
    cases appended.observations.observeAll cfg (i.arriving 0) with
    | error e => exact Or.inl ⟨⟨e, rfl⟩, hdb⟩
    | ok observations =>
      simp only [Outcome.andThen, commit]
      cases h : appended.db.observe cfg appended.observations observations event with
      | error e => exact Or.inl ⟨⟨e, rfl⟩, hdb⟩
      | ok db =>
        rw [hdb] at h
        exact Or.inr ⟨rfl, _, _, h⟩

/-- a turn that raises halts the worker, and no cursor moves any more -/
theorem settle_halts {α : Type} {u : Turn α} {e : PyError} (cfg : WorkerConfig) (t : Time)
    (f : World → α → World) (h : u.2 = .error e) :
    (settle cfg u t f).mode = .halted ∧ (settle cfg u t f).db.cursors = u.1.db.cursors := by
  rw [settle, h]
  refine ⟨rfl, ?_⟩
  simp only [haltWorker, commit]
  cases hh : u.1.db.haltForFailure cfg e t with
  | error _ => rfl
  | ok db =>
    obtain ⟨_, _, _, _, heq, _⟩ := haltForFailure_eq hh
    show db.cursors = _
    rw [heq]

/-- the plan is fired, or the step raised: then the worker is halted and no cursor has moved -/
def FiresOrHalts (cfg : WorkerConfig) (w : World) (symbol : String) (w' : World) : Prop :=
  w'.db.execution.PlanFired cfg.manifest.experimentId symbol ∨ w'.mode = .halted ∧
    w'.db.cursors = w.db.cursors

theorem dispatch_fires {haltedAt : Time} (hf : Filed cfg.manifest.experimentId w.db.execution)
    (ha : w.db.execution.PlanActive cfg.manifest.experimentId symbol)
    (hopen : w.db.HoldsPosition cfg symbol) (h : w.TakesUp cfg symbol (.dispatch i haltedAt)) :
    w.FiresOrHalts cfg symbol (w.step cfg (.dispatch i haltedAt)) := by
  obtain ⟨hmode, event, mark, plan, hq, rfl, hc⟩ := h
  obtain ⟨rest, hqueue⟩ : ∃ rest, w.queue = event :: rest := List.head?_eq_some_iff.mp hq
  have hstep : w.step cfg (.dispatch i haltedAt) =
      settle cfg ({ w with queue := rest }.process cfg i event) haltedAt fun w _ => w := by
    rw [step, if_pos hmode, dispatchNext, hqueue]
  rw [hstep]
  obtain ⟨⟨e, he⟩, hdb⟩ | ⟨hok, before, after, hobs⟩ :=
    process_mark (w := { w with queue := rest }) cfg i hc.payload hc.journal
  · obtain ⟨hm, hcur⟩ := settle_halts cfg haltedAt (fun w _ => w) he
    exact Or.inr ⟨hm, hcur.trans (congrArg Database.cursors hdb)⟩
  · obtain ⟨a, p, hload, hp⟩ := holdsPosition_cases hopen
    obtain ⟨official, o, hobserved⟩ := observe_open hc.payload hload hp hobs
    obtain ⟨q, fires, e, hm⟩ := hobserved.cases
    obtain rfl : official.exitPlan = plan := Option.mem_unique (hm.planOf hf) hc.stored
    obtain ⟨plan, hplan, hactive⟩ := ha
    obtain rfl : plan = official.exitPlan := Option.mem_unique hplan hc.stored
    rw [settle, hok]
    exact Or.inl (hm.planFired hf hobserved.recorded.experiment hactive hc.beyond hc.unrecorded
      hobserved.recorded.tables)

theorem completeFlatten_fires {q : OperatorCommand} {plannedAt t₁ t₂ : Time} {planned : FlattenPlan}
    {done : Database × OperatorCommandExecution} (hf : Filed cfg.manifest.experimentId db.execution)
    (ha : db.execution.PlanActive cfg.manifest.experimentId symbol)
    (hopen : db.HoldsPosition cfg symbol)
    (hp : db.prepareFlatten cfg q plannedAt before after = .ok planned)
    (h : db.completeFlatten cfg q planned t₁ t₂ = .ok done) :
    done.1.execution.PlanFired cfg.manifest.experimentId symbol := by
  obtain ⟨_, claimed, _, hclaim, _, hrec⟩ := completeFlatten_cases h
  obtain ⟨control, account, last, hr⟩ := recordFlattenPlan_cases hrec
  obtain ⟨plan, hplan, hactive⟩ := ha
  have hclaimed := (claim_eq hclaim).2
  obtain ⟨_, hnone⟩ | ⟨_, hclosed, _⟩ := flatten_filed hf hp hclaimed hr
  · obtain ⟨a, p, hload, hpos⟩ := holdsPosition_cases hopen
    have hload' := hr.loaded
    rw [hclaimed] at hload'
    obtain rfl : a = account := Except.ok.inj (hload.symm.trans hload')
    obtain ⟨hget, hflat⟩ := openPosition_eq.mp hpos
    have hmem : p ∈ a.openPositions cfg.arith :=
      List.mem_filter.mpr ⟨(Dict.mem_values_iff _).mpr ⟨_, hget⟩, by simpa using hflat⟩
    rw [hnone] at hmem
    cases hmem
  · obtain ⟨plan', hplan', hs⟩ := hclosed _ plan hplan (by simp [hactive])
    exact ⟨plan', hplan', by simp [hs]⟩

theorem poll_fires {i : PollInput} {haltedAt : Time}
    (hf : Filed cfg.manifest.experimentId w.db.execution)
    (ha : w.db.execution.PlanActive cfg.manifest.experimentId symbol)
    (hopen : w.db.HoldsPosition cfg symbol) (h : w.TakesUp cfg symbol (.poll i haltedAt)) :
    w.FiresOrHalts cfg symbol (w.step cfg (.poll i haltedAt)) := by
  obtain ⟨hmode, first, hfirst, hplannable⟩ := h
  rw [step, if_pos hmode]
  have hraised : ∀ {t : Turn (Option OperatorCommandExecution)} {e : PyError}, t.2 = .error e →
      t.1.db.cursors = w.db.cursors →
      w.FiresOrHalts cfg symbol (settle cfg t haltedAt supervise) := by
    intro t e he hdb
    obtain ⟨hm, hcur⟩ := settle_halts cfg haltedAt supervise he
    exact Or.inr ⟨hm, hcur.trans hdb⟩
  simp only [executeNext, hfirst, continueFlatten]
  cases hclaim : w.claimFlatten cfg i first with
  | error e => exact hraised rfl rfl
  | ok claimed =>
    simp only [claimFlatten, bind_eq_ok, pure_ok_iff] at hclaim
    obtain ⟨out, hout, q, hq, rfl⟩ := hclaim
    have hdb := (claim_eq hout).2
    have hcursors : out.1.cursors = w.db.cursors := by rw [hdb]
    simp only [arrive]
    cases hafter : w.observations.observeAll cfg i.arriving with
    | error e => exact hraised rfl hcursors
    | ok after =>
      obtain ⟨planned, hplanned⟩ :=
        hplannable (out.1, q) after (by simp [claimFlatten, hout, hq]) hafter
      let v : World := { w with db := out.1, observations := after, queue := w.queue ++ i.arriving }
      have hfinish :
          v.finishFlatten cfg i q
          (v.db.prepareFlatten (v.config cfg) q i.plannedAt w.observations after) =
          v.commitCommand (out.1.completeFlatten (w.config cfg) q planned (i.now 1) (i.now 2)) := by
        rw [show v.db.prepareFlatten (v.config cfg) q i.plannedAt w.observations after =
          .ok planned from hplanned]
        rfl
      show w.FiresOrHalts cfg symbol (settle cfg (v.finishFlatten cfg i q _) haltedAt supervise)
      rw [hfinish]
      cases hdone : out.1.completeFlatten (w.config cfg) q planned (i.now 1) (i.now 2) with
      | error e => exact hraised rfl hcursors
      | ok done =>
        have hexecution : out.1.execution = w.db.execution := by rw [hdb]
        have hopen' : out.1.HoldsPosition (w.config cfg) symbol := by
          rw [hdb]
          exact hopen
        have hfired : done.1.execution.PlanFired (w.config cfg).manifest.experimentId symbol :=
          completeFlatten_fires (hexecution ▸ hf) (hexecution ▸ ha) hopen' hplanned hdone
        refine Or.inl ?_
        show (supervise { v with db := done.1 } (some done.2)).db.execution.PlanFired _ _
        rwa [supervise_db]

theorem takesUp_fires {input : Input} (hf : Filed cfg.manifest.experimentId w.db.execution)
    (ha : w.db.execution.PlanActive cfg.manifest.experimentId symbol)
    (hopen : w.db.HoldsPosition cfg symbol) (h : w.TakesUp cfg symbol input) :
    w.FiresOrHalts cfg symbol (w.step cfg input) := by
  cases input with
  | dispatch i haltedAt => exact dispatch_fires hf ha hopen h
  | poll i haltedAt => exact poll_fires hf ha hopen h
  | start | ingest | enqueue | fail => exact h.elim

/-! ## runs -/

/-- the input starts a new process -/
def Starts : Input → Prop
  | .start _ _ _ => True
  | _ => False

instance : DecidablePred Starts := fun input => by
  cases input <;> unfold Starts <;> infer_instance

theorem halted_step (h : w.mode = .halted) (hi : ¬ Starts input) :
    (w.step cfg input).mode = .halted ∧ (w.step cfg input).db.cursors = w.db.cursors := by
  cases input with
  | start workerId startedAt haltedAt => exact absurd trivial hi
  | ingest event haltedAt => simp [step, h]
  | dispatch i haltedAt => simp [step, h]
  | enqueue q =>
    rw [step]
    split
    · exact ⟨h, rfl⟩
    · exact ⟨h, rfl⟩
  | poll i haltedAt => simp [step, h]
  | fail e haltedAt => simp [step, h]

/-- a halted worker dispatches nothing until a new process starts -/
theorem halted_run (h : w.mode = .halted) {l : List Input} (hl : ∀ input ∈ l, ¬ Starts input) :
    (run (step cfg) w l).db.cursors = w.db.cursors := by
  induction l generalizing w with
  | nil => rfl
  | cons input l ih =>
    have hstep : (w.step cfg input).mode = .halted ∧ _ :=
      halted_step h (hl input List.mem_cons_self)
    obtain ⟨hmode, hcursors⟩ := hstep
    exact (ih hmode fun x hx => hl x (List.mem_cons_of_mem _ hx)).trans hcursors

end World

/-- how many closed bars of the symbol were dispatched: a cursor counts them in its version -/
def Database.barsDispatched (db : Database) (symbol : String) : Nat :=
  ((db.cursors.values.filter (·.symbol = symbol)).map (·.version)).sum

/-- **no decision against a plan is approved**: the capacity gate passes the side of an open
position only -/
theorem approved_not_opposing {bar : ClosedBarPayload} {cycle : CycleInput} {o : CycleOutcome}
    {plan : ExitPlan} (hf : Filed cfg.manifest.experimentId db.execution)
    (hplan : db.execution.planOf cfg.manifest.experimentId event.symbol = some plan)
    (hactive : plan.status = .active) (ho : db.cycleOutcome cfg after event bar cycle = .ok o) :
    ¬ plan.opposes o.direction o.approved := by
  rintro ⟨happ, hopp⟩
  obtain ⟨hna, _⟩ | ⟨_, ctx, a, prepared, happroved, hdir, _⟩ := cycleOutcome_cases ho
  · rw [hna] at happ
    cases happ
  have hagree : Agrees cfg.manifest.experimentId db.execution ctx.account :=
    .load hf.account happroved.built.account
  -- the context was built only because the plan belongs to an open position, which stands on its
  -- side
  have hid : plan.positionId = positionIdOf cfg.manifest.experimentId event.symbol :=
    (planIdOf_inj.mp (hf.account.plans _ plan hplan).derived).symm
  obtain ⟨p, hp, hpid⟩ := List.mem_map.mp (happroved.built.placed plan
    (hf.account.mem_open hplan (Or.inl hactive)))
  obtain ⟨hpv, hopen⟩ := List.mem_filter.mp hp
  obtain ⟨s, hs⟩ := (Dict.mem_values_iff _).mp hpv
  obtain ⟨_, hps, row, hrow, hside⟩ := hagree s p hs
  obtain rfl : s = event.symbol := positionIdOf_inj.mp (hps.symm.trans (hpid.trans hid))
  obtain ⟨row', hrow', _, hside', _⟩ := hf.account.open_row hplan (by simp [hactive])
  rw [← hpid, hrow, Option.some.injEq] at hrow'
  subst hrow'
  obtain hflat | hsame := happroved.gates.2.2.2.2.1 p hs
  · simp [hflat] at hopen
  · rw [hdir, ← hsame, ← hside, hside'] at hopp
    obtain ⟨h, h'⟩ | ⟨h, h'⟩ := hopp <;> rw [h] at h' <;> cases h'

/-- **the deadlines of an exit plan**: a plan is no longer active when `maximumBars` bars of its
symbol were dispatched, in every run that takes up a mark beyond its stop or target, or a flatten,
before; and no bar carries an approved decision against an active plan -/
theorem exitPlan_deadline_met (cfg : WorkerConfig) (w : World) (symbol : String) (plan : ExitPlan)
    (before : List Input) (input : Input) (rest : List Input) (hw : w.Reaches cfg)
    (hplan : w.db.execution.planOf cfg.manifest.experimentId symbol = some plan)
    (hactive : plan.status = .active)
    (htime : (run (World.step cfg) w before).db.barsDispatched symbol <
      w.db.barsDispatched symbol + plan.maximumBars)
    (hopen : (run (World.step cfg) w before).db.HoldsPosition cfg symbol)
    (htaken : (run (World.step cfg) w before).TakesUp cfg symbol input)
    (hrest : ∀ x ∈ rest, ¬ World.Starts x) : (w.db.barsDispatched symbol + plan.maximumBars ≤
        (run (World.step cfg) w (before ++ input :: rest)).db.barsDispatched symbol →
      ¬ (run (World.step cfg) w (before ++ input :: rest)).db.execution.PlanActive
        cfg.manifest.experimentId symbol) ∧
    ∀ after event bar cycle o, event.symbol = symbol →
      w.db.cycleOutcome cfg after event bar cycle = .ok o →
      ¬ plan.opposes o.direction o.approved := by
  refine ⟨fun hdue => ?_, ?_⟩
  · obtain ⟨hf, hages⟩ := World.run_ages hw.filed before
    rw [run_append, run_cons] at hdue ⊢
    set v := run (World.step cfg) w before
    have hf' : Filed cfg.manifest.experimentId (v.step cfg input).db.execution :=
      (World.run_ages hf [input]).1
    by_cases ha : v.db.execution.PlanActive cfg.manifest.experimentId symbol
    · obtain hfired | ⟨hhalted, hcursors⟩ := World.takesUp_fires hf ha hopen htaken
      · exact planFired_not_active (run_fired hf' hfired rest)
      · -- the worker stays halted, so the bar of the deadline is never dispatched
        have hbars : (run (World.step cfg) (v.step cfg input) rest).db.barsDispatched symbol =
            v.db.barsDispatched symbol := by
          simp only [Database.barsDispatched, World.halted_run hhalted hrest, hcursors]
        exact absurd htime (not_lt.mpr (hbars ▸ hdue))
    · obtain ⟨plan', hplan', _⟩ := hages _ plan hplan
      have hfired : v.db.execution.PlanFired cfg.manifest.experimentId symbol :=
        ⟨plan', hplan', fun hs => ha ⟨plan', hplan', hs⟩⟩
      exact planFired_not_active (run_fired hf hfired (input :: rest))
  · rintro after event bar cycle o rfl ho
    exact approved_not_opposing hw.filed hplan hactive ho

/-! ## a position held for sixty bars -/

namespace Demo

def heldBar (k : Nat) : List Input :=
  [.ingest (bar k) (60 * k + 60), .ingest (book (60 * k + 70) 99) (60 * k + 70),
    dispatch hold (60 * k + 71), dispatch hold (60 * k + 72)]

def heldRun : List Input := (List.range 60).flatMap fun k => heldBar (k + 1)

def openWorld : World := run (World.step config) world openRun

theorem heldRun_active :
    (openWorld.db.execution.planOf ⟨"uuid:experiment"⟩ "BTCUSDT").map (·.maximumBars) = some 60 ∧
      (run (World.step config) openWorld heldRun).mode = .running ∧
      (run (World.step config) openWorld heldRun).db.barsDispatched "BTCUSDT" =
        openWorld.db.barsDispatched "BTCUSDT" + 60 ∧
      (run (World.step config) openWorld heldRun).db.execution.PlanActive ⟨"uuid:experiment"⟩
          "BTCUSDT" := by
  decide +kernel

def openPlan : ExitPlan :=
  (openWorld.db.execution.planOf ⟨"uuid:experiment"⟩ "BTCUSDT").get (by decide +kernel)

/-- the stop is crossed at 80, with a book behind the mark -/
def crossed : List Input := [.ingest (Demo.mark 80 88) 80, .ingest (book 85 99) 85]

def crossedWorld : World := run (World.step config) openWorld crossed

/-- the mark and the book are taken up, and sixty bars follow -/
def crossedRun : List Input := crossed ++ dispatch hold 86 :: dispatch hold 87 :: heldRun

theorem crossed_takesUp : crossedWorld.TakesUp config "BTCUSDT" (dispatch hold 86) :=
  ⟨Or.inl (by decide +kernel), Demo.mark 80 88, _,
    (crossedWorld.db.execution.planOf ⟨"uuid:experiment"⟩ "BTCUSDT").get
      (by decide +kernel), by decide +kernel, rfl,
    rfl, (Option.some_get _).symm, by decide +kernel, by decide +kernel, by decide +kernel⟩

theorem exitPlan_deadline_met_crossed :
    openWorld.db.barsDispatched "BTCUSDT" + openPlan.maximumBars ≤
        (run (World.step config) openWorld crossedRun).db.barsDispatched "BTCUSDT" ∧
      ¬ (run (World.step config) openWorld crossedRun).db.execution.PlanActive ⟨"uuid:experiment"⟩
          "BTCUSDT" := by
  have hdue : openWorld.db.barsDispatched "BTCUSDT" + openPlan.maximumBars ≤
      (run (World.step config) openWorld crossedRun).db.barsDispatched
        "BTCUSDT" := by decide +kernel
  refine ⟨hdue, ?_⟩
  rw [crossedRun] at hdue ⊢
  exact (exitPlan_deadline_met config openWorld "BTCUSDT" openPlan crossed (dispatch hold 86)
    (dispatch hold 87 :: heldRun) (reaches openRun) (Option.some_get _).symm (by decide +kernel)
    (by decide +kernel) (by decide +kernel) crossed_takesUp (by decide +kernel)).1 hdue

end Demo

end Maais
