import Maais.Store.Filed
import Maais.Worker.Writes

/-!
# The filing of the tables along every run

* `Entered.filed`, `MarkEvaluated.filed`, `Flattening.filed`, ..   each write keeps the tables
  filed, and says what it did to the exit plans;
* `ExecutionChange.filed`  the same of every transaction;
* `Reaches.filed`  the tables of every reachable world are filed.
-/

namespace Maais
open Lib Database

variable {cfg : WorkerConfig} {w : World} {input : Input} {db db' : Database}
  {t t' : ExecutionTables}

/-! ## entries -/

variable {account : AccountState} {symbol : String}

theorem opened_identity {current : PositionState} (ha : Agrees cfg.manifest.experimentId t account)
    (hc : account.OpensFrom (cfg.entryPositionId account symbol) symbol current) :
    current.symbol = symbol ∧
        current.positionId = positionIdOf cfg.manifest.experimentId symbol := by
  obtain hp | ⟨hn, he⟩ := hc
  · obtain ⟨h1, h2, _⟩ := ha symbol current hp
    exact ⟨h1, h2⟩
  · simp only [PositionState.empty, bind_eq_ok, pure_ok_iff] at he
    obtain ⟨_, _, rfl⟩ := he
    exact ⟨rfl, by simp only [WorkerConfig.entryPositionId, hn]; rfl⟩

theorem entryPositionId_eq (ha : Agrees cfg.manifest.experimentId t account) :
    cfg.entryPositionId account symbol = positionIdOf cfg.manifest.experimentId symbol := by
  unfold WorkerConfig.entryPositionId
  cases hp : account.positions.get? symbol with
  | none => rfl
  | some p => exact (ha symbol p hp).2.1

theorem activeExitPlan_cases {plans : List ExitPlan}
    {plan : ExitPlan} (h : activeExitPlan cfg account plans symbol = some plan) :
    ∃ p, account.positions.get? symbol = some p ∧ ¬ p.isFlat cfg.arith ∧ plan ∈ plans ∧
      plan.positionId = p.positionId := by
  simp only [activeExitPlan, Option.bind_eq_bind, Option.bind_eq_some_iff, openPosition_eq] at h
  obtain ⟨p, ⟨hp, hopen⟩, hfind⟩ := h
  exact ⟨p, hp, hopen, List.mem_of_find?_eq_some hfind, by simpa using List.find?_some hfind⟩

variable {p : PositionState} {at_ : Time}

theorem entryPlan_cases {A : Arith} {command : MarketEntryCommand}
    {active : Option ExitPlan} {plan : ExitPlan}
    (h : PaperBroker.entryPlan A command p at_ active = .ok plan) : plan.status = .active ∧
      (active = none ∧ plan.planId = command.exitPlanId ∧ plan.positionId = p.positionId ∧
          plan.side = p.side ∧ plan.version = 1 ∨
        ∃ plan₀, active = some plan₀ ∧ plan₀.positionId = p.positionId ∧ plan₀.StepsTo plan) := by
  cases active with
  | none =>
    obtain ⟨h1, h2, h3, _, _, h6, _, h8, _⟩ := ExitPlan.create_eq h
    exact ⟨h6, Or.inl ⟨rfl, h1, h2, h3, h8⟩⟩
  | some plan₀ =>
    simp only [PaperBroker.entryPlan, bind_eq_ok, raiseIf_eq_ok, ne_eq, not_not] at h
    obtain ⟨_, hid, h⟩ := h
    obtain ⟨hsteps, hs, _⟩ := ExitPlan.resize_eq h
    exact ⟨hs, Or.inr ⟨plan₀, rfl, hid, hsteps⟩⟩

structure PlanEntered (cfg : WorkerConfig) (t : ExecutionTables) (symbol : String) (plan : ExitPlan)
    (t' : ExecutionTables) : Prop where
  planId : plan.planId = planIdOf (positionIdOf cfg.manifest.experimentId symbol)
  active : plan.status = .active
  before : ∀ old, t.exitPlans.get? plan.planId = some old → old.status = .active
  after : t'.exitPlans = t.exitPlans.set plan.planId (storedPlan cfg.arith plan)

variable {after : ObservationBuffer} {r : PaperBrokerResult}

/-- **an entry that is recorded** leaves an active plan where an active one, or none, was -/
theorem Database.Entered.filed {frameId : UUID} {ctx : EntryDecisionContext} {a : CycleAnalysis}
    {prepared : PreparedOrder} {capability : ExecutionCapability}
    {res : ExecutionTables.PaperExecutionResult}
    (he : Entered cfg db after frameId symbol at_ ctx a prepared capability r)
    (hf : Filed cfg.manifest.experimentId db.execution)
    (h : db.execution.record cfg.arith r.record = .ok (t', res)) : t' = db.execution ∨
      Filed cfg.manifest.experimentId t' ∧ ∃ plan, PlanEntered cfg db.execution symbol plan t' := by
  obtain ⟨next, p, plan, hfill⟩ := PaperBroker.executeMarketEntry_cases he.executed
  obtain ⟨hracc, hrplan, hrfills, _⟩ := hfill.record
  obtain ⟨_, ⟨rfl, _⟩ | hrec⟩ := ExecutionTables.record_cases hracc h
  · exact Or.inl rfl
  have hbuilt := he.approved.built
  have ha : Agrees cfg.manifest.experimentId db.execution ctx.account :=
    .load hf.account hbuilt.account
  -- the position after the fill
  obtain ⟨q, cash, rfl, _, ⟨_, current, hc, hq, _⟩ | ⟨hbad, _⟩⟩ :=
    AccountState.applyFill_cases hfill.filled
  swap
  · cases hbad
  obtain ⟨hsame, _, hside, hneutral, _, hscale⟩ := PositionState.openFill_step hq
  obtain ⟨hsym, hid⟩ := opened_identity ha hc
  have hqid : q.symbol = symbol ∧ q.positionId = positionIdOf cfg.manifest.experimentId symbol :=
    ⟨hsame.2.2.trans hsym, hsame.1.trans hid⟩
  have hp : p = q := by
    have hpos := hfill.position
    rw [AccountState.advance_positions] at hpos
    exact Option.mem_unique hpos (Dict.get?_set_self _ _ _)
  subst hp
  have hne : p.side ≠ .neutral := hside.symm ▸ hneutral
  -- the plan after the fill
  obtain ⟨hactive, hplan⟩ := entryPlan_cases hfill.planned
  have hkey : plan.planId = planIdOf p.positionId ∧ plan.positionId = p.positionId ∧
      plan.side = p.side ∧ 1 ≤ plan.version ∧
      ∀ old, db.execution.exitPlans.get? plan.planId = some old → old.version ≤ plan.version →
        old.status ≠ .closed := by
    obtain ⟨_, h1, h2, h3, h4⟩ | ⟨plan₀, hact, hpid, hsteps⟩ := hplan
    · have hpid : plan.planId = planIdOf p.positionId := by
        rw [h1, hqid.2, ← entryPositionId_eq ha]
        rfl
      refine ⟨hpid, h2, h3, by omega, fun old hold hv hcl => ?_⟩
      have := (hf.account.plans _ old hold).closed hcl
      omega
    · rw [hbuilt.plan] at hact
      obtain ⟨p₀, hp₀, hopen, hmem, hpid₀⟩ := activeExitPlan_cases hact
      obtain ⟨hget, hncl, hfiled⟩ := hf.account.get?_listed hmem
      have hpid' : plan.planId = planIdOf p.positionId := by
        rw [hsteps.planId, hfiled.derived, hpid]
      have hcur : current = p₀ := by
        rcases hc with hc | ⟨hn, _⟩
        · exact Option.mem_unique hc hp₀
        · exact absurd (hn.symm.trans hp₀) (by simp)
      subst hcur
      obtain ⟨_, _, row, hrow, hrside⟩ := ha symbol current hp₀
      obtain ⟨row', hrow', _, hrs', _⟩ := hf.account.open_row hget hncl
      rw [hpid₀, hrow, Option.some.injEq] at hrow'
      subst hrow'
      refine ⟨hpid', hsteps.positionId.trans hpid, ?_, ?_, fun old hold _ => ?_⟩
      · rw [hsteps.side, ← hrs', hrside, hscale hopen, hside]
      · have := hsteps.version
        have := hfiled.version
        omega
      · rw [hpid', ← hpid, hget, Option.some.injEq] at hold
        exact hold ▸ hncl
  obtain ⟨hpid, hppos, hpside, hpv, hold⟩ := hkey
  have hver : ∀ old, db.execution.exitPlans.get? plan.planId = some old →
      old.version ≤ plan.version := by
    intro old ho
    obtain ⟨created, hper⟩ := hrec.persisted
    rw [hrplan] at hper
    exact (ExecutionTables.persistPlan_eq hper.plans).1 old ho
  obtain ⟨hfiled, _, hset⟩ := hf.recorded ha (AccountState.advance_moves) hqid hrplan
    ⟨hpid, hppos, hpv, fun hcl => (by rw [hactive] at hcl; cases hcl), by rw [hactive]; simp⟩
    ⟨fun hn => absurd hn hne, fun _ => hpside⟩
    (fun old ho => Or.inr (hold old ho (hver old ho))) hrfills hfill.order.orderId.symm
      hfill.order.version
    (fun plans _ => by rw [hfill.order.orderId, hfill.order.clientOrderId]; exact .entry _) hrec
  refine Or.inr ⟨hfiled, plan, hpid.trans (by rw [hqid.2]), hactive, fun old ho => ?_, hset⟩
  -- a fired plan would have kept the cycle from its entry
  have hcl := hold old ho (hver old ho)
  have hsup := (hf.account.plans _ old ho).current
  cases hs : old.status with
  | active => rfl
  | triggered => exact absurd hs (hbuilt.untriggered old (hf.account.mem_open ho (Or.inr hs)))
  | superseded => exact absurd hs hsup
  | closed => exact absurd hs hcl

/-! ## exits -/

variable {experimentId : UUID} {a : AccountState}

/-- **an exit that is recorded** closes the plan of its position -/
theorem exit_filed {A : Arith} {command : MarketExitCommand}
    {next : AccountState} {exitPlan plan₀ closedPlan : ExitPlan}
    (hf : Filed experimentId t) (ha : Agrees experimentId t a)
    (hx : PaperBroker.ExitFilled A command a exitPlan r p next closedPlan)
    (hplan₀ : t.exitPlans.get? (planIdOf p.positionId) = some plan₀)
    (hopen : plan₀.status ≠ .closed) (hpid : exitPlan.planId = plan₀.planId)
    (hver : 1 ≤ exitPlan.version)
    (horigin : ∀ plans plan, plans.get? exitPlan.planId = some plan → plan.status = .closed →
      Origin plans command.orderId command.clientOrderId command.fillId)
    (h : ExecutionTables.Recorded A t r.record next t') :
    Filed experimentId t' ∧ Agrees experimentId t' next ∧ closedPlan.status = .closed ∧
      t'.exitPlans = t.exitPlans.set (planIdOf p.positionId) (storedPlan A closedPlan) := by
  obtain ⟨_, hrplan, hrfills, _⟩ := hx.record
  obtain ⟨q, cash, rfl, _, ⟨hbad, _⟩ | ⟨_, current, hc, _, _, hq, _⟩⟩ :=
    AccountState.applyFill_cases hx.filled
  · cases hbad
  rw [hx.position, Option.some.injEq] at hc
  subst hc
  obtain ⟨hsame, _⟩ := PositionState.closeFill_step hq
  obtain ⟨hsym, hid, _⟩ := ha command.symbol p hx.position
  obtain ⟨_, hclosed⟩ := ExitPlan.close_eq hx.closed
  have hfiled₀ := hf.account.plans _ _ hplan₀
  have hcid : closedPlan.planId = planIdOf p.positionId := by
    rw [hclosed]
    exact hpid.trans hfiled₀.planId
  have hst : closedPlan.status = .closed := by rw [hclosed]; rfl
  have hcver : 2 ≤ closedPlan.version := by
    rw [hclosed]
    show 2 ≤ exitPlan.version + 1
    omega
  obtain ⟨hfiled, hag, hset⟩ := hf.recorded ha AccountState.advance_moves
    ⟨hsame.2.2.trans hsym, hsame.1.trans hid⟩ hrplan
    ⟨hcid.trans (by rw [hsame.1]), (by rw [hclosed]; exact hx.matched.2.1.trans hsame.1.symm),
      by omega, fun _ => hcver, by rw [hst]; simp⟩
    ⟨fun _ => hst, fun hne => absurd hst hne⟩
    (fun old hold => by
      rw [hcid, hplan₀, Option.some.injEq] at hold
      exact Or.inr (hold ▸ hopen))
    hrfills hx.order.orderId.symm hx.order.version
    (fun plans hplans => by
      rw [hx.order.orderId, hx.order.clientOrderId]
      have hpl : exitPlan.planId = closedPlan.planId := by rw [hclosed]; rfl
      exact horigin plans (storedPlan A closedPlan) (hpl ▸ hplans) hst) h
  exact ⟨hfiled, hag, hst, by rw [hset, hcid]⟩

/-! ## marks -/

structure PlanMarked (cfg : WorkerConfig) (t : ExecutionTables) (symbol : String) (price : ℚ)
    (plan₀ plan : ExitPlan) (t' : ExecutionTables) : Prop where
  before : t.exitPlans.get? (planIdOf (positionIdOf cfg.manifest.experimentId symbol)) = some plan₀
  isOpen : plan₀.status ≠ .closed
  after : t'.exitPlans =
    t.exitPlans.set (planIdOf (positionIdOf cfg.manifest.experimentId symbol))
      (storedPlan cfg.arith plan)
  status : plan₀.status = .active ∧ plan₀.markReason price = none ∧ plan.status = .active ∨
    (plan₀.status = .active → plan₀.markReason price ≠ none) ∧ plan.status ≠ .active

variable {before : ObservationBuffer} {event : ObservedMarketEvent}

theorem Database.MarkEvaluated.filed {mark : MarkFundingPayload} {q : PositionState}
    {official : OfficialContext} {fires : Bool} {e : ExitEvaluation} {o : ProtectionOutcome}
    (hm : MarkEvaluated cfg db before after event mark a p q official fires e o)
    (hf : Filed cfg.manifest.experimentId db.execution) (h : db.protectedTables cfg o = .ok t') :
    t' = db.execution ∨ Filed cfg.manifest.experimentId t' ∧
      ∃ plan₀ plan, PlanMarked cfg db.execution event.symbol mark.markPrice plan₀ plan t' := by
  have ha : Agrees cfg.manifest.experimentId db.execution a := .load hf.account hm.loaded
  obtain ⟨_, hq⟩ := PositionState.mark_eq hm.marked
  have hsame : p.SameIdentity q := by rw [hq]; exact ⟨rfl, rfl, rfl⟩
  have hside : q.side = p.side := by rw [hq]
  have hmove : a.Moves event.symbol q
      (a.advance cfg.arith event.symbol q a.cashBalance event.observedAt) :=
      AccountState.advance_moves
  obtain ⟨hsym, hpid, row, hrow, hrside⟩ := ha event.symbol p hm.position
  obtain ⟨hget, hncl, hfiled⟩ := hf.account.get?_listed hm.read.listed
  have hposid := hm.read.plan
  rw [hposid, hpid] at hget
  have hqpid : q.positionId = positionIdOf cfg.manifest.experimentId event.symbol :=
    hsame.1.trans hpid
  -- the evaluated plan keeps the identity, the position and the side of the stored one
  have hplan : e.plan.planId = official.exitPlan.planId ∧
      e.plan.positionId = official.exitPlan.positionId ∧ e.plan.side = official.exitPlan.side ∧
      1 ≤ e.plan.version := by
    have hv := hfiled.version
    obtain ⟨_, he, _⟩ | ⟨_, _, he⟩ | ⟨_, reason, exec, _, he, _⟩ := hm.plan_cases
    · rw [he]
      exact ⟨rfl, rfl, rfl, hv⟩
    · rw [he]
      exact ⟨rfl, rfl, rfl, hv⟩
    · rw [he]
      exact ⟨rfl, rfl, rfl, Nat.le_add_left _ _⟩
  have hpid₀ : official.exitPlan.planId =
      planIdOf (positionIdOf cfg.manifest.experimentId event.symbol) := by
    rw [hfiled.derived, hposid, hpid]
  -- a mark that is recorded without an exit
  have hstate : ∀ {created}, (e.plan.status = .active ∨ e.plan.status = .triggered) →
      db.execution.recordAccountState cfg.arith
        (a.advance cfg.arith event.symbol q a.cashBalance event.observedAt) e.plan event.eventId
        "protective_mark" = .ok (t', created) →
      t' = db.execution ∨ Filed cfg.manifest.experimentId t' ∧
        t'.exitPlans =
        db.execution.exitPlans.set (planIdOf (positionIdOf cfg.manifest.experimentId event.symbol))
        (storedPlan cfg.arith e.plan) := by
    intro created hopen hrec
    obtain ⟨_, ⟨rfl, _⟩ | ⟨_, _, hper, ho, hfl, _⟩⟩ := ExecutionTables.recordAccountState_cases hrec
    · exact Or.inl rfl
    have hclosed : e.plan.status ≠ .closed := by rcases hopen with hs | hs <;> simp [hs]
    obtain ⟨row', hrow', _, hrs', hneutral⟩ := hf.account.open_row hget hncl
    rw [hposid, hrow, Option.some.injEq] at hrow'
    subst hrow'
    obtain ⟨_, _, hset⟩ := ExecutionTables.persistPlan_eq hper.plans
    rw [hplan.1, hpid₀] at hset
    have hplanFor : PlanFor e.plan q.positionId :=
      ⟨by rw [hplan.1, hpid₀, hqpid], by rw [hplan.2.1, hposid, hsame.1], hplan.2.2.2,
        fun hc => absurd hc hclosed, by rcases hopen with hs | hs <;> simp [hs]⟩
    obtain ⟨hfiled', _⟩ := hf.persisted ha hmove ⟨hsame.2.2.trans hsym, hqpid⟩
      (fun x hx => by cases hx; exact hplanFor)
      (fun x hx old hold => by
        cases hx
        rw [hplan.1, hpid₀, hget, Option.some.injEq] at hold
        exact hold ▸ hncl)
      ⟨storedPlan cfg.arith e.plan, by rw [hset, hqpid, Dict.get?_set_self],
        fun hn => absurd (hrside.trans (hside.symm.trans hn)) hneutral,
        fun _ => by rw [hside, ← hrside, hrs']; exact hplan.2.2.1⟩ hper ho hfl
    exact Or.inr ⟨hfiled', hset⟩
  have houtcome := hm.outcome
  cases houtcome with
  | marked hi =>
    simp only [protectedTables, bind_eq_ok, pure_ok_iff] at h
    obtain ⟨recorded, hrec, rfl⟩ := h
    obtain ⟨_, _, hne⟩ | ⟨hs, hn, he⟩ | ⟨_, _, _, _, _, hne⟩ := hm.plan_cases
    · exact absurd hi hne
    · have hactive : e.plan.status = .active := by rw [he]; exact hs
      obtain hsame' | ⟨hfiled', hset⟩ := hstate (Or.inl hactive) hrec
      · exact Or.inl hsame'
      · exact Or.inr ⟨hfiled', official.exitPlan, e.plan, hget, hncl, hset,
          Or.inl ⟨hs, hn, hactive⟩⟩
    · exact absurd hi hne
  | halted hi hp hx =>
    simp only [protectedTables, bind_eq_ok, pure_ok_iff] at h
    obtain ⟨recorded, hrec, rfl⟩ := h
    obtain ⟨hs, he, _⟩ | ⟨_, _, he⟩ | ⟨hs, reason, exec, hr, he, _⟩ := hm.plan_cases
    · have htr : e.plan.status = .triggered := by rw [he]; exact hs
      obtain hsame' | ⟨hfiled', hset⟩ := hstate (Or.inr htr) hrec
      · exact Or.inl hsame'
      · exact Or.inr ⟨hfiled', official.exitPlan, e.plan, hget, hncl, hset,
          Or.inr ⟨fun hac => absurd (hs.symm.trans hac) (by simp), by rw [htr]; simp⟩⟩
    · rw [he] at hi
      cases hi
    · have htr : e.plan.status = .triggered := by rw [he]; rfl
      obtain hsame' | ⟨hfiled', hset⟩ := hstate (Or.inr htr) hrec
      · exact Or.inl hsame'
      · exact Or.inr ⟨hfiled', official.exitPlan, e.plan, hget, hncl, hset,
          Or.inr ⟨fun _ => by rw [hr]; simp, by rw [htr]; simp⟩⟩
  | @exited intent price r next plan hi hp hx hacc hrp =>
    simp only [protectedTables, bind_eq_ok, pure_ok_iff] at h
    obtain ⟨recorded, hrec, rfl⟩ := h
    obtain ⟨_, ⟨hsame', _⟩ | hrec⟩ := ExecutionTables.record_cases hacc hrec
    · exact Or.inl hsame'
    obtain ⟨p', next', closed, hxf⟩ := PaperBroker.executeMarketExit_cases hx
    have hp' : p' = q := by
      have hpos := hxf.position
      rw [AccountState.advance_positions] at hpos
      exact Option.mem_unique hpos (Dict.get?_set_self _ _ _)
    subst hp'
    have hnext : next' = next := Option.mem_unique hxf.record.1 hacc
    subst hnext
    obtain ⟨hfiled', _, hst, hset⟩ := exit_filed hf (ha.move hmove hm.position hsame hside) hxf
      (by rw [hqpid]; exact hget) hncl hplan.1 hplan.2.2.2
      (fun plans plan hpl hcl => .protective _ _ _ hpl hcl) hrec
    rw [hqpid] at hset
    refine Or.inr ⟨hfiled', official.exitPlan, closed, hget, hncl, hset,
      Or.inr ⟨?_, by rw [hst]; simp⟩⟩
    intro hactive
    obtain ⟨hs, _, _⟩ | ⟨_, _, he⟩ | ⟨_, reason, exec, hr, _, _⟩ := hm.plan_cases
    · rw [hs] at hactive
      cases hactive
    · rw [he] at hi
      cases hi
    · rw [hr]
      simp

/-! ## funding -/

theorem Database.FundingObserved.filed {payload : FundingSettlementPayload}
    {command : FundingSettlementCommand} {o : FundingApplicationOutcome} {created : Bool}
    (h : FundingObserved cfg db event payload account command o created db')
    (hf : Filed cfg.manifest.experimentId db.execution) : db'.execution = db.execution ∨
      Filed cfg.manifest.experimentId db'.execution ∧
      db'.execution.exitPlans = db.execution.exitPlans := by
  obtain ⟨hsame, _⟩ | ⟨_, _, _, hper, ho, hfl, _⟩ := ExecutionTables.recordFunding_cases h.recorded
  · exact Or.inl hsame
  have ha : Agrees cfg.manifest.experimentId db.execution account := .load hf.account h.loaded
  obtain ⟨hcommand, _⟩ := FundingSettlementCommand.postInit_eq h.checked
  obtain ⟨marked, hmark, hfund⟩ := FundingSettlementCommand.apply_cases h.applied
  rw [hcommand] at hmark hfund
  obtain ⟨p, q, hp, hq, hmarked⟩ := AccountState.mark_cases hmark
  obtain ⟨_, hqe⟩ := PositionState.mark_eq hq
  have ha' : Agrees cfg.manifest.experimentId db.execution marked :=
    ha.move (hmarked ▸ AccountState.advance_moves) hp
      (by rw [hqe]; exact ⟨rfl, rfl, rfl⟩) (by rw [hqe])
  obtain ⟨p', q', hp', _, hq', hacc, _⟩ := AccountState.applyFunding_cases hfund
  obtain ⟨hid, _, hside⟩ := PositionState.applyFunding_step hq'
  obtain ⟨hsym, hpid, row, hrow, hrside⟩ := ha' _ p' hp'
  have hplans : db'.execution.exitPlans = db.execution.exitPlans := by
    obtain ⟨_, hsame⟩ | ⟨x, hx, _⟩ := persistedPlans_cases hper.plans
    · exact hsame
    · cases hx
  obtain ⟨x, hx, hfits⟩ := hf.account.planned _ row hrow
  rw [hacc] at hper
  obtain ⟨hfiled, _⟩ :=
    hf.persisted ha' AccountState.advance_moves ⟨hid.2.2.trans hsym, hid.1.trans hpid⟩
    (fun x hx => by cases hx) (fun x hx => by cases hx)
    ⟨x, by rw [hplans, hid.1, hx], by rw [hside, ← hrside]; exact hfits⟩ hper ho hfl
  exact Or.inr ⟨hfiled, hplans⟩

/-! ## flattens -/

structure Awaiting (t : ExecutionTables) (inputs : List FlattenInput) : Prop where
  distinct : inputs.Pairwise (fun i j => i.trigger.positionId ≠ j.trigger.positionId)
  stored : ∀ input ∈ inputs,
    t.exitPlans.get? (planIdOf input.trigger.positionId) = some input.exitPlan ∧
      input.exitPlan.positionId = input.trigger.positionId

variable {plannedAt : Time} {last : AccountState} {inputs : List FlattenInput}

/-- **the exits of a flatten** close the plans they were planned for, and no other -/
theorem Database.Flattening.filed {commandId : UUID}
    (h : Flattening cfg commandId plannedAt after a t inputs last t')
    (hf : Filed experimentId t) (ha : Agrees experimentId t a) (hw : Awaiting t inputs) :
    Filed experimentId t' ∧ Agrees experimentId t' last ∧
      (∀ input ∈ inputs, ∃ plan, t'.exitPlans.get? (planIdOf input.trigger.positionId) = some plan ∧
        plan.status = .closed) ∧
      ∀ id, (∀ input ∈ inputs, id ≠ planIdOf input.trigger.positionId) →
        t'.exitPlans.get? id = t.exitPlans.get? id := by
  induction h with
  | nil => exact ⟨hf, ha, by simp, fun _ _ => rfl⟩
  | @cons a next last t t₁ t' input inputs books r res hactive _ hexit hnext hrecord rest ih =>
    obtain ⟨hne, hdistinct⟩ := List.pairwise_cons.mp hw.distinct
    obtain ⟨hget, hpos⟩ := hw.stored input List.mem_cons_self
    obtain ⟨p, next', closed, hx⟩ := PaperBroker.executeMarketExit_cases hexit
    have hn : next' = next := Option.mem_unique hx.record.1 hnext
    subst hn
    have hpid : p.positionId = input.trigger.positionId := hx.matched.2.1.symm.trans hpos
    have hopen : input.exitPlan.status ≠ .closed := by simp [hactive]
    obtain ⟨_, ⟨_, hstored⟩ | hrec⟩ := ExecutionTables.record_cases hnext hrecord
    · -- an order of this exit would mean that the plan is closed
      obtain ⟨fillId, horigin⟩ := hf.orders.stored hstored
      obtain ⟨plan, hplan, hcl⟩ := horigin.flatten_closed (Or.inl hx.order.orderId)
      rw [hget, Option.some.injEq] at hplan
      exact absurd (hplan ▸ hcl) hopen
    have hfiled₀ := hf.account.plans _ _ hget
    obtain ⟨hf₁, ha₁, hst, hset⟩ := exit_filed hf ha hx (by rw [hpid]; exact hget) hopen rfl
      (Nat.le_add_left _ _)
      (fun plans plan hpl hcl => by
        have hat : plans.get? (planIdOf input.trigger.positionId) = some plan :=
          (congrArg _ hfiled₀.planId.symm).trans hpl
        exact .flatten _ hat hcl) hrec
    rw [hpid] at hset
    have hother : ∀ {id}, id ≠ planIdOf input.trigger.positionId →
        t₁.exitPlans.get? id = t.exitPlans.get? id := by
      intro id hid
      rw [hset, Dict.get?_set_of_ne _ hid]
    have hw₁ : Awaiting t₁ inputs := by
      refine ⟨hdistinct, fun j hj => ?_⟩
      obtain ⟨hgetj, hposj⟩ := hw.stored j (List.mem_cons_of_mem input hj)
      refine ⟨?_, hposj⟩
      rw [hother fun e => hne j hj (planIdOf_inj.mp e).symm, hgetj]
    obtain ⟨hf', ha', hclosed, hsame⟩ := ih hf₁ ha₁ hw₁
    refine ⟨hf', ha', ?_, ?_⟩
    · intro j hj
      rcases List.mem_cons.mp hj with rfl | hj
      · refine ⟨storedPlan cfg.arith closed, ?_, hst⟩
        rw [hsame _ fun j hj e => hne j hj (planIdOf_inj.mp e), hset, Dict.get?_set_self]
      · exact hclosed j hj
    · intro id hid
      rw [hsame id fun j hj => hid j (List.mem_cons_of_mem input hj),
        hother (hid input List.mem_cons_self)]

theorem Agrees.nodup_ids (h : Agrees experimentId t a) :
    (a.positions.values.map (·.positionId)).Nodup := by
  have hmap : a.positions.values.map (·.positionId) =
      a.positions.keys.map (positionIdOf experimentId) := by
    simp only [Dict.values, Dict.keys, List.map_map]
    refine List.map_congr_left fun e he => ?_
    exact (h e.1 e.2 ((Dict.mem_entries_iff _).mp he)).2.1
  rw [hmap]
  exact List.Nodup.map (fun _ _ he => positionIdOf_inj.mp he) a.positions.nodup

theorem flattenPositions_nodup (h : Agrees experimentId t a) :
    ((flattenPositions cfg a).map (·.positionId)).Nodup := by
  have hperm : (flattenPositions cfg a).Perm (a.openPositions cfg.arith) :=
    List.perm_insertionSort _ _
  rw [(hperm.map _).nodup_iff]
  exact h.nodup_ids.sublist (List.filter_sublist.map _)

theorem Database.FlattenPlanned.awaiting {source : FlattenSource}
    (h : FlattenPlanned cfg db plannedAt before source inputs)
    (hf : Filed cfg.manifest.experimentId db.execution) : Awaiting db.execution inputs := by
  have ha : Agrees cfg.manifest.experimentId db.execution source.account :=
    .load hf.account h.loaded
  have hids : (flattenPositions cfg source.account).map (·.positionId) =
      inputs.map (·.trigger.positionId) := forall₂_map_eq h.reads fun _ _ hr => hr.positionId.symm
  refine ⟨?_, fun input hi => ?_⟩
  · have hnodup : ((flattenPositions cfg source.account).map (·.positionId)).Nodup :=
      flattenPositions_nodup ha
    rw [hids] at hnodup
    exact List.pairwise_map.mp hnodup
  · obtain ⟨p, _, hread⟩ := forall₂_mem_right h.reads hi
    have hmem := hread.plan.1
    rw [h.plans] at hmem
    have hpos : input.exitPlan.positionId = input.trigger.positionId :=
      hread.plan.2.trans hread.positionId.symm
    exact ⟨hpos ▸ (hf.account.get?_listed hmem).1, hpos⟩

theorem flatten_filed {q : OperatorCommand}
    {plan : FlattenPlan} {claimed : Database} {control : TradingControlSnapshot}
    {out : Database × OperatorCommandExecution} (hf : Filed cfg.manifest.experimentId db.execution)
    (hp : db.prepareFlatten cfg q plannedAt before after = .ok plan)
    (hc : claimed = { db with commands := claimed.commands })
    (h : FlattenRecorded cfg claimed q plan at_ control account last out) :
    (out.1.execution = db.execution ∧ account.openPositions cfg.arith = []) ∨
      Filed cfg.manifest.experimentId out.1.execution ∧
      (∀ id plan, db.execution.exitPlans.get? id = some plan → plan.status ≠ .closed →
        ∃ plan', out.1.execution.exitPlans.get? id = some plan' ∧ plan'.status = .closed) ∧
      ClosedKept db.execution.exitPlans out.1.execution.exitPlans ∧
      ∀ id plan', out.1.execution.exitPlans.get? id = some plan' →
        ∃ plan, db.execution.exitPlans.get? id = some plan := by
  obtain ⟨source, inputs, hplanned, rfl, hflat⟩ := flatten_cases hp hc h
  cases inputs with
  | nil =>
    generalize hout : out.1.execution = t' at hflat
    cases hflat
    have hnone : (source.account.openPositions cfg.arith).Perm [] :=
      (List.perm_insertionSort _ _).symm.trans
        (.of_eq (List.forall₂_nil_right_iff.mp hplanned.reads))
    exact Or.inl ⟨rfl, hnone.eq_nil⟩
  | cons input inputs =>
    have ha : Agrees cfg.manifest.experimentId db.execution source.account :=
      .load hf.account hplanned.loaded
    have hawait := hplanned.awaiting hf
    obtain ⟨hfiled, _, hclosed, hsame⟩ := hflat.filed hf ha hawait
    refine Or.inr ⟨hfiled, fun id x hx hs => ?_, fun id x hx hs => ?_, fun id x hx => ?_⟩
    · -- the open plan is listed, so its position is among the planned ones
      have hx' := hf.account.plans id x hx
      have hopen : ExecutionTables.openPlan x := by
        cases hst : x.status with
        | active => exact Or.inl hst
        | triggered => exact Or.inr hst
        | superseded => exact absurd hst hx'.current
        | closed => exact absurd hst hs
      have hlisted : x ∈ source.exitPlans := by
        rw [hplanned.plans]
        exact hf.account.mem_open hx hopen
      have hplaced := hplanned.placed (by simp) x hlisted
      have hperm :
          (flattenPositions cfg source.account).Perm (source.account.openPositions cfg.arith) :=
        List.perm_insertionSort _ _
      have hids := forall₂_map_eq hplanned.reads fun _ _ hr => hr.positionId.symm
      rw [← (hperm.map _).mem_iff, hids, List.mem_map] at hplaced
      obtain ⟨j, hj, hjid⟩ := hplaced
      obtain ⟨y, hy, hyc⟩ := hclosed j hj
      refine ⟨y, ?_, hyc⟩
      rw [hx'.derived, ← hjid, hy]
    · rw [hsame id, hx]
      rintro j hj rfl
      rw [(hawait.stored j hj).1, Option.some.injEq] at hx
      obtain ⟨p, _, hread⟩ := forall₂_mem_right hplanned.reads hj
      rw [← hx, hread.active] at hs
      cases hs
    · by_cases hid : ∃ j ∈ input :: inputs, id = planIdOf j.trigger.positionId
      · obtain ⟨j, hj, rfl⟩ := hid
        exact ⟨_, (hawait.stored j hj).1⟩
      · rw [hsame id fun j hj heq => hid ⟨j, hj, heq⟩] at hx
        exact ⟨x, hx⟩

/-! ## every transaction -/

inductive PlansChange (cfg : WorkerConfig) (w : World) (input : Input)
    (t t' : ExecutionTables) : Prop
  | funded {i : DispatchInput} {haltedAt : Time} {event : ObservedMarketEvent}
      {payload : FundingSettlementPayload} (hi : input = .dispatch i haltedAt)
      (hq : w.queue.head? = some event) (hp : event.payload = .fundingSettlement payload)
      (h : t'.exitPlans = t.exitPlans)
  | entered {symbol : String} {plan : ExitPlan} (hb : w.DispatchesBar input)
      (h : PlanEntered cfg t symbol plan t')
  | marked {i : DispatchInput} {haltedAt : Time} {event : ObservedMarketEvent}
      {mark : MarkFundingPayload} {plan₀ plan : ExitPlan} (hi : input = .dispatch i haltedAt)
      (hq : w.queue.head? = some event) (hp : event.payload = .markFunding mark)
      (hdb : t = w.db.execution) (h : PlanMarked cfg t event.symbol mark.markPrice plan₀ plan t')
  | flattened {i : PollInput} {haltedAt : Time} (hi : input = .poll i haltedAt)
      (hclosed : ∀ id plan, t.exitPlans.get? id = some plan → plan.status ≠ .closed →
        ∃ plan', t'.exitPlans.get? id = some plan' ∧ plan'.status = .closed)
      (hkept : ClosedKept t.exitPlans t'.exitPlans)
      (hids : ∀ id plan', t'.exitPlans.get? id = some plan' →
      ∃ plan, t.exitPlans.get? id = some plan)

theorem ExecutionChange.filed (h : ExecutionChange cfg w input db t')
    (hf : Filed cfg.manifest.experimentId db.execution) :
    t' = db.execution ∨ Filed cfg.manifest.experimentId t' ∧
        PlansChange cfg w input db.execution t' := by
  cases h with
  | same => exact Or.inl rfl
  | @cycle after event bar input o _ hb ho h =>
    cases hexec : o.execution with
    | none =>
      rw [hexec] at h
      cases h
      exact Or.inl rfl
    | some record =>
      obtain ⟨ctx, a, prepared, capability, r, rfl, hent⟩ := cycleOutcome_entered ho hexec
      rw [hexec] at h
      simp only [recordOptionalExecution, bind_eq_ok, pure_ok_iff] at h
      obtain ⟨recorded, hrec, rfl⟩ := h
      obtain hsame | ⟨hfiled, plan, hplan⟩ := hent.filed hf hrec
      · exact Or.inl hsame
      · exact Or.inr ⟨hfiled, .entered hb hplan⟩
  | mark hdb hi hq hp h =>
    obtain ⟨q, fires, e, hm⟩ := h.cases
    obtain hsame | ⟨hfiled, plan₀, plan, hplan⟩ := hm.filed hf h.recorded.tables
    · exact Or.inl hsame
    · exact Or.inr ⟨hfiled, .marked hi hq hp (by rw [hdb]) hplan⟩
  | funding hdb hi hq hp h =>
    obtain hsame | ⟨hfiled, hplans⟩ := h.filed hf
    · exact Or.inl hsame
    · exact Or.inr ⟨hfiled, .funded hi hq hp hplans⟩
  | flatten hi hc hp h =>
    have hf' : Filed (cfg.withWorker w.workerId).manifest.experimentId db.execution := hf
    obtain ⟨hsame, _⟩ | ⟨hfiled, hclosed, hkept, hids⟩ := flatten_filed hf' hp hc h
    · exact Or.inl hsame
    · exact Or.inr ⟨hfiled, .flattened hi hclosed hkept hids⟩

theorem Transaction.filed (h : Transaction cfg w input db db')
    (hf : Filed cfg.manifest.experimentId db.execution) :
    Filed cfg.manifest.experimentId db'.execution := by
  obtain hsame | ⟨hfiled, _⟩ := h.changes.execution.filed hf
  · rw [hsame]
    exact hf
  · exact hfiled

theorem World.Reaches.filed (h : Reaches cfg w) :
    Filed cfg.manifest.experimentId w.db.execution := by
  refine h.inv (I := fun db => Filed cfg.manifest.experimentId db.execution) (fun w₀ hc => ?_)
    fun _ _ _ _ hf ht => ht.filed hf
  rw [hc.execution]
  exact .empty

end Maais
