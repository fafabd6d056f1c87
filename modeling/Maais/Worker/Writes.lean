import Maais.Store.Records
import Maais.Worker.Changes
import Maais.Worker.Cycle

/-!
# What a transaction writes to the execution tables

* `Entered`  the entry of a decision cycle;
* `MarkEvaluated`  a mark of an open position, up to its outcome;
* `Flattening`  the exits of a flatten, recorded one after the other.
-/

namespace Maais
open Lib

namespace Database

variable {cfg : WorkerConfig} {db : Database}

/-! ## entries -/

structure Approved (cfg : WorkerConfig) (db : Database) (after : ObservationBuffer)
    (symbol : String) (at_ : Time) (ctx : EntryDecisionContext) (a : CycleAnalysis)
    (prepared : PreparedOrder) : Prop where
  built : ContextBuilt cfg db after symbol at_ ctx
  directed : a.direction ≠ .neutral
  gates : cfg.allGatesPassed ctx symbol a prepared

structure Entered (cfg : WorkerConfig) (db : Database) (after : ObservationBuffer) (frameId : UUID)
    (symbol : String) (at_ : Time) (ctx : EntryDecisionContext) (a : CycleAnalysis)
    (prepared : PreparedOrder) (capability : ExecutionCapability)
    (r : PaperBrokerResult) : Prop where
  approved : Approved cfg db after symbol at_ ctx a prepared
  executed : cfg.broker.executeMarketEntry cfg.arith
    (cfg.entryCommand frameId ctx.account symbol a prepared at_ capability) ctx.account ctx.books
    ctx.activeExitPlan = .ok r

variable {after : ObservationBuffer} {event : ObservedMarketEvent} {bar : ClosedBarPayload}

/-- a cycle either decides nothing, or its decision was approved and its entry, if any, filled -/
theorem cycleOutcome_cases {input : CycleInput} {o : CycleOutcome}
    (h : db.cycleOutcome cfg after event bar input = .ok o) :
    o.approved = false ∧ o.execution = none ∨
      o.approved = true ∧ ∃ ctx a prepared,
        Approved cfg db after event.symbol event.observedAt ctx a prepared ∧
        o.direction = a.direction ∧ ∀ record, o.execution = some record →
          ∃ capability r, r.record = record ∧
            Entered cfg db after
            (cfg.frameId event bar) event.symbol event.observedAt ctx a prepared capability r := by
  by_cases hadm : input.admitted
  · rw [cycleOutcome_admitted hadm, bind_eq_ok] at h
    obtain ⟨ctx, hctx, h⟩ := h
    cases input with
    | quarantined warmup => exact absurd hadm id
    | raised e => exact absurd hadm id
    | featuresMissing =>
      cases h
      exact Or.inl ⟨rfl, rfl⟩
    | agentsFailed =>
      cases h
      exact Or.inl ⟨rfl, rfl⟩
    | analysed a =>
      simp only [WorkerConfig.processAdmitted, WorkerConfig.decideEntry] at h
      split at h
      · cases h
        exact Or.inl ⟨rfl, rfl⟩
      · rename_i hdir
        simp only [bind_eq_ok] at h
        obtain ⟨prepared, _, h⟩ := h
        split at h
        · cases h
          exact Or.inl ⟨rfl, rfl⟩
        · rename_i order hfilter
          rw [Option.filter_eq_some_iff, decide_eq_true_eq] at hfilter
          have happ : Approved cfg db after event.symbol event.observedAt ctx a order :=
            ⟨buildContext_cases hctx, hdir, hfilter.2⟩
          simp only [WorkerConfig.executeEntry, bind_eq_ok] at h
          obtain ⟨claims, _, capability, _, h⟩ := h
          split at h
          · rename_i r _ hr
            cases h
            refine Or.inr ⟨rfl, ctx, a, order, happ, rfl, fun record hrec => ?_⟩
            cases hrec
            exact ⟨capability, r, rfl, happ, (PaperBroker.enter_eq_ok.mp hr).1⟩
          · cases h
            exact Or.inr ⟨rfl, ctx, a, order, happ, rfl, fun record hrec => by cases hrec⟩
  · cases input with
    | quarantined warmup =>
      cases h
      exact Or.inl ⟨rfl, rfl⟩
    | raised e => cases h
    | featuresMissing => exact absurd trivial hadm
    | agentsFailed => exact absurd trivial hadm
    | analysed a => exact absurd trivial hadm

theorem cycleOutcome_entered {input : CycleInput} {o : CycleOutcome} {record : PaperExecutionRecord}
    (h : db.cycleOutcome cfg after event bar input = .ok o) (hr : o.execution = some record) :
    ∃ ctx a prepared capability r, r.record = record ∧
      Entered cfg db after
      (cfg.frameId event bar) event.symbol event.observedAt ctx a prepared capability r := by
  obtain ⟨_, hn⟩ | ⟨_, ctx, a, prepared, _, _, hall⟩ := cycleOutcome_cases h
  · rw [hn] at hr
    cases hr
  · obtain ⟨capability, r, hrec, hent⟩ := hall record hr
    exact ⟨ctx, a, prepared, capability, r, hrec, hent⟩

/-! ## marks -/

structure OfficialRead (cfg : WorkerConfig) (db : Database) (a : AccountState) (p : PositionState)
    (official : OfficialContext) : Prop where
  account : official.account = a
  listed : official.exitPlan ∈ db.execution.loadOpenExitPlans cfg.idOrder
  plan : official.exitPlan.positionId = p.positionId
  proposal : db.execution.loadPositionEntryProposalId cfg.idOrder p.positionId =
    .ok official.entryProposalId
  control : ∃ c, db.control = some c ∧ official.entryAdmissionHalted = c.killSwitchActive

variable {a : AccountState} {p : PositionState} {official : OfficialContext}

theorem officialContext_cases (h : db.officialContext cfg a p = .ok official) :
    OfficialRead cfg db a p official := by
  simp only [officialContext, bind_eq_ok, raiseIf_eq_ok, orRaise_eq_ok, currentControl_eq_ok,
    pure_eq_ok, Except.ok.injEq] at h
  obtain ⟨_, _, plan, hplan, control, hc, proposal, hprop, rfl⟩ := h
  have hmem := List.mem_of_mem_head? hplan
  simp only [matchingPlans, List.mem_filter, decide_eq_true_eq] at hmem
  exact ⟨rfl, hmem.1, hmem.2, hprop, control, hc, rfl⟩

def sortedContext (cfg : WorkerConfig) (before after : ObservationBuffer)
    (event : ObservedMarketEvent) (fires : Bool) (official : OfficialContext) : ProtectionContext :=
  { protectionContext cfg before after event fires official with
    books := (protectionBooks cfg before after event fires).insertionSort
      (fun a b => a.order ≤ b.order) }

theorem protection_postInit_eq {A : Arith} {ctx ctx' : ProtectionContext}
    (h : ctx.postInit A = .ok ctx') :
    ctx' = { ctx with books := ctx.books.insertionSort (fun a b => a.order ≤ b.order) } := by
  simp only [ProtectionContext.postInit, bind_eq_ok, pure_ok_iff] at h
  obtain ⟨_, _, _, _, _, _, _, _, _, _, _, _, _, _, rfl⟩ := h
  rfl

structure MarkEvaluated (cfg : WorkerConfig) (db : Database) (before after : ObservationBuffer)
    (event : ObservedMarketEvent) (mark : MarkFundingPayload) (a : AccountState)
    (p q : PositionState) (official : OfficialContext) (fires : Bool) (e : ExitEvaluation)
    (o : ProtectionOutcome) : Prop where
  listed : event.symbol ∈ cfg.manifest.symbols
  loaded : db.loadAccount cfg = .ok a
  position : a.positions.get? event.symbol = some p
  isOpen : ¬ p.isFlat cfg.arith
  read : OfficialRead cfg db a p official
  fired : triggers official.exitPlan event mark = .ok fires
  time : ∀ t ∈ a.updatedAt, t ≤ event.observedAt
  marked : p.mark mark.markPrice = .ok q
  evaluated : (sortedContext cfg before after event fires official).evaluation event mark = .ok e
  outcome : PositionProtection.Outcome cfg.arith cfg.broker event
    (sortedContext cfg before after event fires official)
    (a.advance cfg.arith event.symbol q a.cashBalance event.observedAt) e o

theorem openPosition_eq {symbol : String} :
    openPosition cfg a symbol = some p ↔ a.positions.get? symbol = some p ∧
    ¬ p.isFlat cfg.arith := by
  rw [openPosition, Option.filter_eq_some_iff, decide_eq_true_eq]

variable {before : ObservationBuffer} {mark : MarkFundingPayload} {o : ProtectionOutcome}

theorem MarkObserved.cases {db' : Database}
    (h : MarkObserved cfg db before after event mark a p official o db') :
    ∃ q fires e, MarkEvaluated cfg db before after event mark a p q official fires e o := by
  obtain ⟨hp, hopen⟩ := openPosition_eq.mp h.found
  have hread := officialContext_cases h.read
  have hev := h.evaluated
  simp only [protectionOutcome, bind_eq_ok] at hev
  obtain ⟨fires, hfires, ctx, hctx, hev⟩ := hev
  have hsorted : ctx = sortedContext cfg before after event fires official :=
    protection_postInit_eq hctx
  rw [hsorted] at hev
  obtain ⟨_, htime, account, e, hmark, he, hout⟩ := PositionProtection.evaluateMark_cases hev
  obtain ⟨p', q, hp', hq, rfl⟩ := AccountState.mark_cases hmark
  have haccount : (sortedContext cfg before after event fires official).account = a := hread.account
  rw [haccount] at hp' htime hout
  have hsym : (sortedContext cfg before after event fires official).symbol = event.symbol := rfl
  rw [hsym, hp] at hp'
  cases hp'
  exact ⟨q, fires, e, h.listed, h.loaded, hp, hopen, hread, hfires, htime, hq, he, hout⟩

theorem MarkEvaluated.plan_cases {q : PositionState} {fires : Bool} {e : ExitEvaluation}
    (h : MarkEvaluated cfg db before after event mark a p q official fires e o) :
    official.exitPlan.status = .triggered ∧ e.plan = official.exitPlan ∧ e.intent ≠ none ∨
      official.exitPlan.status = .active ∧ official.exitPlan.markReason mark.markPrice = none ∧
        e = ⟨official.exitPlan, none⟩ ∨
      official.exitPlan.status = .active ∧ ∃ reason exec,
        official.exitPlan.markReason mark.markPrice = some reason ∧
        e.plan = official.exitPlan.triggered reason event.observedAt (some mark.markPrice) exec ∧
        e.intent ≠ none := by
  obtain ⟨hs, hplan, intent, _, hi⟩ | ⟨hs, ⟨hn, he⟩ | ⟨reason, exec, hr, _, he⟩⟩ :=
    PositionProtection.evaluation_cases h.evaluated
  · exact Or.inl ⟨hs, hplan, by rw [hi]; exact Option.some_ne_none _⟩
  · exact Or.inr (Or.inl ⟨hs, hn, he⟩)
  · exact Or.inr (Or.inr ⟨hs, reason, exec,
      hr, by rw [he]; rfl, by rw [he]; exact Option.some_ne_none _⟩)

/-! ## flattens -/

/-- the exits of a flatten, each filled from the books of the buffer against the account the last
one left and recorded at once -/
inductive Flattening (cfg : WorkerConfig) (commandId : UUID) (plannedAt : Time)
    (after : ObservationBuffer) : AccountState → ExecutionTables → List FlattenInput →
    AccountState → ExecutionTables → Prop
  | nil {a : AccountState} {t : ExecutionTables} :
    Flattening cfg commandId plannedAt after a t [] a t
  | cons {a next last : AccountState} {t t₁ t' : ExecutionTables} {input : FlattenInput}
      {inputs : List FlattenInput} {books : List BookSnapshot} {r : PaperBrokerResult}
      {res : ExecutionTables.PaperExecutionResult} (hactive : input.exitPlan.status = .active)
      (hbooks : flattenBooks after input.trigger = .ok books)
      (hexit : cfg.broker.executeMarketExit cfg.arith
        (flattenCommand cfg commandId plannedAt input
        (input.exitPlan.intentFor .emergency plannedAt none)) a
        (input.exitPlan.triggered .emergency plannedAt none input.trigger.markPrice) books = .ok r)
      (hnext : r.record.account = some next)
      (hrecord : t.record cfg.arith r.record = .ok (t₁, res))
      (rest : Flattening cfg commandId plannedAt after next t₁ inputs last t') :
      Flattening cfg commandId plannedAt after a t (input :: inputs) last t'

theorem catchHalt_eq_ok {α : Type} {symbol : String} {x : Py α} {a : α} :
    catchHalt symbol x = .ok a ↔ x = .ok a := by
  unfold catchHalt
  split <;> simp

variable {plannedAt : Time} {done done' : AccountState × List PaperExecutionRecord}

theorem flattenStep_cases {commandId : UUID} {input : FlattenInput × List BookSnapshot}
    (h : flattenStep cfg commandId plannedAt done input = .ok done') :
    input.1.exitPlan.status = .active ∧ ∃ r,
      cfg.broker.executeMarketExit cfg.arith (flattenCommand cfg commandId plannedAt input.1
        (input.1.exitPlan.intentFor .emergency plannedAt none)) done.1
        (input.1.exitPlan.triggered .emergency plannedAt none input.1.trigger.markPrice) input.2 =
        .ok r ∧
      r.record.account = some done'.1 ∧ done'.2 = done.2 ++ [r.record] := by
  simp only [flattenStep, bind_eq_ok, orRaise_eq_ok, catchHalt_eq_ok, pure_ok_iff] at h
  obtain ⟨evaluation, he, intent, hi, r, hr, account, ha, rfl⟩ := h
  obtain ⟨hactive, rfl⟩ := ExitPlan.emergencyFlatten_eq he
  cases hi
  exact ⟨hactive, r, hr, ha, rfl⟩

variable {last : AccountState}

theorem flattening_of_planned {commandId : UUID} {l : List (FlattenInput × List BookSnapshot)}
    {t t' : ExecutionTables} {new : List PaperExecutionRecord}
    (hbooks : ∀ x ∈ l, flattenBooks after x.1.trigger = .ok x.2)
    (hplanned : l.foldlM (flattenStep cfg commandId plannedAt) done = .ok done')
    (hnew : done'.2 = done.2 ++ new)
    (hrecorded : new.foldlM (recordFlatten cfg) (t, done.1) = .ok (t', last)) :
    Flattening cfg commandId plannedAt after done.1 t (l.map (·.1)) last t' := by
  induction l generalizing done t new with
  | nil =>
    rw [List.foldlM_nil, pure_ok_iff] at hplanned
    subst hplanned
    have hnil : new = [] := by simpa using hnew
    subst hnil
    cases hrecorded
    exact .nil
  | cons input l ih =>
    rw [List.foldlM_cons, bind_eq_ok] at hplanned
    obtain ⟨done₁, hstep, hplanned⟩ := hplanned
    obtain ⟨hactive, r, hr, hacc, hdone⟩ := flattenStep_cases hstep
    -- the records of the rest come after the one of this turn
    have hgrow : ∃ more, done'.2 = done₁.2 ++ more := by
      refine foldlM_ok_inv (I := fun d : AccountState × List PaperExecutionRecord =>
        ∃ more, d.2 = done₁.2 ++ more) ?_ ⟨[], by simp⟩ hplanned
      rintro x _ d d' ⟨more, hmore⟩ hx
      obtain ⟨_, r', _, _, hd'⟩ := flattenStep_cases hx
      exact ⟨more ++ [r'.record], by rw [hd', hmore, List.append_assoc]⟩
    obtain ⟨more, hmore⟩ := hgrow
    have hsplit : new = r.record :: more := by
      rw [hmore, hdone, List.append_assoc] at hnew
      exact (List.append_cancel_left hnew).symm
    rw [hsplit, List.foldlM_cons, bind_eq_ok] at hrecorded
    obtain ⟨stored, hstored, hrecorded⟩ := hrecorded
    simp only [recordFlatten, bind_eq_ok, orRaise_eq_ok, pure_ok_iff] at hstored
    obtain ⟨written, hw, account, ha, rfl⟩ := hstored
    rw [hacc, Option.some.injEq] at ha
    subst ha
    exact .cons hactive (hbooks input List.mem_cons_self) hr hacc hw
      (ih (fun x hx => hbooks x (List.mem_cons_of_mem input hx)) hplanned hmore hrecorded)

structure InputRead (cfg : WorkerConfig) (source : FlattenSource) (observations : ObservationBuffer)
    (plannedAt : Time) (p : PositionState) (input : FlattenInput) : Prop where
  plan : input.exitPlan ∈ source.exitPlans ∧ input.exitPlan.positionId = p.positionId
  active : input.exitPlan.status = .active
  proposal : (p.positionId, input.proposalId) ∈ source.entryProposalIds
  mark : ∃ event, observations.latestMark p.symbol plannedAt = some (input.trigger.markPrice, event)
  symbol : input.trigger.symbol = p.symbol
  positionId : input.trigger.positionId = p.positionId
  eligibleAfter : input.trigger.eligibleAfter = plannedAt + cfg.policy.executionLatency
  price : 0 < input.trigger.markPrice

variable {source : FlattenSource}

theorem flattenInput_cases {observations : ObservationBuffer} {input : FlattenInput}
    (h : flattenInput cfg source observations plannedAt p = .ok input) :
    InputRead cfg source observations plannedAt p input := by
  simp only [flattenInput, FlattenTrigger.postInit, bind_eq_ok, orRaise_eq_ok, raiseIf_eq_ok,
    pure_eq_ok, Except.ok.injEq, ne_eq, not_not] at h
  obtain ⟨plan, hplan, _, hactive, proposal, hprop, mark, hmark, _,
    ⟨_, _, _, _, _, hprice, rfl⟩, rfl⟩ := h
  have hid : plan.positionId = p.positionId := by simpa using List.find?_some hplan
  have hpid : proposal.1 = p.positionId := by simpa using List.find?_some hprop
  exact ⟨⟨List.mem_of_find?_eq_some hplan, hid⟩, hactive, hpid ▸ List.mem_of_find?_eq_some hprop,
    ⟨mark.2, hmark⟩, rfl, rfl, rfl, not_le.mp hprice⟩

/-- a flatten plan: what it was planned from, and that every open plan is among its exits -/
structure FlattenPlanned (cfg : WorkerConfig) (db : Database) (plannedAt : Time)
    (before : ObservationBuffer) (source : FlattenSource) (inputs : List FlattenInput) : Prop where
  loaded : db.loadAccount cfg = .ok source.account
  plans : source.exitPlans = db.execution.loadOpenExitPlans cfg.idOrder
  reads :
    List.Forall₂ (InputRead cfg source before plannedAt)
    (flattenPositions cfg source.account) inputs
  placed : inputs ≠ [] → ∀ plan ∈ source.exitPlans,
    plan.positionId ∈ (source.account.openPositions cfg.arith).map (·.positionId)

theorem flattenPlan_postInit_eq {A : Arith} {plan plan' : FlattenPlan}
    (h : plan.postInit A = .ok plan') : plan' = plan := by
  simp only [FlattenPlan.postInit, bind_eq_ok, pure_ok_iff] at h
  obtain ⟨_, _, _, _, _, _, rfl⟩ := h
  rfl

theorem loadFlattenSource_cases (h : db.loadFlattenSource cfg = .ok source) :
    db.loadAccount cfg = .ok source.account ∧
      source.exitPlans = db.execution.loadOpenExitPlans cfg.idOrder := by
  simp only [loadFlattenSource, bind_eq_ok, pure_ok_iff] at h
  obtain ⟨account, ha, pending, _, proposals, _, rfl⟩ := h
  exact ⟨ha, rfl⟩

/-- **what a completed flatten wrote**: every planned exit, in order, starting from the loaded
account -/
theorem flatten_cases {q : OperatorCommand} {t : Time} {plan : FlattenPlan} {claimed : Database}
    {control : TradingControlSnapshot} {account : AccountState}
    {out : Database × OperatorCommandExecution}
    (hp : db.prepareFlatten cfg q plannedAt before after = .ok plan)
    (hc : claimed = { db with commands := claimed.commands })
    (h : FlattenRecorded cfg claimed q plan t control account last out) :
    ∃ source inputs, FlattenPlanned cfg db plannedAt before source inputs ∧
      source.account = account ∧
      Flattening cfg q.commandId plannedAt after account db.execution inputs last
      out.1.execution := by
  have hrecorded := h.recorded
  have hsource := h.source
  have hexec : claimed.execution = db.execution := by rw [hc]
  rw [hexec] at hrecorded
  simp only [prepareFlatten, bind_eq_ok] at hp
  obtain ⟨_, _, source, hload, _, _, _, _, hp⟩ := hp
  obtain ⟨hacc, hplans⟩ := loadFlattenSource_cases hload
  split at hp
  · rename_i hempty
    rw [flattenPlan_postInit_eq hp] at hrecorded hsource
    simp only [List.foldlM_nil, pure_ok_iff, Prod.mk.injEq] at hrecorded
    refine ⟨source, [], ⟨hacc, hplans, by rw [hempty]; exact .nil, fun hne => absurd rfl hne⟩,
      hsource.symm, ?_⟩
    rw [← hrecorded.1, ← hrecorded.2]
    exact .nil
  · simp only [planExits, bind_eq_ok, raiseIf_eq_ok, not_not] at hp
    obtain ⟨_, hmatch, inputs, hinputs, books, hbooks, done, hdone, hp⟩ := hp
    rw [flattenPlan_postInit_eq hp] at hrecorded hsource
    rw [mapM_eq_ok] at hinputs hbooks
    refine ⟨source, inputs, ⟨hacc, hplans, hinputs.imp fun p input hi => flattenInput_cases hi,
      fun _ => hmatch.2.1⟩, hsource.symm, ?_⟩
    have hl : (inputs.zip books).map (·.1) = inputs := List.map_fst_zip (by rw [hbooks.length_eq])
    rw [← hl, hsource]
    rw [hsource] at hrecorded
    refine flattening_of_planned (fun x hx => ?_) hdone rfl hrecorded
    exact List.forall₂_zip hbooks hx

end Database

end Maais
