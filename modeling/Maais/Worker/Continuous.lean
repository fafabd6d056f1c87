import Maais.Worker.Protection

/-!
# Continuous events

Marks and funding settlements of open positions, each recorded in one transaction.
-/

namespace Maais
open Lib

/-! ## recording a protection outcome -/

namespace Database

variable (cfg : WorkerConfig) (db : Database)

/-- the execution tables after the outcome of a mark: its exit, or the marked account -/
def protectedTables (o : ProtectionOutcome) : Py ExecutionTables :=
  match o.execution with
  | some r => do
    let recorded ← db.execution.record cfg.arith r
    return recorded.1
  | none => do
    let recorded ← db.execution.recordAccountState cfg.arith o.account o.exitPlan o.marketEventId
      "protective_mark"
    return recorded.1

def recordOptionalIncident (table : IncidentTable) : Option IncidentState → Py IncidentTable
  | none => .ok table
  | some i => recordIncident table i

def protectionReason (i : IncidentState) : String :=
  "position_protection:" ++ i.reasonCode ++ ":" ++ i.incidentId.text

def haltForProtection (i : IncidentState) : Py Database := do
  let halted ← db.haltControl (protectionReason i) i.detectedAt "position_protection"
  let failed ← halted.1.changeExperiment (·.failActive cfg.manifest (protectionReason i))
  return failed.1

def recordProtectionOutcome (o : ProtectionOutcome) : Py Database := do
  raiseIf (o.account.experimentId ≠ cfg.manifest.experimentId)
    (.valueError "protection outcome and manifest experiment differ")
  let execution ← db.protectedTables cfg o
  let incidents ← recordOptionalIncident db.incidents o.incident
  if o.requiresPersistentHalt = true then
    let incident ← orRaise o.incident
      (.valueError "persistent protection halt requires an incident")
    haltForProtection cfg { db with execution, incidents } incident
  else return { db with execution, incidents }

/-! ## marks -/

structure OfficialContext where
  account : AccountState
  exitPlan : ExitPlan
  entryProposalId : UUID
  entryAdmissionHalted : Bool

def matchingPlans (position : PositionState) : List ExitPlan :=
  (db.execution.loadOpenExitPlans cfg.idOrder).filter (fun plan => plan.positionId =
    position.positionId)

def officialContext (account : AccountState) (position : PositionState) : Py OfficialContext := do
  raiseIf ((db.matchingPlans cfg position).length ≠ 1)
    (.continuousRuntimeConflict "open paper position requires exactly one protective exit plan")
  let exitPlan ← orRaise (db.matchingPlans cfg position).head?
    (.continuousRuntimeConflict "open paper position requires exactly one protective exit plan")
  let control ← db.currentControl
  let entryProposalId ← db.execution.loadPositionEntryProposalId cfg.idOrder position.positionId
  return ⟨account, exitPlan, entryProposalId, control.killSwitchActive⟩

def triggers (plan : ExitPlan) (event : ObservedMarketEvent)
    (mark : MarkFundingPayload) : Py Bool :=
  if plan.status = .triggered then .ok true
  else do
    let evaluation ← plan.evaluateMark mark.markPrice event.observedAt none
    return evaluation.intent.isSome

/-- the books a mark is evaluated with: those already there, and those the wait for an exit
brought -/
def protectionBooks (before after : ObservationBuffer) (event : ObservedMarketEvent)
    (fires : Bool) : List BookSnapshot :=
  before.booksAtOrBefore event.symbol event.observedAt ++
    (if fires then
    after.eligibleBooks event.symbol (event.observedAt + cfg.policy.executionLatency) else [])

def protectionContext (before after : ObservationBuffer) (event : ObservedMarketEvent)
    (fires : Bool) (official : OfficialContext) : ProtectionContext :=
  { experimentId := cfg.manifest.experimentId
    entryProposalId := official.entryProposalId
    symbol := event.symbol
    account := official.account
    exitPlan := official.exitPlan
    exchangeFilters := cfg.filters event.symbol
    books := protectionBooks cfg before after event fires
    executionLatency := cfg.policy.executionLatency
    orderTtl := cfg.policy.proposalTtl
    takerFeeRate := cfg.policy.takerFeeRate
    entryAdmissionHalted := official.entryAdmissionHalted }

def protectionOutcome (before after : ObservationBuffer) (event : ObservedMarketEvent)
    (mark : MarkFundingPayload) (official : OfficialContext) : Py ProtectionOutcome := do
  let fires ← triggers official.exitPlan event mark
  let ctx ← (protectionContext cfg before after event fires official).postInit cfg.arith
  PositionProtection.evaluateMark cfg.arith cfg.broker event mark ctx

def openPosition (account : AccountState) (symbol : String) : Option PositionState :=
  (account.positions.get? symbol).filter (fun p => ¬ p.isFlat cfg.arith)

/-- the part of `_observe_mark` for an open position -/
def protectPosition (before after : ObservationBuffer) (event : ObservedMarketEvent)
    (mark : MarkFundingPayload) (account : AccountState) (position : PositionState) :
    Py Database := do
  let official ← db.officialContext cfg account position
  let outcome ← protectionOutcome cfg before after event mark official
  db.recordProtectionOutcome cfg outcome

/-- `_observe_mark`: `before` is the buffer when the mark is taken up, `after` the one at the end of
the wait for a book -/
def observeMark (before after : ObservationBuffer) (event : ObservedMarketEvent)
    (mark : MarkFundingPayload) : Py Database := do
  raiseIf (event.symbol ∉ cfg.manifest.symbols)
    (.continuousRuntimeConflict "mark symbol is outside the experiment")
  let account ← db.loadAccount cfg
  match openPosition cfg account event.symbol with
  | none => return db
  | some position => db.protectPosition cfg before after event mark account position

/-! ## funding -/

def recordFundingOutcome (o : FundingApplicationOutcome) : Py Database := do
  let recorded ← db.execution.recordFunding cfg.arith o.record o.account
  return { db with execution := recorded.1 }

def checkStoredFunding (event : ObservedMarketEvent) (payload : FundingSettlementPayload) :
    Py Unit :=
  raiseIf (∃ row ∈ db.execution.findFunding event.eventId, row.fundingAt ≠ payload.fundingAt ∨
      row.rate ≠ payload.fundingRate ∨ row.rateType ≠ payload.rateType ∨
      row.markPrice ≠ payload.markPrice)
    (.continuousRuntimeConflict "funding event identity has different persisted content")

def fundingApplies (account : AccountState) (event : ObservedMarketEvent)
    (payload : FundingSettlementPayload) : Prop :=
  db.execution.findFunding event.eventId = none ∧
    ∃ p ∈ openPosition cfg account event.symbol, ∃ t ∈ p.openedAt, t ≤ payload.fundingAt

instance {a : AccountState} {e : ObservedMarketEvent} {f : FundingSettlementPayload} :
    Decidable (db.fundingApplies cfg a e f) := by
  unfold fundingApplies
  infer_instance

def fundingCommand (account : AccountState) (event : ObservedMarketEvent)
    (payload : FundingSettlementPayload) : FundingSettlementCommand :=
  { experimentId := cfg.manifest.experimentId, symbol := event.symbol,
    marketEventId := event.eventId, fundingAt := payload.fundingAt, observedAt := event.observedAt,
    markPrice := payload.markPrice, rate := payload.fundingRate,
    rateType := payload.rateType, account }

def settleFunding (account : AccountState) (event : ObservedMarketEvent)
    (payload : FundingSettlementPayload) : Py Database := do
  let command ← (fundingCommand cfg account event payload).postInit cfg.arith
  let outcome ← command.apply cfg.arith
  db.recordFundingOutcome cfg outcome

def observeFunding (event : ObservedMarketEvent)
    (payload : FundingSettlementPayload) : Py Database := do
  raiseIf (event.symbol ∉ cfg.manifest.symbols)
    (.continuousRuntimeConflict "funding symbol is outside the experiment")
  raiseIf (event.venueEventAt ≠ payload.fundingAt ∨ event.observedAt < payload.fundingAt)
    (.continuousRuntimeConflict "funding event timestamps are inconsistent")
  db.checkStoredFunding event payload
  let account ← db.loadAccount cfg
  if db.fundingApplies cfg account event payload then db.settleFunding cfg account event payload
  else return db

def observe (before after : ObservationBuffer) (event : ObservedMarketEvent) : Py Database :=
  match event.payload with
  | .markFunding mark => db.observeMark cfg before after event mark
  | .fundingSettlement payload => db.observeFunding cfg event payload
  | .orderBook _ => do
    raiseIf (event.symbol ∉ cfg.manifest.symbols)
      (.continuousRuntimeConflict "book symbol is outside the experiment")
    return db
  | _ => .ok db

/-! ## what a continuous event changes -/

variable {cfg db} {db' : Database}

theorem haltForProtection_eq {i : IncidentState} (h : db.haltForProtection cfg i = .ok db') :
    ∃ c halted row, db.control = some c ∧
      c.halt (protectionReason i) i.detectedAt "position_protection" = .ok halted ∧
      db.experiment.failActive cfg.manifest (protectionReason i) = .ok row ∧
      db' = { db with control := some halted, experiment := row.1 } := by
  simp only [haltForProtection, bind_eq_ok, pure_ok_iff] at h
  obtain ⟨halted, hh, failed, hf, rfl⟩ := h
  obtain ⟨c, hc, hd, heq⟩ := haltControl_eq hh
  obtain ⟨row, hrow, hfe⟩ := changeExperiment_eq hf
  rw [heq] at hrow hfe
  exact ⟨c, halted.2, (row, failed.2), hc, hd, hrow, hfe⟩

/-- what `record_protection_outcome` wrote -/
structure OutcomeRecorded (cfg : WorkerConfig) (db : Database) (o : ProtectionOutcome)
    (db' : Database) : Prop where
  experiment : o.account.experimentId = cfg.manifest.experimentId
  tables : db.protectedTables cfg o = .ok db'.execution
  incidents : recordOptionalIncident db.incidents o.incident = .ok db'.incidents
  halt : if o.requiresPersistentHalt = true then
      ∃ i, o.incident = some i ∧ ∃ c halted row, db.control = some c ∧
        c.halt (protectionReason i) i.detectedAt "position_protection" = .ok halted ∧
        db.experiment.failActive cfg.manifest (protectionReason i) = .ok row ∧
        db'.control = some halted ∧ db'.experiment = row.1
    else db'.control = db.control ∧ db'.experiment = db.experiment
  commands : db'.commands = db.commands
  cursors : db'.cursors = db.cursors
  recoveries : db'.recoveries = db.recoveries

theorem recordProtectionOutcome_eq {o : ProtectionOutcome}
    (h : db.recordProtectionOutcome cfg o = .ok db') : OutcomeRecorded cfg db o db' := by
  simp only [recordProtectionOutcome, bind_eq_ok, raiseIf_eq_ok, ne_eq, not_not] at h
  obtain ⟨_, he, execution, ht, incidents, hi, h⟩ := h
  split at h
  · rename_i hp
    simp only [bind_eq_ok, orRaise_eq_ok] at h
    obtain ⟨i, hoi, h⟩ := h
    obtain ⟨c, halted, row, hc, hh, hf, rfl⟩ := haltForProtection_eq h
    refine ⟨he, ht, hi, ?_, rfl, rfl, rfl⟩
    rw [if_pos hp]
    exact ⟨i, hoi, c, halted, row, hc, hh, hf, rfl, rfl⟩
  · rename_i hp
    cases h
    refine ⟨he, ht, hi, ?_, rfl, rfl, rfl⟩
    rw [if_neg hp]
    exact ⟨rfl, rfl⟩

/-- a mark of a position: its context was read, its outcome evaluated and recorded -/
structure MarkObserved (cfg : WorkerConfig) (db : Database) (before after : ObservationBuffer)
    (event : ObservedMarketEvent) (mark : MarkFundingPayload) (account : AccountState)
    (position : PositionState) (official : OfficialContext) (outcome : ProtectionOutcome)
    (db' : Database) : Prop where
  listed : event.symbol ∈ cfg.manifest.symbols
  loaded : db.loadAccount cfg = .ok account
  found : openPosition cfg account event.symbol = some position
  read : db.officialContext cfg account position = .ok official
  evaluated : protectionOutcome cfg before after event mark official = .ok outcome
  recorded : OutcomeRecorded cfg db outcome db'

variable {before after : ObservationBuffer} {event : ObservedMarketEvent}
  {mark : MarkFundingPayload}

theorem observeMark_cases (h : db.observeMark cfg before after event mark = .ok db') :
    db' = db ∨ ∃ account position official outcome,
      MarkObserved cfg db before after event mark account position official outcome db' := by
  simp only [observeMark, bind_eq_ok, raiseIf_eq_ok, not_not] at h
  obtain ⟨_, hs, account, ha, h⟩ := h
  split at h
  · cases h
    exact Or.inl rfl
  · rename_i position hp
    simp only [protectPosition, bind_eq_ok] at h
    obtain ⟨official, ho, outcome, hout, h⟩ := h
    exact Or.inr ⟨account, position, official, outcome, hs, ha, hp, ho, hout,
      recordProtectionOutcome_eq h⟩

structure FundingObserved (cfg : WorkerConfig) (db : Database) (event : ObservedMarketEvent)
    (payload : FundingSettlementPayload) (account : AccountState)
    (command : FundingSettlementCommand) (outcome : FundingApplicationOutcome) (created : Bool)
    (db' : Database) : Prop where
  listed : event.symbol ∈ cfg.manifest.symbols
  loaded : db.loadAccount cfg = .ok account
  applies : db.fundingApplies cfg account event payload
  checked : (fundingCommand cfg account event payload).postInit cfg.arith = .ok command
  applied : command.apply cfg.arith = .ok outcome
  recorded : db.execution.recordFunding cfg.arith outcome.record outcome.account =
    .ok (db'.execution, created)
  frame : db' = { db with execution := db'.execution }

theorem observeFunding_cases {payload : FundingSettlementPayload}
    (h : db.observeFunding cfg event payload = .ok db') :
    db' = db ∨ ∃ account command outcome created,
      FundingObserved cfg db event payload account command outcome created db' := by
  simp only [observeFunding, bind_eq_ok, raiseIf_eq_ok, not_not] at h
  obtain ⟨_, hs, _, _, _, _, account, ha, h⟩ := h
  split at h
  · rename_i happ
    simp only [settleFunding, recordFundingOutcome, bind_eq_ok, pure_ok_iff] at h
    obtain ⟨command, hc, outcome, ho, recorded, hr, rfl⟩ := h
    exact Or.inr ⟨account, command, outcome, recorded.2, hs, ha, happ, hc, ho, hr, rfl⟩
  · cases h
    exact Or.inl rfl

theorem observe_open {a : AccountState} {p : PositionState}
    (hp : event.payload = .markFunding mark) (ha : db.loadAccount cfg = .ok a)
    (hopen : openPosition cfg a event.symbol = some p)
    (h : db.observe cfg before after event = .ok db') :
    ∃ official o, MarkObserved cfg db before after event mark a p official o db' := by
  simp only [observe, hp, observeMark, ha, bind_eq_ok, raiseIf_eq_ok, not_not, Except.ok.injEq] at h
  obtain ⟨_, hs, _, rfl, h⟩ := h
  simp only [hopen, protectPosition, bind_eq_ok] at h
  obtain ⟨official, hr, o, ho, h⟩ := h
  exact ⟨official, o, hs, ha, hopen, hr, ho, recordProtectionOutcome_eq h⟩

theorem observe_cases (h : db.observe cfg before after event = .ok db') :
    db' = db ∨
    (∃ mark account position official outcome, event.payload = .markFunding mark ∧
      MarkObserved cfg db before after event mark account position official outcome db') ∨
    ∃ payload account command outcome created, event.payload = .fundingSettlement payload ∧
      FundingObserved cfg db event payload account command outcome created db' := by
  unfold observe at h
  cases hp : event.payload with
  | markFunding mark =>
    simp only [hp] at h
    obtain rfl | ⟨account, position, official, outcome, ho⟩ := observeMark_cases h
    · exact Or.inl rfl
    · exact Or.inr (Or.inl ⟨mark, account, position, official, outcome, rfl, ho⟩)
  | fundingSettlement payload =>
    simp only [hp] at h
    obtain rfl | ⟨account, command, outcome, created, ho⟩ := observeFunding_cases h
    · exact Or.inl rfl
    · exact Or.inr (Or.inr ⟨payload, account, command, outcome, created, rfl, ho⟩)
  | orderBook book =>
    simp only [hp, bind_eq_ok, pure_ok_iff] at h
    obtain ⟨_, _, rfl⟩ := h
    exact Or.inl rfl
  | closedBar bar =>
    simp only [hp, Except.ok.injEq] at h
    exact Or.inl h.symm
  | other =>
    simp only [hp, Except.ok.injEq] at h
    exact Or.inl h.symm

end Database

end Maais
