import Maais.Worker.Effects
import Maais.Worker.Transactions

/-!
# What a transaction changes

* `Changes`  for every part of the database, the ways a transaction leaves it;
* `Transaction.changes`  every transaction leaves every part in one of these ways.
-/

namespace Maais
open Lib Database

inductive ControlChange (cfg : WorkerConfig) (w : World) (input : Input) (db : Database) :
    Option TradingControlSnapshot → Prop
  | same : ControlChange cfg w input db db.control
  | initialized {c : TradingControlSnapshot} {t : Time} {actor : String} (hn : db.control = none)
      (hc : TradingControlSnapshot.initialized db.experiment.id t actor = .ok c) :
      ControlChange cfg w input db (some c)
  | halted {c d : TradingControlSnapshot} {reason actor : String} {t : Time}
      (hc : db.control = some c) (hd : c.halt reason t actor = .ok d)
      (hr : startsWith reason pausePrefix = false) : ControlChange cfg w input db (some d)
  | command {q q₀ : OperatorCommand} {k : Option TradingControlSnapshot} (hdb : db = w.db)
      (hq : w.taken cfg input = some q₀) (hsame : q₀.SameRequest q)
      (hk : CommandControl (cfg.withWorker w.workerId) db q k) : ControlChange cfg w input db k

inductive CommandsChange (table : CommandTable) : CommandTable → Prop
  | same : CommandsChange table table
  | enqueued {q : OperatorCommand} {table' : CommandTable} (h : table.enqueue q = .ok table') :
      CommandsChange table table'
  | claimed {idOrder : UUID → Nat} {worker : String} {t : Time} {q : Option OperatorCommand}
      {table' : CommandTable} (h : table.claimNext idOrder worker t = .ok (table', q)) :
      CommandsChange table table'
  | executed {idOrder : UUID → Nat} {worker : String} {t : Time} {q q' : OperatorCommand}
      {id : UUID} {claimed table' : CommandTable}
      (h : table.claimNext idOrder worker t = .ok (claimed, some q))
      (hf : claimed.Finished id (table', q')) : CommandsChange table table'
  | finished {id : UUID} {q : OperatorCommand} {table' : CommandTable}
      (hf : table.Finished id (table', q)) : CommandsChange table table'

inductive ExecutionChange (cfg : WorkerConfig) (w : World) (input : Input) (db : Database) :
    ExecutionTables → Prop
  | same : ExecutionChange cfg w input db db.execution
  | cycle {after : ObservationBuffer} {event : ObservedMarketEvent} {bar : ClosedBarPayload}
      {cycle : CycleInput} {o : CycleOutcome} {tables : ExecutionTables}
      (hb : w.DispatchesBar input) (ho : db.cycleOutcome cfg after event bar cycle = .ok o)
      (h : db.recordOptionalExecution cfg o.execution = .ok tables) :
      ExecutionChange cfg w input db tables
  | mark {i : DispatchInput} {haltedAt : Time} {before after : ObservationBuffer}
      {event : ObservedMarketEvent} {mark : MarkFundingPayload} {account : AccountState}
      {position : PositionState} {official : OfficialContext} {o : ProtectionOutcome}
      {db' : Database} (hdb : db = w.db) (hi : input = .dispatch i haltedAt)
      (hq : w.queue.head? = some event) (hp : event.payload = .markFunding mark)
      (h : MarkObserved cfg db before after event mark account position official o db') :
      ExecutionChange cfg w input db db'.execution
  | funding {i : DispatchInput} {haltedAt : Time} {event : ObservedMarketEvent}
      {payload : FundingSettlementPayload} {account : AccountState}
      {command : FundingSettlementCommand} {o : FundingApplicationOutcome} {created : Bool}
      {db' : Database} (hdb : db = w.db) (hi : input = .dispatch i haltedAt)
      (hq : w.queue.head? = some event) (hp : event.payload = .fundingSettlement payload)
      (h : FundingObserved cfg db event payload account command o created db') :
      ExecutionChange cfg w input db db'.execution
  | flatten {claimed : Database} {i : PollInput} {haltedAt : Time} {q : OperatorCommand}
      {plan : FlattenPlan} {before after : ObservationBuffer} {control : TradingControlSnapshot}
      {account finalAccount : AccountState} {out : Database × OperatorCommandExecution}
      (hi : input = .poll i haltedAt) (hc : claimed = { db with commands := claimed.commands })
      (hp : db.prepareFlatten (cfg.withWorker w.workerId) q i.plannedAt before after = .ok plan)
      (h : FlattenRecorded (cfg.withWorker w.workerId) claimed q plan
        (i.now 2) control account finalAccount out) : ExecutionChange cfg w input db out.1.execution

structure Changes (cfg : WorkerConfig) (w : World) (input : Input) (db db' : Database) : Prop where
  control : ControlChange cfg w input db db'.control
  experiment : db.experiment.Moves db'.experiment
  incidents : db'.incidents = db.incidents ∨ ∃ i, recordIncident db.incidents i = .ok db'.incidents
  commands : CommandsChange db.commands db'.commands
  execution : ExecutionChange cfg w input db db'.execution

section
variable {cfg : WorkerConfig} {w : World} {input : Input} {db db' : Database}

theorem recordOptionalIncident_eq {table table' : IncidentTable} {i : Option IncidentState}
    (h : recordOptionalIncident table i = .ok table') :
    table' = table ∨ ∃ i, recordIncident table i = .ok table' := by
  cases i with
  | none =>
    cases h
    exact Or.inl rfl
  | some i => exact Or.inr ⟨i, h⟩

variable {after : ObservationBuffer} {event : ObservedMarketEvent}

theorem dispatch_changes {bar : ClosedBarPayload} {cycle : CycleInput} {target : MarketCursor}
    {progress : Option RecoveryState} (hb : w.DispatchesBar input)
    (h : db.dispatch cfg after event bar cycle target progress = .ok db') :
    Changes cfg w input db db' := by
  obtain ⟨o, ho, hr⟩ := dispatch_cases h
  refine ⟨?_, .of_eq hr.experiment, recordOptionalIncident_eq hr.incidents, ?_,
    .cycle hb ho hr.execution⟩
  · rw [hr.control]
    exact .same
  · rw [hr.commands]
    exact .same

variable {haltedAt : Time} {before : ObservationBuffer} {account : AccountState}

theorem mark_changes {i : DispatchInput} {mark : MarkFundingPayload} {position : PositionState}
    {official : OfficialContext} {o : ProtectionOutcome} (hi : input = .dispatch i haltedAt)
    (hq : w.queue.head? = some event) (hp : event.payload = .markFunding mark)
    (h : MarkObserved cfg w.db before after event mark account position official o db') :
    Changes cfg w input w.db db' := by
  have hcommands : CommandsChange w.db.commands db'.commands := by
    rw [h.recorded.commands]
    exact .same
  have hincidents := recordOptionalIncident_eq h.recorded.incidents
  have hhalt := h.recorded.halt
  split at hhalt
  · obtain ⟨incident, _, c, halted, row, hc, hd, hf, hc', hexp⟩ := hhalt
    refine ⟨?_, ?_, hincidents, hcommands, .mark rfl hi hq hp h⟩
    · rw [hc']
      exact .halted hc hd (protectionReason_hard incident)
    · rw [hexp]
      exact ExperimentRow.failActive_moves hf
  · refine ⟨?_, .of_eq hhalt.2, hincidents, hcommands, .mark rfl hi hq hp h⟩
    rw [hhalt.1]
    exact .same

theorem funding_changes {i : DispatchInput}
    {payload : FundingSettlementPayload} {command : FundingSettlementCommand}
    {o : FundingApplicationOutcome} {created : Bool} (hi : input = .dispatch i haltedAt)
    (hq : w.queue.head? = some event) (hp : event.payload = .fundingSettlement payload)
    (h : FundingObserved cfg w.db event payload account command o created db') :
    Changes cfg w input w.db db' := by
  refine ⟨?_, ?_, ?_, ?_, .funding rfl hi hq hp h⟩ <;> rw [h.frame]
  · exact .same
  · exact .refl
  · exact Or.inl rfl
  · exact .same

theorem commands_changes (hdb : db' = { db with commands := db'.commands })
    (h : CommandsChange db.commands db'.commands) : Changes cfg w input db db' := by
  refine ⟨?_, ?_, ?_, h, ?_⟩ <;> rw [hdb]
  · exact .same
  · exact .refl
  · exact Or.inl rfl
  · exact .same

variable {q : OperatorCommand} {commands : CommandTable}

theorem passesReset_of_commands
    (h : passesReset cfg { db with commands } q) : passesReset cfg db q := by
  obtain ⟨ht, version, reason, control, account, pending, hpay, hc, ha, hpend, hall⟩ := h
  exact ⟨ht, version, reason, control, account, pending, hpay, hc, ha, hpend, hall.paused,
    hall.exactState, hall.flat, hall.noPending, hall.noRecoveries, hall.noIncidents⟩

theorem Database.CommandControl.of_commands
    {k : Option TradingControlSnapshot} (h : CommandControl cfg { db with commands } q k) :
    CommandControl cfg db q k := by
  cases h with
  | same => exact .same
  | halted hc hd hr => exact .halted hc hd hr
  | resumed hc hp hd => exact .resumed hc hp hd
  | reset hc hp hd => exact .reset hc (passesReset_of_commands hp) hd

variable {i : PollInput}

theorem claim_taken {claimed : Database} (hi : input = .poll i haltedAt)
    (hm : w.mode = .standby ∨ w.mode = .running) (hf : w.db.acceptedFlattens = [])
    (h : w.db.claim (cfg.withWorker w.workerId) (i.now 0) = .ok (claimed, some q)) :
    ∃ q₀, w.taken cfg input = some q₀ ∧ q₀.SameRequest q := by
  obtain ⟨hclaim, _⟩ := claim_eq h
  obtain ⟨hn, _⟩ | ⟨q₀, q', hq₀, hq', hsame, _⟩ := CommandTable.claimNext_cases hclaim
  · cases hn
  · cases hq'
    subst hi
    exact ⟨q₀, by rw [World.taken, if_pos ⟨hm, hf⟩]; exact hq₀, hsame⟩

theorem execute_changes {x : Option OperatorCommandExecution} (hi : input = .poll i haltedAt)
    (hm : w.mode = .standby ∨ w.mode = .running) (hf : w.db.acceptedFlattens = [])
    (h : w.db.execute (cfg.withWorker w.workerId) i.now = .ok (db', x)) :
    Changes cfg w input w.db db' := by
  obtain ⟨_, hc⟩ | ⟨claimed, q, done, hc, happly, _⟩ := execute_cases h
  · obtain ⟨hclaim, heq⟩ := claim_eq hc
    exact commands_changes heq (.claimed hclaim)
  · obtain ⟨q₀, hq₀, hsame⟩ := claim_taken hi hm hf hc
    obtain ⟨hclaim, heq⟩ := claim_eq hc
    obtain ⟨hcontrol, hexp, hincidents, hcommands, hexec, _, _⟩ := applyCommand_effect happly
    rw [heq] at hcontrol hexp hincidents hexec
    refine ⟨.command rfl hq₀ hsame hcontrol.of_commands, hexp, hincidents, ?_, ?_⟩
    · obtain ⟨_, hsame', _⟩ | hfin := hcommands
      · rw [hsame']
        exact .claimed hclaim
      · exact .executed hclaim hfin
    · have hsame' : db'.execution = w.db.execution := hexec
      rw [hsame']
      exact .same

theorem completeFlatten_changes {plan : FlattenPlan} {x : OperatorCommandExecution}
    (hi : input = .poll i haltedAt)
    (hp : db.prepareFlatten (cfg.withWorker w.workerId) q i.plannedAt before after = .ok plan)
    (h : db.completeFlatten (cfg.withWorker w.workerId) q plan (i.now 1) (i.now 2) = .ok (db', x)) :
    Changes cfg w input db db' := by
  obtain ⟨hcontrol, hexp, hincidents, _, _⟩ := completeFlatten_frame h
  obtain ⟨_, claimed, q', hc, _, hrec⟩ := completeFlatten_cases h
  obtain ⟨control, account, finalAccount, hr⟩ := recordFlattenPlan_cases hrec
  obtain ⟨hclaim, heq⟩ := claim_eq hc
  have hfin := CommandTable.complete_finished (completeCommand_eq hr.completed).1
  refine ⟨?_, .of_eq hexp, Or.inl hincidents, .executed hclaim hfin, .flatten hi heq hp hr⟩
  have hsame : db'.control = db.control := hcontrol
  rw [hsame]
  exact .same

theorem halt_changes {e : PyError} {t : Time} (h : db.haltForFailure cfg e t = .ok db') :
    Changes cfg w input db db' := by
  obtain ⟨c, halted, hc, hd, heq, hexp⟩ := haltForFailure_eq h
  refine ⟨?_, ?_, ?_, ?_, ?_⟩
  · rw [heq]
    exact .halted hc hd (failureReason_hard _)
  · obtain hsame | ⟨b, hf⟩ := hexp
    · exact .of_eq hsame
    · exact ExperimentRow.failActive_moves hf
  · rw [heq]
    exact Or.inl rfl
  · rw [heq]
    exact .same
  · rw [heq]
    exact .same

theorem Transaction.changes (h : Transaction cfg w input db db') : Changes cfg w input db db' := by
  cases h with
  | init h =>
    obtain ⟨_, rfl⟩ | ⟨hn, c, hc, rfl⟩ := initControl_eq h
    · exact ⟨.same, .refl, Or.inl rfl, .same, .same⟩
    · exact ⟨.initialized hn hc, .refl, Or.inl rfl, .same, .same⟩
  | enqueue h => exact commands_changes rfl (.enqueued h)
  | dispatch hb h => exact dispatch_changes hb h
  | observe hi hq h =>
    obtain rfl | ⟨_, _, _, _, o, hp, ho⟩ | ⟨_, _, _, _, _, hp, ho⟩ := observe_cases h
    · exact ⟨.same, .refl, Or.inl rfl, .same, .same⟩
    · exact mark_changes hi hq hp ho
    · exact funding_changes hi hq hp ho
  | recoveries r => exact ⟨.same, .refl, Or.inl rfl, .same, .same⟩
  | execute hi hm hf h => exact execute_changes hi hm hf h
  | claimFlatten hi hf hid h => exact commands_changes (claim_eq h).2 (.claimed (claim_eq h).1)
  | completeFlatten hi hp h => exact completeFlatten_changes hi hp h
  | rejectFlatten hi h =>
    obtain ⟨hr, heq, _⟩ := rejectCommand_eq h
    exact commands_changes heq (.finished (CommandTable.reject_finished hr))
  | halt h => exact halt_changes h

end

end Maais
