import Maais.Worker.Supervisor
import Mathlib.Logic.Relation

/-!
# The transactions of a step

Whatever a step does to the database is a chain of committed transactions. A property that every
transaction keeps holds in every world of every run.

* `Transaction`  one committed transaction of a step;
* `step_transactions`  the database of a step is reached through its transactions;
* `Reaches.inv`  what the created database has and every transaction keeps.
-/

namespace Maais
open Lib Relation

def WorkerConfig.withWorker (cfg : WorkerConfig) (workerId : UUID) : WorkerConfig :=
  { cfg with workerId }

def World.taken (cfg : WorkerConfig) (w : World) : Input → Option OperatorCommand
  | .poll _ _ =>
    if (w.mode = .standby ∨ w.mode = .running) ∧ w.db.acceptedFlattens = [] then
      CommandTable.nextCommand cfg.idOrder w.db.commands
    else none
  | _ => none

def World.DispatchesBar (w : World) (input : Input) : Prop :=
  ∃ i haltedAt event bar, input = .dispatch i haltedAt ∧ w.queue.head? = some event ∧
    event.payload = .closedBar bar

inductive Transaction (cfg : WorkerConfig) (w : World) (input : Input) : Database → Database → Prop
  | init {db db' : Database} {startedAt : Time} {actor : String}
      (h : db.initControl startedAt actor = .ok db') : Transaction cfg w input db db'
  | enqueue {db : Database} {q : OperatorCommand} {commands : CommandTable}
      (h : db.commands.enqueue q = .ok commands) : Transaction cfg w input db { db with commands }
  | dispatch {db db' : Database} {after : ObservationBuffer} {event : ObservedMarketEvent}
      {bar : ClosedBarPayload} {cycle : CycleInput} {target : MarketCursor}
      {progress : Option RecoveryState} (hb : w.DispatchesBar input)
      (h : db.dispatch cfg after event bar cycle target progress = .ok db') :
      Transaction cfg w input db db'
  | observe {db' : Database} {i : DispatchInput} {haltedAt : Time}
      {before after : ObservationBuffer} {event : ObservedMarketEvent}
      (hi : input = .dispatch i haltedAt) (hq : w.queue.head? = some event)
      (h : w.db.observe cfg before after event = .ok db') : Transaction cfg w input w.db db'
  | recoveries {db : Database} (recoveries : RecoveryTable) :
      Transaction cfg w input db { db with recoveries }
  | execute {i : PollInput} {haltedAt : Time} {db' : Database} {x : Option OperatorCommandExecution}
      (hi : input = .poll i haltedAt) (hm : w.mode = .standby ∨ w.mode = .running)
      (hf : w.db.acceptedFlattens = [])
      (h : w.db.execute (cfg.withWorker w.workerId) i.now = .ok (db', x)) :
      Transaction cfg w input w.db db'
  | claimFlatten {i : PollInput} {haltedAt : Time} {db' : Database} {first q : OperatorCommand}
      (hi : input = .poll i haltedAt) (hf : w.db.acceptedFlattens = [first])
      (hid : q.commandId = first.commandId)
      (h : w.db.claim (cfg.withWorker w.workerId) (i.now 0) = .ok (db', some q)) :
      Transaction cfg w input w.db db'
  | completeFlatten {db db' : Database} {i : PollInput} {haltedAt : Time} {q : OperatorCommand}
      {plan : FlattenPlan} {before after : ObservationBuffer} {x : OperatorCommandExecution}
      (hi : input = .poll i haltedAt)
      (hp : db.prepareFlatten (cfg.withWorker w.workerId) q i.plannedAt before after = .ok plan)
      (h : db.completeFlatten (cfg.withWorker w.workerId) q plan (i.now 1) (i.now 2) =
      .ok (db', x)) : Transaction cfg w input db db'
  | rejectFlatten {db db' : Database} {i : PollInput} {haltedAt : Time} {q : OperatorCommand}
      {reasonCode detail : String} {x : OperatorCommandExecution} (hi : input = .poll i haltedAt)
      (h : db.rejectCommand (cfg.withWorker w.workerId) q (i.now 1) reasonCode detail =
      .ok (db', x)) : Transaction cfg w input db db'
  | halt {db db' : Database} {e : PyError} {haltedAt : Time}
      (h : db.haltForFailure cfg e haltedAt = .ok db') : Transaction cfg w input db db'

namespace Turn

variable {cfg : WorkerConfig} {w₀ : World} {input : Input} {α β : Type}

/-- the turn left the worker its identity, and its database is reached through transactions -/
structure Commits (cfg : WorkerConfig) (w₀ : World) (input : Input) (w : World)
    (t : Turn α) : Prop where
  worker : t.1.workerId = w.workerId
  chain : ReflTransGen (Transaction cfg w₀ input) w.db t.1.db

theorem Commits.refl {w : World} {x : Py α} : Commits cfg w₀ input w (w, x) := ⟨rfl, .refl⟩

theorem Commits.andThen {w : World} {t : Turn α} {f : World → α → Turn β}
    (ht : Commits cfg w₀ input w t) (hf : ∀ a, t.2 = .ok a → Commits cfg w₀ input t.1 (f t.1 a)) :
    Commits cfg w₀ input w (t.andThen f) := by
  unfold Outcome.andThen
  split
  · exact ⟨ht.worker, ht.chain⟩
  · rename_i a ha
    have h := hf a ha
    exact ⟨h.worker.trans ht.worker, ht.chain.trans h.chain⟩

end Turn

namespace World

variable {cfg : WorkerConfig} {w₀ w : World} {input : Input}

open Turn

theorem commit_commits {x : Py Database} (h : ∀ db, x = .ok db → Transaction cfg w₀ input w.db db) :
    Commits cfg w₀ input w (w.commit x) := by
  unfold commit
  split
  · exact .refl
  · rename_i db
    exact ⟨rfl, .single (h db rfl)⟩

variable {events : List ObservedMarketEvent}

theorem arrive_commits :
    Commits cfg w₀ input w (w.arrive cfg events) := by
  unfold arrive
  split
  · exact .refl
  · exact ⟨rfl, .refl⟩

theorem arrive_db : (w.arrive cfg events).1.db = w.db := by
  unfold arrive
  split <;> rfl

theorem arrive_worker :
    (w.arrive cfg events).1.workerId = w.workerId := by
  unfold arrive
  split <;> rfl

theorem attempt_commits {α : Type} {x : Py α} : Commits cfg w₀ input w (w.attempt x) := .refl

variable {event : ObservedMarketEvent}

theorem appendJournal_db {w' : World}
    (h : w.appendJournal cfg event = .ok (some w')) : w'.db = w.db ∧ w'.workerId = w.workerId := by
  simp only [appendJournal, bind_eq_ok, pure_ok_iff, Option.map_eq_some_iff] at h
  obtain ⟨_, _, journal, _, rfl⟩ := h
  exact ⟨rfl, rfl⟩

variable {candidate : ObservedMarketEvent}

theorem appendRecovered_db {w' : World}
    (h : w.appendRecovered cfg candidate event = .ok w') :
    w'.db = w.db ∧ w'.workerId = w.workerId := by
  unfold appendRecovered at h
  split at h
  · cases h
    exact ⟨rfl, rfl⟩
  · simp only [bind_eq_ok, pure_ok_iff] at h
    obtain ⟨appended, ha, rfl⟩ := h
    cases appended with
    | none => exact ⟨rfl, rfl⟩
    | some w' => exact appendJournal_db ha

/-! ## closed bars -/

variable {i : DispatchInput} {bar : ClosedBarPayload}

theorem dispatchBar_commits {k : Nat} {target : MarketCursor} {progress : Option RecoveryState}
    (hb : w₀.DispatchesBar input) :
    Commits cfg w₀ input w (w.dispatchBar cfg i k event bar target progress) :=
  arrive_commits.andThen fun _ _ =>
    (commit_commits fun _ h => .dispatch hb h).andThen fun _ _ => ⟨rfl, .refl⟩

variable {p : RecoveryPreparation} {cursor : MarketCursor}

theorem recoverBar_commits {k : Nat} (hb : w₀.DispatchesBar input) :
    Commits cfg w₀ input w (w.recoverBar cfg i candidate k p cursor event) := by
  refine attempt_commits.andThen fun w' hw' => ?_
  obtain ⟨hdb, hid⟩ := appendRecovered_db hw'
  have h : Commits cfg w₀ input w'
      ((w'.attempt (barOf event)).andThen fun w bar =>
        (w.attempt (cursor.advanceClosedBar event bar)).andThen fun w target =>
          (w.attempt (p.recovery.recordDispatch target (i.progressAt k))).andThen
              fun w progressed =>
            (w.dispatchBar cfg i k event bar target (some progressed)).andThen fun w _ =>
              (w, .ok ({ p with recovery := progressed }, target))) :=
    attempt_commits.andThen fun _ _ => attempt_commits.andThen fun _ _ =>
      attempt_commits.andThen fun _ _ => (dispatchBar_commits hb).andThen fun _ _ => .refl
  exact ⟨h.worker.trans hid, hdb ▸ h.chain⟩

theorem recoverBars_commits (hb : w₀.DispatchesBar input) (events : List ObservedMarketEvent)
    (k : Nat) (w : World) (p : RecoveryPreparation) (cursor : MarketCursor) :
    Commits cfg w₀ input w (recoverBars cfg i candidate k events w p cursor) := by
  induction events generalizing k w p cursor with
  | nil => exact .refl
  | cons event rest ih =>
    exact (recoverBar_commits hb).andThen fun next _ => ih (k + 1) _ next.1 next.2

theorem completeRecovery_eq {t : Time} {db : Database}
    (h : w.completeRecovery p bar cursor t = .ok db) :
    ∃ recoveries, db = { w.db with recoveries } := by
  simp only [completeRecovery, bind_eq_ok, pure_ok_iff] at h
  obtain ⟨_, _, _, _, _, _, _, _, recoveries, _, rfl⟩ := h
  exact ⟨recoveries, rfl⟩

theorem recover_commits (hb : w₀.DispatchesBar input) :
    Commits cfg w₀ input w (w.recover cfg i bar p cursor) := by
  refine (recoverBars_commits hb _ 0 w p cursor).andThen fun done _ => commit_commits fun db h => ?_
  obtain ⟨recoveries, rfl⟩ := completeRecovery_eq h
  exact .recoveries recoveries

theorem dispatchAfter_commits (hb : w₀.DispatchesBar input) :
    Commits cfg w₀ input w (w.dispatchAfter cfg i candidate bar cursor) := by
  have h : ∀ w' : World, ∀ x : Py (Option RecoveryPreparation), Commits cfg w₀ input w'
      ((w'.attempt x).andThen fun w prepared =>
      w.dispatchPrepared cfg i candidate bar cursor prepared) := by
    intro w' x
    refine attempt_commits.andThen fun prepared _ => ?_
    cases prepared with
    | none =>
      unfold dispatchPrepared
      exact attempt_commits.andThen fun _ _ => dispatchBar_commits hb
    | some p => exact recover_commits hb
  have hafter := h { w with db := { w.db with
    recoveries := ((recoveryEnv cfg i).prepare w.db.recoveries cursor candidate bar).1 } }
    ((recoveryEnv cfg i).prepare w.db.recoveries cursor candidate bar).2
  exact ⟨hafter.worker, .head (.recoveries _) hafter.chain⟩

theorem dispatchClosedBar_commits (hb : w₀.DispatchesBar input) :
    Commits cfg w₀ input w (w.dispatchClosedBar cfg i candidate bar) := by
  unfold dispatchClosedBar
  split
  · exact .refl
  · split
    · exact attempt_commits.andThen fun _ _ => dispatchBar_commits hb
    · exact dispatchAfter_commits hb

/-! ## every event -/

variable {haltedAt : Time}

theorem processNew_commits (hdb : w.db = w₀.db) (hi : input = .dispatch i haltedAt)
    (hq : w₀.queue.head? = some event) :
    Commits cfg w₀ input w (w.processNew cfg i event) := by
  have hobserve : Commits cfg w₀ input w ((w.arrive cfg (i.arriving 0)).andThen fun w' _ =>
      w'.commit (w'.db.observe cfg w.observations w'.observations event)) := by
    refine arrive_commits.andThen fun _ _ => commit_commits fun db h => ?_
    rw [arrive_db, hdb] at h ⊢
    exact .observe hi hq h
  unfold processNew
  split
  · rename_i bar hp
    exact dispatchClosedBar_commits ⟨i, haltedAt, event, bar, hi, hq, hp⟩
  · exact hobserve

theorem processEvent_commits (hdb : w.db = w₀.db) (hi : input = .dispatch i haltedAt)
    (hq : w₀.queue.head? = some event) : Commits cfg w₀ input w (w.processEvent cfg i event) := by
  unfold processEvent
  split
  · exact .refl
  · exact .refl
  · rename_i appended ha
    obtain ⟨hdb', hid⟩ := appendJournal_db ha
    have h : Commits cfg w₀ input appended (appended.processNew cfg i event) :=
      processNew_commits (hdb'.trans hdb) hi hq
    unfold rollbackJournal
    split
    · exact ⟨h.worker.trans hid, hdb' ▸ h.chain⟩
    · exact ⟨h.worker.trans hid, hdb' ▸ h.chain⟩

/-- a heartbeat is kept in memory only -/
theorem heartbeat_db {alive : World} (h : w.heartbeat event = .ok alive) :
    alive.db = w.db ∧ alive.workerId = w.workerId := by
  unfold heartbeat at h
  split at h
  · obtain ⟨_, _, h⟩ := bind_eq_ok.mp h
    cases h
    exact ⟨rfl, rfl⟩
  · cases h
    exact ⟨rfl, rfl⟩

theorem process_commits (hdb : w.db = w₀.db) (hi : input = .dispatch i haltedAt)
    (hq : w₀.queue.head? = some event) : Commits cfg w₀ input w (w.process cfg i event) := by
  unfold process
  split
  · exact .refl
  · rename_i alive ha
    obtain ⟨hdb', hid⟩ := heartbeat_db ha
    have h : Commits cfg w₀ input alive (alive.processEvent cfg i event) :=
      processEvent_commits (hdb'.trans hdb) hi hq
    exact ⟨h.worker.trans hid, hdb' ▸ h.chain⟩

/-! ## commands -/

theorem config_eq (cfg : WorkerConfig) (w : World) : w.config cfg = cfg.withWorker w.workerId := rfl

theorem commitCommand_commits {x : Py (Database × OperatorCommandExecution)}
    (h : ∀ done, x = .ok done → Transaction cfg w₀ input w.db done.1) :
    Commits cfg w₀ input w (w.commitCommand x) := by
  unfold commitCommand
  split
  · exact .refl
  · rename_i done
    exact ⟨rfl, .single (h done rfl)⟩

theorem finishFlatten_commits {i : PollInput} {q : OperatorCommand}
    {before after : ObservationBuffer} (hi : input = .poll i haltedAt)
    (hw : w.workerId = w₀.workerId) : Commits cfg w₀ input w (w.finishFlatten cfg i q
      (w.db.prepareFlatten (w.config cfg) q i.plannedAt before after)) := by
  unfold finishFlatten
  rw [config_eq, hw]
  split
  · rename_i plan hp
    exact commitCommand_commits fun done h => .completeFlatten hi hp h
  · exact commitCommand_commits fun done h => .rejectFlatten hi h
  · exact .refl

variable {first : OperatorCommand}

theorem claimFlatten_eq {i : PollInput} {out : Database × OperatorCommand}
    (h : w.claimFlatten cfg i first = .ok out) :
    w.db.claim (cfg.withWorker w.workerId) (i.now 0) = .ok (out.1, some out.2) ∧
      out.2.commandId = first.commandId := by
  simp only [claimFlatten, config_eq, bind_eq_ok, orRaise_eq_ok, Option.filter_eq_some_iff,
    decide_eq_true_eq, pure_ok_iff] at h
  obtain ⟨claimed, hc, q, ⟨hq, hid⟩, rfl⟩ := h
  exact ⟨by rw [hc, ← hq], hid⟩

theorem continueFlatten_commits {i : PollInput}
    (hi : input = .poll i haltedAt) (hf : w.db.acceptedFlattens = [first]) :
    Commits cfg w input w (w.continueFlatten cfg i first) := by
  unfold continueFlatten
  split
  · exact .refl
  · rename_i claimed hc
    obtain ⟨hclaim, hid⟩ := claimFlatten_eq hc
    have h : Commits cfg w input { w with db := claimed.1 }
        (({ w with db := claimed.1 } : World).arrive cfg i.arriving |>.andThen fun w' _ =>
          w'.finishFlatten cfg i claimed.2
            (w'.db.prepareFlatten (w'.config cfg) claimed.2 i.plannedAt w.observations
              w'.observations)) :=
      arrive_commits.andThen fun _ _ => finishFlatten_commits hi arrive_worker
    exact ⟨h.worker, .head (.claimFlatten hi hf hid hclaim) h.chain⟩

theorem executeNext_commits {i : PollInput} (hi : input = .poll i haltedAt)
    (hm : w.mode = .standby ∨ w.mode = .running) :
    Commits cfg w input w (w.executeNext cfg i) := by
  unfold executeNext
  split
  · rename_i hf
    unfold executeRequested
    split
    · exact .refl
    · rename_i done h
      exact ⟨rfl, .single (.execute hi hm hf (x := done.2) h)⟩
  · rename_i first hf
    exact continueFlatten_commits hi hf
  · exact .refl

/-! ## steps -/

theorem haltWorker_chain {e : PyError} :
    ReflTransGen (Transaction cfg w₀ input) w.db (w.haltWorker cfg e haltedAt).db :=
  have h : Commits cfg w₀ input w (w.commit (w.db.haltForFailure cfg e haltedAt)) :=
    commit_commits fun _ h => .halt h
  h.chain

theorem settle_chain {α : Type} {t : Turn α} {f : World → α → World} {db : Database}
    (ht : Commits cfg w₀ input w t) (hw : w.db = db) (hf : ∀ w a, (f w a).db = w.db) :
    ReflTransGen (Transaction cfg w₀ input) db (settle cfg t haltedAt f).db := by
  subst hw
  unfold settle
  split
  · rw [hf]
    exact ht.chain
  · exact ht.chain.trans haltWorker_chain

theorem supervise_db {x : Option OperatorCommandExecution} : (w.supervise x).db = w.db := by
  unfold supervise
  split
  · rfl
  · split
    · rfl
    · split <;> rfl

theorem step_transactions (cfg : WorkerConfig) (w : World) (input : Input) :
    ReflTransGen (Transaction cfg w input) w.db (step cfg w input).db := by
  cases input with
  | start workerId startedAt haltedAt =>
    simp only [step]
    split
    · have h : Commits cfg w (.start workerId startedAt haltedAt) (w.fresh workerId)
          ((w.fresh workerId).start cfg startedAt) :=
        (commit_commits fun _ h => .init h).andThen fun _ _ =>
          attempt_commits.andThen fun _ _ => attempt_commits
      exact settle_chain h rfl fun _ _ => rfl
    · exact .refl
  | ingest event haltedAt =>
    simp only [step]
    split
    · exact settle_chain arrive_commits rfl fun _ _ => rfl
    · exact .refl
  | dispatch i haltedAt =>
    simp only [step]
    split
    · unfold dispatchNext
      split
      · exact .refl
      · rename_i event rest hq
        have h : Commits cfg w (.dispatch i haltedAt) { w with queue := rest }
            (({ w with queue := rest } : World).process cfg i event) :=
          process_commits rfl rfl (by rw [hq]; rfl)
        exact settle_chain h rfl fun _ _ => rfl
    · exact .refl
  | enqueue command =>
    simp only [step]
    split
    · exact .refl
    · rename_i commands h
      exact .single (.enqueue h)
  | poll i haltedAt =>
    simp only [step]
    split
    · rename_i hm
      exact settle_chain (executeNext_commits rfl hm) rfl fun _ _ => supervise_db
    · exact .refl
  | fail e haltedAt =>
    simp only [step]
    split
    · exact .refl
    · exact haltWorker_chain

variable {I : Database → Prop}

theorem step_inv (h : ∀ db db', I db → Transaction cfg w input db db' → I db') (hI : I w.db) :
    I (step cfg w input).db := by
  have hchain := step_transactions cfg w input
  generalize (step cfg w input).db = db' at hchain
  induction hchain with
  | refl => exact hI
  | tail _ ht ih => exact h _ _ ih ht

theorem Reaches.inv (h₀ : ∀ w₀, Created cfg w₀ → I w₀.db)
    (h : ∀ w input db db', I db → Transaction cfg w input db db' → I db') (hw : Reaches cfg w) :
    I w.db := by
  obtain ⟨w₀, hc, hr⟩ := hw
  exact hr.inv (step cfg) (fun w input hI => step_inv (h w input) hI) (h₀ w₀ hc)

end World

end Maais
