import Maais.Control.Commands
import Maais.Market.GapRecovery
import Maais.Paper.Broker
import Maais.Store.Execution

/-!
# The configuration and the database of a worker
-/

namespace Maais
open Lib

structure LivePaperPolicy where
  proposalTtl : Time
  executionLatency : Time
  takerFeeRate : ℚ
  leverage : Nat
  proposalTtl_pos : 0 < proposalTtl
  executionLatency_pos : 0 < executionLatency
  takerFeeRate_range : 0 ≤ takerFeeRate ∧ takerFeeRate ≤ 1
  leverage_eq : leverage = 1

structure WorkerConfig where
  arith : Arith
  /-- the order the database sorts identities in -/
  idOrder : UUID → Nat
  manifest : ExperimentManifest
  strategyVersionId : UUID
  workerId : UUID
  policy : LivePaperPolicy
  filters : String → ExchangeFilterSnapshot
  filters_symbol : ∀ symbol ∈ manifest.symbols, (filters symbol).symbol = symbol
  broker : PaperBroker
  observationCapacity : Nat
  journalCapacity : Nat
  maxRecoveryAttempts : Nat
  /-- `UUID(str(value))`, `none` when it raises -/
  parseUUID : Option JsonValue → Option UUID
  /-- `platform.activate_run` of the configured platform run -/
  activateRun : Option (UUID → Time → Py Unit)

namespace WorkerConfig

def workerName (cfg : WorkerConfig) : String := "paper_worker:" ++ cfg.workerId.text

end WorkerConfig

structure Database where
  experiment : ExperimentRow
  control : Option TradingControlSnapshot
  incidents : IncidentTable
  commands : CommandTable
  execution : ExecutionTables
  cursors : CursorTable
  recoveries : RecoveryTable
deriving DecidableEq

namespace Database

variable (db : Database)

/-- `TradingControlRepository.current` -/
def currentControl : Py TradingControlSnapshot :=
  orRaise db.control (.lookupError "trading controls are not initialized")

/-- `TradingControlRepository.halt`: the database and the control after it -/
def haltControl (reason : String) (haltedAt : Time) (actor : String) :
    Py (Database × TradingControlSnapshot) := do
  let current ← db.currentControl
  let halted ← current.halt reason haltedAt actor
  return ({ db with control := some halted }, halted)

/-- `TradingControlRepository.reset` -/
def resetControl (resetAt : Time) (actor : String) (expectedVersion : Int)
    (allowedReasonPrefix : String) : Py (Database × TradingControlSnapshot) := do
  let current ← db.currentControl
  let reset ← current.reset resetAt actor expectedVersion allowedReasonPrefix
  return ({ db with control := some reset }, reset)

/-- `TradingControlRepository.initialize` -/
def initControl (initializedAt : Time) (actor : String) : Py Database :=
  match db.control with
  | some _ => .ok db
  | none => do
    let candidate ← TradingControlSnapshot.initialized db.experiment.id initializedAt actor
    return { db with control := some candidate }

def changeExperiment
    (change : ExperimentRow → Py (ExperimentRow × Bool)) : Py (Database × Bool) := do
  let changed ← change db.experiment
  return ({ db with experiment := changed.1 }, changed.2)

/-- the columns `load_account` reads -/
def capital : ExecutionTables.ExperimentCapital :=
  ⟨db.experiment.id, db.experiment.initialCapital, db.experiment.currency⟩

def loadAccount (cfg : WorkerConfig) : Py AccountState :=
  db.execution.loadAccount cfg.arith cfg.idOrder db.capital

def loadPendingOrders (cfg : WorkerConfig) : Py (List (PaperOrder × ExchangeFilterSnapshot)) :=
  db.execution.loadPendingOrders cfg.idOrder

/-- `get_blocking_recoveries` -/
def blockingRecoveries : List RecoveryState :=
  db.recoveries.values.filter (fun r => r.status.active ∨ r.status = .failed)

variable {db}

theorem currentControl_eq_ok {c : TradingControlSnapshot} :
    db.currentControl = .ok c ↔ db.control = some c := orRaise_eq_ok

variable {actor : String} {out : Database × TradingControlSnapshot} {t : Time}

theorem haltControl_eq {reason : String} (h : db.haltControl reason t actor = .ok out) :
    ∃ c, db.control = some c ∧ c.halt reason t actor = .ok out.2 ∧
      out.1 = { db with control := some out.2 } := by
  simp only [haltControl, bind_eq_ok, currentControl_eq_ok, pure_ok_iff] at h
  obtain ⟨c, hc, halted, hh, rfl⟩ := h
  exact ⟨c, hc, hh, rfl⟩

theorem resetControl_eq {p : String} {v : Int} (h : db.resetControl t actor v p = .ok out) :
    ∃ c, db.control = some c ∧ c.reset t actor v p = .ok out.2 ∧
      out.1 = { db with control := some out.2 } := by
  simp only [resetControl, bind_eq_ok, currentControl_eq_ok, pure_ok_iff] at h
  obtain ⟨c, hc, reset, hr, rfl⟩ := h
  exact ⟨c, hc, hr, rfl⟩

theorem initControl_eq {db' : Database} (h : db.initControl t actor = .ok db') :
    (db.control ≠ none ∧ db' = db) ∨
      db.control = none ∧ ∃ c, TradingControlSnapshot.initialized db.experiment.id t actor = .ok c ∧
        db' = { db with control := some c } := by
  unfold initControl at h
  split at h
  · rename_i c hc
    cases h
    exact Or.inl ⟨by simp [hc], rfl⟩
  · rename_i hc
    simp only [bind_eq_ok, pure_ok_iff] at h
    obtain ⟨c, hi, rfl⟩ := h
    exact Or.inr ⟨hc, c, hi, rfl⟩

theorem changeExperiment_eq {change : ExperimentRow → Py (ExperimentRow × Bool)}
    {out : Database × Bool} (h : db.changeExperiment change = .ok out) :
    ∃ row, change db.experiment = .ok (row, out.2) ∧ out.1 = { db with experiment := row } := by
  simp only [changeExperiment, bind_eq_ok, pure_ok_iff] at h
  obtain ⟨changed, hc, rfl⟩ := h
  exact ⟨changed.1, hc, rfl⟩

end Database

def AccountState.openPositions (A : Arith) (a : AccountState) : List PositionState :=
  a.positions.values.filter (fun p => ¬ p.isFlat A)

end Maais
