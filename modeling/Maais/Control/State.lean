import Maais.Domain
import Maais.Lib.Dict
import Mathlib.Data.List.Sort
import Mathlib.Data.Prod.Lex

/-!
# Trading control, experiment status and incidents

* `TradingControlSnapshot.halt`, `reset`  the kill switch: engaged exactly when it has a reason;
* `ensureRunning`, `pauseActive`, `resumePaused`, `stopActive`, `failActive`  the experiment row;
* `IncidentState.acknowledge`, `resolve`, `recordIncident`  the life of an incident and its row.
-/

namespace Maais
open Lib

/-! ## trading control -/

structure TradingControlSnapshot where
  experimentId : UUID
  killSwitchActive : Bool
  reason : Option String
  version : Nat
  changedAt : Time
  changedBy : String
  version_pos : 0 < version
  changedBy_ne : changedBy ≠ ""
  active_iff : killSwitchActive = reason.isSome
deriving DecidableEq

namespace TradingControlSnapshot

/-- `TradingControlSnapshot.initialize` -/
def initialized (experimentId : UUID) (initializedAt : Time) (actor : String) :
    Py TradingControlSnapshot :=
  if h : actor = "" then .error (.valueError "trading control actor is required")
  else .ok
    { experimentId, killSwitchActive := false, reason := none, version := 1,
      changedAt := initializedAt, changedBy := actor, version_pos := Nat.one_pos, changedBy_ne := h,
      active_iff := rfl }

variable (c : TradingControlSnapshot)

def halt (reason : String) (haltedAt : Time) (actor : String) : Py TradingControlSnapshot :=
  if h : reason = "" ∨ actor = "" then
    .error (.valueError "trading halt requires a reason and actor")
  else if haltedAt < c.changedAt then .error (.valueError "trading control time cannot regress")
  else if c.killSwitchActive = true ∧ c.reason = some reason then .ok c
  else .ok
    { c with
      killSwitchActive := true, reason := some reason, version := c.version + 1,
      changedAt := haltedAt, changedBy := actor, version_pos := Nat.succ_pos _,
      changedBy_ne := (not_or.mp h).2, active_iff := rfl }

def reset (resetAt : Time) (actor : String) (expectedVersion : Int) (allowedReasonPrefix : String) :
    Py TradingControlSnapshot :=
  if h : actor = "" ∨ allowedReasonPrefix = "" then
    .error (.valueError "trading reset requires an actor and allowed reason prefix")
  else if expectedVersion ≠ c.version then
    .error (.valueError "trading control version changed before reset")
  else if resetAt < c.changedAt then .error (.valueError "trading control time cannot regress")
  else
    match c.reason with
    | none => .ok c
    | some reason =>
      if startsWith reason allowedReasonPrefix = false then
        .error (.valueError "trading control reason is not eligible for this reset")
      else .ok
        { c with
          killSwitchActive := false, reason := none, version := c.version + 1, changedAt := resetAt,
          changedBy := actor, version_pos := Nat.succ_pos _, changedBy_ne := (not_or.mp h).1,
          active_iff := rfl }

variable {c} {d : TradingControlSnapshot}

/-- a halt that returns leaves the control engaged with its reason, at its time or unchanged -/
theorem halt_eq {reason actor : String} {t : Time} (h : c.halt reason t actor = .ok d) :
    d.reason = some reason ∧ c.changedAt ≤ t ∧ d.changedAt ≤ t ∧ c.changedAt ≤ d.changedAt ∧
      d.experimentId = c.experimentId ∧ (d = c ∨ d.changedAt = t) := by
  unfold halt at h
  split at h
  · cases h
  · split at h
    · cases h
    · rename_i ht
      rw [not_lt] at ht
      split at h
      · rename_i hr
        cases h
        exact ⟨hr.2, ht, ht, le_refl _, rfl, Or.inl rfl⟩
      · cases h
        exact ⟨rfl, ht, le_refl _, ht, rfl, Or.inr rfl⟩

theorem reset_eq {p actor : String} {t : Time} {v : Int} (h : c.reset t actor v p = .ok d) :
    d.reason = none ∧ v = c.version ∧ c.changedAt ≤ t ∧ d.experimentId = c.experimentId ∧
      (∀ reason, c.reason = some reason → startsWith reason p = true ∧ d.changedAt = t) ∧
      (c.reason = none → d = c) := by
  unfold reset at h
  split at h
  · cases h
  · split at h
    · cases h
    · rename_i hv
      split at h
      · cases h
      · rename_i ht
        cases hc : c.reason with
        | none =>
          simp only [hc] at h
          cases h
          exact ⟨hc, not_not.mp hv, not_lt.mp ht, rfl, by simp, fun _ => rfl⟩
        | some reason =>
          simp only [hc] at h
          split at h
          · cases h
          · rename_i hp
            cases h
            exact ⟨rfl, not_not.mp hv, not_lt.mp ht, rfl, by
              rintro _ ⟨⟩
              exact ⟨by simpa using hp, rfl⟩, by simp⟩

end TradingControlSnapshot

/-! ## the experiment row -/

structure ExperimentManifest where
  experimentId : UUID
  manifestHash : Digest
  symbols : List String
deriving DecidableEq

structure ExperimentRow where
  id : UUID
  manifestHash : Digest
  initialCapital : ℚ
  currency : String
  status : ExperimentStatus
  failureReason : Option String
deriving DecidableEq

namespace ExperimentRow

variable (row : ExperimentRow) (manifest : ExperimentManifest)

/-- the four status changes of the worker: nothing to do in `idle`, allowed from `sources`, refused
otherwise -/
def change (manifestName verb : String) (idle : ExperimentStatus) (sources : List ExperimentStatus)
    (target : ExperimentStatus) : Py (ExperimentRow × Bool) := do
  raiseIf (row.manifestHash ≠ manifest.manifestHash)
    (.immutableManifestError ("stored manifest identity does not match " ++
    manifestName ++ " manifest"))
  if row.status = idle then return (row, false)
  else
    raiseIf (row.status ∉ sources)
      (.runtimeError ("paper worker cannot " ++ verb ++ " experiment from " ++ row.status.value))
    return ({ row with status := target }, true)

def ensureRunning : Py (ExperimentRow × Bool) :=
  row.change manifest "worker" "start" .running [.created] .running

def pauseActive : Py (ExperimentRow × Bool) :=
  row.change manifest "pause" "pause" .paused [.running] .paused

def resumePaused : Py (ExperimentRow × Bool) :=
  row.change manifest "resume" "resume" .running [.paused] .running

def stopActive : Py (ExperimentRow × Bool) :=
  row.change manifest "stop" "stop" .stopped [.running, .paused] .stopped

/-- failing twice for one reason is allowed, for two reasons it is not -/
def failActive (reason : String) : Py (ExperimentRow × Bool) := do
  raiseIf (row.manifestHash ≠ manifest.manifestHash)
    (.immutableManifestError "stored manifest identity does not match halt manifest")
  raiseIf (row.status = .failed ∧ row.failureReason ≠ some reason)
    (.runtimeError "experiment is already failed for a different reason")
  if row.status = .failed then return (row, false)
  else
    raiseIf (row.status ≠ .running ∧ row.status ≠ .paused)
      (.runtimeError ("cannot persistently halt experiment from " ++ row.status.value))
    return ({ row with status := .failed, failureReason := some reason }, true)

variable {row manifest} {name verb : String} {target idle : ExperimentStatus}
  {sources : List ExperimentStatus}

theorem change_returns_iff :
    (∃ out, row.change manifest name verb idle sources target = .ok out) ↔
      row.manifestHash = manifest.manifestHash ∧ (row.status = idle ∨ row.status ∈ sources) := by
  by_cases hm : row.manifestHash = manifest.manifestHash
  · by_cases hi : row.status = idle
    · simp [change, raiseIf, hm, hi]
    · by_cases hs : row.status ∈ sources
      · simp [change, raiseIf, hm, hi, hs]
      · simp [change, raiseIf, hm, hi, hs]
  · simp [change, raiseIf, hm]

variable {out : ExperimentRow × Bool}

theorem change_eq (h : row.change manifest name verb idle sources target = .ok out)
    (ht : idle = target) : out.1 = { row with status := target } := by
  simp only [change, bind_eq_ok] at h
  obtain ⟨_, _, h⟩ := h
  split at h
  · rename_i hi
    cases h
    rw [← ht, ← hi]
  · simp only [bind_eq_ok, pure_ok_iff] at h
    obtain ⟨_, _, rfl⟩ := h
    rfl

theorem failActive_eq {reason : String} (h : row.failActive manifest reason = .ok out) :
    out.1 = { row with status := .failed, failureReason := some reason } ∧
      (row.status = .failed → row.failureReason = some reason) := by
  simp only [failActive, bind_eq_ok, raiseIf_eq_ok, not_and, ne_eq, not_not] at h
  obtain ⟨_, _, _, hr, h⟩ := h
  split at h
  · rename_i hf
    cases h
    refine ⟨?_, hr⟩
    rw [← hr hf, ← hf]
  · simp only [bind_eq_ok, pure_ok_iff] at h
    obtain ⟨_, _, rfl⟩ := h
    exact ⟨rfl, hr⟩

/-- a row of which at most the status and the reason changed, and nothing when it was failed -/
structure Moves (row row' : ExperimentRow) : Prop where
  frame : ∃ status failureReason, row' = { row with status, failureReason }
  failed : row.status = .failed → row' = row

theorem Moves.refl : row.Moves row := ⟨⟨_, _, rfl⟩, fun _ => rfl⟩

theorem Moves.of_eq {row' : ExperimentRow} (h : row' = row) : row.Moves row' := h ▸ .refl

theorem change_moves (h : row.change manifest name verb idle sources target = .ok out)
    (ht : idle = target) (hi : idle ≠ .failed) (hs : .failed ∉ sources) : row.Moves out.1 := by
  refine ⟨⟨target, row.failureReason, change_eq h ht⟩, fun hf => ?_⟩
  obtain ⟨_, heq | hmem⟩ := change_returns_iff.mp ⟨out, h⟩
  · exact absurd (heq.symm.trans hf) hi
  · exact absurd (hf ▸ hmem) hs

theorem failActive_moves {reason : String} (h : row.failActive manifest reason = .ok out) :
    row.Moves out.1 := by
  obtain ⟨heq, hr⟩ := failActive_eq h
  refine ⟨⟨.failed, some reason, heq⟩, fun hf => ?_⟩
  rw [heq, ← hr hf, ← hf]

end ExperimentRow

/-! ## incidents -/

inductive IncidentSeverity
  | warning | error | critical
deriving DecidableEq

inductive IncidentStatus
  | open | acknowledged | resolved
deriving DecidableEq

structure IncidentState where
  incidentId : UUID
  experimentId : UUID
  deduplicationKey : String
  severity : IncidentSeverity
  component : String
  reasonCode : String
  requiresOperatorReview : Bool
  status : IncidentStatus
  detectedAt : Time
  acknowledged : Option (Time × String)
  /-- time, actor and text of the resolution -/
  resolved : Option (Time × String × String)
  changedAt : Time
  version : Nat
deriving DecidableEq

namespace IncidentState

def create (incidentId experimentId : UUID) (deduplicationKey : String)
    (severity : IncidentSeverity) (component reasonCode : String) (requiresOperatorReview : Bool)
    (detectedAt : Time) :
    IncidentState :=
  { incidentId, experimentId, deduplicationKey, severity, component, reasonCode,
    requiresOperatorReview, status := .open, detectedAt, acknowledged := none, resolved := none,
    changedAt := detectedAt, version := 1 }

variable (i : IncidentState)

def acknowledge (actor : String) (acknowledgedAt : Time) : Py IncidentState := do
  raiseIf (i.status = .resolved) (.runtimeError "incident is already resolved")
  raiseIf (i.status = .acknowledged) (.runtimeError "incident is already acknowledged")
  raiseIf (actor = "") (.valueError "incident acknowledgement actor is required")
  raiseIf (acknowledgedAt < i.changedAt) (.valueError "incident transition time cannot regress")
  return { i with
    status := .acknowledged, acknowledged := some (acknowledgedAt, actor),
    changedAt := acknowledgedAt, version := i.version + 1 }

def resolve (actor resolution : String) (resolvedAt : Time) (operatorConfirmed : Bool) :
    Py IncidentState := do
  raiseIf (i.status = .resolved) (.runtimeError "incident is already resolved")
  raiseIf (actor = "" ∨ resolution = "")
    (.valueError "incident resolution actor and text are required")
  raiseIf (i.requiresOperatorReview = true ∧ operatorConfirmed = false)
    (.permissionError "incident resolution requires operator confirmation")
  raiseIf (resolvedAt < i.changedAt) (.valueError "incident transition time cannot regress")
  return { i with
    status := .resolved, resolved := some (resolvedAt, actor, resolution), changedAt := resolvedAt,
    version := i.version + 1 }

def sameIdentity (other : IncidentState) : Prop :=
  i.experimentId = other.experimentId ∧ i.deduplicationKey = other.deduplicationKey ∧
    i.severity = other.severity ∧ i.component = other.component ∧ i.reasonCode = other.reasonCode ∧
    i.requiresOperatorReview = other.requiresOperatorReview ∧ i.detectedAt = other.detectedAt

instance {other : IncidentState} : Decidable (i.sameIdentity other) := by
  unfold sameIdentity
  infer_instance

end IncidentState

abbrev IncidentTable := Dict UUID IncidentState

/-- `IncidentRepository.record` on a stored incident -/
def updateIncident (table : IncidentTable) (i existing : IncidentState) : Py IncidentTable := do
  raiseIf (¬ existing.sameIdentity i)
    (.operationalStateConflict "incident immutable identity has changed")
  raiseIf (i.version < existing.version)
    (.staleOperationalState "incident state is older than persisted state")
  raiseIf (i.version = existing.version ∧ existing ≠ i)
    (.operationalStateConflict "incident version has different content")
  return table.set i.incidentId i

/-- `IncidentRepository.record` -/
def recordIncident (table : IncidentTable) (i : IncidentState) : Py IncidentTable :=
  match table.get? i.incidentId with
  | some existing => updateIncident table i existing
  | none => do
    raiseIf (∃ other ∈ table.values, other.deduplicationKey = i.deduplicationKey)
      (.operationalStateConflict "incident deduplication key belongs to another incident")
    return table.set i.incidentId i

theorem recordIncident_eq {table table' : IncidentTable} {i : IncidentState}
    (h : recordIncident table i = .ok table') : table' = table.set i.incidentId i := by
  unfold recordIncident at h
  split at h
  · simp only [updateIncident, bind_eq_ok, pure_ok_iff] at h
    obtain ⟨_, _, _, _, _, _, rfl⟩ := h
    rfl
  · simp only [bind_eq_ok, pure_ok_iff] at h
    obtain ⟨_, _, rfl⟩ := h
    rfl

/-- `IncidentRepository.get` -/
def getIncident (table : IncidentTable) (incidentId : UUID) : Py IncidentState :=
  orRaise (table.get? incidentId) (.lookupError "incident does not exist")

def blockingIncidents (table : IncidentTable) : List IncidentState :=
  table.values.filter (fun i =>
    i.status ≠ .resolved ∧ (i.requiresOperatorReview = true ∨ i.severity = .critical))

end Maais
