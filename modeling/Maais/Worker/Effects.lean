import Maais.Worker.Executor

/-!
# What a command changes

* `CommandControl`  the ways a command leaves the trading control;
* `CommandEffect`  the same for every part of the database;
* `applyCommand_effect`  every command that returns has one of these effects.
-/

namespace Maais
open Lib

/-! ## reasons -/

/-- a text that leaves the beginning `p` asks for does not start with `p`, however it goes on -/
theorem startsWith_append_eq_false {a p : String} (b : String) (h : startsWith a p = false)
    (h' : startsWith p a = false) : startsWith (a ++ b) p = false := by
  simp only [startsWith, String.toList_append] at *
  rw [Bool.eq_false_iff, ne_eq, List.isPrefixOf_iff_prefix] at *
  intro hp
  rcases List.prefix_or_prefix_of_prefix hp (List.prefix_append a.toList b.toList) with hpa | hap
  · exact h hpa
  · exact h' hap

namespace Database

variable {cfg : WorkerConfig} {db : Database} {q : OperatorCommand} {now : Nat → Time}
  {out : Database × OperatorCommandExecution}

theorem protectionReason_hard (i : IncidentState) :
    startsWith (protectionReason i) pausePrefix = false := by
  have assoc : ∀ a b c d : String, a ++ b ++ c ++ d = a ++ (b ++ (c ++ d)) := by
    intro a b c d
    rw [String.append_assoc, String.append_assoc]
  unfold protectionReason
  rw [assoc]
  exact startsWith_append_eq_false _ (by decide +kernel) (by decide +kernel)

theorem failureReason_hard (detail : String) :
    startsWith ("paper_worker:" ++ detail) pausePrefix = false :=
  startsWith_append_eq_false _ (by decide +kernel) (by decide +kernel)

theorem flattenReason_hard (id : UUID) : startsWith (flattenReason id) pausePrefix = false :=
  startsWith_append_eq_false _ (by decide +kernel) (by decide +kernel)

theorem stopReason_hard (id : UUID) : startsWith (stopReason id) pausePrefix = false :=
  startsWith_append_eq_false _ (by decide +kernel) (by decide +kernel)

theorem haltReasonOf_hard (h : q.commandType ≠ .pause) :
    startsWith (haltReasonOf q) pausePrefix = false := by
  rw [haltReasonOf, if_neg h, String.append_assoc]
  exact startsWith_append_eq_false _ (by decide +kernel) (by decide +kernel)

/-! ## effects -/

def passesReset (cfg : WorkerConfig) (db : Database) (q : OperatorCommand) : Prop :=
  q.commandType = .resetKillSwitch ∧ ∃ version reason control account pending,
    q.resetPayload = some (version, reason) ∧ db.control = some control ∧
    db.loadAccount cfg = .ok account ∧ db.loadPendingOrders cfg = .ok pending ∧
    db.ResetAllowed cfg control account pending version reason

inductive CommandControl (cfg : WorkerConfig) (db : Database) (q : OperatorCommand) :
    Option TradingControlSnapshot → Prop
  | same : CommandControl cfg db q db.control
  | halted {c d : TradingControlSnapshot} {reason actor : String} {t : Time}
      (hc : db.control = some c) (hd : c.halt reason t actor = .ok d)
      (hr : q.commandType = .pause ∨ startsWith reason pausePrefix = false) :
      CommandControl cfg db q (some d)
  | resumed {c d : TradingControlSnapshot} (hc : db.control = some c) (hp : pausedByOperator c)
      (hd : d.experimentId = c.experimentId) : CommandControl cfg db q (some d)
  | reset {c d : TradingControlSnapshot} (hc : db.control = some c) (hp : passesReset cfg db q)
      (hd : d.experimentId = c.experimentId) : CommandControl cfg db q (some d)

structure CommandEffect (cfg : WorkerConfig) (db : Database) (q : OperatorCommand)
    (out : Database × OperatorCommandExecution) : Prop where
  control : CommandControl cfg db q out.1.control
  experiment : db.experiment.Moves out.1.experiment
  incidents : out.1.incidents = db.incidents ∨
    ∃ i, recordIncident db.incidents i = .ok out.1.incidents
  commands : (q.commandType = .flatten ∧ out.1.commands = db.commands ∧ out.2.command = q) ∨
    CommandTable.Finished db.commands q.commandId (out.1.commands, out.2.command)
  execution : out.1.execution = db.execution
  cursors : out.1.cursors = db.cursors
  recoveries : out.1.recoveries = db.recoveries

variable {t : Time}

theorem CommandEffect.reject {reasonCode detail : String}
    (h : db.rejectCommand cfg q t reasonCode detail = .ok out) : CommandEffect cfg db q out := by
  obtain ⟨hr, heq, _⟩ := rejectCommand_eq h
  refine ⟨?_, ?_, ?_, Or.inr (CommandTable.reject_finished hr), ?_, ?_, ?_⟩ <;> rw [heq]
  · exact .same
  · exact .refl
  · exact Or.inl rfl

theorem CommandEffect.complete {db₁ : Database} {result : CommandResult} {stop activate : Bool}
    (h : db₁.completeCommand cfg q t result stop activate = .ok out)
    (hframe : db₁ = { db with
    control := db₁.control, experiment := db₁.experiment, incidents := db₁.incidents })
    (hc : CommandControl cfg db q db₁.control) (he : db.experiment.Moves db₁.experiment)
    (hi : db₁.incidents = db.incidents ∨ ∃ i, recordIncident db.incidents i = .ok db₁.incidents) :
    CommandEffect cfg db q out := by
  obtain ⟨hd, heq, _⟩ := completeCommand_eq h
  have hcommands : db₁.commands = db.commands := by rw [hframe]
  refine ⟨?_, ?_, ?_, Or.inr (hcommands ▸ CommandTable.complete_finished hd), ?_, ?_, ?_⟩
  · rw [heq]
    exact hc
  · rw [heq]
    exact he
  · rw [heq]
    exact hi
  · rw [heq, hframe]
  · rw [heq, hframe]
  · rw [heq, hframe]

theorem acceptFlatten_effect (hq : q.commandType = .flatten)
    (h : db.acceptFlatten cfg q now = .ok out) : CommandEffect cfg db q out := by
  simp only [acceptFlatten, bind_eq_ok] at h
  obtain ⟨control, _, h⟩ := h
  split at h
  · cases h
    exact ⟨.same, .refl, Or.inl rfl, Or.inl ⟨hq, rfl, rfl⟩, rfl, rfl, rfl⟩
  · simp only [bind_eq_ok, pure_ok_iff] at h
    obtain ⟨halted, hh, paused, hp, rfl⟩ := h
    obtain ⟨c, hc, hd, heq⟩ := haltControl_eq hh
    obtain ⟨row, hrow, hpe⟩ := changeExperiment_eq hp
    rw [heq] at hrow
    rw [hpe, heq]
    exact ⟨.halted hc hd (Or.inr (flattenReason_hard _)),
      ExperimentRow.change_moves hrow rfl (by decide) (by decide), Or.inl rfl,
      Or.inl ⟨hq, rfl, rfl⟩, rfl, rfl, rfl⟩

theorem executeStart_effect (h : db.executeStart cfg q now = .ok out) :
    CommandEffect cfg db q out := by
  simp only [executeStart, bind_eq_ok] at h
  obtain ⟨control, _, h⟩ := h
  split at h
  · exact .reject h
  · simp only [bind_eq_ok] at h
    obtain ⟨started, hs, _, _, h⟩ := h
    obtain ⟨row, hrow, hse⟩ := changeExperiment_eq hs
    rw [hse] at h
    exact .complete h rfl .same
      (ExperimentRow.change_moves hrow rfl (by decide) (by decide)) (Or.inl rfl)

theorem completeIncident_effect {incidentId : UUID} {changed : IncidentState}
    (h : db.completeIncident cfg q incidentId changed t = .ok out) :
    CommandEffect cfg db q out := by
  simp only [completeIncident, bind_eq_ok] at h
  obtain ⟨incidents, hi, h⟩ := h
  exact .complete h rfl .same .refl (Or.inr ⟨changed, hi⟩)

theorem executeIncident_effect (h : db.executeIncident cfg q now = .ok out) :
    CommandEffect cfg db q out := by
  unfold executeIncident at h
  split at h
  · exact .reject h
  · simp only [bind_eq_ok] at h
    obtain ⟨incident, _, h⟩ := h
    split at h
    · exact .reject h
    · unfold changeIncident at h
      split at h
      · simp only [bind_eq_ok] at h
        obtain ⟨changed, _, h⟩ := h
        exact completeIncident_effect h
      · split at h
        · exact .reject h
        · simp only [bind_eq_ok] at h
          obtain ⟨changed, _, h⟩ := h
          exact completeIncident_effect h

theorem executeStop_effect (h : db.executeStop cfg q now = .ok out) :
    CommandEffect cfg db q out := by
  simp only [executeStop, bind_eq_ok] at h
  obtain ⟨account, _, pending, _, h⟩ := h
  split at h
  · exact .reject h
  · simp only [stopFlat, bind_eq_ok] at h
    obtain ⟨halted, hh, stopped, hs, h⟩ := h
    obtain ⟨c, hc, hd, heq⟩ := haltControl_eq hh
    obtain ⟨row, hrow, hse⟩ := changeExperiment_eq hs
    rw [heq] at hrow
    rw [hse, heq] at h
    exact .complete h rfl (.halted hc hd (Or.inr (stopReason_hard _)))
      (ExperimentRow.change_moves hrow rfl (by decide) (by decide))
      (Or.inl rfl)

theorem executeReset_effect (hq : q.commandType = .resetKillSwitch)
    (h : db.executeReset cfg q now = .ok out) : CommandEffect cfg db q out := by
  unfold executeReset at h
  split at h
  · exact .reject h
  · rename_i payload hp
    simp only [resetFor, bind_eq_ok, currentControl_eq_ok] at h
    obtain ⟨control, hc, account, ha, pending, hpend, h⟩ := h
    split at h
    · rename_i hallowed
      simp only [bind_eq_ok] at h
      obtain ⟨reset, hr, h⟩ := h
      obtain ⟨c, hc', hd, heq⟩ := resetControl_eq hr
      have hpasses : passesReset cfg db q :=
        ⟨hq, payload.1, payload.2, control, account, pending, hp, hc, ha, hpend, hallowed⟩
      rw [heq] at h
      exact .complete h rfl
        (.reset hc' hpasses (TradingControlSnapshot.reset_eq hd).2.2.2.1) .refl (Or.inl rfl)
    · exact .reject h

theorem clearPause_control {control : TradingControlSnapshot} {version : Int}
    {cleared : Database × TradingControlSnapshot} (hc : db.control = some control)
    (hpaused : ¬ (control.killSwitchActive = true ∧ ¬ pausedByOperator control))
    (h : db.clearPause cfg now control version = .ok cleared) :
    CommandControl cfg db q cleared.1.control ∧
      cleared.1 = { db with control := cleared.1.control } := by
  unfold clearPause at h
  split at h
  · rename_i hactive
    obtain ⟨c, hc', hd, heq⟩ := resetControl_eq h
    rw [hc, Option.some.injEq] at hc'
    rw [heq]
    exact ⟨.resumed hc (by simpa [hactive] using hpaused)
      (hc' ▸ (TradingControlSnapshot.reset_eq hd).2.2.2.1), rfl⟩
  · cases h
    exact ⟨.same, rfl⟩

theorem executeResume_effect (h : db.executeResume cfg q now = .ok out) :
    CommandEffect cfg db q out := by
  unfold executeResume at h
  split at h
  · exact .reject h
  · simp only [resumeFor, bind_eq_ok, currentControl_eq_ok] at h
    obtain ⟨control, hc, h⟩ := h
    split at h
    · exact .reject h
    · split at h
      · exact .reject h
      · rename_i hpaused
        simp only [bind_eq_ok] at h
        obtain ⟨cleared, hcl, resumed, hr, h⟩ := h
        obtain ⟨hcontrol, heq⟩ := clearPause_control hc hpaused hcl
        obtain ⟨row, hrow, hre⟩ := changeExperiment_eq hr
        rw [heq] at hrow
        rw [hre, heq] at h
        exact .complete h rfl hcontrol
          (ExperimentRow.change_moves hrow rfl (by decide) (by decide)) (Or.inl rfl)

theorem executeHalt_effect (h : db.executeHalt cfg q now = .ok out) :
    CommandEffect cfg db q out := by
  simp only [executeHalt, bind_eq_ok] at h
  obtain ⟨halted, hh, paused, hp, h⟩ := h
  obtain ⟨c, hc, hd, heq⟩ := haltControl_eq hh
  obtain ⟨row, hrow, hpe⟩ := changeExperiment_eq hp
  have hreason : q.commandType = .pause ∨ startsWith (haltReasonOf q) pausePrefix = false := by
    by_cases hq : q.commandType = .pause
    · exact Or.inl hq
    · exact Or.inr (haltReasonOf_hard hq)
  rw [heq] at hrow
  rw [hpe, heq] at h
  exact .complete h rfl (.halted hc hd hreason)
    (ExperimentRow.change_moves hrow rfl (by decide) (by decide)) (Or.inl rfl)

theorem applyCommand_effect (h : db.applyCommand cfg q now = .ok out) :
    CommandEffect cfg db q out := by
  unfold applyCommand at h
  split at h
  · rename_i hq
    exact acceptFlatten_effect hq h
  · exact executeStart_effect h
  · exact executeIncident_effect h
  · exact executeIncident_effect h
  · exact executeStop_effect h
  · rename_i hq
    exact executeReset_effect hq h
  · exact executeResume_effect h
  · exact executeHalt_effect h
  · exact executeHalt_effect h

end Database

end Maais
