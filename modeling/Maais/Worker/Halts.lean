import Maais.Worker.Changes
import Maais.Worker.Cycle

/-!
# Who changes the trading control

* `Transaction.engaged`  a transaction keeps an engaged control engaged, but for a pause and a
  reset;
* `run_engaged`  as long as no pause is executed over another halt, only a reset of the kill switch
  that passes its checks makes an engaged control inactive;
* `Demo.pauseOverHalt_clears`  an emergency halt, a pause and a resume make it inactive.
-/

namespace Maais
open Lib

namespace Database

variable {cfg : WorkerConfig} {db : Database} {q : OperatorCommand}

/-- the control is engaged for a reason that no resume clears -/
def EngagedHard (db : Database) : Prop :=
  ∃ reason ∈ db.control.bind (·.reason), startsWith reason pausePrefix = false

instance : Decidable db.EngagedHard := by
  unfold EngagedHard
  infer_instance

variable {c : TradingControlSnapshot}

theorem engagedHard_iff (hc : db.control = some c) :
    db.EngagedHard ↔ ∃ reason, c.reason = some reason ∧ startsWith reason pausePrefix = false := by
  simp [EngagedHard, hc]

theorem EngagedHard.of_control {db' : Database} (h : db.EngagedHard)
    (hc : db'.control = db.control) :
    db'.EngagedHard := by
  unfold EngagedHard at *
  rwa [hc]

theorem EngagedHard.control_ne (h : db.EngagedHard) : db.control ≠ none := by
  intro hn
  simp [EngagedHard, hn] at h

theorem engagedHard_of_halt {d : TradingControlSnapshot} {reason actor : String} {t : Time}
    {db' : Database} (hd : c.halt reason t actor = .ok d)
    (hr : startsWith reason pausePrefix = false) (hc : db'.control = some d) : db'.EngagedHard :=
  (engagedHard_iff hc).mpr ⟨reason, (TradingControlSnapshot.halt_eq hd).1, hr⟩

theorem CommandControl.engaged {db' : Database} (h : CommandControl cfg db q db'.control)
    (hhard : db.EngagedHard) (hpause : q.commandType ≠ .pause) (hreset : ¬ passesReset cfg db q) :
    db'.EngagedHard := by
  generalize hk : db'.control = k at h
  cases h with
  | same => exact hhard.of_control hk
  | halted hc hd hr => exact engagedHard_of_halt hd (hr.resolve_left hpause) hk
  | resumed hc hp _ =>
    obtain ⟨reason, hr, hs⟩ := (engagedHard_iff hc).mp hhard
    obtain ⟨reason', hr', hs'⟩ := hp
    rw [Option.mem_def, hr, Option.some.injEq] at hr'
    rw [← hr', hs] at hs'
    exact absurd hs' Bool.false_ne_true
  | reset _ hp _ => exact absurd hp hreset

end Database

/-! ## steps and runs -/

section
variable {cfg : WorkerConfig} {w : World} {input : Input} {db db' : Database}

open Database

theorem passesReset_of_same {q q' : OperatorCommand} (hsame : q.SameRequest q')
    (h : passesReset cfg db q') : passesReset cfg db q := by
  obtain ⟨ht, version, reason, control, account, pending, hp, hrest⟩ := h
  refine ⟨hsame.commandType ▸ ht, version, reason, control, account, pending, ?_, hrest⟩
  simpa only [OperatorCommand.resetPayload, OperatorCommand.payloadInt, OperatorCommand.payloadText,
    hsame.payload] using hp

def World.resets (cfg : WorkerConfig) (w : World) (input : Input) : Prop :=
  ∃ q ∈ w.taken cfg input, passesReset (cfg.withWorker w.workerId) w.db q

/-- the step takes a pause while the control is engaged for another reason -/
def World.pausesOver (cfg : WorkerConfig) (w : World) (input : Input) : Prop :=
  (∃ q ∈ w.taken cfg input, q.commandType = .pause) ∧ w.db.EngagedHard

instance : Decidable (w.pausesOver cfg input) := by
  unfold World.pausesOver
  infer_instance

theorem Transaction.engaged (h : Transaction cfg w input db db') (hhard : db.EngagedHard)
    (hpause : ¬ w.pausesOver cfg input) (hreset : ¬ w.resets cfg input) : db'.EngagedHard := by
  have hc := h.changes.control
  generalize hk : db'.control = k at hc
  cases hc with
  | same => exact hhard.of_control hk
  | initialized hn _ => exact absurd hn hhard.control_ne
  | halted _ hd hr => exact engagedHard_of_halt hd hr hk
  | command hdb hq hsame hcommand =>
    rw [← hk] at hcommand
    subst hdb
    refine hcommand.engaged hhard ?_ ?_
    · intro ht
      exact hpause ⟨⟨_, hq, hsame.commandType ▸ ht⟩, hhard⟩
    · intro hp
      exact hreset ⟨_, hq, passesReset_of_same hsame hp⟩

theorem step_engaged (hhard : w.db.EngagedHard) (hpause : ¬ w.pausesOver cfg input)
    (hreset : ¬ w.resets cfg input) : (w.step cfg input).db.EngagedHard :=
  World.step_inv (fun _ _ hh ht => ht.engaged hh hpause hreset) hhard

theorem run_engaged (cfg : WorkerConfig) (w : World) (l : List Input) (hhard : w.db.EngagedHard)
    (hpause : AllSteps (World.step cfg) (fun w input => ¬ w.pausesOver cfg input) w l)
    (hinactive : (run (World.step cfg) w l).db.control.map (·.killSwitchActive) = some false) :
    ∃ l₁ input l₂, l = l₁ ++ input :: l₂ ∧ (run (World.step cfg) w l₁).resets cfg input := by
  induction l generalizing w with
  | nil =>
    obtain ⟨reason, hr, _⟩ := hhard
    obtain ⟨c, hc, hcr⟩ := Option.bind_eq_some_iff.mp hr
    rw [run_nil, hc, Option.map_some, Option.some.injEq, c.active_iff, hcr] at hinactive
    cases hinactive
  | cons input l ih =>
    by_cases hreset : w.resets cfg input
    · exact ⟨[], input, l, rfl, hreset⟩
    · obtain ⟨l₁, input', l₂, rfl, hr⟩ :=
        ih (w.step cfg input) (step_engaged hhard hpause.1 hreset) hpause.2 hinactive
      exact ⟨input :: l₁, input', l₂, rfl, hr⟩

end

/-! ## a pause over an emergency halt -/

namespace Demo

def haltedRun : List Input :=
  started ++ [.enqueue (command .emergencyHalt .empty 4 "halt-001" (by decide +kernel)), poll 5]

def pauseOverHalt : List Input :=
  [.enqueue (command .pause .empty 6 "pause-01" pause_key), poll 7,
    .enqueue (command .resume (Dict.empty.set "expected_control_version" (.int 3)) 8 "resume-1"
      (by decide +kernel)), poll 9]

theorem pauseOverHalt_clears :
    (run (World.step config) world haltedRun).db.control.bind (·.reason) =
        some "operator_emergency_halt:13:uuid:command4" ∧
      (run (World.step config) world (haltedRun ++ pauseOverHalt)).db.control.map
        (·.killSwitchActive) = some false ∧
      (run (World.step config) world (haltedRun ++ pauseOverHalt)).db.experiment.status = .running ∧
      ∀ q ∈ (run (World.step config) world (haltedRun ++ pauseOverHalt)).db.commands.values,
        q.commandType ≠ .resetKillSwitch := by
  decide +kernel

def resetHalt : List Input :=
  [.enqueue (command .resetKillSwitch
      ((Dict.empty.set "expected_control_version" (.int 2)).set "expected_reason"
        (.str "operator_emergency_halt:13:uuid:command4")) 6 "reset-01" (by decide +kernel)),
        poll 7]

theorem run_engaged_resetHalt :
    ∃ l₁ input l₂, resetHalt = l₁ ++ input :: l₂ ∧
      (run (World.step config) (run (World.step config) world haltedRun) l₁).resets config input :=
  run_engaged config (run (World.step config) world haltedRun) resetHalt (by decide +kernel)
    (by decide +kernel) (by decide +kernel)

end Demo

end Maais
