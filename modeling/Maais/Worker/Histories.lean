import Maais.Worker.Halts

/-!
# What a run of the worker never takes back

* `Inbox`  a command keeps its request and never falls back, and no two commands share an
  idempotency key;
* `IncidentLog`  an incident stays or gets a later version, and no two share a deduplication key;
* `run_movesOn`  so it is in every run from a reachable world, and a failed experiment stays failed.
-/

namespace Maais
open Lib

/-! ## commands -/

def CommandStatus.stage : CommandStatus → Nat
  | .requested => 0
  | .accepted => 1
  | .completed => 2
  | .rejected => 2

namespace OperatorCommand

def Follows (q r : OperatorCommand) : Prop := q.SameRequest r ∧ q.status.stage ≤ r.status.stage

theorem Follows.refl (q : OperatorCommand) : q.Follows q := ⟨.refl q, le_refl _⟩

theorem Follows.trans (p q r : OperatorCommand) (h : p.Follows q) (h' : q.Follows r) :
    p.Follows r := by
  obtain ⟨⟨h1, h2, h3, h4, h5, h6, h7, h8, h9⟩, hs⟩ := h
  obtain ⟨⟨g1, g2, g3, g4, g5, g6, g7, g8, g9⟩, hs'⟩ := h'
  exact ⟨⟨g1.trans h1, g2.trans h2, g3.trans h3, g4.trans h4, g5.trans h5, g6.trans h6, g7.trans h7,
    g8.trans h8, g9.trans h9⟩, hs.trans hs'⟩

end OperatorCommand

structure Inbox (start table : CommandTable) : Prop where
  kept : start.Kept OperatorCommand.Follows table
  keyed : table.Keyed (·.commandId)
  once : table.Unique (·.idempotencyKey)

namespace Inbox

variable {start table table' : CommandTable} {q q' : OperatorCommand} {id : UUID}

open OperatorCommand CommandTable

theorem update (h : Inbox start table) (hq : table.get? id = some q) (hf : q.Follows q') :
    Inbox start (table.set id q') := by
  refine ⟨.trans Follows.trans h.kept (.set_old Follows.refl hq hf), ?_,
    h.once.update hq hf.1.idempotencyKey⟩
  exact h.keyed.set (hf.1.commandId.trans (h.keyed id q hq))

theorem enqueue (h : Inbox start table) (he : table.enqueue q = .ok table') :
    Inbox start table' := by
  simp only [CommandTable.enqueue, bind_eq_ok] at he
  obtain ⟨_, _, he⟩ := he
  split at he
  · simp only [bind_eq_ok, pure_ok_iff] at he
    obtain ⟨_, _, rfl⟩ := he
    exact h
  · rename_i hnew
    simp only [bind_eq_ok, raiseIf_eq_ok, ne_eq, not_not, pure_ok_iff] at he
    obtain ⟨_, hnone, rfl⟩ := he
    refine ⟨.trans Follows.trans h.kept (.set_new Follows.refl hnone), h.keyed.set rfl,
      h.once.insert ?_⟩
    intro id other _ hother hkey
    have := List.find?_eq_none.mp hnew other (table.mem_values_iff.mpr ⟨id, hother⟩)
    simp [hkey] at this

theorem claimNext {idOrder : UUID → Nat} {worker : String} {t : Time}
    {claimed : Option OperatorCommand} (h : Inbox start table)
    (hc : table.claimNext idOrder worker t = .ok (table', claimed)) : Inbox start table' := by
  obtain ⟨_, rfl, _⟩ | ⟨q, q', hq, _, hsame, hs, _, rfl⟩ := claimNext_cases hc
  · exact h
  · have hmem : q ∈ table.values := List.mem_of_mem_filter (nextCommand_mem hq)
    rw [hsame.commandId]
    refine h.update (h.keyed.get?_of_mem hmem) ⟨hsame, ?_⟩
    rw [hs]
    obtain ha | hr := nextCommand_status hq
    · rw [ha]
    · rw [hr]
      exact Nat.zero_le 1

theorem finished (h : Inbox start table) (hf : table.Finished id (table', q)) :
    Inbox start table' := by
  obtain ⟨hs, ⟨old, hold, hsame⟩, heq⟩ := hf
  have heq' : table' = table.set id q := heq
  rw [heq']
  refine h.update hold ⟨hsame, ?_⟩
  have hs' : q.status = .completed ∨ q.status = .rejected := hs
  obtain hs | hs := hs'
  · rw [hs]
    cases old.status <;> decide
  · rw [hs]
    cases old.status <;> decide

theorem changed (h : Inbox start table) (hc : CommandsChange table table') :
    Inbox start table' := by
  cases hc with
  | same => exact h
  | enqueued he => exact h.enqueue he
  | claimed hn => exact h.claimNext hn
  | executed hn hf => exact (h.claimNext hn).finished hf
  | finished hf => exact h.finished hf

end Inbox

/-! ## incidents -/

def IncidentState.Follows : IncidentState → IncidentState → Prop :=
  Later (·.version) IncidentState.sameIdentity

theorem IncidentState.Follows.trans (i j k : IncidentState) (h : i.Follows j) (h' : j.Follows k) :
    i.Follows k := by
  refine Later.trans (fun a b c hab hbc => ?_) i j k h h'
  obtain ⟨h1, h2, h3, h4, h5, h6, h7⟩ := hab
  obtain ⟨g1, g2, g3, g4, g5, g6, g7⟩ := hbc
  exact ⟨h1.trans g1, h2.trans g2, h3.trans g3, h4.trans g4, h5.trans g5, h6.trans g6, h7.trans g7⟩

structure IncidentLog (start table : IncidentTable) : Prop where
  kept : start.Kept IncidentState.Follows table
  once : table.Unique (·.deduplicationKey)

theorem IncidentLog.recorded {start table table' : IncidentTable} {i : IncidentState}
    (h : IncidentLog start table) (hr : recordIncident table i = .ok table') :
    IncidentLog start table' := by
  rw [recordIncident_eq hr]
  cases hget : table.get? i.incidentId with
  | none =>
    simp only [recordIncident, hget, bind_eq_ok, raiseIf_eq_ok] at hr
    obtain ⟨_, hnew, _⟩ := hr
    refine ⟨.trans IncidentState.Follows.trans h.kept (.set_new Later.refl hget), h.once.insert ?_⟩
    intro id other _ hother hkey
    exact hnew ⟨other, table.mem_values_iff.mpr ⟨id, hother⟩, hkey⟩
  | some existing =>
    simp only [recordIncident, hget, updateIncident, bind_eq_ok, raiseIf_eq_ok, not_not,
      not_and, not_lt] at hr
    obtain ⟨_, hsame, _, hle, _, hone, _⟩ := hr
    have hlater : existing.Follows i := by
      by_cases hv : i.version = existing.version
      · exact Or.inl (hone hv).symm
      · refine Or.inr ⟨?_, hsame⟩
        show existing.version < i.version
        omega
    exact ⟨.trans IncidentState.Follows.trans h.kept (.set_old Later.refl hget hlater),
      h.once.update hget hsame.2.1.symm⟩

/-! ## runs -/

/-- what a database has become of another -/
structure Database.MovesOn (start db : Database) : Prop where
  commands : Inbox start.commands db.commands
  incidents : IncidentLog start.incidents db.incidents
  experiment : start.experiment.Moves db.experiment

namespace Database

variable {cfg : WorkerConfig} {w : World} {input : Input} {start db db' : Database}

theorem MovesOn.transaction (h : start.MovesOn db) (ht : Transaction cfg w input db db') :
    start.MovesOn db' := by
  have hc := ht.changes
  refine ⟨h.commands.changed hc.commands, ?_, ?_⟩
  · obtain heq | ⟨i, hi⟩ := hc.incidents
    · rw [heq]
      exact h.incidents
    · exact h.incidents.recorded hi
  · obtain ⟨⟨s, r, hframe⟩, hfail⟩ := h.experiment
    obtain ⟨⟨s', r', hframe'⟩, hfail'⟩ := hc.experiment
    refine ⟨⟨s', r', by rw [hframe', hframe]⟩, fun hf => ?_⟩
    have hsame := hfail hf
    rw [← hsame] at hf
    rw [hfail' hf, hsame]

theorem MovesOn.self (h : start.MovesOn db) : db.MovesOn db :=
  ⟨⟨.refl OperatorCommand.Follows.refl _, h.commands.keyed, h.commands.once⟩,
    ⟨.refl Later.refl _, h.incidents.once⟩, .refl⟩

end Database

namespace World

variable {cfg : WorkerConfig} {w : World}

theorem Reaches.movesOn_self (h : Reaches cfg w) : w.db.MovesOn w.db := by
  refine Reaches.inv (I := fun db => db.MovesOn db) ?_ ?_ h
  · intro w₀ hc
    refine ⟨?_, ?_, .refl⟩
    · rw [hc.commands]
      exact ⟨.refl OperatorCommand.Follows.refl _, .empty, .empty⟩
    · rw [hc.incidents]
      exact ⟨.refl Later.refl _, .empty⟩
  · intro w input db db' hdb ht
    exact (hdb.transaction ht).self

/-- **nothing is taken back**, from any reachable world and whatever the inputs -/
theorem run_movesOn (h : Reaches cfg w) (l : List Input) : w.db.MovesOn (run (step cfg) w l).db :=
  run_inv (step cfg) (I := fun v => w.db.MovesOn v.db)
    (fun _ _ hv => step_inv (fun _ _ hdb ht => hdb.transaction ht) hv) h.movesOn_self l

end World

theorem Demo.haltedRun_movesOn :
    (run (World.step config) world haltedRun).db.MovesOn
      (run (World.step config) (run (World.step config) world haltedRun) pauseOverHalt).db :=
  World.run_movesOn (reaches haltedRun) pauseOverHalt

end Maais
