import Maais.Worker.Transactions
import Maais.Worker.Skew

/-!
# Two workers and one lease

The lease row of an experiment names one worker until a time. Another worker may take it over behind
that time with the next epoch. Only the heartbeat of a worker reads the row: the transactions that
record its work do not.

* `WorkerWrite`  the transactions that record work;
* `Fleet`  two processes, their leases and one database, one transaction at a time;
* `writes_fenced` a worker that writes only before its lease ends never writes behind a takeover.
-/

namespace Maais
open Lib

/-! ## the lease row -/

inductive WorkerLeaseStatus
  | active | released
deriving DecidableEq

@[ext] structure WorkerLease where
  workerId : UUID
  status : WorkerLeaseStatus
  acquiredAt : Time
  heartbeatAt : Time
  expiresAt : Time
  releasedAt : Option Time
  epoch : Nat
  acquired_le : acquiredAt ≤ heartbeatAt
  shape : status = .active ∧ releasedAt = none ∧ heartbeatAt < expiresAt ∨
    status = .released ∧ ∃ t ∈ releasedAt, heartbeatAt ≤ t

instance : DecidableEq WorkerLease := fun _ _ => decidable_of_iff _ WorkerLease.ext_iff.symm

structure LeaseTerm where
  ttl : Time
  ttl_pos : 0 < ttl

namespace WorkerLease

def validAt (l : WorkerLease) (t : Time) : Prop := l.status = .active ∧ t < l.expiresAt

instance {l : WorkerLease} {t : Time} : Decidable (l.validAt t) := by
  unfold validAt
  infer_instance

def granted (term : LeaseTerm) (workerId : UUID) (t : Time) (epoch : Nat) : WorkerLease where
  workerId := workerId
  status := .active
  acquiredAt := t
  heartbeatAt := t
  expiresAt := t + term.ttl
  releasedAt := none
  epoch := epoch
  acquired_le := Int.le_refl t
  shape := .inl ⟨rfl, rfl, Int.lt_add_of_pos_right t term.ttl_pos⟩

/-- `acquire`: the row behind it -/
def acquire (term : LeaseTerm) (row : Option WorkerLease) (workerId : UUID) (t : Time) :
    Py WorkerLease :=
  match row with
  | none => .ok (granted term workerId t 1)
  | some existing =>
    if existing.validAt t then do
      raiseIf (existing.workerId ≠ workerId) (.workerLeaseConflict
        ("experiment lease is held by another worker until " ++ toString existing.expiresAt))
      return existing
    else .ok (granted term workerId t (existing.epoch + 1))

def locked (row : Option WorkerLease) : Py WorkerLease :=
  orRaise row (.lookupError "worker lease does not exist")

def renewed (term : LeaseTerm) (current : WorkerLease) (t : Time)
    (h : current.heartbeatAt ≤ t) : WorkerLease :=
  { current with
    status := .active, heartbeatAt := t, expiresAt := t + term.ttl, releasedAt := none
    acquired_le := current.acquired_le.trans h
    shape := .inl ⟨rfl, rfl, Int.lt_add_of_pos_right t term.ttl_pos⟩ }

def ended (current : WorkerLease) (t : Time) (h : current.heartbeatAt ≤ t) : WorkerLease :=
  { current with
    status := .released, expiresAt := t, releasedAt := some t, shape := .inr ⟨rfl, t, rfl, h⟩ }

def renew (term : LeaseTerm) (row : Option WorkerLease) (workerId : UUID)
    (t : Time) : Py WorkerLease := do
  let current ← locked row
  raiseIf (current.status ≠ .active ∨ current.workerId ≠ workerId)
    (.workerLeaseConflict "worker does not own the active experiment lease")
  raiseIf (¬ current.validAt t)
    (.workerLeaseExpired "worker lease expired before heartbeat renewal")
  if h : t < current.heartbeatAt then
    .error (.workerLeaseConflict "worker lease heartbeat cannot regress")
  else return current.renewed term t (not_lt.mp h)

def release (row : Option WorkerLease) (workerId : UUID) (t : Time) : Py WorkerLease := do
  let current ← locked row
  raiseIf (current.workerId ≠ workerId)
    (.workerLeaseConflict "worker cannot release another worker's lease")
  if current.status ≠ .active then return current
  else if h : t < current.heartbeatAt then
    .error (.workerLeaseConflict "worker lease release cannot precede its heartbeat")
  else return current.ended t (not_lt.mp h)

/-! what the operations leave of the row -/

section
variable {term : LeaseTerm} {row : Option WorkerLease} {workerId : UUID} {t : Time}
  {l : WorkerLease}

theorem acquire_owned (h : acquire term row workerId t = .ok l) : l.status = .active ∧
    l.workerId = workerId := by
  unfold acquire at h
  split at h
  next => exact Except.ok.inj h ▸ ⟨rfl, rfl⟩
  next existing =>
    split at h
    next hvalid =>
      obtain ⟨_, hid, h⟩ := bind_eq_ok.mp h
      have hsame := not_not.mp (raiseIf_eq_ok.mp hid)
      exact Except.ok.inj h ▸ ⟨hvalid.1, hsame⟩
    next => exact Except.ok.inj h ▸ ⟨rfl, rfl⟩

variable {existing : WorkerLease}

theorem acquire_over (h : acquire term (some existing) workerId t = .ok l)
    (hne : existing.workerId ≠ workerId) (hactive : existing.status = .active) :
    existing.expiresAt ≤ t ∧ existing.epoch < l.epoch := by
  simp only [acquire] at h
  split at h
  next hvalid =>
    obtain ⟨_, hid, -⟩ := bind_eq_ok.mp h
    exact absurd hne (raiseIf_eq_ok.mp hid)
  next hvalid =>
    have hend : ¬ t < existing.expiresAt := fun hlt => hvalid ⟨hactive, hlt⟩
    exact ⟨not_lt.mp hend, Except.ok.inj h ▸ Nat.lt_succ_self _⟩

theorem acquire_epoch (h : acquire term (some existing) workerId t = .ok l) :
    existing.epoch ≤ l.epoch := by
  simp only [acquire] at h
  split at h
  next =>
    obtain ⟨_, -, h⟩ := bind_eq_ok.mp h
    exact Except.ok.inj h ▸ le_rfl
  next => exact Except.ok.inj h ▸ Nat.le_succ _

theorem renew_eq (h : renew term row workerId t = .ok l) :
    ∃ r, row = some r ∧ r.workerId = workerId ∧ l.workerId = workerId ∧ l.epoch = r.epoch ∧
      l.status = .active := by
  simp only [renew, locked, bind_eq_ok, orRaise_eq_ok, raiseIf_eq_ok, not_or, not_not] at h
  obtain ⟨r, hr, _, ⟨-, hid⟩, _, -, h⟩ := h
  split at h
  next => cases h
  next => exact ⟨r, hr, hid, Except.ok.inj h ▸ ⟨hid, rfl, rfl⟩⟩

theorem release_eq (h : release row workerId t = .ok l) :
    ∃ r, row = some r ∧ r.workerId = workerId ∧ l.workerId = workerId ∧ l.epoch = r.epoch := by
  simp only [release, locked, bind_eq_ok, orRaise_eq_ok, raiseIf_eq_ok, not_not] at h
  obtain ⟨r, hr, _, hid, h⟩ := h
  refine ⟨r, hr, hid, ?_⟩
  split at h
  next => exact Except.ok.inj h ▸ ⟨hid, rfl⟩
  next =>
    split at h
    next => cases h
    next => exact Except.ok.inj h ▸ ⟨hid, rfl⟩

end

end WorkerLease

/-! ## the transactions that record work -/

inductive WorkerWrite
  /-- a decision outcome with the cursor of its bar -/
  | cycle (o : CycleOutcome) (cursor : MarketCursor) (progress : Option RecoveryState)
  /-- the outcome of a mark: an exit, or the marked account -/
  | protection (o : ProtectionOutcome)
  | funding (event : ObservedMarketEvent) (payload : FundingSettlementPayload)
  | command (now : Nat → Time)
  | claimFlatten (now : Time)
  | completeFlatten (q : OperatorCommand) (plan : FlattenPlan) (recordedAt completedAt : Time)
  | rejectFlatten (q : OperatorCommand) (rejectedAt : Time) (reasonCode detail : String)

/-- the body of the transaction; none of them reads the lease -/
def WorkerWrite.apply (cfg : WorkerConfig) (db : Database) : WorkerWrite → Py Database
  | .cycle o cursor progress => db.recordOutcome cfg o cursor progress
  | .protection o => db.recordProtectionOutcome cfg o
  | .funding event payload => db.observeFunding cfg event payload
  | .command now => (db.execute cfg now).map (·.1)
  | .claimFlatten now => (db.claim cfg now).map (·.1)
  | .completeFlatten q plan recordedAt completedAt =>
    (db.completeFlatten cfg q plan recordedAt completedAt).map (·.1)
  | .rejectFlatten q rejectedAt reasonCode detail =>
    (db.rejectCommand cfg q rejectedAt reasonCode detail).map (·.1)

/-! ## two processes -/

inductive Side
  | a | b
deriving DecidableEq

inductive ProcessPhase
  | fresh | starting | running | halted
deriving DecidableEq

structure Process where
  phase : ProcessPhase
  lease : Option WorkerLease

def Process.alive (x : Process) : Prop := x.phase = .starting ∨ x.phase = .running

instance {x : Process} : Decidable x.alive := inferInstanceAs (Decidable (_ ∨ _))

/-- two processes of one experiment; each has the identity of its boot -/
structure FleetConfig where
  worker : WorkerConfig
  boot : Side → UUID
  boot_ne : boot .a ≠ boot .b
  term : LeaseTerm

theorem FleetConfig.boot_inj (fc : FleetConfig) {p q : Side} (h : p ≠ q) :
    fc.boot p ≠ fc.boot q := by
  have hne := fc.boot_ne
  cases p with
  | a =>
    cases q with
    | a => exact absurd rfl h
    | b => exact hne
  | b =>
    cases q with
    | a => exact hne.symm
    | b => exact absurd rfl h

def FleetConfig.config (fc : FleetConfig) (p : Side) : WorkerConfig :=
  fc.worker.withWorker (fc.boot p)

structure Fleet where
  db : Database
  row : Option WorkerLease
  a : Process
  b : Process
  /-- the last time a process has read from the clock -/
  now : Time

inductive FleetInput
  /-- the first transaction of `_start_persistence` -/
  | start (p : Side) (t : Time)
  | audit (p : Side) (t : Time)
  | heartbeat (p : Side) (t : Time)
  | write (p : Side) (x : WorkerWrite) (t : Time)
  | fail (p : Side) (e : PyError) (t : Time)
  /-- `_stop_persistence` -/
  | stop (p : Side) (t : Time)

def FleetInput.time : FleetInput → Time
  | .start _ t | .audit _ t | .heartbeat _ t | .write _ _ t | .fail _ _ t | .stop _ t => t

namespace Fleet

variable (fc : FleetConfig) (f : Fleet)

def process : Side → Process
  | .a => f.a
  | .b => f.b

def setProcess (p : Side) (x : Process) : Fleet :=
  match p with
  | .a => { f with a := x }
  | .b => { f with b := x }

def endProcess (p : Side) : Fleet := f.setProcess p ⟨.halted, (f.process p).lease⟩

/-- the transaction of `_halt`, which also releases the lease -/
def haltTransaction (p : Side) (e : PyError) (t : Time) : Py (Database × WorkerLease) := do
  let db ← f.db.haltForFailure (fc.config p) e t
  let row ← WorkerLease.release f.row (fc.boot p) t
  return (db, row)

/-- `_halt`: the process ends also when the transaction raises -/
def haltProcess (p : Side) (e : PyError) (t : Time) : Fleet :=
  match f.haltTransaction fc p e t with
  | .error _ => f.endProcess p
  | .ok done => { f with db := done.1, row := some done.2 }.setProcess p ⟨.halted, some done.2⟩

/-- the first transaction of a process; without it there is nothing to halt -/
def startTransaction (p : Side) (t : Time) : Py (Database × WorkerLease) := do
  let row ← WorkerLease.acquire fc.term f.row (fc.boot p) t
  let db ← f.db.initControl t (fc.config p).workerName
  return (db, row)

def startProcess (p : Side) (t : Time) : Fleet :=
  match f.startTransaction fc p t with
  | .error _ => f.endProcess p
  | .ok done => { f with db := done.1, row := some done.2 }.setProcess p ⟨.starting, some done.2⟩

def auditProcess (p : Side) (t : Time) : Fleet :=
  match (do f.db.auditRecoveredState (fc.config p); f.db.startMode : Py WorkerMode) with
  | .error e => f.haltProcess fc p e t
  | .ok _ => f.setProcess p ⟨.running, (f.process p).lease⟩

def heartbeat (p : Side) (t : Time) : Fleet :=
  match WorkerLease.renew fc.term f.row (fc.boot p) t with
  | .error e => f.haltProcess fc p e t
  | .ok row => { f with row := some row }.setProcess p ⟨.running, some row⟩

/-- a transaction of the process; one that raises halts it -/
def write (p : Side) (x : WorkerWrite) (t : Time) : Fleet :=
  match x.apply (fc.config p) f.db with
  | .error e => f.haltProcess fc p e t
  | .ok db => { f with db }

def stopProcess (p : Side) (t : Time) : Fleet :=
  match WorkerLease.release f.row (fc.boot p) t with
  | .error _ => f.endProcess p
  | .ok row => { f with row := some row }.setProcess p ⟨.halted, some row⟩

def react : FleetInput → Fleet
  | .start p t => if (f.process p).phase = .fresh then f.startProcess fc p t else f
  | .audit p t => if (f.process p).phase = .starting then f.auditProcess fc p t else f
  | .heartbeat p t => if (f.process p).phase = .running then f.heartbeat fc p t else f
  | .write p x t => if (f.process p).phase = .running then f.write fc p x t else f
  | .fail p e t => if (f.process p).alive then f.haltProcess fc p e t else f
  | .stop p t => if (f.process p).phase = .running then f.stopProcess fc p t else f

def step (input : FleetInput) : Fleet := { f.react fc input with now := input.time }

variable {fc f}

@[simp] theorem process_setProcess_self (p : Side) (x : Process) :
    (f.setProcess p x).process p = x := by
  cases p <;> rfl

theorem process_setProcess_of_ne {p q : Side} (h : p ≠ q) (x : Process) :
    (f.setProcess q x).process p = f.process p := by
  cases p <;> cases q <;> first | rfl | exact absurd rfl h

@[simp] theorem row_setProcess (p : Side) (x : Process) : (f.setProcess p x).row = f.row := by
  cases p <;> rfl

@[simp] theorem now_setProcess (p : Side) (x : Process) : (f.setProcess p x).now = f.now := by
  cases p <;> rfl

/-! ## what a process does to the lease -/

inductive RowChange (fc : FleetConfig) (q : Side) (t : Time) : Option WorkerLease →
    Option WorkerLease → Prop
  | same (row : Option WorkerLease) : RowChange fc q t row row
  | acquired {row : Option WorkerLease} {l : WorkerLease}
      (h : WorkerLease.acquire fc.term row (fc.boot q) t = .ok l) : RowChange fc q t row (some l)
  | own {r l : WorkerLease} (hr : r.workerId = fc.boot q) (hl : l.workerId = fc.boot q)
      (he : l.epoch = r.epoch) : RowChange fc q t (some r) (some l)

/-- the row went to another worker behind the end of the lease `l` of `p` -/
structure Overtaken (fc : FleetConfig) (f : Fleet) (p : Side) (l : WorkerLease) : Prop where
  row : ∃ r, f.row = some r ∧ r.workerId ≠ fc.boot p ∧ l.epoch < r.epoch
  ended : l.expiresAt ≤ f.now

/-- a process that is alive remembers the row, or was overtaken -/
def Holds (fc : FleetConfig) (f : Fleet) (p : Side) : Prop :=
  (f.process p).alive → ∃ l, (f.process p).lease = some l ∧ l.workerId = fc.boot p ∧
    (l.status = .active ∧ f.row = some l ∨ f.Overtaken fc p l)

/-- how a process that is alive after its transaction came to its lease: it kept it, or it took the
row as a new process or as the owner -/
inductive Kept (fc : FleetConfig) (f : Fleet) (q : Side) (f' : Fleet) : Prop
  | kept (halive : (f.process q).alive) (hlease : (f'.process q).lease = (f.process q).lease)
      (hrow : f'.row = f.row)
  | taken {l : WorkerLease} (hlease : (f'.process q).lease = some l) (hrow : f'.row = some l)
      (hactive : l.status = .active) (hid : l.workerId = fc.boot q)
      (hfrom : (f.process q).phase = .fresh ∨
        (f.process q).alive ∧ ∃ r, f.row = some r ∧ r.workerId = fc.boot q)

structure Moved (fc : FleetConfig) (f : Fleet) (q : Side) (t : Time) (f' : Fleet) : Prop where
  others : ∀ p, p ≠ q → f'.process p = f.process p
  row : RowChange fc q t f.row f'.row
  self : (f'.process q).alive → Kept fc f q f'
  fresh : (f'.process q).phase = .fresh → f'.process q = f.process q
  now : f'.now = f.now

section
variable {q : Side} {t : Time} {e : PyError}

theorem not_alive_halted {l : Option WorkerLease} : ¬ (Process.mk .halted l).alive := by
  rintro (h | h) <;> cases h

theorem Moved.refl : Moved fc f q t f :=
  ⟨fun _ _ => rfl, .same _, fun h => .kept h rfl rfl, fun _ => rfl, rfl⟩

theorem Moved.halted (g : Fleet) {l : Option WorkerLease} (hp : ∀ p, g.process p = f.process p)
    (hrow : RowChange fc q t f.row g.row) (hnow : g.now = f.now) :
    Moved fc f q t (g.setProcess q ⟨.halted, l⟩) where
  others p hpq := (process_setProcess_of_ne hpq _).trans (hp p)
  row := by rwa [row_setProcess]
  self halive := absurd (process_setProcess_self (f := g) q ⟨.halted, l⟩ ▸ halive) not_alive_halted
  fresh h := by rw [process_setProcess_self] at h; cases h
  now := (now_setProcess _ _).trans hnow

theorem Moved.took (g : Fleet) {phase : ProcessPhase} {l : WorkerLease}
    (hp : ∀ p, g.process p = f.process p) (hrow : RowChange fc q t f.row (some l))
    (hg : g.row = some l) (hnow : g.now = f.now) (hphase : phase ≠ .fresh)
    (hactive : l.status = .active) (hid : l.workerId = fc.boot q)
    (hfrom : (f.process q).phase = .fresh ∨ (f.process q).alive ∧ ∃ r, f.row = some r ∧
    r.workerId = fc.boot q) : Moved fc f q t (g.setProcess q ⟨phase, some l⟩) where
  others p hpq := (process_setProcess_of_ne hpq _).trans (hp p)
  row := by rwa [row_setProcess, hg]
  self _ := .taken (by rw [process_setProcess_self]) (by rw [row_setProcess, hg]) hactive hid hfrom
  fresh h := by rw [process_setProcess_self] at h; exact absurd h hphase
  now := (now_setProcess _ _).trans hnow

theorem endProcess_moved : Moved fc f q t (f.endProcess q) := .halted f (fun _ => rfl) (.same _) rfl

theorem release_rowChange {l : WorkerLease} (h : WorkerLease.release f.row (fc.boot q) t = .ok l) :
    RowChange fc q t f.row (some l) := by
  obtain ⟨r, hr, hid, hl, he⟩ := WorkerLease.release_eq h
  rw [hr]
  exact .own hid hl he

theorem haltProcess_moved : Moved fc f q t (f.haltProcess fc q e t) := by
  unfold haltProcess
  split
  next => exact endProcess_moved
  next done h =>
    simp only [haltTransaction, bind_eq_ok, pure_ok_iff] at h
    obtain ⟨db, -, row, hrow, rfl⟩ := h
    exact .halted _ (fun p => by cases p <;> rfl) (release_rowChange hrow) rfl

theorem startProcess_moved (hphase : (f.process q).phase = .fresh) :
    Moved fc f q t (f.startProcess fc q t) := by
  unfold startProcess
  split
  next => exact endProcess_moved
  next done h =>
    simp only [startTransaction, bind_eq_ok, pure_ok_iff] at h
    obtain ⟨row, hrow, db, -, rfl⟩ := h
    obtain ⟨hactive, hid⟩ := WorkerLease.acquire_owned hrow
    exact .took _ (fun p => by cases p <;> rfl) (.acquired hrow) rfl rfl (by decide) hactive
      hid (.inl hphase)

theorem heartbeat_moved (hphase : (f.process q).phase = .running) :
    Moved fc f q t (f.heartbeat fc q t) := by
  unfold heartbeat
  split
  next => exact haltProcess_moved
  next row h =>
    obtain ⟨r, hr, hid, hl, he, hactive⟩ := WorkerLease.renew_eq h
    refine .took _ (fun p => by cases p <;> rfl) ?_ rfl rfl (by decide) hactive hl
      (.inr ⟨.inr hphase, r, hr, hid⟩)
    rw [hr]
    exact .own hid hl he

theorem auditProcess_moved (hphase : (f.process q).phase = .starting) :
    Moved fc f q t (f.auditProcess fc q t) := by
  unfold auditProcess
  split
  next => exact haltProcess_moved
  next =>
    refine ⟨fun p hp => process_setProcess_of_ne hp _, ?_,
      fun _ => ?_, fun h => ?_, now_setProcess _ _⟩
    · rw [row_setProcess]
      exact .same _
    · exact .kept (.inl hphase) (by rw [process_setProcess_self]) (row_setProcess _ _)
    · rw [process_setProcess_self] at h
      cases h

theorem write_moved {x : WorkerWrite} : Moved fc f q t (f.write fc q x t) := by
  unfold write
  split
  next => exact haltProcess_moved
  next db _ =>
    have hp : ∀ p, Fleet.process { f with db } p = f.process p := fun p => by cases p <;> rfl
    refine ⟨fun p _ => hp p, .same _, fun halive => ?_, fun _ => hp q, rfl⟩
    rw [hp] at halive
    exact .kept halive (by rw [hp]) rfl

theorem stopProcess_moved : Moved fc f q t (f.stopProcess fc q t) := by
  unfold stopProcess
  split
  next => exact endProcess_moved
  next row h => exact .halted _ (fun p => by cases p <;> rfl) (release_rowChange h) rfl

end

def side : FleetInput → Side
  | .start p _ | .audit p _ | .heartbeat p _ | .write p _ _ | .fail p _ _ | .stop p _ => p

theorem react_moved (input : FleetInput) :
    Moved fc f (side input) input.time (f.react fc input) := by
  cases input with
  | start p t =>
    show Moved fc f p t (if _ then _ else _)
    split
    next h => exact startProcess_moved h
    next => exact .refl
  | audit p t =>
    show Moved fc f p t (if _ then _ else _)
    split
    next h => exact auditProcess_moved h
    next => exact .refl
  | heartbeat p t =>
    show Moved fc f p t (if _ then _ else _)
    split
    next h => exact heartbeat_moved h
    next => exact .refl
  | write p x t =>
    show Moved fc f p t (if _ then _ else _)
    split
    next => exact write_moved
    next => exact .refl
  | fail p e t =>
    show Moved fc f p t (if _ then _ else _)
    split
    next => exact haltProcess_moved
    next => exact .refl
  | stop p t =>
    show Moved fc f p t (if _ then _ else _)
    split
    next => exact stopProcess_moved
    next => exact .refl

/-! ## leases along a run -/

section
variable {p q : Side} {t : Time} {f' : Fleet} {l : WorkerLease}

theorem process_now (p : Side) : Fleet.process { f with now := t } p = f.process p := by
  cases p <;> rfl

theorem Overtaken.other (h : f.Overtaken fc p l) (hm : Moved fc f q t f') (hpq : p ≠ q)
    (ht : f.now ≤ t) : Overtaken fc { f' with now := t } p l := by
  obtain ⟨r, hr, hid, he⟩ := h.row
  refine ⟨?_, h.ended.trans ht⟩
  have hrow := hm.row
  rw [hr] at hrow
  show ∃ r, f'.row = some r ∧ r.workerId ≠ fc.boot p ∧ l.epoch < r.epoch
  generalize f'.row = row' at hrow
  cases hrow with
  | same => exact ⟨r, rfl, hid, he⟩
  | @acquired _ next hnext =>
    have howner := (WorkerLease.acquire_owned hnext).2
    exact ⟨next, rfl, howner ▸ (fc.boot_inj hpq).symm,
      he.trans_le (WorkerLease.acquire_epoch hnext)⟩
  | @own _ next hr hl hepoch => exact ⟨next, rfl, hl ▸ (fc.boot_inj hpq).symm, hepoch ▸ he⟩

theorem Holds.other (h : f.Holds fc p) (hm : Moved fc f q t f') (hpq : p ≠ q) (ht : f.now ≤ t) :
    Holds fc { f' with now := t } p := by
  intro halive
  rw [process_now, hm.others p hpq] at halive ⊢
  obtain ⟨l, hl, hid, ⟨hactive, hr⟩ | hover⟩ := h halive
  · refine ⟨l, hl, hid, ?_⟩
    have hrow := hm.row
    rw [hr] at hrow
    have hne : l.workerId ≠ fc.boot q := hid ▸ fc.boot_inj hpq
    show l.status = .active ∧ f'.row = some l ∨ _
    generalize f'.row = row' at hrow
    cases hrow with
    | same => exact .inl ⟨hactive, rfl⟩
    | @acquired _ next hnext =>
      obtain ⟨hend, hepoch⟩ := WorkerLease.acquire_over hnext hne hactive
      have howner := (WorkerLease.acquire_owned hnext).2
      exact .inr ⟨⟨next, rfl, howner ▸ (fc.boot_inj hpq).symm, hepoch⟩, hend⟩
    | own hr => exact absurd hr hne
  · exact ⟨l, hl, hid, .inr (hover.other hm hpq ht)⟩

theorem Holds.self (h : f.Holds fc q) (hm : Moved fc f q t f') (ht : f.now ≤ t) :
    Holds fc { f' with now := t } q := by
  intro halive
  rw [process_now] at halive ⊢
  cases hm.self halive with
  | kept hbefore hlease hrow =>
    obtain ⟨l, hl, hid, hkept⟩ := h hbefore
    refine ⟨l, hlease.trans hl, hid, hkept.imp (fun h => ⟨h.1, hrow.trans h.2⟩) fun hover => ?_⟩
    exact ⟨hrow ▸ hover.row, hover.ended.trans ht⟩
  | taken hlease hrow hactive hid => exact ⟨_, hlease, hid, .inl ⟨hactive, hrow⟩⟩

variable {input : FleetInput}

theorem Holds.step (h : ∀ p, f.Holds fc p) (ht : f.now ≤ input.time) (p : Side) :
    (f.step fc input).Holds fc p := by
  by_cases hp : p = side input
  · subst hp
    exact (h _).self (react_moved input) ht
  · exact (h p).other (react_moved input) hp ht

theorem fresh_step (h : ∀ p, (f.process p).phase = .fresh → (f.process p).lease = none)
    (p : Side) (hfresh : ((f.step fc input).process p).phase = .fresh) :
    ((f.step fc input).process p).lease = none := by
  have hm : Moved fc f (side input) input.time (f.react fc input) := react_moved input
  have hstep : (f.step fc input).process p = (f.react fc input).process p := process_now p
  rw [hstep] at hfresh ⊢
  have hsame : (f.react fc input).process p = f.process p := by
    by_cases hp : p = side input
    · subst hp
      exact hm.fresh hfresh
    · exact hm.others p hp
  rw [hsame] at hfresh ⊢
  exact h p hfresh

def Superseded (f : Fleet) (p : Side) : Prop :=
  ∃ l ∈ (f.process p).lease, ∃ r ∈ f.row, l.epoch < r.epoch

/-- the process has started, and it is overtaken as long as it is alive -/
def Fenced (fc : FleetConfig) (f : Fleet) (p : Side) : Prop :=
  (f.process p).phase ≠ .fresh ∧
    ((f.process p).alive → ∃ l, (f.process p).lease = some l ∧ f.Overtaken fc p l)

theorem Superseded.fenced (h : f.Superseded p) (hh : f.Holds fc p)
    (hstarted : (f.process p).phase ≠ .fresh) : f.Fenced fc p := by
  refine ⟨hstarted, fun halive => ?_⟩
  obtain ⟨l, hl, -, ⟨-, hrow⟩ | hover⟩ := hh halive
  · obtain ⟨l', hl', r, hr, hepoch⟩ := h
    obtain rfl : l = l' := Option.mem_unique hl hl'
    obtain rfl : l = r := Option.mem_unique hrow hr
    exact absurd hepoch (lt_irrefl _)
  · exact ⟨l, hl, hover⟩

theorem Fenced.step (h : f.Fenced fc p) (ht : f.now ≤ input.time) :
    (f.step fc input).Fenced fc p := by
  have hm : Moved fc f (side input) input.time (f.react fc input) := react_moved input
  show Fenced fc { f.react fc input with now := input.time } p
  unfold Fenced
  rw [process_now]
  by_cases hp : p = side input
  · subst hp
    refine ⟨fun hfresh => h.1 (hm.fresh hfresh ▸ hfresh), fun halive => ?_⟩
    cases hm.self halive with
    | kept hbefore hlease hrow =>
      obtain ⟨l, hl, hover⟩ := h.2 hbefore
      exact ⟨l, hlease.trans hl, ⟨hrow ▸ hover.row, hover.ended.trans ht⟩⟩
    | taken hlease hrow hactive hid hfrom =>
      -- an overtaken process cannot take the row: it is not new, and the row is not its own
      rcases hfrom with hfresh | ⟨hbefore, r, hr, hown⟩
      · exact absurd hfresh h.1
      · obtain ⟨l, -, hover⟩ := h.2 hbefore
        obtain ⟨r', hr', hne, -⟩ := hover.row
        obtain rfl : r = r' := Option.mem_unique hr hr'
        exact absurd hown hne
  · rw [hm.others p hp]
    refine ⟨h.1, fun halive => ?_⟩
    obtain ⟨l, hl, hover⟩ := h.2 halive
    exact ⟨l, hl, hover.other hm hp ht⟩

def Commits (fc : FleetConfig) (f : Fleet) (p : Side) (x : WorkerWrite) : Prop :=
  (f.process p).phase = .running ∧ ∃ db, x.apply (fc.config p) f.db = .ok db

/-- the clock does not run back, and a process writes only before the lease it remembers ends -/
def Timely (f : Fleet) (input : FleetInput) : Prop :=
  f.now ≤ input.time ∧ match input with
    | .write p _ t => ∀ l ∈ (f.process p).lease, t < l.expiresAt
    | _ => True

instance {f : Fleet} {input : FleetInput} : Decidable (f.Timely input) := by
  unfold Timely
  cases input <;> infer_instance

theorem Fenced.not_commits {x : WorkerWrite} (h : f.Fenced fc p) (ht : f.Timely (.write p x t)) :
    ¬ f.Commits fc p x := by
  rintro ⟨hrunning, -⟩
  obtain ⟨l, hl, hover⟩ := h.2 (.inr hrunning)
  have hbefore : t < l.expiresAt := ht.2 l hl
  exact absurd (hover.ended.trans ht.1) (not_le.mpr hbefore)

end

end Fleet

/-- **A worker that writes only before its lease ends never writes behind a takeover.**  In every
run of two new processes whose writes are timely, once the row has a later epoch than the lease of a
process, no transaction of that process is committed. -/
theorem writes_fenced (fc : FleetConfig) (f : Fleet) (before after : List FleetInput) (p : Side)
    (hnew : ∀ p, f.process p = ⟨.fresh, none⟩)
    (htimely : AllSteps (Fleet.step fc) Fleet.Timely f (before ++ after))
    (hover : (run (Fleet.step fc) f before).Superseded p) :
    AllSteps (Fleet.step fc) (fun f input => ∀ x t, input = .write p x t → ¬ f.Commits fc p x)
      (run (Fleet.step fc) f before) after := by
  obtain ⟨hbefore, hafter⟩ := (AllSteps.append (Fleet.step fc)).mp htimely
  have hstart : (∀ p, f.Holds fc p) ∧ ∀ p, (f.process p).phase = .fresh →
      (f.process p).lease = none := by
    refine ⟨fun p halive => ?_, fun p _ => by rw [hnew p]⟩
    rw [hnew p] at halive
    rcases halive with h | h <;> cases h
  -- the leases of the two processes along the first part of the run
  have hleases := run_inv_of (Fleet.step fc) (I := fun f => (∀ p, f.Holds fc p) ∧
      ∀ p, (f.process p).phase = .fresh → (f.process p).lease = none)
    (fun f input h ht => ⟨Fleet.Holds.step h.1 ht.1, Fleet.fresh_step h.2⟩) hstart hbefore
  have hstarted : ((run (Fleet.step fc) f before).process p).phase ≠ .fresh := by
    intro hfresh
    obtain ⟨l, hl, -⟩ := hover
    exact absurd ((hleases.2 p hfresh).symm.trans hl) (by simp)
  have hfenced := hover.fenced (hleases.1 p) hstarted
  -- from the takeover on
  have hstep : ∀ (f : Fleet) input, f.Fenced fc p → f.Timely input →
      (f.step fc input).Fenced fc p :=
    fun f input h ht => h.step ht.1
  refine AllSteps.of_inv (Fleet.step fc) hstep ?_ hfenced hafter
  rintro f input h ht x t rfl
  exact h.not_commits ht

/-! ## a worker that is behind its lease -/

namespace Demo

def fleetConfig : FleetConfig where
  worker := config
  boot p := match p with
    | .a => ⟨"uuid:worker"⟩
    | .b => ⟨"uuid:other"⟩
  boot_ne := by decide
  term := ⟨30, thirty_pos⟩

def fleet : Fleet := ⟨readyWorld.db, none, ⟨.fresh, none⟩, ⟨.fresh, none⟩, 60⟩

/-- the first process starts and then sleeps for thirty seconds, the second one takes over -/
def takeover : List FleetInput := [.start .a 100, .audit .a 100, .start .b 130, .audit .b 130]

def takenOver : Fleet := run (Fleet.step fleetConfig) fleet takeover

def lateWorld : World := run (World.step config) readyWorld [.ingest (bar 0) 60]

def lateWrite : WorkerWrite :=
  .cycle (config.quarantine
    (config.frameId (bar 0) ⟨"1m", 0, 60, true, minute_ne, gapSix_interval_pos⟩) true 60)
    ⟨⟨"uuid:experiment"⟩, "binance", "bar", "BTCUSDT", "1m", "bar60", 0, 60, 60, 60, 1, 60⟩ none

/-- The second process has epoch two; before its next heartbeat the first one still dispatches its
bar and commits the outcome with the cursor. -/
theorem takenOver_written :
    takenOver.Superseded .a ∧ takenOver.Commits fleetConfig .a lateWrite ∧
      (takenOver.step fleetConfig (.write .a lateWrite 131)).db =
        (lateWorld.step config (dispatch (.quarantined true) 131)).db ∧
      (takenOver.step fleetConfig (.write .a lateWrite 131)).db.cursors ≠ takenOver.db.cursors := by
  have hlease : (takenOver.process .a).lease =
      some (.granted ⟨30, by decide⟩ ⟨"uuid:worker"⟩ 100 1) := by
    decide +kernel
  have hrow : takenOver.row =
    some (.granted ⟨30, by decide⟩ ⟨"uuid:other"⟩ 130 2) := by decide +kernel
  refine ⟨⟨_, hlease, _, hrow, by decide⟩, ⟨by decide +kernel, ?_⟩, by decide +kernel⟩
  exact ⟨_, eq_ok_of_toOption (Option.some_get (by decide +kernel :
    (lateWrite.apply (fleetConfig.config .a) takenOver.db).toOption.isSome)).symm⟩

theorem writes_fenced_takenOver :
    AllSteps (Fleet.step fleetConfig)
      (fun f input => ∀ x t, input = .write .a x t → ¬ f.Commits fleetConfig .a x) takenOver
      [.heartbeat .a 131, .write .b lateWrite 132] := by
  have hlease : (takenOver.process .a).lease =
      some (.granted ⟨30, by decide⟩ ⟨"uuid:worker"⟩ 100 1) := by
    decide +kernel
  have hrow : takenOver.row =
    some (.granted ⟨30, by decide⟩ ⟨"uuid:other"⟩ 130 2) := by decide +kernel
  exact writes_fenced fleetConfig fleet takeover _ .a (fun p => by cases p <;> rfl)
    (by decide +kernel) ⟨_, hlease, _, hrow, by decide⟩

end Demo

end Maais
