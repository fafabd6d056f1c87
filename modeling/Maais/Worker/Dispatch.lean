import Maais.Lib.Run
import Maais.Worker.Engine

/-!
# The dispatch engine between its ports

`ClosedBarDispatchEngine` with its ports left open: each call of the observer, the dispatcher and
the life cycle may fail, so may the store when a recovery is completed, the venue may answer a
backfill with anything, and the process may start again from what was persisted. What `prepare`
saves is saved. A dispatch that fails has no effect; one that succeeds persists its cursor and the
progress of its recovery together.

* `ClosedBarDispatchEngine.process`  one event;
* `Aligned`  the cursors, persisted and in memory, are those of the last dispatched bars;
* `dispatches_in_order`  the bars of a stream are dispatched one after the other;
* `processEvent_refines`  the engine of the worker is this one, with the ports that the worker has.
-/

namespace Maais
open Lib

structure EnginePorts where
  observe : Nat → Py Unit
  dispatch : Nat → Py Unit
  backfill : Nat → Except BackfillError (List ObservedMarketEvent)
  now : Nat → Time
  recovering : Py Unit
  progressAt : Nat → Time
  complete : Py Unit
  recovered : Py Unit

/-- the persisted tables, the memory of the engine, and the bars that were dispatched, in their
order -/
structure EngineState where
  persistedCursors : CursorTable
  recoveries : RecoveryTable
  cursors : CursorTable
  journal : List ObservedMarketEvent
  appended : List ObservedMarketEvent
  dispatched : List (ObservedMarketEvent × ClosedBarPayload)

def EngineState.empty : EngineState := ⟨.empty, .empty, .empty, [], [], []⟩

inductive DispatchDisposition
  | observed | duplicate | dispatched | recovered

structure DispatchResult where
  disposition : DispatchDisposition
  eventId : String
  cursor : Option MarketCursor
  recoveryId : Option UUID
  dispatchedCount : Nat

def eventCursorKey (event : ObservedMarketEvent) (bar : ClosedBarPayload) : CursorKey :=
  (event.venue, event.stream, event.symbol, bar.timeframe)

namespace MarketEventJournal

def remove (journal : List ObservedMarketEvent) (event : ObservedMarketEvent) :
    List ObservedMarketEvent :=
  if journal.find? (fun e => e.identity = event.identity) = some event then
    journal.eraseP (fun e => e.identity = event.identity)
  else journal

end MarketEventJournal

namespace ClosedBarDispatchEngine

variable (cfg : EngineConfig) (ports : EnginePorts)

abbrev Call (α : Type) := Outcome EngineState PyError α

/-- a successful dispatch persists the cursor and the progress; the cursor in memory follows -/
def dispatchBar (k : Nat) (s : EngineState) (event : ObservedMarketEvent) (bar : ClosedBarPayload)
    (target : MarketCursor) (progress : Option RecoveryState) : Call Unit :=
  match ports.dispatch k with
  | .error e => (s, .error e)
  | .ok _ =>
    ({ s with
        persistedCursors := s.persistedCursors.set (cursorKey target) target
        recoveries := progress.elim s.recoveries (fun r => s.recoveries.set r.recoveryId r)
        cursors := s.cursors.set (cursorKey target) target
        dispatched := s.dispatched ++ [(event, bar)] }, .ok ())

/-- an event enters the journal and is observed; `false` when it was there before -/
def observeNew (k : Nat) (s : EngineState) (event : ObservedMarketEvent) : Call Bool :=
  match MarketEventJournal.append cfg s.journal event with
  | .error e => (s, .error e)
  | .ok none => (s, .ok false)
  | .ok (some journal) =>
    (Outcome.attempt { s with journal, appended := s.appended ++ [event] }
      (ports.observe k)).andThen fun s _ => (s, .ok true)

def observeRecovered (k : Nat) (s : EngineState) (candidate event : ObservedMarketEvent) :
    Call Bool :=
  if event.identity = candidate.identity then (s, .ok false) else observeNew cfg ports k s event

def recoverBar (candidate : ObservedMarketEvent) (k : Nat) (s : EngineState)
    (p : RecoveryPreparation) (cursor : MarketCursor) (event : ObservedMarketEvent) :
    Call (RecoveryPreparation × MarketCursor) :=
  (observeRecovered cfg ports (k + 1) s candidate event).andThen
    fun s _ => (Outcome.attempt s (World.barOf event)).andThen
    fun s bar => (Outcome.attempt s (cursor.advanceClosedBar event bar)).andThen
    fun s target =>
      (Outcome.attempt s (p.recovery.recordDispatch target (ports.progressAt k))).andThen
    fun s progressed => (dispatchBar ports k s event bar target (some progressed)).andThen
    fun s _ => (s, .ok ({ p with recovery := progressed }, target))

def recoverBars (candidate : ObservedMarketEvent) :
    Nat → List ObservedMarketEvent → EngineState → RecoveryPreparation → MarketCursor →
      Call (RecoveryPreparation × MarketCursor)
  | _, [], s, p, cursor => (s, .ok (p, cursor))
  | k, event :: rest, s, p, cursor =>
    (recoverBar cfg ports candidate k s p cursor event).andThen fun s next =>
      recoverBars candidate (k + 1) rest s next.1 next.2

/-- `complete` of the manager; its store may fail -/
def complete (s : EngineState) (p : RecoveryPreparation) (bar : ClosedBarPayload)
    (cursor : MarketCursor) (completedAt : Time) : Call RecoveryState :=
  (Outcome.attempt s (do
    World.requireCaughtUp p bar cursor
    let completed ← p.recovery.complete p.batch completedAt
    ports.complete
    let persisted ← orRaise (s.persistedCursors.get? (cursorKey cursor))
      (.gapRecoveryNotCaughtUp "recovery cursor does not exist at completion")
    raiseIf (persisted ≠ cursor)
      (.gapRecoveryNotCaughtUp "persisted recovery cursor differs from the caught-up cursor")
    let recoveries ← recordRecovery s.recoveries completed
    return (recoveries, completed))).andThen fun s done =>
      ({ s with recoveries := done.1 }, .ok done.2)

def recover (s : EngineState) (bar : ClosedBarPayload) (p : RecoveryPreparation)
    (cursor : MarketCursor) : Call DispatchResult :=
  (Outcome.attempt s ports.recovering).andThen
    fun s _ => (recoverBars cfg ports p.candidate 0 p.dispatchEvents s p cursor).andThen
    fun s done =>
      (complete ports s done.1 bar done.2 (ports.progressAt p.dispatchEvents.length)).andThen
    fun s completed => (Outcome.attempt s ports.recovered).andThen
    fun s _ => (s, .ok ⟨.recovered, p.candidate.eventId, some done.2, some completed.recoveryId,
      p.dispatchEvents.length⟩)

def dispatchOne (s : EngineState) (event : ObservedMarketEvent) (bar : ClosedBarPayload)
    (target : MarketCursor) : Call DispatchResult :=
  (dispatchBar ports 0 s event bar target none).andThen
    fun s _ => (s, .ok ⟨.dispatched, event.eventId, some target, none, 1⟩)

/-- a bar of a stream with a cursor; the recovery is saved also when `prepare` raises -/
def dispatchAfter (s : EngineState) (candidate : ObservedMarketEvent) (bar : ClosedBarPayload)
    (cursor : MarketCursor) : Call DispatchResult :=
  let prepared :=
    RecoveryEnv.prepare ⟨ports.backfill, ports.now, cfg.maxRecoveryAttempts⟩ s.recoveries
    cursor candidate bar
  (Outcome.attempt { s with recoveries := prepared.1 } prepared.2).andThen fun s prepared =>
    match prepared with
    | none =>
      (Outcome.attempt s (cursor.advanceClosedBar candidate bar)).andThen
        fun s target => dispatchOne ports s candidate bar target
    | some p => recover cfg ports s bar p cursor

def dispatchClosedBar (s : EngineState) (candidate : ObservedMarketEvent) (bar : ClosedBarPayload) :
    Call DispatchResult :=
  if bar.closed = false then
    (s, .error (.workerEventConflict "closed-bar dispatch requires a final bar payload"))
  else
    match s.cursors.get? (eventCursorKey candidate bar) with
    | none =>
      (Outcome.attempt s (MarketCursor.create cfg.experimentId candidate bar)).andThen
        fun s target => dispatchOne ports s candidate bar target
    | some cursor => dispatchAfter cfg ports s candidate bar cursor

/-- the body of `process` -/
def handle (s : EngineState) (event : ObservedMarketEvent) : Call DispatchResult :=
  (observeNew cfg ports 0 s event).andThen fun s new =>
    match event.payload with
    | .closedBar bar =>
      if new then dispatchClosedBar cfg ports s event bar
      else (s, .ok ⟨.duplicate, event.eventId, s.cursors.get? (eventCursorKey event bar), none, 0⟩)
    | _ => (s, .ok ⟨if new then .observed else .duplicate, event.eventId, none, none, 0⟩)

/-- `process`: a call that raises takes its events out of the journal again -/
def process (s : EngineState) (event : ObservedMarketEvent) : Call DispatchResult :=
  let t := handle cfg ports { s with appended := [] } event
  match t.2 with
  | .ok result => ({ t.1 with appended := [] }, .ok result)
  | .error e =>
    ({ t.1 with
      journal := t.1.appended.reverse.foldl MarketEventJournal.remove t.1.journal, appended := [] },
      .error e)

def restart (s : EngineState) : Call Unit :=
  if ∃ entry ∈ s.persistedCursors.entries,
      entry.2.experimentId ≠ cfg.experimentId ∨ entry.1 ≠ cursorKey entry.2 then
    (s, .error (.valueError "restored cursor identity differs from worker configuration"))
  else ({ s with cursors := s.persistedCursors, journal := [], appended := [] }, .ok ())

/-- an event, with what the ports do meanwhile, or a new process -/
inductive Input
  | process (event : ObservedMarketEvent) (ports : EnginePorts)
  | restart

def step (s : EngineState) : Input → EngineState
  | .process event ports => (process cfg ports s event).1
  | .restart => (restart cfg s).1

end ClosedBarDispatchEngine

/-! ## cursors and dispatched bars -/

abbrev DispatchedBar := ObservedMarketEvent × ClosedBarPayload

def EngineState.bars (s : EngineState) (key : CursorKey) : List DispatchedBar :=
  s.dispatched.filter (fun d => eventCursorKey d.1 d.2 = key)

/-- the next bar: its sequence is the next one, and it opens where the other closed -/
def DispatchedBar.Precedes (a b : DispatchedBar) : Prop :=
  (∃ n, a.1.sequence = some n ∧ b.1.sequence = some (n + 1)) ∧ b.2.barOpenAt = a.2.barCloseAt

/-- the cursor of a dispatched bar, as `_validate_cursor` checks it -/
structure MarketCursor.Represents (c : MarketCursor) (d : DispatchedBar) : Prop where
  key : cursorKey c = eventCursorKey d.1 d.2
  eventId : c.eventId = d.1.eventId
  sequence : d.1.sequence = some c.sequence
  venueEventAt : c.venueEventAt = d.1.venueEventAt
  observedAt : c.observedAt = d.1.observedAt
  barCloseAt : c.barCloseAt = d.2.barCloseAt

variable {c : MarketCursor}

theorem MarketCursor.postInit_ok {c' : MarketCursor} (h : c.postInit = .ok c') : c' = c := by
  simp only [postInit, bind_eq_ok, raiseIf_eq_ok, pure_ok_iff] at h
  obtain ⟨_, _, _, _, rfl⟩ := h
  rfl

variable {event : ObservedMarketEvent}

theorem MarketCursor.create_ok {experimentId : UUID} {bar : ClosedBarPayload}
    (h : create experimentId event bar = .ok c) : c.experimentId = experimentId ∧
    c.Represents (event, bar) := by
  simp only [create, bind_eq_ok, orRaise_eq_ok] at h
  obtain ⟨sequence, hs, h⟩ := h
  rw [postInit_ok h]
  exact ⟨rfl, rfl, rfl, hs, rfl, rfl, rfl⟩

theorem MarketCursor.advanceClosedBar_ok {c' : MarketCursor} {bar : ClosedBarPayload}
    (h : c.advanceClosedBar event bar = .ok c') :
    c'.experimentId = c.experimentId ∧ cursorKey c' = cursorKey c ∧ c'.Represents (event, bar) ∧
      c'.sequence = c.sequence + 1 ∧ bar.barOpenAt = c.barCloseAt := by
  simp only [advanceClosedBar, bind_eq_ok, raiseIf_eq_ok, orRaise_eq_ok, not_not, ne_eq] at h
  obtain ⟨_, ⟨hv, hst, hsy, htf⟩, _, _, sequence, hs, _, _, _, hnext, _, hopen, h⟩ := h
  rw [postInit_ok h]
  refine ⟨rfl, rfl, ⟨?_, rfl, hs, rfl, rfl, rfl⟩, hnext, hopen⟩
  simp only [cursorKey, eventCursorKey, hv, hst, hsy, htf]

structure EngineState.Aligned (cfg : EngineConfig) (s : EngineState) : Prop where
  persisted : s.persistedCursors = s.cursors
  own : ∀ key c, s.cursors.get? key = some c → c.experimentId = cfg.experimentId ∧ cursorKey c = key
  last : ∀ key, Option.Rel MarketCursor.Represents (s.cursors.get? key) (s.bars key).getLast?
  chain : ∀ key, (s.bars key).IsChain DispatchedBar.Precedes

namespace ClosedBarDispatchEngine

variable {cfg : EngineConfig} {ports : EnginePorts} {s : EngineState}

def MayFollow (s : EngineState) (target : MarketCursor) (bar : ClosedBarPayload) : Prop :=
  ∀ c, s.cursors.get? (cursorKey target) = some c → target.sequence = c.sequence + 1 ∧
    bar.barOpenAt = c.barCloseAt

variable {target : MarketCursor} {event : ObservedMarketEvent} {bar : ClosedBarPayload}

theorem aligned_dispatched (h : s.Aligned cfg) (hexp : target.experimentId = cfg.experimentId)
    (hrep : target.Represents (event, bar)) (hnext : MayFollow s target bar)
    (recoveries : RecoveryTable) : EngineState.Aligned cfg
      { s with
        persistedCursors := s.persistedCursors.set (cursorKey target) target, recoveries
        cursors := s.cursors.set (cursorKey target) target,
            dispatched := s.dispatched ++ [(event, bar)] } := by
  -- only the stream of the bar changes
  have hself : ∀ key, cursorKey target = key →
      (s.dispatched ++ [(event, bar)]).filter (fun d => eventCursorKey d.1 d.2 = key) =
      s.bars key ++ [(event, bar)] := by
    rintro key rfl
    have hone : [(event, bar)].filter (fun d => eventCursorKey d.1 d.2 = cursorKey target) =
        [(event, bar)] :=
      List.filter_eq_self.mpr (by simp [hrep.key])
    rw [List.filter_append, hone]
    rfl
  have hother : ∀ key, cursorKey target ≠ key →
      (s.dispatched ++ [(event, bar)]).filter (fun d => eventCursorKey d.1 d.2 = key) =
      s.bars key := by
    intro key hne
    have hnone : [(event, bar)].filter (fun d => eventCursorKey d.1 d.2 = key) = [] :=
      List.filter_eq_nil_iff.mpr (by simpa using fun e => hne (hrep.key.trans e))
    rw [List.filter_append, hnone, List.append_nil]
    rfl
  refine ⟨by rw [h.persisted], ?_, ?_, ?_⟩
  · exact Dict.forall_set s.cursors h.own ⟨hexp, rfl⟩
  · intro key
    show Option.Rel _ ((s.cursors.set (cursorKey target) target).get? key)
      (List.getLast? (List.filter _ _))
    by_cases hkey : cursorKey target = key
    · rw [hself key hkey, ← hkey, Dict.get?_set_self, List.getLast?_concat]
      exact .some hrep
    · rw [hother key hkey, Dict.get?_set_of_ne _ (Ne.symm hkey)]
      exact h.last key
  · intro key
    show List.IsChain _ (List.filter _ _)
    by_cases hkey : cursorKey target = key
    · rw [hself key hkey, List.isChain_append]
      refine ⟨h.chain key, List.isChain_singleton _, ?_⟩
      intro a ha b hb
      cases hb
      have hlast := h.last key
      rw [show (s.bars key).getLast? = some a from ha] at hlast
      cases hc : s.cursors.get? key with
      | none => rw [hc] at hlast; cases hlast
      | some c =>
        rw [hc] at hlast
        cases hlast with
        | some hca =>
          obtain ⟨hseq, hopen⟩ := hnext c (hkey ▸ hc)
          exact ⟨⟨c.sequence, hca.sequence, by rw [← hseq]; exact hrep.sequence⟩,
            hopen.trans hca.barCloseAt⟩
    · rw [hother key hkey]
      exact h.chain key

/-! ## every call -/

def At (cursor : MarketCursor) (s : EngineState) : Prop :=
  s.cursors.get? (cursorKey cursor) = some cursor

variable {cursor : MarketCursor}

theorem mayFollow_of_advance
    (hat : At cursor s) (h : cursor.advanceClosedBar event bar = .ok target) :
    MayFollow s target bar := by
  obtain ⟨-, hkey, -, hseq, hopen⟩ := MarketCursor.advanceClosedBar_ok h
  intro c hc
  rw [hkey, hat] at hc
  cases hc
  exact ⟨hseq, hopen⟩

theorem dispatchBar_ends (h : s.Aligned cfg) (k : Nat)
    (hexp : target.experimentId = cfg.experimentId) (hrep : target.Represents (event, bar))
    (hnext : MayFollow s target bar) (progress : Option RecoveryState) :
    Outcome.Ends (EngineState.Aligned cfg) (fun s' _ => At target s')
      (dispatchBar ports k s event bar target progress) := by
  unfold dispatchBar
  cases ports.dispatch k with
  | error e => exact .raise h
  | ok _ => exact .pure (aligned_dispatched h hexp hrep hnext _) (Dict.get?_set_self _ _ _)

theorem observeNew_ends (h : s.Aligned cfg) (k : Nat) (event : ObservedMarketEvent) :
    Outcome.Ends (EngineState.Aligned cfg) (fun s' _ => s'.cursors = s.cursors)
    (observeNew cfg ports k s event) := by
  unfold observeNew
  split
  · exact .raise h
  · exact .pure h rfl
  · rename_i journal _
    have h' : EngineState.Aligned cfg { s with journal, appended := s.appended ++ [event] } :=
      ⟨h.persisted, h.own, h.last, h.chain⟩
    refine (Outcome.Ends.attempt h').andThen ?_
    rintro s' _ hs' ⟨rfl, -⟩
    exact .pure hs' rfl

theorem observeRecovered_ends (h : s.Aligned cfg) (k : Nat)
    (candidate event : ObservedMarketEvent) : Outcome.Ends (EngineState.Aligned cfg)
      (fun s' _ => s'.cursors = s.cursors) (observeRecovered cfg ports k s candidate event) := by
  unfold observeRecovered
  split
  · exact .pure h rfl
  · exact observeNew_ends h k event

theorem recoverBar_ends (h : s.Aligned cfg) (candidate : ObservedMarketEvent) (k : Nat)
    (p : RecoveryPreparation) (hat : At cursor s) (event : ObservedMarketEvent) :
    Outcome.Ends (EngineState.Aligned cfg) (fun s' next => At next.2 s')
      (recoverBar cfg ports candidate k s p cursor event) := by
  unfold recoverBar
  refine (observeRecovered_ends h (k + 1) candidate event).andThen ?_
  intro s₁ _ h₁ hc₁
  have hat₁ : At cursor s₁ := by
    unfold At
    rw [hc₁]
    exact hat
  refine (Outcome.Ends.attempt h₁).andThen ?_
  rintro _ bar - ⟨rfl, -⟩
  refine (Outcome.Ends.attempt h₁).andThen ?_
  rintro _ target - ⟨rfl, hadvance⟩
  refine (Outcome.Ends.attempt h₁).andThen ?_
  rintro _ progressed - ⟨rfl, -⟩
  obtain ⟨hexp, -, hrep, -⟩ := MarketCursor.advanceClosedBar_ok hadvance
  have hexp' := hexp.trans (h₁.own _ _ hat₁).1
  refine (dispatchBar_ends h₁ k hexp' hrep (mayFollow_of_advance hat₁ hadvance) _).andThen ?_
  intro s₂ _ h₂ hat₂
  exact .pure h₂ hat₂

theorem recoverBars_ends (candidate : ObservedMarketEvent) (k : Nat)
    (events : List ObservedMarketEvent) (h : s.Aligned cfg) (p : RecoveryPreparation)
    (hat : At cursor s) : Outcome.Ends (EngineState.Aligned cfg) (fun s' next => At next.2 s')
      (recoverBars cfg ports candidate k events s p cursor) := by
  induction events generalizing k s p cursor with
  | nil => exact .pure h hat
  | cons event rest ih =>
    refine (recoverBar_ends h candidate k p hat event).andThen ?_
    intro s' next h' hat'
    exact ih (k + 1) h' next.1 hat'

theorem recover_ends (h : s.Aligned cfg) (bar : ClosedBarPayload) (p : RecoveryPreparation)
    (hat : At cursor s) : Outcome.Ends (EngineState.Aligned cfg) (fun _ _ => True)
    (recover cfg ports s bar p cursor) := by
  unfold recover
  refine (Outcome.Ends.attempt h).andThen ?_
  rintro _ _ - ⟨rfl, -⟩
  refine (recoverBars_ends p.candidate 0 p.dispatchEvents h p hat).andThen ?_
  intro s₁ done h₁ _
  have hcomplete : Outcome.Ends (EngineState.Aligned cfg) (fun _ _ => True)
      (complete ports s₁ done.1 bar done.2 (ports.progressAt p.dispatchEvents.length)) := by
    refine (Outcome.Ends.attempt h₁).andThen ?_
    rintro _ completed - ⟨rfl, -⟩
    exact .pure ⟨h₁.persisted, h₁.own, h₁.last, h₁.chain⟩ trivial
  refine hcomplete.andThen ?_
  intro s₂ completed h₂ _
  refine (Outcome.Ends.attempt h₂).andThen ?_
  rintro _ _ - ⟨rfl, -⟩
  exact .pure h₂ trivial

theorem dispatchOne_ends (h : s.Aligned cfg) (hexp : target.experimentId = cfg.experimentId)
    (hrep : target.Represents (event, bar)) (hnext : MayFollow s target bar) :
    Outcome.Ends (EngineState.Aligned cfg) (fun _ _ => True)
        (dispatchOne ports s event bar target) := by
  refine (dispatchBar_ends h 0 hexp hrep hnext none).andThen ?_
  intro s' _ h' _
  exact .pure h' trivial

theorem dispatchAfter_ends (h : s.Aligned cfg) (candidate : ObservedMarketEvent)
    (bar : ClosedBarPayload) (hat : At cursor s) : Outcome.Ends (EngineState.Aligned cfg)
    (fun _ _ => True) (dispatchAfter cfg ports s candidate bar cursor) := by
  unfold dispatchAfter
  have h' : ∀ recoveries, EngineState.Aligned cfg { s with recoveries } :=
    fun _ => ⟨h.persisted, h.own, h.last, h.chain⟩
  refine (Outcome.Ends.attempt (h' _)).andThen ?_
  rintro _ prepared - ⟨rfl, -⟩
  cases prepared with
  | none =>
    refine (Outcome.Ends.attempt (h' _)).andThen ?_
    rintro _ target - ⟨rfl, hadvance⟩
    obtain ⟨hexp, -, hrep, -⟩ := MarketCursor.advanceClosedBar_ok hadvance
    exact dispatchOne_ends (h' _) (hexp.trans (h.own _ _ hat).1) hrep
      (mayFollow_of_advance hat hadvance)
  | some p => exact recover_ends (h' _) bar p hat

theorem dispatchClosedBar_ends (h : s.Aligned cfg) (candidate : ObservedMarketEvent)
    (bar : ClosedBarPayload) : Outcome.Ends (EngineState.Aligned cfg) (fun _ _ => True)
    (dispatchClosedBar cfg ports s candidate bar) := by
  unfold dispatchClosedBar
  split
  · exact .raise h
  · cases hc : s.cursors.get? (eventCursorKey candidate bar) with
    | none =>
      refine (Outcome.Ends.attempt h).andThen ?_
      rintro _ target - ⟨rfl, hcreate⟩
      obtain ⟨hexp, hrep⟩ := MarketCursor.create_ok hcreate
      refine dispatchOne_ends h hexp hrep ?_
      intro c hc'
      rw [hrep.key, hc] at hc'
      cases hc'
    | some cursor =>
      have hat : At cursor s := by
        rw [At, (h.own _ _ hc).2]
        exact hc
      exact dispatchAfter_ends h candidate bar hat

theorem handle_ends (h : s.Aligned cfg) (event : ObservedMarketEvent) :
    Outcome.Ends (EngineState.Aligned cfg) (fun _ _ => True) (handle cfg ports s event) := by
  refine (observeNew_ends h 0 event).andThen ?_
  intro s' new h' _
  cases event.payload with
  | closedBar bar =>
    cases new with
    | true => exact dispatchClosedBar_ends h' event bar
    | false => exact .pure h' trivial
  | _ => exact .pure h' trivial

theorem process_aligned (h : s.Aligned cfg) (event : ObservedMarketEvent) :
    (process cfg ports s event).1.Aligned cfg := by
  have hstart : EngineState.Aligned cfg { s with appended := [] } :=
    ⟨h.persisted, h.own, h.last, h.chain⟩
  have hend : (handle cfg ports { s with appended := [] } event).1.Aligned cfg :=
    (handle_ends hstart event).1
  unfold process
  generalize handle cfg ports { s with appended := [] } event = t at hend
  obtain ⟨s', result⟩ := t
  cases result <;> exact ⟨hend.persisted, hend.own, hend.last, hend.chain⟩

theorem restart_aligned (h : s.Aligned cfg) : (restart cfg s).2 = .ok () ∧
    (restart cfg s).1.Aligned cfg := by
  have hown : ¬ ∃ entry ∈ s.persistedCursors.entries,
      entry.2.experimentId ≠ cfg.experimentId ∨ entry.1 ≠ cursorKey entry.2 := by
    rintro ⟨⟨key, c⟩, hmem, hbad⟩
    rw [h.persisted] at hmem
    obtain ⟨hexp, hkey⟩ := h.own key c ((Dict.mem_entries_iff _).mp hmem)
    exact hbad.elim (fun hne => hne hexp) (fun hne => hne hkey.symm)
  unfold restart
  rw [if_neg hown]
  refine ⟨rfl, rfl, ?_, ?_, h.chain⟩
  · show ∀ key c, s.persistedCursors.get? key = some c → _
    rw [h.persisted]
    exact h.own
  · intro key
    show Option.Rel _ (s.persistedCursors.get? key) _
    rw [h.persisted]
    exact h.last key

theorem step_aligned (h : s.Aligned cfg) (i : Input) : (step cfg s i).Aligned cfg := by
  cases i with
  | process event ports => exact process_aligned h event
  | restart => exact (restart_aligned h).2

theorem empty_aligned : EngineState.empty.Aligned cfg where
  persisted := rfl
  own := fun key c hc => by cases hc
  last := fun key => .none
  chain := fun key => .nil

theorem sequences_of_chain {l : List DispatchedBar} (hchain : l.IsChain DispatchedBar.Precedes)
    (hlast : ∀ d ∈ l.getLast?, d.1.sequence.isSome) :
    ∃ first, l.map (·.1.sequence) = (List.range' first l.length).map some := by
  induction l with
  | nil => exact ⟨0, rfl⟩
  | cons a l ih =>
    cases l with
    | nil =>
      obtain ⟨n, hn⟩ := Option.isSome_iff_exists.mp (hlast a rfl)
      exact ⟨n, by simp [hn]⟩
    | cons b l =>
      rw [List.isChain_cons_cons] at hchain
      obtain ⟨⟨⟨n, ha, hb⟩, -⟩, hrest⟩ := hchain
      obtain ⟨first, hmap⟩ := ih hrest (by simpa using hlast)
      have hfirst : first = n + 1 := by
        rw [List.map_cons, List.length_cons, List.range'_succ, List.map_cons,
          List.cons.injEq, hb] at hmap
        exact (Option.some.inj hmap.1).symm
      refine ⟨n, ?_⟩
      rw [List.map_cons, hmap, ha, hfirst]
      rfl

theorem dispatches_in_order (cfg : EngineConfig) (inputs : List Input) (key : CursorKey) :
    ((run (step cfg) .empty inputs).bars key).IsChain DispatchedBar.Precedes ∧
      (∃ first, ((run (step cfg) .empty inputs).bars key).map (·.1.sequence) =
        (List.range' first ((run (step cfg) .empty inputs).bars key).length).map some) ∧
      ((run (step cfg) .empty inputs).bars key).Nodup ∧
      Option.Rel MarketCursor.Represents ((run (step cfg) .empty inputs).cursors.get? key)
        ((run (step cfg) .empty inputs).bars key).getLast? ∧
      (run (step cfg) .empty inputs).persistedCursors = (run (step cfg) .empty inputs).cursors := by
  have haligned : (run (step cfg) .empty inputs).Aligned cfg :=
    run_inv (I := EngineState.Aligned cfg) (step cfg) (fun _ i h => step_aligned h i)
      empty_aligned inputs
  generalize run (step cfg) .empty inputs = s at haligned
  have hlast : ∀ d ∈ (s.bars key).getLast?, d.1.sequence.isSome := by
    intro d hd
    have hrel := haligned.last key
    rw [show (s.bars key).getLast? = some d from hd] at hrel
    cases hc : s.cursors.get? key with
    | none => rw [hc] at hrel; cases hrel
    | some c =>
      rw [hc] at hrel
      cases hrel with
      | some h => rw [h.sequence]; rfl
  obtain ⟨first, hseq⟩ := sequences_of_chain (haligned.chain key) hlast
  refine ⟨haligned.chain key, ⟨first, hseq⟩, ?_, haligned.last key, haligned.persisted⟩
  refine List.Nodup.of_map (·.1.sequence) ?_
  rw [hseq]
  exact List.Nodup.map (Option.some_injective _) List.nodup_range'

end ClosedBarDispatchEngine

/-! ## the engine of the worker

`World.processEvent` is this engine with the ports that the worker has: its tables are those of the
database, and its dispatcher the transaction of a bar. -/

def DispatchInput.ports (i : DispatchInput) (observe dispatch : Nat → Py Unit) : EnginePorts where
  observe := observe
  dispatch := dispatch
  backfill := i.backfill
  now := i.now
  recovering := .ok ()
  progressAt := i.progressAt
  complete := .ok ()
  recovered := .ok ()

structure World.SameStreams (w : World) (s : EngineState) : Prop where
  persisted : s.persistedCursors = w.db.cursors
  recoveries : s.recoveries = w.db.recoveries
  cursors : s.cursors = w.cursors

structure World.Mirrors (w : World) (s : EngineState) : Prop extends w.SameStreams s where
  journal : s.journal = w.journal

theorem recordCursor_ok {table table' : CursorTable} (h : recordCursor table c = .ok table') :
    table' = table.set (cursorKey c) c := by
  unfold recordCursor at h
  split at h
  · simp only [updateCursor, bind_eq_ok, pure_ok_iff] at h
    obtain ⟨_, _, _, _, _, _, _, _, _, _, rfl⟩ := h
    rfl
  · cases h
    rfl

theorem recordOptionalRecovery_ok {table table' : RecoveryTable} {progress : Option RecoveryState}
    (h : Database.recordOptionalRecovery table progress = .ok table') :
    table' = progress.elim table (fun r => table.set r.recoveryId r) := by
  cases progress with
  | none =>
    cases h
    rfl
  | some r =>
    simp only [Database.recordOptionalRecovery, recordRecovery] at h
    split at h
    · simp only [updateRecovery, bind_eq_ok, pure_ok_iff] at h
      obtain ⟨_, _, _, _, _, _, rfl⟩ := h
      rfl
    · simp only [bind_eq_ok, pure_ok_iff] at h
      obtain ⟨_, _, rfl⟩ := h
      rfl

namespace ClosedBarDispatchEngine

/-- for some answers of the dispatcher the engine ends as the worker does -/
def Follows (i : DispatchInput) (w : World) (t : Turn Unit)
    (call : EnginePorts → EngineState → Call DispatchResult) : Prop :=
  ∃ dispatch, ∀ s, w.Mirrors s →
    Outcome.Alike World.Mirrors (fun _ _ => True) t (call (i.ports (fun _ => .ok ()) dispatch) s)

variable (cfg : WorkerConfig) (i : DispatchInput) (candidate event : ObservedMarketEvent)
  {w : World} {s : EngineState}

/-- a new event enters the journal, whatever the observer then makes of it -/
theorem appendJournal_observes (h : w.Mirrors s) (ports : EnginePorts) (k : Nat) :
    match w.appendJournal cfg event with
    | .error e => observeNew cfg.engine ports k s event = (s, .error e)
    | .ok none => observeNew cfg.engine ports k s event = (s, .ok false)
    | .ok (some w') => ∃ s', w'.Mirrors s' ∧
        observeNew cfg.engine ports k s event = (s', (ports.observe k).map fun _ => true) := by
  unfold World.appendJournal observeNew
  rw [← h.journal]
  cases MarketEventJournal.append cfg.engine s.journal event with
  | error e => rfl
  | ok journal =>
    cases journal with
    | none => rfl
    | some journal =>
      refine ⟨{ s with journal, appended := s.appended ++ [event] },
        ⟨⟨h.persisted, h.recoveries, h.cursors⟩, rfl⟩, ?_⟩
      cases ports.observe k <;> rfl

theorem appendRecovered_observes (h : w.Mirrors s) (ports : EnginePorts) {k : Nat}
    (hk : ports.observe k = .ok ()) :
    match w.appendRecovered cfg candidate event with
    | .error e => observeRecovered cfg.engine ports k s candidate event = (s, .error e)
    | .ok w' => ∃ s' new, w'.Mirrors s' ∧
        observeRecovered cfg.engine ports k s candidate event = (s', .ok new) := by
  unfold World.appendRecovered observeRecovered
  by_cases hid : event.identity = candidate.identity
  · simp only [if_pos hid]
    exact ⟨s, false, h, rfl⟩
  · simp only [if_neg hid]
    have happend := appendJournal_observes cfg event h ports k
    cases ha : w.appendJournal cfg event with
    | error e =>
      rw [ha] at happend
      exact happend
    | ok appended =>
      rw [ha] at happend
      cases appended with
      | none => exact ⟨s, false, h, happend⟩
      | some w' =>
        obtain ⟨s', hs', hnew⟩ := happend
        rw [hk] at hnew
        exact ⟨s', true, hs', hnew⟩

variable {cfg i event} {k : Nat} {bar : ClosedBarPayload} {target : MarketCursor}
  {progress : Option RecoveryState}

theorem dispatchBar_alike (h : w.Mirrors s) {ports : EnginePorts}
    (hk : ports.dispatch k = (w.dispatchBar cfg i k event bar target progress).2) :
    Outcome.Alike World.Mirrors (fun _ _ => True) (w.dispatchBar cfg i k event bar target progress)
      (dispatchBar ports k s event bar target progress) := by
  unfold dispatchBar
  rw [hk]
  unfold World.dispatchBar World.arrive
  cases w.observations.observeAll cfg (i.arriving k) with
  | error e => exact .error h
  | ok observations =>
    simp only [Outcome.andThen, World.commit]
    cases hd : w.db.dispatch cfg observations event bar (i.cycles k) target progress with
    | error e => exact .error ⟨⟨h.persisted, h.recoveries, h.cursors⟩, h.journal⟩
    | ok db =>
      obtain ⟨o, -, hrec⟩ := Database.dispatch_cases hd
      refine .ok ⟨⟨?_, ?_, ?_⟩, h.journal⟩ trivial
      · rw [recordCursor_ok hrec.cursors, h.persisted]
      · rw [recordOptionalRecovery_ok hrec.recoveries, h.recoveries]
      · rw [h.cursors]

variable (cfg i event k)

/-- the dispatcher of the bar answers as the transaction of the worker ends -/
theorem recoverBar_alike (w : World) (p : RecoveryPreparation) (cursor : MarketCursor) :
    ∃ answer : Py Unit, ∀ s dispatch, w.Mirrors s → dispatch k = answer →
      Outcome.Alike World.Mirrors Eq (w.recoverBar cfg i candidate k p cursor event)
        (recoverBar cfg.engine (i.ports (fun _ => .ok ()) dispatch) candidate k s p cursor
          event) := by
  refine ⟨do
    let w ← w.appendRecovered cfg candidate event
    let bar ← World.barOf event
    let target ← cursor.advanceClosedBar event bar
    let progressed ← p.recovery.recordDispatch target (i.progressAt k)
    (w.dispatchBar cfg i k event bar target (some progressed)).2, fun s dispatch h hd => ?_⟩
  unfold World.recoverBar recoverBar
  have happend :=
    appendRecovered_observes cfg candidate event h (i.ports (fun _ => .ok ()) dispatch)
    (k := k + 1) rfl
  cases ha : w.appendRecovered cfg candidate event with
  | error e =>
    rw [ha] at happend
    rw [happend]
    exact .error h
  | ok w' =>
    rw [ha] at happend hd
    obtain ⟨s', new, hs', hnew⟩ := happend
    rw [hnew, show w.attempt (.ok w') = (w, .ok w') from rfl, Outcome.ok_andThen,
      Outcome.ok_andThen]
    refine Outcome.Alike.attempt hs' fun bar hbar => ?_
    refine Outcome.Alike.attempt hs' fun target htarget => ?_
    refine Outcome.Alike.attempt hs' fun progressed hprogressed => ?_
    simp only [hbar, htarget, hprogressed, ok_bind] at hd
    refine (dispatchBar_alike hs' hd).andThen ?_
    intro w₁ s₁ _ _ h₁ _
    exact .ok h₁ rfl

theorem recoverBars_alike (events : List ObservedMarketEvent) (w : World) (p : RecoveryPreparation)
    (cursor : MarketCursor) :
    ∃ answers : Nat → Py Unit, ∀ s dispatch, w.Mirrors s → (∀ j, k ≤ j → dispatch j = answers j) →
      Outcome.Alike World.Mirrors Eq (World.recoverBars cfg i candidate k events w p cursor)
        (recoverBars cfg.engine (i.ports (fun _ => .ok ()) dispatch) candidate k events s p
          cursor) := by
  induction events generalizing k w p cursor with
  | nil => exact ⟨fun _ => .ok (), fun s dispatch h _ => .ok h rfl⟩
  | cons event rest ih =>
    obtain ⟨answer, hone⟩ := recoverBar_alike cfg i candidate event k w p cursor
    -- the bars that follow start from the world that the first one leaves
    cases hstep : w.recoverBar cfg i candidate k p cursor event with
    | mk w' result =>
    cases result with
    | error e =>
      refine ⟨fun _ => answer, fun s dispatch h hd => ?_⟩
      have hfirst := hone s dispatch h (hd k le_rfl)
      unfold World.recoverBars recoverBars
      rw [hstep] at hfirst ⊢
      generalize recoverBar _ _ _ _ _ _ _ _ = u at hfirst ⊢
      cases hfirst with
      | error hs => exact .error hs
    | ok next =>
      obtain ⟨answers, hrest⟩ := ih (k + 1) w' next.1 next.2
      refine ⟨Function.update answers k answer, fun s dispatch h hd => ?_⟩
      have hfirst := hone s dispatch h (by rw [hd k le_rfl, Function.update_self])
      unfold World.recoverBars recoverBars
      rw [hstep] at hfirst ⊢
      generalize recoverBar _ _ _ _ _ _ _ _ = u at hfirst ⊢
      cases hfirst with
      | ok hs hnext =>
        cases hnext
        refine hrest _ dispatch hs fun j hj => ?_
        rw [hd j (by omega), Function.update_of_ne (by omega)]

variable {k}

theorem completeRecovery_alike (h : w.Mirrors s) {ports : EnginePorts}
    (hk : ports.complete = .ok ()) (p : RecoveryPreparation) (cursor : MarketCursor) (t : Time) :
    Outcome.Alike World.Mirrors (fun _ _ => True) (w.commit (w.completeRecovery p bar cursor t))
      (complete ports s p bar cursor t) := by
  unfold complete World.completeRecovery
  rw [h.persisted, h.recoveries, hk]
  cases World.requireCaughtUp p bar cursor with
  | error e => exact .error h
  | ok _ =>
    cases p.recovery.complete p.batch t with
    | error e => exact .error h
    | ok completed =>
      cases orRaise (w.db.cursors.get? (cursorKey cursor))
        (PyError.gapRecoveryNotCaughtUp "recovery cursor does not exist at completion") with
      | error e => exact .error h
      | ok persisted =>
        by_cases hp : persisted ≠ cursor
        · simp only [ok_bind, raiseIf_bind_pos hp]
          exact .error h
        · simp only [ok_bind, raiseIf_bind_neg hp]
          cases recordRecovery w.db.recoveries completed with
          | error e => exact .error h
          | ok recoveries => exact .ok ⟨⟨h.persisted, rfl, h.cursors⟩, h.journal⟩ trivial

variable (w bar)

theorem recover_follows (p : RecoveryPreparation) (cursor : MarketCursor) :
    Follows i w (w.recover cfg i bar p cursor)
      fun ports s => recover cfg.engine ports s bar p cursor := by
  obtain ⟨answers, hbars⟩ := recoverBars_alike cfg i p.candidate 0 p.dispatchEvents w p cursor
  refine ⟨answers, fun s h => ?_⟩
  unfold World.recover recover
  dsimp only
  rw [show Outcome.attempt s (i.ports (fun _ => .ok ()) answers).recovering = (s, .ok ()) from rfl,
    Outcome.ok_andThen]
  refine (hbars s answers h fun _ _ => rfl).andThen ?_
  rintro w₁ s₁ done _ h₁ rfl
  refine (completeRecovery_alike h₁ rfl _ _ _).then_right ?_
  intro w₂ s₂ _ _ h₂ _
  exact .ok h₂ trivial

theorem dispatchOne_follows (target : Py MarketCursor) :
    Follows i w
      ((w.attempt target).andThen fun w target => w.dispatchBar cfg i 0 event bar target none)
      fun ports s => (Outcome.attempt s target).andThen fun s target =>
        dispatchOne ports s event bar target := by
  refine ⟨fun _ => do
    let target ← target
    (w.dispatchBar cfg i 0 event bar target none).2, fun s h => ?_⟩
  refine Outcome.Alike.attempt h fun target htarget => ?_
  refine (dispatchBar_alike h (by rw [htarget]; rfl)).then_right ?_
  intro w₁ s₁ _ _ h₁ _
  exact .ok h₁ trivial

theorem dispatchAfter_follows (cursor : MarketCursor) :
    Follows i w (w.dispatchAfter cfg i event bar cursor)
      fun ports s => dispatchAfter cfg.engine ports s event bar cursor := by
  unfold World.dispatchAfter dispatchAfter
  have hprepared : ∀ s, w.Mirrors s → ∀ dispatch, RecoveryEnv.prepare
      ⟨(i.ports (fun _ => .ok ()) dispatch).backfill, (i.ports (fun _ => .ok ()) dispatch).now,
        cfg.engine.maxRecoveryAttempts⟩ s.recoveries cursor event bar =
      (World.recoveryEnv cfg i).prepare w.db.recoveries cursor event bar := by
    intro s h _
    rw [h.recoveries]
    rfl
  generalize (World.recoveryEnv cfg i).prepare w.db.recoveries cursor event bar =
    prepared at hprepared ⊢
  obtain ⟨recoveries, result⟩ := prepared
  have hsaved : ∀ s, w.Mirrors s →
      World.Mirrors { w with db := { w.db with recoveries } } { s with recoveries } :=
    fun s h => ⟨⟨h.persisted, rfl, h.cursors⟩, h.journal⟩
  cases result with
  | error e =>
    refine ⟨fun _ => .ok (), fun s h => ?_⟩
    simp only [hprepared s h]
    exact .error (hsaved s h)
  | ok prepared =>
    -- what is left to dispatch starts from the saved recovery
    cases prepared with
    | none =>
      obtain ⟨dispatch, hone⟩ :=
        dispatchOne_follows cfg i event { w with db := { w.db with recoveries } } bar
        (cursor.advanceClosedBar event bar)
      refine ⟨dispatch, fun s h => ?_⟩
      simp only [hprepared s h]
      exact hone _ (hsaved s h)
    | some p =>
      obtain ⟨dispatch, hall⟩ :=
        recover_follows cfg i { w with db := { w.db with recoveries } } bar p cursor
      refine ⟨dispatch, fun s h => ?_⟩
      simp only [hprepared s h]
      exact hall _ (hsaved s h)

theorem dispatchClosedBar_follows :
    Follows i w (w.dispatchClosedBar cfg i event bar)
      fun ports s => dispatchClosedBar cfg.engine ports s event bar := by
  unfold World.dispatchClosedBar dispatchClosedBar
  by_cases hclosed : bar.closed = false
  · simp only [if_pos hclosed]
    exact ⟨fun _ => .ok (), fun s h => .error h⟩
  · simp only [if_neg hclosed]
    cases hc : w.cursors.get? (event.venue, event.stream, event.symbol, bar.timeframe) with
    | none =>
      obtain ⟨dispatch, hone⟩ := dispatchOne_follows cfg i event w bar
        (MarketCursor.create cfg.manifest.experimentId event bar)
      refine ⟨dispatch, fun s h => ?_⟩
      simp only [eventCursorKey, h.cursors, hc]
      exact hone s h
    | some cursor =>
      obtain ⟨dispatch, hafter⟩ := dispatchAfter_follows cfg i event w bar cursor
      refine ⟨dispatch, fun s h => ?_⟩
      simp only [eventCursorKey, h.cursors, hc]
      exact hafter s h

variable {w}

/-- an event that is no bar: neither the marks nor the funding move a stream -/
theorem observe_mirrors (h : w.Mirrors s) (before : ObservationBuffer)
    (arriving : List ObservedMarketEvent) :
    World.Mirrors ((w.arrive cfg arriving).andThen fun w _ =>
    w.commit (w.db.observe cfg before w.observations event)).1 s := by
  unfold World.arrive
  cases w.observations.observeAll cfg arriving with
  | error e => exact h
  | ok observations =>
    simp only [Outcome.andThen, World.commit]
    cases hd : w.db.observe cfg before observations event with
    | error e => exact ⟨⟨h.persisted, h.recoveries, h.cursors⟩, h.journal⟩
    | ok db =>
      have hsame : db.cursors = w.db.cursors ∧ db.recoveries = w.db.recoveries := by
        obtain rfl | ⟨_, _, _, _, _, _, hm⟩ | ⟨_, _, _, _, _, _, hf⟩ := Database.observe_cases hd
        · exact ⟨rfl, rfl⟩
        · exact ⟨hm.recorded.cursors, hm.recorded.recoveries⟩
        · rw [hf.frame]
          exact ⟨rfl, rfl⟩
      exact ⟨⟨h.persisted.trans hsame.1.symm, h.recoveries.trans hsame.2.symm, h.cursors⟩,
        h.journal⟩

/-- a new event is observed and dispatched as the worker does it -/
theorem processNew_alike (h : w.Mirrors s) {w' : World}
    (ha : w.appendJournal cfg event = .ok (some w')) :
    ∃ ports, Outcome.Alike World.Mirrors (fun _ _ => True) (w'.processNew cfg i event)
      (handle cfg.engine ports s event) := by
  have hnew := appendJournal_observes cfg event h
  rw [ha] at hnew
  unfold World.processNew handle
  cases event.payload with
  | closedBar bar =>
    obtain ⟨dispatch, hbar⟩ := dispatchClosedBar_follows cfg i event w' bar
    refine ⟨i.ports (fun _ => .ok ()) dispatch, ?_⟩
    obtain ⟨s', hs', hnew⟩ := hnew (i.ports (fun _ => .ok ()) dispatch) 0
    rw [hnew]
    exact hbar s' hs'
  | _ =>
    -- the observer answers as the transaction of the worker ends
    have hends : ∀ s', w'.Mirrors s' → _ := fun s' hs' =>
      observe_mirrors cfg event hs' w'.observations (i.arriving 0)
    dsimp only
    generalize (w'.arrive cfg (i.arriving 0)).andThen (fun w _ => w.commit
      (w.db.observe cfg w'.observations w.observations event)) = t at hends ⊢
    obtain ⟨w₁, result⟩ := t
    refine ⟨i.ports (fun _ => result) fun _ => .ok (), ?_⟩
    obtain ⟨s', hs', hnew⟩ := hnew (i.ports (fun _ => result) fun _ => .ok ()) 0
    rw [hnew]
    cases result with
    | error e => exact .error (hends s' hs')
    | ok _ => exact .ok (hends s' hs') trivial

/-- the worker's engine is `ClosedBarDispatchEngine` with some answers of its ports; after an
exception, which ends the worker, the journals may differ -/
theorem processEvent_refines (h : w.Mirrors s) :
    ∃ ports, Outcome.Alike World.SameStreams (fun _ _ => True) (w.processEvent cfg i event)
        (process cfg.engine ports s event) ∧
      ((w.processEvent cfg i event).2 = .ok () →
        (w.processEvent cfg i event).1.Mirrors (process cfg.engine ports s event).1) := by
  have h₀ : w.Mirrors { s with appended := [] } :=
    ⟨⟨h.persisted, h.recoveries, h.cursors⟩, h.journal⟩
  have hnew := appendJournal_observes cfg event h₀ (i.ports (fun _ => .ok ()) fun _ => .ok ()) 0
  unfold World.processEvent process
  cases ha : w.appendJournal cfg event with
  | error e =>
    rw [ha] at hnew
    refine ⟨i.ports (fun _ => .ok ()) fun _ => .ok (), ?_⟩
    simp only [handle, hnew]
    exact ⟨.error h₀.toSameStreams, fun hok => by cases hok⟩
  | ok appended =>
    cases appended with
    | none =>
      rw [ha] at hnew
      refine ⟨i.ports (fun _ => .ok ()) fun _ => .ok (), ?_⟩
      simp only [handle, hnew]
      cases event.payload <;> exact ⟨.ok h₀.toSameStreams trivial, fun _ => h₀⟩
    | some w' =>
      obtain ⟨ports, hall⟩ := processNew_alike cfg i event h₀ ha
      refine ⟨ports, ?_⟩
      dsimp only
      generalize w'.processNew cfg i event = t at hall ⊢
      generalize handle cfg.engine ports { s with appended := [] } event = u at hall ⊢
      cases hall with
      | ok hs _ => exact ⟨.ok ⟨hs.persisted, hs.recoveries, hs.cursors⟩ trivial,
          fun _ => ⟨⟨hs.persisted, hs.recoveries, hs.cursors⟩, hs.journal⟩⟩
      | error hs =>
        exact ⟨.error ⟨hs.persisted, hs.recoveries, hs.cursors⟩, fun hok => by cases hok⟩

end ClosedBarDispatchEngine

end Maais
