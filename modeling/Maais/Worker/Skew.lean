import Maais.Worker.Cycle

/-!
# Events of a venue whose clock is ahead

The integrity checks allow a skew of the venue clock in both directions. Cursors and books do not:
they refuse a venue time behind the observation.

* `nextCursor`  the cursor behind a bar, which exists when the venue clock is not ahead;
* `observeBook_returns_iff`  the books the buffer takes;
* `bar_taken`, `book_taken`  what one ingested and dispatched event leaves;
* `skewed_event_iff`  the events that do not halt the worker.
-/

namespace Maais
open Lib

/-- the check of `_venue_timestamp` on one source -/
def withinSkew (limit : Time) (event : ObservedMarketEvent) : Prop :=
  |event.observedAt - event.venueEventAt| ≤ limit

instance {limit : Time} {event : ObservedMarketEvent} : Decidable (withinSkew limit event) :=
  inferInstanceAs (Decidable (_ ≤ _))

/-! ## the cursor behind a bar -/

def nextCursor (experimentId : UUID) (prior : Option MarketCursor) (event : ObservedMarketEvent)
    (bar : ClosedBarPayload) (n : Nat) : MarketCursor :=
  { experimentId, venue := event.venue, stream := event.stream, symbol := event.symbol,
    timeframe := bar.timeframe, eventId := event.eventId, sequence := n,
    venueEventAt := event.venueEventAt, observedAt := event.observedAt,
    barCloseAt := bar.barCloseAt, version := prior.elim 1 (·.version + 1),
    updatedAt := event.observedAt }

/-- the bar is observed after its close, by a clock that is not behind the venue's -/
def Punctual (event : ObservedMarketEvent) (bar : ClosedBarPayload) : Prop :=
  event.venueEventAt ≤ event.observedAt ∧ bar.barCloseAt ≤ event.observedAt

section
variable {experimentId : UUID} {prior : Option MarketCursor} {event : ObservedMarketEvent}
  {bar : ClosedBarPayload} {n : Nat}

theorem nextCursor_postInit (h : Punctual event bar) :
    (nextCursor experimentId prior event bar n).postInit =
    .ok (nextCursor experimentId prior event bar n) := by
  have hahead : ¬ (event.venueEventAt > event.observedAt ∨ bar.barCloseAt > event.observedAt) :=
    not_or.mpr ⟨not_lt.mpr h.1, not_lt.mpr h.2⟩
  exact (raiseIf_bind_neg hahead).trans (raiseIf_bind_neg (lt_irrefl event.observedAt))

theorem nextCursor_ahead (h : ¬ Punctual event bar) :
    ∃ e, (nextCursor experimentId prior event bar n).postInit = .error e := by
  have hahead : event.venueEventAt > event.observedAt ∨ bar.barCloseAt > event.observedAt := by
    rcases not_and_or.mp h with h | h
    · exact .inl (not_le.mp h)
    · exact .inr (not_le.mp h)
  exact ⟨_, raiseIf_bind_pos hahead⟩

structure MarketCursor.Awaits (c : MarketCursor) (event : ObservedMarketEvent)
    (bar : ClosedBarPayload) (n : Nat) : Prop where
  follows : c.follows event bar
  sequence : n = c.sequence + 1
  barOpenAt : bar.barOpenAt = c.barCloseAt

theorem create_next (hn : event.sequence = some n) :
    MarketCursor.create experimentId event bar =
    (nextCursor experimentId none event bar n).postInit := by
  rw [MarketCursor.create, hn, orRaise_some, ok_bind]
  rfl

theorem MarketCursor.Awaits.advance {c : MarketCursor} (h : c.Awaits event bar n)
    (hclosed : bar.closed = true) (hn : event.sequence = some n) :
    c.advanceClosedBar event bar = (nextCursor c.experimentId (some c) event bar n).postInit := by
  have hclose : ¬ (n ≤ c.sequence ∨ bar.barCloseAt ≤ c.barCloseAt) := by
    have hopen := bar.open_lt
    rw [h.barOpenAt] at hopen
    exact not_or.mpr ⟨by rw [h.sequence]; omega, not_le.mpr hopen⟩
  rw [MarketCursor.advanceClosedBar, raiseIf_not_bind h.follows,
    raiseIf_bind_neg (by simp [hclosed]), hn, orRaise_some, ok_bind, raiseIf_bind_neg hclose,
    raiseIf_not_bind h.sequence, raiseIf_not_bind h.barOpenAt]
  obtain ⟨hvenue, hstream, hsymbol, htimeframe⟩ := h.follows
  rw [nextCursor, hvenue, hstream, hsymbol, htimeframe]
  rfl

theorem MarketCursor.Awaits.prepare {c : MarketCursor} (h : c.Awaits event bar n)
    (hclosed : bar.closed = true) (hn : event.sequence = some n) (env : RecoveryEnv)
    {table : RecoveryTable} (hnone : activeFor table c = []) :
    env.prepare table c event bar = (table, .ok none) := by
  have hload : loadActive table c = .ok none := by
    rw [loadActive, hnone]
    rfl
  have hseq : event.sequence.filter (fun s => c.sequence < s) = some n := by
    rw [hn, Option.filter_some_pos (by rw [h.sequence]; simp)]
  have hgap : detectClosedBarGap c event bar = .ok none := by
    rw [detectClosedBarGap, raiseIf_not_bind h.follows, raiseIf_bind_neg (by simp [hclosed]),
      raiseIf_bind_neg (by rw [h.barOpenAt]; exact lt_irrefl _), hseq, orRaise_some, ok_bind,
      if_pos ⟨h.barOpenAt, h.sequence⟩]
    rfl
  simp only [RecoveryEnv.prepare, hload, hgap]

theorem recordCursor_next {table : CursorTable}
    (hprior : table.get? (event.venue, event.stream, event.symbol, bar.timeframe) = prior)
    (hawaits : ∀ c ∈ prior, c.Awaits event bar n) :
    recordCursor table (nextCursor experimentId prior event bar n) = .ok (table.set
      (event.venue, event.stream, event.symbol, bar.timeframe)
      (nextCursor experimentId prior event bar n)) := by
  have hget : table.get? (cursorKey (nextCursor experimentId prior event bar n)) = prior := hprior
  rw [recordCursor, hget]
  cases prior with
  | none => rfl
  | some c =>
    have h := hawaits c rfl
    have hclose : c.barCloseAt < bar.barCloseAt := h.barOpenAt ▸ bar.open_lt
    have hv : (nextCursor experimentId (some c) event bar n).version = c.version + 1 := rfl
    have hs : (nextCursor experimentId (some c) event bar n).sequence = c.sequence + 1 := h.sequence
    show updateCursor table (nextCursor experimentId (some c) event bar n) c = _
    rw [updateCursor, raiseIf_bind_neg (by rw [hv]; omega), raiseIf_bind_neg (by rw [hv]; omega),
      raiseIf_bind_neg (by rw [hv]; omega), raiseIf_bind_neg (fun hne => hne.2 hs),
      raiseIf_bind_neg (fun hle => absurd hle.2 (not_le.mpr hclose))]
    rfl

end

/-! ## books -/

/-- the buffer does not read the book: it is known, or no mark stands before it -/
def ObservationBuffer.Skips (buffer : ObservationBuffer) (event : ObservedMarketEvent) : Prop :=
  (∃ e ∈ buffer.bookEvents, e.identity = event.identity) ∨
    ∀ m ∈ buffer.marks.get? event.symbol, event.observedAt < m.1.observedAt

/-- a book without a conflict of identity is taken exactly when the venue clock is not ahead, or it
is skipped -/
theorem ObservationBuffer.observeBook_returns_iff {buffer : ObservationBuffer} {capacity n : Nat}
    {event : ObservedMarketEvent} {book : OrderBookPayload} (hn : event.sequence = some n)
    (hsame : ∀ e ∈ buffer.bookEvents, e.identity = event.identity → e = event) :
    (∃ b, buffer.observeBook capacity event book = .ok b) ↔
      buffer.Skips event ∨ event.venueEventAt ≤ event.observedAt := by
  rw [ObservationBuffer.observeBook, hn, orRaise_some, ok_bind]
  cases hfind : buffer.bookEvents.find? (fun e => e.identity = event.identity) with
  | some existing =>
    have hmem := List.mem_of_find?_eq_some hfind
    have hid : existing.identity = event.identity := by simpa using List.find?_some hfind
    have hret : ∃ b, (do raiseIf (existing ≠ event) (PyError.runtimeObservationConflict
        "book identity has different content"); pure buffer : Py ObservationBuffer) = .ok b :=
      ⟨buffer, raiseIf_not_bind (hsame existing hmem hid)⟩
    exact iff_of_true hret (.inl (.inl ⟨existing, hmem, hid⟩))
  | none =>
    have hnew : ¬ ∃ e ∈ buffer.bookEvents, e.identity = event.identity := by
      rintro ⟨e, he, hid⟩
      exact absurd hid (by simpa using List.find?_eq_none.mp hfind e he)
    show (∃ b, buffer.appendBook capacity event n book = .ok b) ↔ _
    rw [ObservationBuffer.appendBook]
    cases hmark :
        (buffer.marks.get? event.symbol).filter (fun m => m.1.observedAt ≤ event.observedAt) with
    | none =>
      refine iff_of_true ⟨buffer, rfl⟩ (.inl (.inr fun m hm => not_le.mp fun hle => ?_))
      have := Option.filter_eq_none_iff.mp hmark m hm
      exact this (decide_eq_true hle)
    | some mark =>
      have hbefore : mark ∈ buffer.marks.get? event.symbol ∧
          mark.1.observedAt ≤ event.observedAt := by
        have := Option.filter_eq_some_iff.mp hmark
        exact ⟨this.1, of_decide_eq_true this.2⟩
      have hskip : ¬ buffer.Skips event := by
        rintro (h | h)
        · exact hnew h
        · exact absurd (h mark hbefore.1) (not_lt.mpr hbefore.2)
      rw [or_iff_right hskip]
      by_cases hle : event.venueEventAt ≤ event.observedAt
      · refine iff_of_true ?_ hle
        simp only [ObservationBuffer.snapshot, dif_pos hle, ok_bind]
        exact ⟨_, rfl⟩
      · refine iff_of_false ?_ hle
        rintro ⟨b, hb⟩
        simp only [ObservationBuffer.snapshot, dif_neg hle, error_bind] at hb
        cases hb

/-! ## one event through the worker -/

namespace World

section
variable {cfg : WorkerConfig} {w : World} {event : ObservedMarketEvent}
  {i : DispatchInput} {t t' : Time}

theorem arrive_nil : w.arrive cfg [] = (w, .ok ()) := by
  show (({ w with queue := w.queue ++ [] } : World), Except.ok ()) = (w, Except.ok ())
  rw [List.append_nil]

def handled (cfg : WorkerConfig) (w : World) (event : ObservedMarketEvent) (i : DispatchInput)
    (t t' : Time) :
    World :=
  run (step cfg) w [.ingest event t, .dispatch i t']

theorem handled_refused (hmode : w.mode = .running) {e : PyError}
    (he : w.observations.observe cfg event = .error e) :
    (w.handled cfg event i t t').mode = .halted := by
  have harrive : w.arrive cfg [event] = (w, .error e) := by
    rw [arrive, ObservationBuffer.observeAll, List.foldlM_cons, he]
    rfl
  have hstep : (w.step cfg (.ingest event t)).mode = .halted := by
    rw [step, if_pos hmode, harrive]
    rfl
  have hdispatch : (w.step cfg (.ingest event t)).step cfg (.dispatch i t') =
      w.step cfg (.ingest event t) :=
    if_neg (by rw [hstep]; decide)
  rw [handled, run_cons, run_cons, run_nil, hdispatch]
  exact hstep

theorem handled_observed (hmode : w.mode = .running) (hq : w.queue = []) {b : ObservationBuffer}
    (hb : w.observations.observe cfg event = .ok b) :
    w.handled cfg event i t t' =
      settle cfg ({ w with observations := b }.process cfg i event) t' fun w _ => w := by
  have harrive : w.arrive cfg [event] =
      ({ w with observations := b, queue := [event] }, .ok ()) := by
    rw [arrive, ObservationBuffer.observeAll, List.foldlM_cons, hb, hq]
    rfl
  have hstep : w.step cfg (.ingest event t) = { w with observations := b, queue := [event] } := by
    rw [step, if_pos hmode, harrive]
    rfl
  rw [handled, run_cons, run_cons, run_nil, hstep, step, if_pos (.inl hmode), dispatchNext]
  rw [hq]

/-- the health registry takes the heartbeat of a closed bar unless an earlier bar was observed after
it -/
def Alive (w : World) (event : ObservedMarketEvent) : Prop := ∀ t ∈ w.heartbeatAt,
    t ≤ event.observedAt

theorem process_book {book : OrderBookPayload} (hbook : event.payload = .orderBook book) :
    w.process cfg i event = w.processEvent cfg i event := by
  rw [process, heartbeat, hbook]

theorem process_bar {bar : ClosedBarPayload} (hbar : event.payload = .closedBar bar)
    (h : w.Alive event) :
    w.process cfg i event =
    { w with heartbeatAt := some event.observedAt }.processEvent cfg i event := by
  have hregress : ¬ ∃ t ∈ w.heartbeatAt, event.observedAt < t :=
    fun ⟨t, ht, hlt⟩ => absurd (h t ht) (not_le.mpr hlt)
  rw [process, heartbeat, hbar]
  simp only [raiseIf_bind_neg hregress]
  rfl

theorem process_regressed {bar : ClosedBarPayload} (hbar : event.payload = .closedBar bar)
    (h : ¬ w.Alive event) : ∃ e, w.process cfg i event = (w, .error e) := by
  have hregress : ∃ t ∈ w.heartbeatAt, event.observedAt < t := by
    simpa only [Alive, not_forall, exists_prop, not_le] using h
  refine ⟨.runtimeObservationConflict "runtime health observation regressed", ?_⟩
  rw [process, heartbeat, hbar]
  simp only [raiseIf_bind_pos hregress]

theorem process_new (hsym : event.symbol ∈ cfg.manifest.symbols)
    (hnew : ∀ e ∈ w.journal, e.identity ≠ event.identity) :
    let journal := MarketEventJournal.trim cfg.journalCapacity (w.journal ++ [event]) event.symbol
    w.processEvent cfg i event =
      rollbackJournal w.journal ({ w with journal }.processNew cfg i event) := by
  have hfind : w.journal.find? (fun e => e.identity = event.identity) = none :=
    List.find?_eq_none.mpr fun e he => by simpa using hnew e he
  intro journal
  have happend : w.appendJournal cfg event = .ok (some { w with journal }) := by
    have hlisted : event.symbol ∈ cfg.engine.symbols := hsym
    rw [appendJournal, MarketEventJournal.append, raiseIf_not_bind hlisted, hfind]
    rfl
  rw [processEvent, happend]

theorem book_taken (hmode : w.mode = .running) (hq : w.queue = [])
    (hsym : event.symbol ∈ cfg.manifest.symbols)
    (hnew : ∀ e ∈ w.journal, e.identity ≠ event.identity) (hi : i.arriving 0 = [])
    {book : OrderBookPayload} (hbook : event.payload = .orderBook book) :
    (w.handled cfg event i t t').mode = .running ↔
      ∃ b, w.observations.observeBook cfg.observationCapacity event book = .ok b := by
  have hobserve : w.observations.observe cfg event =
      w.observations.observeBook cfg.observationCapacity event book := by
    rw [ObservationBuffer.observe, raiseIf_not_bind hsym, hbook]
  cases hb : w.observations.observeBook cfg.observationCapacity event book with
  | error e =>
    have hhalt : (w.handled cfg event i t t').mode = .halted :=
      handled_refused hmode (hobserve.trans hb)
    refine iff_of_false (by rw [hhalt]; decide) ?_
    rintro ⟨b, hb⟩
    cases hb
  | ok b =>
    refine iff_of_true ?_ ⟨b, rfl⟩
    rw [handled_observed hmode hq (hobserve.trans hb), process_book hbook,
      process_new (w := { w with observations := b }) hsym hnew, processNew, hbook]
    show (settle cfg (rollbackJournal w.journal ((arrive cfg _ (i.arriving 0)).andThen _)) t'
      _).mode = _
    rw [hi, arrive_nil, Outcome.andThen]
    show (settle cfg (rollbackJournal w.journal (commit _ (w.db.observe cfg _ _ event))) t' _).mode
      = _
    rw [Database.observe, hbook, raiseIf_not_bind hsym]
    exact hmode

/-- the bar is the first of its stream or the one its cursor waits for, and no recovery owns the
stream -/
structure NextBar (cfg : WorkerConfig) (w : World) (event : ObservedMarketEvent)
    (bar : ClosedBarPayload) (n : Nat) : Prop where
  sequence : event.sequence = some n
  closed : bar.closed = true
  stored : w.db.cursors.get? (event.venue, event.stream, event.symbol, bar.timeframe) =
    w.cursors.get? (event.venue, event.stream, event.symbol, bar.timeframe)
  awaited : ∀ c ∈ w.cursors.get? (event.venue, event.stream, event.symbol, bar.timeframe),
    c.experimentId = cfg.manifest.experimentId ∧ c.Awaits event bar n ∧
    activeFor w.db.recoveries c = []

/-- the frame of the bar can be built, its decision cycle comes to an outcome and the outcome can be
recorded with the counterfactuals; none of these reads a time of the venue -/
def CyclePasses (cfg : WorkerConfig) (w : World) (event : ObservedMarketEvent)
    (bar : ClosedBarPayload) (input : CycleInput) : Prop :=
  ∃ o execution incidents, w.db.cycleOutcome cfg w.observations event bar input = .ok o ∧
    w.db.recordOptionalExecution cfg o.execution = .ok execution ∧
    Database.recordOptionalIncident w.db.incidents o.incident = .ok incidents

theorem CyclePasses.quarantined {bar : ClosedBarPayload} {warmup : Bool}
    (h : ∀ incident ∈ (cfg.quarantine (cfg.frameId event bar) warmup event.observedAt).incident,
      w.db.incidents.get? incident.incidentId = none ∧
        ∀ other ∈ w.db.incidents.values, other.deduplicationKey ≠ incident.deduplicationKey) :
    w.CyclePasses cfg event bar (.quarantined warmup) := by
  refine ⟨cfg.quarantine (cfg.frameId event bar) warmup event.observedAt, w.db.execution, ?_⟩
  cases hinc : (cfg.quarantine (cfg.frameId event bar) warmup event.observedAt).incident with
  | none => exact ⟨w.db.incidents, rfl, rfl, rfl⟩
  | some incident =>
    obtain ⟨hnone, hkey⟩ := h incident hinc
    refine ⟨w.db.incidents.set incident.incidentId incident, rfl, rfl, ?_⟩
    have hfree : ¬ ∃ other ∈ w.db.incidents.values, other.deduplicationKey =
        incident.deduplicationKey := by
      rintro ⟨other, hmem, heq⟩
      exact hkey other hmem heq
    rw [Database.recordOptionalIncident, recordIncident, hnone]
    exact raiseIf_bind_neg hfree

def target (cfg : WorkerConfig) (w : World) (event : ObservedMarketEvent)
    (bar : ClosedBarPayload) (n : Nat) :
    MarketCursor :=
  nextCursor cfg.manifest.experimentId
    (w.cursors.get? (event.venue, event.stream, event.symbol, bar.timeframe)) event bar n

/-- the stored cursors behind the bar -/
def advanced (cfg : WorkerConfig) (w : World) (event : ObservedMarketEvent)
    (bar : ClosedBarPayload) (n : Nat) :
    CursorTable :=
  w.db.cursors.set (event.venue, event.stream, event.symbol, bar.timeframe)
    (w.target cfg event bar n)

theorem NextBar.dispatchClosedBar {bar : ClosedBarPayload} {n : Nat}
    (h : w.NextBar cfg event bar n) :
    w.dispatchClosedBar cfg i event bar =
      (w.attempt (w.target cfg event bar n).postInit).andThen fun w target =>
      w.dispatchBar cfg i 0 event bar target none := by
  rw [World.dispatchClosedBar, if_neg (by rw [h.closed]; decide), target]
  cases hc : w.cursors.get? (event.venue, event.stream, event.symbol, bar.timeframe) with
  | none =>
    rw [← create_next h.sequence]
  | some c =>
    obtain ⟨hid, hawaits, hnone⟩ := h.awaited c hc
    show w.dispatchAfter cfg i event bar c = _
    rw [dispatchAfter, hawaits.prepare h.closed h.sequence _ hnone, ← hid,
      ← hawaits.advance h.closed h.sequence]
    rfl

theorem NextBar.dispatch_eq {bar : ClosedBarPayload} {n : Nat} (h : w.NextBar cfg event bar n)
    (input : CycleInput) :
    w.db.dispatch cfg w.observations event bar input (w.target cfg event bar n) none = (do
      let o ← w.db.cycleOutcome cfg w.observations event bar input
      let execution ← w.db.recordOptionalExecution cfg o.execution
      let incidents ← Database.recordOptionalIncident w.db.incidents o.incident
      return { w.db with execution, incidents, cursors := w.advanced cfg event bar n }) := by
  have hcursor : Database.cursorOf cfg (w.target cfg event bar n) event bar :=
    ⟨rfl, rfl, rfl, rfl, rfl, rfl, h.sequence.symm, rfl, rfl, rfl⟩
  have hrecord : recordCursor w.db.cursors (w.target cfg event bar n) =
      .ok (w.advanced cfg event bar n) :=
    recordCursor_next h.stored fun c hc => (h.awaited c hc).2.1
  rw [Database.dispatch, raiseIf_not_bind hcursor, raiseIf_bind_neg (by simp)]
  simp only [Database.recordOutcome, hrecord, ok_bind, Database.recordOptionalRecovery]

/-- the transaction of a next bar commits when its cycle passes, and moves the cursor -/
theorem NextBar.dispatch_ok {bar : ClosedBarPayload} {n : Nat} (h : w.NextBar cfg event bar n)
    {input : CycleInput} :
    (∃ db', w.db.dispatch cfg w.observations event bar input (w.target cfg event bar n) none =
        .ok db') ↔ w.CyclePasses cfg event bar input := by
  rw [h.dispatch_eq]
  simp only [bind_eq_ok, pure_ok_iff]
  constructor
  · rintro ⟨_, o, ho, execution, he, incidents, hinc, _⟩
    exact ⟨o, execution, incidents, ho, he, hinc⟩
  · rintro ⟨o, execution, incidents, ho, he, hinc⟩
    exact ⟨_, o, ho, execution, he, incidents, hinc, rfl⟩

theorem NextBar.dispatch_cursors {bar : ClosedBarPayload} {n : Nat} (h : w.NextBar cfg event bar n)
    {input : CycleInput} {db' : Database}
    (hdb : w.db.dispatch cfg w.observations event bar input (w.target cfg event bar n) none =
    .ok db') : db'.cursors = w.advanced cfg event bar n := by
  rw [h.dispatch_eq] at hdb
  simp only [bind_eq_ok, pure_ok_iff] at hdb
  obtain ⟨_, _, _, _, _, _, rfl⟩ := hdb
  rfl

theorem dispatchBar_committed {bar : ClosedBarPayload} {c : MarketCursor} (hi : i.arriving 0 = []) :
    w.dispatchBar cfg i 0 event bar c none =
      (w.commit (w.db.dispatch cfg w.observations event bar (i.cycles 0) c none)).andThen
        fun w _ => ({ w with cursors := w.cursors.set (cursorKey c) c }, .ok ()) := by
  rw [dispatchBar, hi, arrive_nil]
  rfl

theorem settle_error {α : Type} {u : World} {e : PyError} {f : World → α → World} :
    (settle cfg (u, Except.error e) t f).mode = .halted := rfl

theorem bar_taken (hmode : w.mode = .running) (hq : w.queue = [])
    (hsym : event.symbol ∈ cfg.manifest.symbols)
    (hnew : ∀ e ∈ w.journal, e.identity ≠ event.identity) (hi : i.arriving 0 = [])
    {bar : ClosedBarPayload} {n : Nat} (hbar : event.payload = .closedBar bar)
    (hnext : w.NextBar cfg event bar n) :
    ((w.handled cfg event i t t').mode = .running ∧ (w.handled cfg event i t t').db.cursors.get?
        (event.venue, event.stream, event.symbol, bar.timeframe) =
        some (w.target cfg event bar n)) ↔
      Punctual event bar ∧ w.Alive event ∧ w.CyclePasses cfg event bar (i.cycles 0) := by
  have hobserve : w.observations.observe cfg event = .ok w.observations := by
    rw [ObservationBuffer.observe, raiseIf_not_bind hsym, hbar]
    rfl
  rw [handled_observed hmode hq hobserve]
  by_cases halive : w.Alive event
  swap
  · -- the registry refuses the heartbeat before the engine sees the bar
    obtain ⟨e, he⟩ : ∃ e, w.process cfg i event = (w, .error e) := process_regressed hbar halive
    refine iff_of_false (fun h => ?_) fun h => halive h.2.1
    rw [show { w with observations := w.observations } = w from rfl, he, settle_error] at h
    cases h.1
  set u : World := { w with
    heartbeatAt := some event.observedAt,
    journal := MarketEventJournal.trim cfg.journalCapacity (w.journal ++ [event])
      event.symbol } with hu
  have hnextU : u.NextBar cfg event bar n :=
    ⟨hnext.sequence, hnext.closed, hnext.stored, hnext.awaited⟩
  have hrun : { w with observations := w.observations }.process cfg i event =
      rollbackJournal w.journal
        ((u.attempt (w.target cfg event bar n).postInit).andThen fun w target =>
          w.dispatchBar cfg i 0 event bar target none) := by
    rw [process_bar (w := { w with observations := w.observations }) hbar halive,
      process_new (w := { w with heartbeatAt := some event.observedAt }) hsym hnew,
      processNew, hbar]
    show rollbackJournal w.journal (u.dispatchClosedBar cfg i event bar) = _
    rw [hnextU.dispatchClosedBar]
    rfl
  rw [hrun]
  by_cases hp : Punctual event bar
  swap
  · obtain ⟨e, he⟩ : ∃ e, (w.target cfg event bar n).postInit = .error e := nextCursor_ahead hp
    refine iff_of_false (fun h => ?_) fun h => hp h.1
    rw [he] at h
    cases h.1
  have hstep : ((u.attempt (w.target cfg event bar n).postInit).andThen
      fun w target => w.dispatchBar cfg i 0 event bar target none) =
        (u.commit
          (w.db.dispatch cfg w.observations event bar (i.cycles 0) (w.target cfg event bar n)
          none)).andThen fun v _ =>
            let cursors :=
              v.cursors.set (cursorKey (w.target cfg event bar n)) (w.target cfg event bar n)
            ({ v with cursors }, .ok ()) := by
    rw [show (w.target cfg event bar n).postInit =
      .ok (w.target cfg event bar n) from nextCursor_postInit hp]
    exact dispatchBar_committed (w := u) hi
  rw [hstep, ← hnext.dispatch_ok]
  cases hdb :
      w.db.dispatch cfg w.observations event bar (i.cycles 0) (w.target cfg event bar n) none with
  | error e =>
    refine iff_of_false (fun h => nomatch h.1) ?_
    rintro ⟨_, _, db', hdb'⟩
    cases hdb'
  | ok db' =>
    refine iff_of_true ⟨hmode, ?_⟩ ⟨hp, halive, db', rfl⟩
    show db'.cursors.get? _ = _
    rw [hnext.dispatch_cursors hdb, advanced, Dict.get?_set_self]

/-- **the events that do not halt the worker**: a book when the venue clock is not ahead or the book
is skipped anyway, the next bar of a stream when neither its venue time nor its close is ahead of
the observation, no other bar was observed after it and its cycle passes -/
theorem skewed_event_iff (cfg : WorkerConfig) (w : World) (event : ObservedMarketEvent)
    (i : DispatchInput) (t t' : Time) (n : Nat) (hmode : w.mode = .running) (hq : w.queue = [])
    (hsym : event.symbol ∈ cfg.manifest.symbols)
    (hnew : ∀ e ∈ w.journal, e.identity ≠ event.identity) (hi : i.arriving 0 = [])
    (hn : event.sequence = some n) : (∀ book, event.payload = .orderBook book →
      (∀ e ∈ w.observations.bookEvents, e.identity = event.identity → e = event) →
      ((w.handled cfg event i t t').mode = .running ↔
        w.observations.Skips event ∨ event.venueEventAt ≤ event.observedAt)) ∧
    (∀ bar, event.payload = .closedBar bar → w.NextBar cfg event bar n →
      (((w.handled cfg event i t t').mode = .running ∧
        (w.handled cfg event i t t').db.cursors.get?
          (event.venue, event.stream, event.symbol, bar.timeframe) =
          some (w.target cfg event bar n)) ↔
        (event.venueEventAt ≤ event.observedAt ∧ bar.barCloseAt ≤ event.observedAt) ∧
          w.Alive event ∧ w.CyclePasses cfg event bar (i.cycles 0))) := by
  constructor
  · intro book hbook hsame
    rw [book_taken hmode hq hsym hnew hi hbook]
    exact ObservationBuffer.observeBook_returns_iff hn hsame
  · intro bar hbar hnext
    exact bar_taken hmode hq hsym hnew hi hbar hnext

end

end World

/-! ## a venue clock that is ahead -/

namespace Demo

def readyWorld : World :=
  run (World.step config) world
    (started ++ [.ingest (mark 10 99) 10, dispatch (.quarantined true) 11])

def skewed (event : ObservedMarketEvent) (ahead : Nat) : ObservedMarketEvent :=
  { event with venueEventAt := event.venueEventAt + ahead }

def warmupInput (t : Time) : DispatchInput :=
  ⟨fun _ => [], fun _ => .quarantined true, fun _ => .ok [], fun _ => t, fun _ => t⟩

/-- A second of skew is allowed.  A microsecond is enough to halt the worker, on a bar and on a
book. -/
theorem skewed_halts :
    (withinSkew 1000000 (skewed (bar 0) 1) ∧
      (readyWorld.handled config (skewed (bar 0) 1) (warmupInput 61) 60 61).mode = .halted ∧
      (readyWorld.handled config (skewed (bar 0) 1)
        (warmupInput 61) 60 61).db.experiment.failureReason =
        some "paper_worker:ValueError:cursor observation cannot precede venue event or bar close" ∧
      (readyWorld.handled config (skewed (bar 0) 1) (warmupInput 61) 60 61).db.cursors = .empty) ∧
    withinSkew 1000000 (skewed (book 70 99) 1) ∧
      (readyWorld.handled config (skewed (book 70 99) 1) (warmupInput 71) 70 71).mode = .halted ∧
      (readyWorld.handled config (skewed (book 70 99) 1)
        (warmupInput 71) 70 71).db.experiment.failureReason =
        some "paper_worker:ValueError:venue_event_at cannot follow observed_at" := by
  decide +kernel

theorem skewed_event_iff_punctual :
    (readyWorld.handled config (bar 0) (warmupInput 61) 60 61).mode = .running ∧
      ∃ c, (readyWorld.handled config (bar 0) (warmupInput 61) 60 61).db.cursors.get?
        ("binance", "bar", "BTCUSDT", "1m") = some c := by
  have hbar :=
    (World.skewed_event_iff config readyWorld (bar 0) (warmupInput 61) 60 61 0 (by decide +kernel)
    (by decide +kernel) (by decide +kernel) (by decide +kernel) rfl rfl).2 ⟨"1m", 0, 60,
    true, by decide, by decide⟩ rfl ⟨rfl, rfl, by decide +kernel, ?_⟩
  · have halive : readyWorld.Alive (bar 0) := by
      intro t ht
      have hnone : readyWorld.heartbeatAt = none := by decide +kernel
      exact absurd (hnone.symm.trans ht) (by simp)
    obtain ⟨hrunning, hcursor⟩ :=
      hbar.mpr ⟨⟨by decide, by decide⟩, halive, .quarantined (fun _ h => nomatch h)⟩
    exact ⟨hrunning, _, hcursor⟩
  · intro c hc
    have hnone : readyWorld.cursors.get? ("binance", "bar", "BTCUSDT", "1m") =
      none := by decide +kernel
    exact absurd (hnone.symm.trans hc) (by simp)

end Demo

end Maais
