import Maais.Market.GapRecovery

/-!
# What a recovery does to its cursor and to its stored states

`validate_backfill` compares the open times and the sequences of the bars with those of the gap, and
never looks at where a bar closes; `advance_closed_bar` wants every bar to open where the one before
it closed.

* `advance_run_iff`  the bars of a valid batch and the candidate take the cursor to the candidate
  exactly when every bar closes one interval after it opens;
* `RecoveryEnv.prepareLog`  the backfill calls of `prepare` and the states it saves, in order;
* `RecoveryEnv.prepare_history`  their number, and the history the states form.
-/

namespace Maais
open Lib

/-! ## the bars of a batch, through the cursor -/

def ObservedMarketEvent.InTime (event : ObservedMarketEvent) (bar : ClosedBarPayload) : Prop :=
  event.venueEventAt ≤ event.observedAt ∧ bar.barCloseAt ≤ event.observedAt

namespace MarketCursor

/-- `advance_closed_bar`, with the check of the payload -/
def advance (c : MarketCursor) (event : ObservedMarketEvent) : Py MarketCursor :=
  match event.payload with
  | .closedBar bar => c.advanceClosedBar event bar
  | _ => .error (.valueError "cursor can advance only from a closed-bar event")

def movedTo (c : MarketCursor) (event : ObservedMarketEvent) (bar : ClosedBarPayload) :
    MarketCursor :=
  { c with
    eventId := event.eventId, sequence := c.sequence + 1, venueEventAt := event.venueEventAt,
    observedAt := event.observedAt, barCloseAt := bar.barCloseAt, version := c.version + 1,
    updatedAt := event.observedAt }

theorem advanceClosedBar_eq_ok {c c' : MarketCursor} {event : ObservedMarketEvent}
    {bar : ClosedBarPayload} : c.advanceClosedBar event bar = .ok c' ↔
      c.follows event bar ∧ bar.closed = true ∧ event.sequence = some (c.sequence + 1) ∧
        bar.barOpenAt = c.barCloseAt ∧ event.InTime bar ∧ c' = c.movedTo event bar := by
  simp only [advanceClosedBar, postInit, bind_eq_ok, raiseIf_eq_ok, orRaise_eq_ok, pure_eq_ok,
    Except.ok.injEq, ne_eq, not_not, Bool.not_eq_false, not_or, not_le, not_lt,
    ObservedMarketEvent.InTime]
  constructor
  · rintro ⟨_, hf, _, hc, s, hs, _, _, _, rfl, _, ho, _, ht, _, _, rfl⟩
    exact ⟨hf, hc, hs, ho, ht, rfl⟩
  · rintro ⟨hf, hc, hs, ho, ht, rfl⟩
    refine ⟨(), hf, (), hc, _, hs, (), ⟨Nat.lt_succ_self _, ?_⟩, (), rfl, (), ho, (), ht,
      (), le_rfl, rfl⟩
    rw [← ho]
    exact bar.open_lt

structure Stands (c : MarketCursor) (event : ObservedMarketEvent)
    (bar : ClosedBarPayload) : Prop where
  eventId : c.eventId = event.eventId
  sequence : some c.sequence = event.sequence
  venueEventAt : c.venueEventAt = event.venueEventAt
  observedAt : c.observedAt = event.observedAt
  barCloseAt : c.barCloseAt = bar.barCloseAt

end MarketCursor

def GapRange.Consecutive (gap : GapRange) : Nat → Time → List ObservedMarketEvent → Prop
  | _, _, [] => True
  | s, t, event :: events => (∃ bar, event.payload = .closedBar bar ∧ bar.closed = true ∧
      (event.venue = gap.venue ∧ event.stream = gap.stream ∧ event.symbol = gap.symbol ∧
        bar.timeframe = gap.timeframe) ∧ event.sequence = some s ∧ bar.barOpenAt = t) ∧
      gap.Consecutive (s + 1) (t + gap.interval) events

def GapRange.Closes (gap : GapRange) (events : List ObservedMarketEvent) : Prop :=
  ∀ event ∈ events, ∀ bar, event.payload = .closedBar bar →
    bar.barCloseAt = bar.barOpenAt + gap.interval

theorem backfillBar_bar {gap : GapRange} {e : ObservedMarketEvent} {b : Time × Nat}
    (h : backfillBar gap e = .ok b) : ∃ bar, e.payload = .closedBar bar ∧ bar.closed = true ∧
      (e.venue = gap.venue ∧ e.stream = gap.stream ∧ e.symbol = gap.symbol ∧
      bar.timeframe = gap.timeframe) ∧ e.sequence = some b.2 ∧ bar.barOpenAt = b.1 := by
  unfold backfillBar at h
  split at h
  · rename_i bar hp
    simp only [bind_eq_ok, raiseIf_eq_ok, orRaise_eq_ok, pure_ok_iff, not_not,
      Bool.not_eq_false] at h
    obtain ⟨_, hid, _, hc, s, hs, rfl⟩ := h
    exact ⟨bar, hp, hc, hid, hs, rfl⟩
  · cases h

variable {events : List ObservedMarketEvent}

theorem consecutive_of_bars {gap : GapRange} {bars : List (Time × Nat)}
    (h : List.Forall₂ (fun e b => backfillBar gap e = .ok b) events bars) {n s : Nat} {t : Time}
    (ht : bars.map (·.1) = (List.range n).map (fun i : Nat => t + gap.interval * (i : Int)))
    (hs : bars.map (·.2) = List.range' s n) : gap.Consecutive s t events := by
  induction h generalizing n s t with
  | nil => trivial
  | @cons e b events bars hb _ ih =>
    cases n with
    | zero => simp at hs
    | succ n =>
      rw [List.map_cons, List.range'_succ, List.cons.injEq] at hs
      rw [List.map_cons, List.range_succ_eq_map, List.map_cons, List.map_map, List.cons.injEq] at ht
      obtain ⟨bar, hp, hc, hid, hq, ho⟩ := backfillBar_bar hb
      refine ⟨⟨bar, hp, hc, hid, hs.1 ▸ hq, ?_⟩, ih ?_ hs.2⟩
      · rw [ho, ht.1, Nat.cast_zero, mul_zero, add_zero]
      · rw [ht.2]
        refine List.map_congr_left fun i _ => ?_
        show t + gap.interval * ((i + 1 : Nat) : Int) = t + gap.interval + gap.interval * (i : Int)
        push_cast
        ring

theorem validateBackfill_consecutive {gap : GapRange} {batch : BackfillBatch}
    (h : validateBackfill gap events = .ok batch) :
    batch.events = events ∧ gap.Consecutive gap.startSequence gap.startOpenAt events := by
  simp only [validateBackfill, bind_eq_ok, raiseIf_eq_ok, pure_ok_iff, ne_eq, not_not] at h
  obtain ⟨_, _, bars, hb, _, _, _, _, _, ht, _, hs, rfl⟩ := h
  refine ⟨rfl, consecutive_of_bars (mapM_eq_ok.mp hb) ht ?_⟩
  rw [hs, GapRange.missingSequences, ← gap.missingCount_eq]

section
variable {gap : GapRange} {candidate : ObservedMarketEvent} {bar : ClosedBarPayload}
  {c : MarketCursor}

theorem advance_of_payload {event : ObservedMarketEvent} {b : ClosedBarPayload}
    (h : event.payload = .closedBar b) : c.advance event = c.advanceClosedBar event b := by
  simp only [MarketCursor.advance, h]

variable {events : List ObservedMarketEvent}

/-- the bar behind the consecutive ones opens at `t`, or the first of them does -/
theorem opens_of_advance {s : Nat} {t : Time} {c' : MarketCursor}
    (hcons : gap.Consecutive s t events) (hbar : candidate.payload = .closedBar bar)
    (hopen : bar.barOpenAt = t + gap.interval * (events.length : Int))
    (h : (events ++ [candidate]).foldlM MarketCursor.advance c = .ok c') : c.barCloseAt = t := by
  cases events with
  | nil =>
    simp only [List.nil_append, List.foldlM_cons, bind_eq_ok, advance_of_payload hbar,
      MarketCursor.advanceClosedBar_eq_ok] at h
    obtain ⟨_, ⟨_, _, _, ho, _⟩, _⟩ := h
    rw [← ho, hopen, List.length_nil, Nat.cast_zero, mul_zero, add_zero]
  | cons event events =>
    obtain ⟨⟨b, hp, _, _, _, ht⟩, _⟩ := hcons
    simp only [List.cons_append, List.foldlM_cons, bind_eq_ok, advance_of_payload hp,
      MarketCursor.advanceClosedBar_eq_ok] at h
    obtain ⟨_, ⟨_, _, _, ho, _⟩, _⟩ := h
    rw [← ho, ht]

/-- **consecutive bars and the candidate behind them**, from a cursor in front of them -/
theorem fold_advance_iff (hbar : candidate.payload = .closedBar bar) (hclosed : bar.closed = true)
    {s : Nat} {t : Time} (hcons : gap.Consecutive s t events)
    (htime : ∀ event ∈ events, ∀ b, event.payload = .closedBar b → event.InTime b)
    (hs : s = c.sequence + 1) (ht : t = c.barCloseAt) (hgap : gap.ofStream c)
    (hf : c.follows candidate bar) (hseq : candidate.sequence = some (s + events.length))
    (hopen : bar.barOpenAt = t + gap.interval * (events.length : Int)) :
    (∃ c', (events ++ [candidate]).foldlM MarketCursor.advance c = .ok c' ∧
        c'.Stands candidate bar) ↔ gap.Closes events ∧ candidate.InTime bar := by
  induction events generalizing c s t with
  | nil =>
    simp only [List.nil_append, List.foldlM_cons, List.foldlM_nil, bind_eq_ok,
      advance_of_payload hbar, MarketCursor.advanceClosedBar_eq_ok, pure_ok_iff]
    constructor
    · rintro ⟨_, ⟨_, ⟨_, _, _, _, hin, _⟩, _⟩, _⟩
      exact ⟨fun _ h => absurd h List.not_mem_nil, hin⟩
    · rintro ⟨_, hin⟩
      rw [List.length_nil, Nat.add_zero, hs] at hseq
      rw [List.length_nil, Nat.cast_zero, mul_zero, add_zero, ht] at hopen
      exact ⟨_, ⟨_, ⟨hf, hclosed, hseq, hopen, hin, rfl⟩, rfl⟩, rfl, hseq.symm, rfl, rfl, rfl⟩
  | cons event events ih =>
    obtain ⟨⟨b, hp, hc, hid, hq, ho⟩, hrest⟩ := hcons
    have hfirst : c.advance event = .ok (c.movedTo event b) := by
      rw [advance_of_payload hp, MarketCursor.advanceClosedBar_eq_ok]
      refine ⟨⟨hid.1.trans hgap.1, hid.2.1.trans hgap.2.1, hid.2.2.1.trans hgap.2.2.1,
        hid.2.2.2.trans hgap.2.2.2⟩, hc, hs ▸ hq, ho.trans ht,
        htime event List.mem_cons_self b hp, rfl⟩
    have hnext : bar.barOpenAt = t + gap.interval + gap.interval * (events.length : Int) := by
      rw [hopen, List.length_cons]
      push_cast
      ring
    have hcloses : gap.Closes (event :: events) ↔ b.barCloseAt = t + gap.interval ∧
        gap.Closes events := by
      simp only [GapRange.Closes, List.forall_mem_cons, hp, MarketPayload.closedBar.injEq,
        forall_eq', ho]
    rw [List.cons_append, List.foldlM_cons, hfirst, ok_bind, hcloses, and_assoc]
    by_cases hb : b.barCloseAt = t + gap.interval
    · rw [and_iff_right hb]
      refine ih hrest (fun e he => htime e (List.mem_cons_of_mem _ he)) ?_ hb.symm hgap hf ?_ hnext
      · exact congrArg (· + 1) hs
      · rw [hseq, List.length_cons, Nat.add_assoc, Nat.add_comm 1]
    · -- the bar behind this one does not open where this one closes
      refine iff_of_false ?_ fun h => hb h.1
      rintro ⟨c', h, _⟩
      exact hb (opens_of_advance hrest hbar hnext h)

end

theorem detectClosedBarGap_eq_some {cursor : MarketCursor} {candidate : ObservedMarketEvent}
    {bar : ClosedBarPayload} {gap : GapRange}
    (h : detectClosedBarGap cursor candidate bar = .ok (some gap)) : cursor.follows candidate bar ∧
      bar.closed = true ∧ gap.ofStream cursor ∧ gap.startSequence = cursor.sequence + 1 ∧
      gap.startOpenAt = cursor.barCloseAt ∧ candidate.sequence = some gap.endSequenceExclusive ∧
      bar.barOpenAt = gap.endOpenAtExclusive := by
  simp only [detectClosedBarGap, bind_eq_ok, raiseIf_eq_ok, orRaise_eq_ok, not_not,
    Bool.not_eq_false, Option.filter_eq_some_iff] at h
  obtain ⟨_, hf, _, hc, _, _, s, ⟨hs, _⟩, h⟩ := h
  split at h
  · cases h
  · simp only [bind_eq_ok, raiseIf_eq_ok, pure_ok_iff, Option.some.injEq] at h
    obtain ⟨_, _, g, hg, rfl⟩ := h
    unfold GapRange.make at hg
    split_ifs at hg
    cases hg
    exact ⟨hf, hc, ⟨rfl, rfl, rfl, rfl⟩, rfl, rfl, hs, rfl⟩

theorem advance_run_iff (cursor : MarketCursor) (candidate : ObservedMarketEvent)
    (bar : ClosedBarPayload) (hbar : candidate.payload = .closedBar bar) (gap : GapRange)
    (hgap : detectClosedBarGap cursor candidate bar = .ok (some gap))
    (events : List ObservedMarketEvent) (batch : BackfillBatch)
    (hbatch : validateBackfill gap events = .ok batch)
    (htime : ∀ event ∈ events, ∀ b, event.payload = .closedBar b → event.InTime b) :
    (∃ c, (batch.events ++ [candidate]).foldlM MarketCursor.advance cursor = .ok c ∧
        c.Stands candidate bar) ↔ gap.Closes events ∧ candidate.InTime bar := by
  obtain ⟨hf, hclosed, hstream, hstart, hopen, hseq, hend⟩ := detectClosedBarGap_eq_some hgap
  obtain ⟨hevents, hcons⟩ := validateBackfill_consecutive hbatch
  have hlength : events.length = gap.endSequenceExclusive - gap.startSequence := by
    have h := congrArg List.length (validateBackfill_eq hbatch).2.1
    simpa [GapRange.missingSequences] using h
  have hlt := gap.sequence_lt
  rw [hevents]
  refine fold_advance_iff hbar hclosed hcons htime hstart hopen hstream hf ?_ ?_
  · rw [hseq, hlength, Nat.add_sub_cancel' hlt.le]
  · rw [hend, ← gap.openTime_end, GapRange.openTime, hlength, Nat.cast_sub hlt.le]

def lateClose : ObservedMarketEvent :=
  { minuteEvent 6 with
    observedAt := 1000,
    payload := .closedBar
      { timeframe := "1m", barOpenAt := 360, barCloseAt := 450, closed := true,
        timeframe_ne := minuteBar_timeframe_ne, open_lt := by decide } }

theorem minuteEvent_inTime (k : Nat) (b : ClosedBarPayload)
    (h : (minuteEvent k).payload = .closedBar b) : (minuteEvent k).InTime b := by
  cases h
  exact ⟨Int.le_of_lt (Int.lt_succ _), Int.le_of_lt (Int.lt_succ _)⟩

/-- the late bar is accepted as a backfill, and the cursor stops behind it -/
theorem lateClose_stops :
    detectClosedBarGap cursorFive (minuteEvent 8) (minuteBar 8) = .ok (some gapSix) ∧
      validateBackfill gapSix [lateClose, minuteEvent 7] =
      .ok ⟨gapSix, [lateClose, minuteEvent 7]⟩ ∧
      (∀ event ∈ [lateClose, minuteEvent 7, minuteEvent 8], ∀ b, event.payload = .closedBar b →
        event.InTime b) ∧
        [lateClose, minuteEvent 7, minuteEvent 8].foldlM MarketCursor.advance cursorFive =
        .error (.valueError "cursor bar gap requires recovery") := by
  refine ⟨by decide +kernel, by decide +kernel, ?_, by decide +kernel⟩
  simp only [List.forall_mem_cons]
  refine ⟨fun b h => ?_, minuteEvent_inTime 7, minuteEvent_inTime 8,
    fun _ h => absurd h List.not_mem_nil⟩
  cases h
  exact ⟨by decide, by decide⟩

theorem minuteBars_advance :
    ∃ c, [minuteEvent 6, minuteEvent 7, minuteEvent 8].foldlM MarketCursor.advance cursorFive =
      .ok c ∧ c.Stands (minuteEvent 8) (minuteBar 8) := by
  refine (advance_run_iff cursorFive (minuteEvent 8) (minuteBar 8) rfl gapSix (by decide +kernel)
    [minuteEvent 6, minuteEvent 7] ⟨gapSix, [minuteEvent 6, minuteEvent 7]⟩ (by decide +kernel)
    ?_).mpr ⟨?_, minuteEvent_inTime 8 _ rfl⟩
  · simp only [List.forall_mem_cons]
    exact ⟨minuteEvent_inTime 6, minuteEvent_inTime 7, fun _ h => absurd h List.not_mem_nil⟩
  · simp only [GapRange.Closes, List.forall_mem_cons]
    refine ⟨fun b h => ?_, fun b h => ?_, fun _ h => absurd h List.not_mem_nil⟩
    all_goals
      cases h
      rfl

/-! ## the calls of a recovery and the states it saves -/

structure RecoveryLog where
  saves : List RecoveryState
  /-- what the backfill calls came to: an exception, an invalid batch, or a batch -/
  calls : List (Except BackfillError BackfillBatch)

namespace RecoveryEnv

section
variable (env : RecoveryEnv)

def begins (r q : RecoveryState) : List RecoveryState := if r.status = .detected then [q] else []

/-- what `attempts` saves and calls, by the same recursion -/
def attemptsLog : Nat → Nat → Nat → RecoveryTable → RecoveryState → RecoveryLog
  | 0, _, _, _, _ => ⟨[], []⟩
  | fuel + 1, call, tick, table, r =>
    match env.begun tick table r with
    | .error _ => ⟨[], []⟩
    | .ok (table, q, tick) =>
      let begins := begins r q
      match env.fetch q.gap call with
      | .ok batch => ⟨begins, [.ok batch]⟩
      | .error e =>
        if env.maxAttempts ≤ q.attempt then
          match saved table (q.fail e.reason (env.now tick)) with
          | .error _ => ⟨begins, [.error e]⟩
          | .ok (_, f) => ⟨begins ++ [f], [.error e]⟩
        else
          match saved table (q.retry e.reason (env.now tick)) with
          | .error _ => ⟨begins, [.error e]⟩
          | .ok (table, s) =>
            let rest := attemptsLog fuel (call + 1) (tick + 1) table s
            ⟨begins ++ s :: rest.saves, .error e :: rest.calls⟩

def resumeLog (tick : Nat) (table : RecoveryTable) (r : RecoveryState) : RecoveryLog :=
  if r.status = .completed then ⟨[], []⟩
  else if r.status = .failed then ⟨[], []⟩
  else env.attemptsLog (env.callsLeft r) 0 tick table r

def detectedLog (table : RecoveryTable) (cursor : MarketCursor) (gap : GapRange) : RecoveryLog :=
  match table.get? (recoveryIdForGap gap) with
  | some r =>
    if r.gap ≠ gap ∨ r.experimentId ≠ cursor.experimentId then ⟨[], []⟩ else env.resumeLog 0 table r
  | none =>
    let r := RecoveryState.create (recoveryIdForGap gap) cursor.experimentId gap (env.now 0)
    match saved table (.ok r) with
    | .error _ => ⟨[], []⟩
    | .ok (table, r) =>
      let rest := env.resumeLog 1 table r
      ⟨r :: rest.saves, rest.calls⟩

def prepareLog (table : RecoveryTable) (cursor : MarketCursor) (candidate : ObservedMarketEvent)
    (bar : ClosedBarPayload) : RecoveryLog :=
  match loadActive table cursor with
  | .error _ => ⟨[], []⟩
  | .ok (some r) =>
    match requireActiveCursorMatches r cursor with
    | .error _ => ⟨[], []⟩
    | .ok _ => env.resumeLog 0 table r
  | .ok none =>
    match detectClosedBarGap cursor candidate bar with
    | .error _ => ⟨[], []⟩
    | .ok none => ⟨[], []⟩
    | .ok (some gap) => env.detectedLog table cursor gap

end
end RecoveryEnv

def RecoveryTable.saveAll (table : RecoveryTable) (saves : List RecoveryState) : RecoveryTable :=
  saves.foldl (fun t q => t.set q.recoveryId q) table

def RecoveryState.Follows (r q : RecoveryState) : Prop :=
  r.Advances q ∧ ((r.status = .detected ∧ q.status = .backfilling ∧ q.attempt = r.attempt + 1) ∨
    (r.status = .backfilling ∧ (q.status = .detected ∨ q.status = .failed) ∧ q.attempt = r.attempt))

namespace RecoveryEnv
variable {env : RecoveryEnv} {table : RecoveryTable} {r : RecoveryState}

/-- what the loop does from an active recovery, with the calls it has left -/
structure Told (env : RecoveryEnv) (table : RecoveryTable) (r : RecoveryState) (call : Nat)
    (log : RecoveryLog) (out : RecoveryTable × Py RecoveryPreparation) : Prop where
  written : out.1 = table.saveAll log.saves
  ends : out.2 ≠ .error (.runtimeError "out of attempts")
  calls_pos : 1 ≤ log.calls.length
  calls_le : log.calls.length ≤ env.callsLeft r
  calls_eq : log.calls = (List.range' call log.calls.length).map (env.fetch r.gap)
  chain : List.IsChain RecoveryState.Follows (r :: log.saves)
  attempt_le : ∀ q ∈ log.saves, q.attempt ≤ max (nextAttempt r) env.maxAttempts
  failed_iff : (∃ f ∈ log.saves.getLast?, f.status = .failed) ↔ ∀ x ∈ log.calls, ∃ e, x = .error e

variable {q : RecoveryState} {table' : RecoveryTable}

theorem saved_eq_ok {x : Py RecoveryState}
    (h : saved table x = .ok (table', q)) : x = .ok q ∧ table' = table.set q.recoveryId q := by
  simp only [saved, bind_eq_ok, pure_ok_iff, Prod.mk.injEq] at h
  obtain ⟨q', hx, t, ht, rfl, rfl⟩ := h
  refine ⟨hx, ?_⟩
  unfold recordRecovery updateRecovery at ht
  split at ht
  · simp only [bind_eq_ok, pure_ok_iff] at ht
    obtain ⟨_, _, _, _, _, _, rfl⟩ := ht
    rfl
  · simp only [bind_eq_ok, pure_ok_iff] at ht
    obtain ⟨_, _, rfl⟩ := ht
    rfl

theorem begun_eq {tick tick' : Nat} (h : env.begun tick table r = .ok (table', q, tick')) :
    table' = table.saveAll (begins r q) ∧ ∀ l, List.IsChain RecoveryState.Follows (q :: l) →
      List.IsChain RecoveryState.Follows (r :: (begins r q ++ l)) := by
  unfold begun at h
  unfold begins
  split_ifs at h ⊢ with hd
  · simp only [bind_eq_ok, pure_ok_iff, Prod.mk.injEq] at h
    obtain ⟨⟨t, q'⟩, hs, rfl, rfl, _⟩ := h
    obtain ⟨hq, rfl⟩ := saved_eq_ok hs
    refine ⟨rfl, fun l hl => List.isChain_cons_cons.mpr ⟨?_, hl⟩⟩
    simp only [RecoveryState.beginBackfill, bind_eq_ok, RecoveryState.advance] at hq
    obtain ⟨_, _, hq⟩ := hq
    split_ifs at hq
    cases hq
    exact ⟨⟨rfl, rfl, rfl, rfl, rfl, rfl⟩, Or.inl ⟨hd, rfl, rfl⟩⟩
  · cases h
    exact ⟨rfl, fun l hl => hl⟩

theorem postInit_ne_exhausted (p : RecoveryPreparation) (bar : ClosedBarPayload) :
    p.postInit bar ≠ .error (.runtimeError "out of attempts") := by
  intro h
  unfold RecoveryPreparation.postInit raiseIf at h
  split_ifs at h <;> cases h

theorem begins_last {r : RecoveryState} (hq : q.status = .backfilling) :
    ¬ ∃ f ∈ (begins r q).getLast?, f.status = .failed := by
  unfold begins
  split_ifs <;> simp [hq]

theorem begins_attempt {r p : RecoveryState} (hq : q.attempt = nextAttempt r)
    (hp : p ∈ begins r q) : p.attempt = nextAttempt r := by
  unfold begins at hp
  split_ifs at hp
  · rw [List.mem_singleton.mp hp, hq]
  · cases hp

theorem saveAll_append (table : RecoveryTable) (a b : List RecoveryState) :
    table.saveAll (a ++ b) = (table.saveAll a).saveAll b :=
  List.foldl_append

theorem attempts_told (hmono : Monotone env.now) (candidate : ObservedMarketEvent)
    (bar : ClosedBarPayload) {fuel call tick : Nat} (hact : r.status.active)
    (hr : table.get? r.recoveryId = some r) (ht : r.changedAt ≤ env.now tick)
    (hfuel : env.callsLeft r = fuel) :
    Told env table r call (env.attemptsLog fuel call tick table r)
      (env.attempts candidate bar fuel call tick table r) := by
  induction fuel generalizing call tick table r with
  | zero => exact absurd hfuel (Nat.succ_ne_zero _)
  | succ n ih =>
    obtain ⟨table', q, tick', hb, hc, hturn⟩ := attempts_turn hmono candidate bar n call hact hr ht
    obtain ⟨htable, hchain⟩ := begun_eq hb
    have hgap := hc.gap
    obtain ⟨batch, hf, hout⟩ | ⟨e, f, hf, hlast, hadv, hs, hatt, hsave, hout⟩ |
      ⟨e, s, hf, hmore, hadv, hs, hatt, hclock, hsave, hout⟩ := hturn
    · have hlog : env.attemptsLog (n + 1) call tick table r = ⟨begins r q, [.ok batch]⟩ := by
        simp only [attemptsLog, hb, hgap, hf]
      rw [hlog, hout]
      refine ⟨htable, postInit_ne_exhausted _ _, le_rfl, hfuel ▸ Nat.succ_le_succ n.zero_le,
        ?_, ?_, ?_, ?_⟩
      · simp [hf]
      · simpa using hchain [] (List.isChain_singleton q)
      · intro p hp
        rw [begins_attempt hc.attempt hp]
        exact le_max_left _ _
      · exact iff_of_false (begins_last hc.status) (by simp)
    · -- the last call
      have hlog : env.attemptsLog (n + 1) call tick table r = ⟨begins r q ++ [f], [.error e]⟩ := by
        simp only [attemptsLog, hb, hgap, hf, if_pos hlast, hsave]
      have hfollows : q.Follows f := ⟨hadv, Or.inr ⟨hc.status, Or.inr hs, hatt⟩⟩
      rw [hlog, hout]
      refine ⟨?_, ?_, le_rfl, hfuel ▸ Nat.succ_le_succ n.zero_le, ?_, ?_, ?_, ?_⟩
      · rw [saveAll_append, ← htable]
        rfl
      · simp [failedError]
      · simp [hf]
      · exact hchain [f] (List.isChain_cons_cons.mpr ⟨hfollows, List.isChain_singleton f⟩)
      · intro p hp
        rcases List.mem_append.mp hp with hp | hp
        · rw [begins_attempt hc.attempt hp]
          exact le_max_left _ _
        · rw [List.mem_singleton.mp hp, hatt, hc.attempt]
          exact le_max_left _ _
      · exact iff_of_true ⟨f, by simp, hs⟩ (by simp)
    · -- the loop goes on from the retried state
      have hleft : env.callsLeft s = n := by
        rw [hc.attempt] at hmore
        rw [callsLeft, nextAttempt, if_pos hs, hatt, hc.attempt]
        unfold callsLeft at hfuel
        omega
      have hsg : s.gap = r.gap := hadv.gap.trans hgap
      have hrest := @ih (table'.set s.recoveryId s) s (call + 1) (tick' + 1) (Or.inl hs)
        (Dict.get?_set_self _ _ _) hclock hleft
      have hlog : env.attemptsLog (n + 1) call tick table r =
          ⟨begins r q ++ s ::
            (env.attemptsLog n (call + 1) (tick' + 1) (table'.set s.recoveryId s) s).saves,
            .error e ::
            (env.attemptsLog n (call + 1) (tick' + 1) (table'.set s.recoveryId s) s).calls⟩ := by
        simp only [attemptsLog, hb, hgap, hf, if_neg (not_le.mpr hmore), hsave]
      have hfollows : q.Follows s := ⟨hadv, Or.inr ⟨hc.status, Or.inl hs, hatt⟩⟩
      rw [hlog, hout]
      generalize env.attemptsLog n (call + 1) (tick' + 1) (table'.set s.recoveryId s) s =
        rest at hrest ⊢
      refine ⟨?_, hrest.ends, Nat.succ_le_succ (Nat.zero_le _), ?_, ?_, ?_, ?_, ?_⟩
      · rw [hrest.written, saveAll_append, ← htable]
        rfl
      · rw [hfuel, List.length_cons, ← hleft]
        exact Nat.succ_le_succ hrest.calls_le
      · rw [List.length_cons, List.range'_succ, List.map_cons, hf, ← hsg, ← hrest.calls_eq]
      · exact hchain _ (List.isChain_cons_cons.mpr ⟨hfollows, hrest.chain⟩)
      · intro p hp
        rcases List.mem_append.mp hp with hp | hp
        · rw [begins_attempt hc.attempt hp]
          exact le_max_left _ _
        · refine le_trans ?_ (le_max_right _ _)
          rcases List.mem_cons.mp hp with rfl | hp
          · exact (hatt.trans_lt hmore).le
          · refine (hrest.attempt_le p hp).trans (max_le ?_ le_rfl)
            rw [nextAttempt, if_pos hs, hatt]
            exact hmore
      · have hlast : (∃ f ∈ (begins r q ++ s :: rest.saves).getLast?, f.status = .failed) ↔
            ∃ f ∈ rest.saves.getLast?, f.status = .failed := by
          rw [List.getLast?_append, List.getLast?_cons]
          cases rest.saves.getLast? <;> simp [hs]
        rw [hlast, hrest.failed_iff]
        simp

/-! ### from a stored recovery, or from none -/

/-- where the loop of `prepare` starts: a stored recovery that is active and where the cursor is,
not changed after the clock; or a gap that is not stored -/
inductive Starts (env : RecoveryEnv) (table : RecoveryTable) (cursor : MarketCursor)
    (candidate : ObservedMarketEvent) (bar : ClosedBarPayload) : Option RecoveryState → Prop
  | stored (r : RecoveryState) (hactive : loadActive table cursor = .ok (some r))
      (hstored : table.get? r.recoveryId = some r)
      (hmatch : requireActiveCursorMatches r cursor = .ok ()) (hchanged : r.changedAt ≤ env.now 0) :
      Starts env table cursor candidate bar (some r)
  | fresh (gap : GapRange) (hactive : loadActive table cursor = .ok none)
      (hgap : detectClosedBarGap cursor candidate bar = .ok (some gap))
      (hnew : table.get? (recoveryIdForGap gap) = none) : Starts env table cursor candidate bar none

/-- a run from a state with attempt `a`, or from none -/
structure History (maxAttempts a : Nat) (table : RecoveryTable) (start : Option RecoveryState)
    (log : RecoveryLog) (out : RecoveryTable × Py (Option RecoveryPreparation)) : Prop where
  written : out.1 = table.saveAll log.saves
  ends : out.2 ≠ .error (.runtimeError "out of attempts")
  calls_pos : 1 ≤ log.calls.length
  calls_le : log.calls.length ≤ max 1 (maxAttempts + 1 - a)
  /-- every state is the next version, by `begin`, `retry` or `fail` -/
  chain : List.IsChain RecoveryState.Follows (start.toList ++ log.saves)
  /-- without a stored state the first one saved is a new one -/
  first : start = none → ∃ r ∈ log.saves.head?, r.version = 1 ∧ r.status = .detected ∧ r.attempt = 0
  attempt_le : ∀ q ∈ log.saves, q.attempt ≤ max (a + 1) maxAttempts
  failed_iff : (∃ f ∈ log.saves.getLast?, f.status = .failed) ↔ ∀ x ∈ log.calls, ∃ e, x = .error e

section
variable {cursor : MarketCursor} {candidate : ObservedMarketEvent} {bar : ClosedBarPayload}

theorem resumeLog_active (tick : Nat) (hact : r.status.active) :
    env.resumeLog tick table r = env.attemptsLog (env.callsLeft r) 0 tick table r := by
  have h1 : r.status ≠ .completed := by rcases hact with h | h <;> simp [h]
  have h2 : r.status ≠ .failed := by rcases hact with h | h <;> simp [h]
  simp only [resumeLog, if_neg h1, if_neg h2]

theorem ne_exhausted_map {x : Py RecoveryPreparation}
    (h : x ≠ .error (.runtimeError "out of attempts")) :
    x.map some ≠ .error (.runtimeError "out of attempts") := by
  cases x with
  | ok p => simp [Except.map]
  | error e =>
    intro he
    cases he
    exact h rfl

theorem Told.history {log : RecoveryLog} {out : RecoveryTable × Py RecoveryPreparation} {call : Nat}
    (h : Told env table r call log out) :
    History env.maxAttempts r.attempt table (some r) log (out.1, out.2.map some) := by
  have hnext : r.attempt ≤ nextAttempt r ∧ nextAttempt r ≤ r.attempt + 1 := by
    unfold nextAttempt
    split_ifs <;> omega
  refine ⟨h.written, ne_exhausted_map h.ends, h.calls_pos, h.calls_le.trans ?_, h.chain, ?_,
    ?_, h.failed_iff⟩
  · unfold callsLeft
    omega
  · intro hnone
    cases hnone
  · intro q hq
    exact (h.attempt_le q hq).trans (max_le_max_right _ hnext.2)

/-- a gap of a stream without an active recovery is stored as a new one -/
theorem saved_fresh {gap : GapRange} (hactive : loadActive table cursor = .ok none)
    (hstream : gap.ofStream cursor) (hnew : table.get? (recoveryIdForGap gap) = none)
    (r : RecoveryState) (hid : r.recoveryId = recoveryIdForGap gap) (hr : r.gap = gap) :
    saved table (.ok r) = .ok (table.set r.recoveryId r, r) := by
  have hnone : ¬ ∃ other ∈ table.values, conflictsWith r other := by
    rintro ⟨other, hmem, _, hact, _, h1, h2, h3, h4⟩
    simp only [loadActive, bind_eq_ok, pure_ok_iff] at hactive
    obtain ⟨_, _, hempty⟩ := hactive
    have hin : other ∈ activeFor table cursor := by
      refine List.mem_filter.mpr ⟨hmem, decide_eq_true ⟨hact, ?_⟩⟩
      rw [hr] at h1 h2 h3 h4
      exact ⟨h1.trans hstream.1, h2.trans hstream.2.1, h3.trans hstream.2.2.1,
        h4.trans hstream.2.2.2⟩
    rw [List.head?_eq_none_iff.mp hempty] at hin
    cases hin
  simp only [saved, ok_bind, recordRecovery, hid, hnew, raiseIf_bind_neg hnone, pure_eq_ok]

end

/-- **every run of `prepare` that starts its loop**: whatever the venue answers, it ends after at
most as many calls as attempts are left, and at least one; the states it saves are a legal history,
which ends as failed exactly when no call got a valid batch -/
theorem prepare_history (env : RecoveryEnv) (hclock : Monotone env.now) (table : RecoveryTable)
    (cursor : MarketCursor) (candidate : ObservedMarketEvent) (bar : ClosedBarPayload)
    (start : Option RecoveryState) (hstart : env.Starts table cursor candidate bar start) :
    History env.maxAttempts ((start.map (·.attempt)).getD 0) table start
      (env.prepareLog table cursor candidate bar) (env.prepare table cursor candidate bar) := by
  cases hstart with
  | stored r hactive hstored hmatch hchanged =>
    have hact := loadActive_some hactive
    have hlog : env.prepareLog table cursor candidate bar =
        env.attemptsLog (env.callsLeft r) 0 0 table r := by
      simp only [prepareLog, hactive, hmatch, resumeLog_active 0 hact]
    rw [hlog, prepare_stored hactive hmatch]
    exact (attempts_told hclock candidate bar hact hstored hchanged rfl).history
  | fresh gap hactive hgap hnew =>
    obtain ⟨_, _, hstream, _⟩ := detectClosedBarGap_eq_some hgap
    let r := RecoveryState.create (recoveryIdForGap gap) cursor.experimentId gap (env.now 0)
    have hsave := saved_fresh hactive hstream hnew r rfl rfl
    have hact : r.status.active := Or.inl rfl
    have hlog : env.prepareLog table cursor candidate bar =
        ⟨r :: (env.attemptsLog (env.callsLeft r) 0 1 (table.set r.recoveryId r) r).saves,
          (env.attemptsLog (env.callsLeft r) 0 1 (table.set r.recoveryId r) r).calls⟩ := by
      simp only [prepareLog, hactive, hgap, detectedLog, hnew, r, hsave, resumeLog_active 1 hact]
    have hout : env.prepare table cursor candidate bar =
        ((env.attempts candidate bar (env.callsLeft r) 0 1 (table.set r.recoveryId r) r).1,
          (env.attempts candidate bar (env.callsLeft r) 0 1 (table.set r.recoveryId r) r).2.map
            some) := by
      simp only [prepare, hactive, hgap, detected, hnew, r, hsave, resume_active 1 hact]
    have htold := (attempts_told hclock candidate bar hact (Dict.get?_set_self table r.recoveryId r)
      (hclock (Nat.zero_le 1)) rfl : Told env _ r 0 _ _).history
    rw [hlog, hout]
    refine ⟨htold.written, htold.ends, htold.calls_pos, htold.calls_le, htold.chain,
      fun _ => ⟨r, rfl, rfl, rfl, rfl⟩, ?_, ?_⟩
    · exact List.forall_mem_cons.mpr ⟨Nat.zero_le _, htold.attempt_le⟩
    · rw [← htold.failed_iff, List.getLast?_cons]
      cases List.getLast? _ <;> simp [r, RecoveryState.create]

end RecoveryEnv

def answeringLate : RecoveryEnv :=
  { answering with
    backfill := fun call => if call = 1 then
      .ok [minuteEvent 6, minuteEvent 7] else .error ⟨"TimeoutError", ""⟩ }

/-- the stored recovery begins, is retried, and begins again -/
theorem answeringLate_history :
    RecoveryEnv.History 3 0 tableSix (some recoverySix)
        (answeringLate.prepareLog tableSix cursorFive (minuteEvent 8) (minuteBar 8))
        (answeringLate.prepare tableSix cursorFive (minuteEvent 8) (minuteBar 8)) ∧
      (answeringLate.prepareLog tableSix cursorFive (minuteEvent 8) (minuteBar 8)).saves.map
        (fun q => (q.status, q.attempt)) = [(.backfilling, 1), (.detected, 1), (.backfilling, 2)] :=
  ⟨RecoveryEnv.prepare_history answeringLate monotone_const tableSix cursorFive (minuteEvent 8)
    (minuteBar 8) (some recoverySix)
    (.stored recoverySix (by decide +kernel) (by decide +kernel) (by decide +kernel)
    (by decide)), by decide +kernel⟩

end Maais
