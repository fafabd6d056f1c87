import Maais.Worker.Supervisor

/-!
# Bars that are not dispatched

A bar is evaluated at the time it was observed, the control carries the time of its last change, and
the entry context waits for a book behind the bar.

* `buildContext_cases`  what a built entry context has read and checked;
* `dispatch_future_control`  no admitted bar observed before the last control change is dispatched;
* `dispatch_no_book`  no admitted bar without a book behind it is dispatched.
-/

namespace Maais
open Lib

namespace Database

variable {cfg : WorkerConfig} {db : Database}

structure ContextBuilt (cfg : WorkerConfig) (db : Database) (after : ObservationBuffer)
    (symbol : String) (at_ : Time) (ctx : EntryDecisionContext) : Prop where
  account : db.loadAccount cfg = .ok ctx.account
  control : db.control = some ctx.control
  listed : symbol ∈ cfg.manifest.symbols
  books : ctx.books = after.eligibleBooks symbol (at_ + cfg.policy.executionLatency)
  plan : ctx.activeExitPlan =
    activeExitPlan cfg ctx.account (db.execution.loadOpenExitPlans cfg.idOrder) symbol
  pending : db.loadPendingOrders cfg = .ok []
  leverage : ctx.account.leverage = cfg.policy.leverage
  placed : ∀ plan ∈ db.execution.loadOpenExitPlans cfg.idOrder,
    plan.positionId ∈ (ctx.account.openPositions cfg.arith).map (·.positionId)
  untriggered : ∀ plan ∈ db.execution.loadOpenExitPlans cfg.idOrder, plan.status ≠ .triggered
  changedAt : ctx.control.changedAt ≤ at_

variable {after : ObservationBuffer} {ctx : EntryDecisionContext}

theorem buildContext_cases {symbol : String} {at_ : Time}
    (h : db.buildContext cfg after symbol at_ = .ok ctx) :
    ContextBuilt cfg db after symbol at_ ctx := by
  simp only [buildContext, checkStoredState, currentControl, ObservationBuffer.booksAfter,
    bind_eq_ok, raiseIf_eq_ok, orRaise_eq_ok, pure_ok_iff, not_not, ne_eq] at h
  obtain ⟨_, hsym, account, hacc, pending, hpend, _, ⟨_, rfl, _, hlev, _, _, _, _, hplaced⟩,
    control, hc, _, _, _, ht, books, ⟨_, _, rfl⟩, _, hch, rfl⟩ := h
  refine ⟨hacc, hc, hsym, rfl, rfl, hpend, hlev, ?_, ?_, not_lt.mp hch⟩
  · exact fun plan hp => by_contra fun hno => hplaced ⟨plan, hp, hno⟩
  · exact fun plan hp hs => ht ⟨plan, hp, hs⟩

theorem cycleOutcome_admitted {event : ObservedMarketEvent}
    {bar : ClosedBarPayload} {input : CycleInput} (h : input.admitted) :
    db.cycleOutcome cfg after event bar input =
      (db.buildContext cfg after event.symbol event.observedAt >>= fun ctx =>
        cfg.processAdmitted (cfg.frameId event bar) ctx event.symbol event.observedAt input) := by
  cases input with
  | quarantined warmup => exact absurd h id
  | featuresMissing => rfl
  | agentsFailed => rfl
  | analysed a => rfl
  | raised e => exact absurd h id

theorem dispatch_future_control (cfg : WorkerConfig) (db : Database)
    (control : TradingControlSnapshot) (after : ObservationBuffer) (event : ObservedMarketEvent)
    (bar : ClosedBarPayload) (input : CycleInput) (target : MarketCursor)
    (progress : Option RecoveryState) (hcontrol : db.control = some control)
    (hadmitted : input.admitted) (hbefore : event.observedAt < control.changedAt) :
    ∃ e, db.dispatch cfg after event bar input target progress = .error e := by
  by_contra hok
  rw [← raises, not_raises_iff] at hok
  obtain ⟨db', h⟩ := hok
  simp only [dispatch, cycleOutcome_admitted hadmitted, bind_eq_ok] at h
  obtain ⟨_, _, _, _, outcome, ⟨ctx, hctx, _⟩, _⟩ := h
  have hb := buildContext_cases hctx
  rw [hb.control, Option.some.injEq] at hcontrol
  exact absurd (hcontrol ▸ hb.changedAt) (not_le.mpr hbefore)

theorem buildContext_books {symbol : String} {at_ : Time}
    (h : db.buildContext cfg after symbol at_ = .ok ctx) :
    after.eligibleBooks symbol (at_ + cfg.policy.executionLatency) ≠ [] := by
  simp only [buildContext, ObservationBuffer.booksAfter, bind_eq_ok, raiseIf_eq_ok, pure_eq_ok] at h
  obtain ⟨_, _, _, _, _, _, _, _, _, _, _, _, _, _, _, ⟨_, hbooks, _⟩, _⟩ := h
  exact hbooks

/-- **no admitted bar without a book behind it is dispatched**: the wait for the book raises, also
when the decision would be neutral or refused at an earlier gate -/
theorem dispatch_no_book (cfg : WorkerConfig) (db : Database) (after : ObservationBuffer)
    (event : ObservedMarketEvent) (bar : ClosedBarPayload) (input : CycleInput)
    (target : MarketCursor) (progress : Option RecoveryState) (hadmitted : input.admitted)
    (hnone : ∀ book ∈ after.booksOf event.symbol, book.observedAt ≤ event.observedAt +
    cfg.policy.executionLatency) :
    ∃ e, db.dispatch cfg after event bar input target progress = .error e := by
  by_contra hok
  rw [← raises, not_raises_iff] at hok
  obtain ⟨db', h⟩ := hok
  simp only [dispatch, cycleOutcome_admitted hadmitted, bind_eq_ok] at h
  obtain ⟨_, _, _, _, outcome, ⟨ctx, hctx, _⟩, _⟩ := h
  have hbooks := buildContext_books hctx
  apply hbooks
  rw [ObservationBuffer.eligibleBooks, List.filter_eq_nil_iff]
  intro book hmem
  simpa using hnone book hmem

end Database

/-! ## a bar that waits behind a pause -/

namespace Demo

def manifest : ExperimentManifest := ⟨⟨"uuid:experiment"⟩, ⟨"manifest"⟩, ["BTCUSDT"]⟩

theorem btc_ne : "BTCUSDT" ≠ "" := by decide
theorem minute_ne : "1m" ≠ "" := by decide
theorem book_ne : "book" ≠ "" := by decide
theorem binance_ne : "binance" ≠ "" := by decide
theorem mark_ne : "mark" ≠ "" := by decide
theorem market_ne : [PaperOrderType.market] ≠ [] := by decide
theorem pos1 : (0 : ℚ) < 1 := by decide
theorem pos100 : (0 : ℚ) < 100 := by decide
theorem pos1000 : (0 : ℚ) < 1000 := by decide
theorem unit_zero : (0 : ℚ) ≤ 0 ∧ (0 : ℚ) ≤ 1 := by decide
theorem five_pos : (0 : Time) < 5 := by decide
theorem thirty_pos : (0 : Time) < 30 := by decide

def filters : ExchangeFilterSnapshot :=
  { symbol := "BTCUSDT", status := "TRADING", priceTick := 1, quantityStep := 1,
    minimumQuantity := 1, maximumQuantity := 1000, minimumNotional := 1,
    supportedOrderTypes := [.market], capturedAt := 0, symbol_ne := btc_ne, priceTick_pos := pos1,
    quantityStep_pos := pos1, minimumQuantity_pos := pos1, maximumQuantity_pos := pos1000,
    minimumNotional_pos := pos1, minimum_le_maximum := by decide,
    supportedOrderTypes_ne := market_ne }

def policy : LivePaperPolicy :=
  { proposalTtl := 30, executionLatency := 1, takerFeeRate := 0, leverage := 1,
    proposalTtl_pos := thirty_pos, executionLatency_pos := by decide,
    takerFeeRate_range := unit_zero, leverage_eq := rfl }

def config : WorkerConfig :=
  { arith := .exact, idOrder := fun u => u.name.length, manifest,
    strategyVersionId := ⟨"uuid:strategy"⟩, workerId := ⟨"uuid:worker"⟩, policy,
    filters := fun _ => filters, filters_symbol := by decide, broker := ⟨⟨"key"⟩, ⟨5, five_pos⟩⟩,
    observationCapacity := 4, journalCapacity := 4, maxRecoveryAttempts := 3,
    parseUUID := fun _ => none, activateRun := none }

def event (kind : String) (t : Nat) (sequence : Option Nat) (payload : MarketPayload)
    (h : kind ≠ "") :
    ObservedMarketEvent :=
  { venue := "binance", stream := kind, symbol := "BTCUSDT", eventId := kind ++ toString t,
    venueEventAt := t, observedAt := t, sequence, payload, venue_ne := binance_ne, stream_ne := h,
    symbol_ne := btc_ne, eventId_ne := fun e => by simp at e }

def mark (t price : Nat) : ObservedMarketEvent :=
  event "mark" t none (.markFunding ⟨price + 1, Nat.cast_add_one_pos price⟩) mark_ne

def level (price quantity : Nat) : BookLevel :=
  ⟨price + 1, quantity + 1, Nat.cast_add_one_pos price, Nat.cast_add_one_pos quantity⟩

/-- a book with one level of `quantity + 1` on each side -/
def book (t quantity : Nat) : ObservedMarketEvent :=
  event "book" t (some t) (.orderBook
    { bids := [level 98 quantity], asks := [level 99 quantity], bids_ne := by simp,
      asks_ne := by simp, bids_desc := by simp, asks_asc := by simp
      not_crossed := by simp only [level, List.head_cons]; norm_num }) book_ne

def bar (k : Nat) : ObservedMarketEvent :=
  event "bar" (60 * k + 60) (some k) (.closedBar
    { timeframe := "1m", barOpenAt := 60 * k, barCloseAt := 60 * k + 60, closed := true,
      timeframe_ne := minute_ne, open_lt := minuteBar_open_lt k }) (by decide)

def world : World :=
  { workerId := ⟨"uuid:worker"⟩
    db :=
      { experiment := ⟨⟨"uuid:experiment"⟩, ⟨"manifest"⟩, 10000, "USDT", .created, none⟩
        control := none, incidents := .empty, commands := .empty, execution := .empty,
        cursors := .empty, recoveries := .empty }
    observations := .empty, journal := [], cursors := .empty, queue := [], heartbeatAt := none,
    mode := .halted }

theorem world_created : World.Created config world where
  id := rfl
  manifestHash := rfl
  status := rfl
  capital := by decide
  currency := by decide
  control := rfl
  incidents := rfl
  commands := rfl
  execution := rfl
  cursors := rfl
  recoveries := rfl
  mode := rfl

theorem reaches (l : List Input) : World.Reaches config (run (World.step config) world l) :=
  ⟨world, world_created, l, rfl⟩

/-- a confirmed command requested at time `n` -/
def command (t : CommandType) (payload : Dict String JsonValue) (n : Nat) (key : String)
    (h : ValidKey key) : OperatorCommand :=
  { commandId := ⟨"uuid:command" ++ toString n⟩, experimentId := ⟨"uuid:experiment"⟩,
    commandType := t, status := .requested, idempotencyKey := key, actor := "operator",
    reason := "run", payload, operatorConfirmed := true, requestedAt := n, version := 1,
    accepted := none, completed := none
    key_valid := h, actor_trimmed := by decide +kernel, reason_trimmed := by decide +kernel
    confirmed := fun _ => rfl, shape := requested_shape, accepted_le := by simp
    completed_le := none_completed }

def poll (t : Time) : Input := .poll ⟨fun _ => t, t, []⟩ t

def dispatch (cycle : CycleInput) (t : Time) : Input :=
  .dispatch ⟨fun _ => [], fun _ => cycle, fun _ => .ok [], fun _ => t, fun _ => t⟩ t

def started : List Input :=
  [.start ⟨"uuid:worker"⟩ 1 1, .enqueue (command .start .empty 2 "start-01" (by decide +kernel)),
    poll 3]

def buy : CycleInput := .analysed
  { direction := .long, executablePrice := 100, risk := some (10, 1000), exitLoss := 1 / 10,
    exitGain := 1 / 10, gatesPassed := true, gateChainHash := ⟨"gates"⟩,
    executablePrice_pos := pos100 }

def hold : CycleInput := .analysed
  { direction := .neutral, executablePrice := 100, risk := none, exitLoss := 1 / 10,
    exitGain := 1 / 10, gatesPassed := true, gateChainHash := ⟨"gates"⟩,
    executablePrice_pos := pos100 }

theorem pause_key : ValidKey "pause-01" := by decide +kernel

/-- sixty bars of warm-up, then a mark and a book before the next bar -/
def warm : List Input :=
  started ++ ((List.range 60).flatMap fun k =>
    [.ingest (bar k) (60 * k + 60 : Nat), dispatch (.quarantined true) (60 * k + 60 : Nat)]) ++
  [.ingest (mark 3650 99) 3650, dispatch (.quarantined true) 3650,
    .ingest (book 3655 99) 3655, dispatch (.quarantined true) 3655]

/-- a bar is received at 3660, a pause is executed at 3676, then the bar is dispatched -/
def pausedQueue : List Input :=
  warm ++ [.ingest (bar 60) 3660, .ingest (book 3670 99) 3670,
    .enqueue (command .pause .empty 3675 "pause-01" pause_key), poll 3676]

theorem pausedQueue_halts :
    ((run (World.step config) world pausedQueue).queue.head? = some (bar 60) ∧
      (run (World.step config) world pausedQueue).db.control.map (·.changedAt) = some 3676) ∧
    (run (World.step config) world (pausedQueue ++ [dispatch buy 3678])).mode = .halted ∧
    (run (World.step config) world (pausedQueue ++ [dispatch buy 3678])).db.experiment.failureReason
      = some "paper_worker:ValueError:kill switch state cannot come from the future" ∧
    (run (World.step config) world (pausedQueue ++ [dispatch buy 3678])).db.cursors.values.map
      (·.sequence) = [59] := by
  decide +kernel

def pausedControl : TradingControlSnapshot :=
  (run (World.step config) world pausedQueue).db.control.get (by decide +kernel)

theorem dispatch_future_control_paused :
    ∃ e, (run (World.step config) world pausedQueue).db.dispatch config
      (run (World.step config) world pausedQueue).observations (bar 60)
      ⟨"1m", 3600, 3660, true, by decide, by decide⟩ buy
      ⟨⟨"uuid:experiment"⟩, "binance", "bar", "BTCUSDT", "1m", "bar3660", 60, 3660, 3660, 3660, 61,
        3660⟩ none = .error e :=
  Database.dispatch_future_control config _ pausedControl _ (bar 60) _ buy _ none
    (Option.some_get _).symm trivial (by decide +kernel)

/-! ## a bar without a book behind it -/

def booklessQueue : List Input := warm ++ [.ingest (bar 60) 3660]

theorem booklessQueue_halts :
    (run (World.step config) world booklessQueue).queue.head? = some (bar 60) ∧
    (run (World.step config) world (booklessQueue ++ [dispatch hold 3666])).mode = .halted ∧
    (run (World.step config) world
      (booklessQueue ++ [dispatch hold 3666])).db.experiment.failureReason =
      some "paper_worker:EligibleBookTimeout:no eligible BTCUSDT book observed after 3661" ∧
    (run (World.step config) world (booklessQueue ++ [dispatch hold 3666])).db.cursors.values.map
      (·.sequence) = [59] := by
  decide +kernel

theorem dispatch_no_book_bookless :
    ∃ e, (run (World.step config) world booklessQueue).db.dispatch config
      (run (World.step config) world booklessQueue).observations (bar 60)
      ⟨"1m", 3600, 3660, true, by decide, by decide⟩ hold
      ⟨⟨"uuid:experiment"⟩, "binance", "bar", "BTCUSDT", "1m", "bar3660", 60, 3660, 3660, 3660, 61,
        3660⟩ none = .error e :=
  Database.dispatch_no_book config _ _ (bar 60) _ hold _ none trivial (by decide +kernel)

end Demo

end Maais
