import Maais.Paper.Broker
import Maais.Paper.History

/-!
# Which positions the exchange filters let out

Entries and exits pass the same filters, an entry with its own quantity and price, the exit with the
whole position and the price of the trigger.

* `Built`  an account whose position of a symbol was made of admitted market entries;
* `Built.admitted`  such a position is a whole number of steps, and no smaller than the minimum;
* `executeMarketExit_built_iff`  its exit is filled exactly when the position is no larger than the
  maximum quantity and worth the minimum notional at the trigger.
-/

namespace Maais
open Lib

namespace ExchangeFilterSnapshot

variable {filters : ExchangeFilterSnapshot}

def Stepped (filters : ExchangeFilterSnapshot) (quantity : ℚ) : Prop :=
  ∃ n : ℤ, quantity = n * filters.quantityStep

theorem Stepped.zero : filters.Stepped 0 := ⟨0, by simp⟩

theorem Stepped.add {x y : ℚ} (hx : filters.Stepped x) (hy : filters.Stepped y) :
    filters.Stepped (x + y) := by
  obtain ⟨n, rfl⟩ := hx
  obtain ⟨m, rfl⟩ := hy
  exact ⟨n + m, by push_cast; ring⟩

theorem Stepped.multiple_eq {x : ℚ} (hx : filters.Stepped x) :
    multiple .exact x filters.quantityStep .floor = x := by
  obtain ⟨n, rfl⟩ := hx
  have hstep : (n : ℚ) * filters.quantityStep / filters.quantityStep = n :=
    mul_div_cancel_right₀ _ filters.quantityStep_pos.ne'
  show ((⌊(n : ℚ) * filters.quantityStep / filters.quantityStep⌋ : ℤ) : ℚ) *
    filters.quantityStep = _
  rw [hstep, Int.floor_intCast]

def TradesMarket (filters : ExchangeFilterSnapshot) : Prop :=
  filters.status = "TRADING" ∧ PaperOrderType.market ∈ filters.supportedOrderTypes

variable {side : PaperOrderSide}

theorem prepare_market {rq aq an : ℚ} {price : Option ℚ} {p : PreparedOrder}
    (h : prepare .exact filters side .market rq aq price an = .ok p) :
    filters.TradesMarket ∧ filters.Stepped p.quantity ∧ filters.minimumQuantity ≤ p.quantity ∧
      p.quantity ≤ filters.maximumQuantity ∧ filters.minimumNotional ≤ p.notional ∧
      ∀ x ∈ price, p.notional = p.quantity * x := by
  simp only [prepare, quantizeQuantity, priceAndNotional, bind_eq_ok, raiseIf_eq_ok, orRaise_eq_ok,
    pure_eq_ok, Except.ok.injEq, ne_eq, not_not, not_lt] at h
  obtain ⟨_, hst, _, hsup, _, _, _, _, _, _, quantity, ⟨_, _, rfl⟩, _, hmin, _, hmax, out,
    ⟨x, rfl, _, _, rfl⟩, _, hnot, _, _, rfl⟩ := h
  refine ⟨⟨hst, hsup⟩, ⟨_, rfl⟩, hmin, hmax, hnot, ?_⟩
  intro y hy
  cases hy
  rfl

theorem admits_iff {quantity price : ℚ} (ht : filters.TradesMarket)
    (hstep : filters.Stepped quantity) (hmin : filters.minimumQuantity ≤ quantity)
    (hprice : 0 < price) : filters.admits .exact side quantity price ↔
      quantity ≤ filters.maximumQuantity ∧ filters.minimumNotional ≤ quantity * price := by
  have hq : 0 < quantity := lt_of_lt_of_le filters.minimumQuantity_pos hmin
  constructor
  · rintro ⟨prepared, hp, hpq⟩
    obtain ⟨_, _, _, hmax, hnot, hn⟩ := prepare_market hp
    rw [hn price rfl, hpq] at hnot
    rw [hpq] at hmax
    exact ⟨hmax, hnot⟩
  · rintro ⟨hmax, hnot⟩
    refine ⟨⟨filters.symbol, side, .market, quantity, quantity, quantity, none, quantity * price⟩,
      ?_, rfl⟩
    rw [Arith.exact_mul, prepare, raiseIf_not_bind ht.1, raiseIf_not_bind ht.2,
      requirePositiveDecimal, raiseIf_bind_neg (not_le.mpr hq), requirePositiveDecimal,
      raiseIf_bind_neg (not_le.mpr (mul_pos hq hprice)), raiseIf_bind_neg (lt_irrefl _),
      quantizeQuantity, requirePositiveDecimal, raiseIf_bind_neg (not_le.mpr hq), pure_eq_ok,
      ok_bind, hstep.multiple_eq, raiseIf_bind_neg (not_lt.mpr hmin),
      raiseIf_bind_neg (not_lt.mpr hmax)]
    show (requirePositiveDecimal price "price" >>= _) >>= _ = _
    rw [requirePositiveDecimal, raiseIf_bind_neg (not_le.mpr hprice), pure_eq_ok, ok_bind]
    show (raiseIf (quantity * price < _) _ >>= _) = _
    rw [raiseIf_bind_neg (not_lt.mpr hnot), Arith.exact_mul, raiseIf_bind_neg (lt_irrefl _)]
    rfl

end ExchangeFilterSnapshot

/-! ## positions made of entries -/

/-- the operation is not a fill of the symbol, or it closes the whole position -/
def Operation.spares (symbol : String) (a : AccountState) : Operation → Prop
  | .fill _ _ s _ effect quantity _ _ _ =>
    s ≠ symbol ∨ effect = .reduce ∧ ∀ p ∈ a.positions.get? symbol, quantity = p.quantity .exact
  | _ => True

/-- an account whose open position of the symbol was made of market entries under one filter
snapshot, between which the account was marked and funded, traded other symbols or closed the
position -/
inductive Built (broker : PaperBroker) (filters : ExchangeFilterSnapshot) (symbol : String) :
    AccountState → Prop
  | created {experimentId : UUID} {capital : ℚ} {currency : String} {leverage : Nat}
      {a : AccountState} (h : AccountState.create experimentId capital currency leverage = .ok a) :
      Built broker filters symbol a
  | entered {a b : AccountState} {command : MarketEntryCommand} {books : List BookSnapshot}
      {active : Option ExitPlan} {r : PaperBrokerResult} (h : Built broker filters symbol a)
      (hfilters : command.exchangeFilters = filters) (hsymbol : command.symbol = symbol)
      (hr : broker.executeMarketEntry .exact command a books active = .ok r)
      (hb : r.record.account = some b) : Built broker filters symbol b
  | moved {a b : AccountState} {op : Operation} (h : Built broker filters symbol a)
      (hop : op.spares symbol a) (hb : a.apply .exact op = .ok b) : Built broker filters symbol b

variable {broker : PaperBroker} {account : AccountState} {books : List BookSnapshot}
  {r : PaperBrokerResult}

theorem PaperBroker.executeMarketEntry_prepared {A : Arith} {command : MarketEntryCommand}
    {active : Option ExitPlan}
    (h : broker.executeMarketEntry A command account books active = .ok r) :
    ∃ prepared,
      command.exchangeFilters.prepare A command.side .market command.requestedQuantity
      command.approvedQuantity (some command.decisionExecutablePrice) command.approvedNotional =
      .ok prepared ∧ r.fill.quantity = prepared.quantity ∧ command.exchangeFilters.capturedAt ≤
      command.decisionCompletedAt := by
  simp only [executeMarketEntry, settleEntry, bind_eq_ok, raiseIf_eq_ok, not_lt] at h
  obtain ⟨_, _, _, hcap, _, _, prepared, hprep, _, _, _, _, _, _, req, hreq, fill, hfill, _, _, _,
    _, _, _, _, _, _, _, hfin⟩ := h
  obtain ⟨rfl, _, _⟩ := postInit_request hreq
  obtain ⟨rfl, _⟩ := finish_eq hfin
  obtain ⟨_, _, hqty, _⟩ := MarketFillEngine.fill_book hfill
  exact ⟨prepared, hprep, hqty, hcap⟩

/-- what an admitted position keeps: a whole number of steps; when it is open at least the minimum,
opened after the filters were captured -/
structure Admitted (filters : ExchangeFilterSnapshot) (p : PositionState) : Prop where
  stepped : filters.Stepped (p.quantity .exact)
  isOpen : ¬ p.isFlat .exact → filters.TradesMarket ∧ filters.minimumQuantity ≤ p.quantity .exact ∧
    ∃ t ∈ p.openedAt, filters.capturedAt < t

variable {p : PositionState}

theorem Admitted.flat {filters : ExchangeFilterSnapshot} (h : p.isFlat .exact) :
    Admitted filters p := by
  refine ⟨?_, fun ho => absurd h ho⟩
  have h0 : p.quantity .exact = 0 := h
  rw [h0]
  exact .zero

variable {q : PositionState}

theorem Admitted.same {filters : ExchangeFilterSnapshot} (h : Admitted filters p)
    (hq : q.quantity .exact = p.quantity .exact) (ht : q.openedAt = p.openedAt) :
    Admitted filters q := by
  refine ⟨hq ▸ h.stepped, fun ho => ?_⟩
  have hp : ¬ p.isFlat .exact := fun hf => ho (hq.trans hf)
  rw [hq, ht]
  exact h.isOpen hp

theorem Admitted.openFill {filters : ExchangeFilterSnapshot} {fillId : UUID}
    {side : Direction} {n price fee : ℚ} {t : Time} (hp : Admitted filters p)
    (ht : filters.TradesMarket) (hs : filters.Stepped n) (hmin : filters.minimumQuantity ≤ n)
    (hc : filters.capturedAt < t) (h : p.openFill .exact fillId side n price fee t = .ok q) :
    Admitted filters q := by
  simp only [PositionState.openFill, bind_eq_ok, pure_ok_iff] at h
  obtain ⟨_, _, _, _, _, _, _, _, _, _, rfl⟩ := h
  have hqty : ∀ r : PositionState,
      r.lots = p.lots ++ [⟨fillId, fillId, t, price, n, n, fee, fee, 0⟩] →
      r.quantity .exact = p.quantity .exact + n := by
    intro r hr
    rw [PositionState.quantity_eq_held, PositionState.quantity_eq_held, hr,
      PositionState.heldOf_append]
    simp
  refine ⟨?_, fun _ => ⟨ht, ?_, ?_⟩⟩
  · rw [hqty _ rfl]
    exact hp.stepped.add hs
  · rw [hqty _ rfl]
    by_cases h0 : p.isFlat .exact
    · have hz : p.quantity .exact = 0 := h0
      rw [hz, zero_add]
      exact hmin
    · have hle := (hp.isOpen h0).2.1
      have hn := lt_of_lt_of_le filters.minimumQuantity_pos hmin
      linarith
  · show ∃ u ∈ (if p.isFlat .exact then some t else p.openedAt), filters.capturedAt < u
    by_cases h0 : p.isFlat .exact
    · rw [if_pos h0]
      exact ⟨t, rfl, hc⟩
    · rw [if_neg h0]
      exact (hp.isOpen h0).2.2

theorem Admitted.applyFunding {filters : ExchangeFilterSnapshot} {amount : ℚ}
    (hp : Admitted filters p) (hv : p.Valid) (h : p.applyFunding .exact amount = .ok q) :
    Admitted filters q := by
  simp only [PositionState.applyFunding, bind_eq_ok, pure_ok_iff] at h
  obtain ⟨_, _, rfl⟩ := h
  refine hp.same ?_ rfl
  rw [PositionState.quantity_exact, PositionState.quantity_exact, List.map_map]
  congr 1
  exact List.map_congr_left fun lot hl => (PositionState.fundLot_valid (hv.lots lot hl)).2

namespace AccountState

variable {a b : AccountState}

theorem apply_currency {A : Arith} {op : Operation} (h : a.apply A op = .ok b) :
    b.currency = a.currency := by
  cases op with
  | fill fillId positionId symbol side effect n price fee t =>
    obtain ⟨q, cash, rfl, _⟩ := applyFill_cases h
    rfl
  | mark symbol price t =>
    obtain ⟨p, q, _, _, rfl⟩ := mark_cases h
    rfl
  | funding symbol rate t =>
    obtain ⟨p, q, _, _, _, rfl, _⟩ := applyFunding_cases h
    rfl

theorem apply_spares {filters : ExchangeFilterSnapshot} {symbol : String} {op : Operation}
    {q : PositionState} (hv : a.Valid)
    (hadm : ∀ p, a.positions.get? symbol = some p → Admitted filters p) (hop : op.spares symbol a)
    (h : a.apply .exact op = .ok b) (hq : b.positions.get? symbol = some q) :
    Admitted filters q := by
  -- an advance at another symbol leaves the position, one at this symbol replaces it
  have hother : ∀ {s : String} {x : PositionState} {cash : ℚ} {t : Time}, s ≠ symbol →
      b = a.advance .exact s x cash t → a.positions.get? symbol = some q := by
    intro s x cash t hs hb
    rw [hb, advance_positions, Dict.get?_set_of_ne _ (Ne.symm hs)] at hq
    exact hq
  have hself : ∀ {x : PositionState} {cash : ℚ} {t : Time}, b = a.advance .exact symbol x cash t →
      q = x := by
    intro x cash t hb
    rw [hb, advance_positions, Dict.get?_set_self, Option.some.injEq] at hq
    exact hq.symm
  cases op with
  | fill fillId positionId s side effect n price fee t =>
    obtain ⟨x, cash, hb, _, hcase⟩ := applyFill_cases h
    by_cases hs : s = symbol
    · subst hs
      obtain ⟨hred, hn⟩ := hop.resolve_left fun hne => hne rfl
      obtain ⟨ho, _⟩ | ⟨_, current, hc, _, _, hcl, _⟩ := hcase
      · rw [hred] at ho
        cases ho
      · obtain ⟨_, hqty, _⟩ := PositionState.closeFill_books (hv.positions s current hc).1 hcl
        rw [hn current hc, sub_self] at hqty
        rw [hself hb]
        exact .flat hqty
    · exact hadm q (hother hs hb)
  | mark s price t =>
    obtain ⟨p, x, hp, hx, hb⟩ := mark_cases h
    obtain ⟨_, hxe⟩ := PositionState.mark_eq hx
    by_cases hs : s = symbol
    · subst hs
      rw [hself hb, hxe]
      exact (hadm p hp).same rfl rfl
    · exact hadm q (hother hs hb)
  | funding s rate t =>
    obtain ⟨p, x, hp, _, hx, hb, _⟩ := applyFunding_cases h
    by_cases hs : s = symbol
    · subst hs
      rw [hself hb]
      exact (hadm p hp).applyFunding (hv.positions s p hp).1 hx
    · exact hadm q (hother hs hb)

end AccountState

theorem Built.admitted {filters : ExchangeFilterSnapshot} {symbol : String}
    {a : AccountState} (h : Built broker filters symbol a) :
    a.Valid ∧ a.currency ≠ "" ∧ ∀ p, a.positions.get? symbol = some p → Admitted filters p := by
  induction h with
  | created h =>
    obtain ⟨hv, _⟩ := AccountState.create_valid h
    simp only [AccountState.create, bind_eq_ok, raiseIf_eq_ok, pure_ok_iff] at h
    obtain ⟨_, _, _, hcur, _, _, rfl⟩ := h
    refine ⟨hv, hcur, fun p hp => ?_⟩
    rw [Dict.get?_empty] at hp
    cases hp
  | @entered a b command books active r h hf hs hr hb ih =>
    obtain ⟨hv, hcur, hadm⟩ := ih
    obtain ⟨next, p, plan, hfill⟩ := PaperBroker.executeMarketEntry_cases hr
    obtain ⟨prepared, hprep, hqty, hcap⟩ := PaperBroker.executeMarketEntry_prepared hr
    obtain rfl : next = b := Option.mem_unique hfill.record.1 hb
    rw [hf] at hprep hcap
    obtain ⟨ht, hstep, hmin, _⟩ := ExchangeFilterSnapshot.prepare_market hprep
    rw [← hqty] at hstep hmin
    have hop :
        a.apply .exact
        (.fill command.fillId command.positionId command.symbol command.side .open r.fill.quantity
        r.fill.price r.fill.fee r.fill.fillAt) = .ok next := hfill.filled
    have hlate : filters.capturedAt < r.fill.fillAt := by
      calc filters.capturedAt ≤ command.decisionCompletedAt := hcap
        _ < command.decisionCompletedAt + command.executionLatency :=
          lt_add_of_pos_right _ hfill.latency
        _ < r.fill.fillAt := hfill.after
    refine ⟨(AccountState.apply_flow hv hop).1, AccountState.apply_currency hop ▸ hcur,
      fun x hx => ?_⟩
    obtain ⟨q, cash, hnext, _, ⟨_, current, hc, hq, _⟩ | ⟨he, _⟩⟩ :=
      AccountState.applyFill_cases hfill.filled
    · rw [hnext, AccountState.advance_positions, hs, Dict.get?_set_self, Option.some.injEq] at hx
      subst hx
      have hcurrent : Admitted filters current := by
        rcases hc with hc | ⟨_, hc⟩
        · exact hadm current (hs ▸ hc)
        · simp only [PositionState.empty, bind_eq_ok, pure_ok_iff] at hc
          obtain ⟨_, _, rfl⟩ := hc
          exact .flat (by simp [PositionState.isFlat])
      exact hcurrent.openFill ht hstep hmin hlate hq
    · cases he
  | moved h hop hb ih =>
    obtain ⟨hv, hcur, hadm⟩ := ih
    exact ⟨(AccountState.apply_flow hv hb).1, AccountState.apply_currency hb ▸ hcur,
      fun q hq => AccountState.apply_spares hv hadm hop hb hq⟩

/-! ## the exit of the whole position -/

/-- an exit of the whole position, triggered after it was opened; everything but the filters and the
books -/
structure ExitDue (command : MarketExitCommand) (account : AccountState) (plan : ExitPlan)
    (p : PositionState) : Prop where
  experiment : account.experimentId = command.experimentId
  position : account.positions.get? command.symbol = some p
  isOpen : ¬ p.isFlat .exact
  status : plan.status = .triggered
  wellFormed : plan.WellFormed
  matched : PaperBroker.intentMatches .exact command plan p
  triggered : ∀ t ∈ p.openedAt, t ≤ command.intent.triggeredAt
  filterSymbol : command.exchangeFilters.symbol = command.symbol
  latency : 0 < command.executionLatency
  clientOrderId : command.clientOrderId ≠ ""
  expiry : command.createdAt < command.expiresAt
  fee : 0 ≤ command.takerFeeRate ∧ command.takerFeeRate ≤ 1
  price : 0 < command.decisionExecutablePrice

variable {command : MarketExitCommand}

theorem PaperBroker.executeMarketExit_admits {A : Arith} {plan : ExitPlan}
    (hp : account.positions.get? command.symbol = some p)
    (h : broker.executeMarketExit A command account plan books = .ok r) :
    command.exchangeFilters.admits A command.intent.side (p.quantity A)
    command.decisionExecutablePrice := by
  simp only [executeMarketExit, AccountState.position, bind_eq_ok, raiseIf_eq_ok, orRaise_eq_ok,
    catchFilter_eq_ok, not_not, ne_eq] at h
  obtain ⟨_, _, p', hp', _, _, _, _, _, hm, _, _, prepared, hprep, _, hq, _⟩ := h
  rw [hp, Option.some.injEq] at hp'
  subst hp'
  rw [hm.2.2.1] at hprep
  exact ⟨prepared, hprep, hq⟩

theorem ExitDue.flat {plan : ExitPlan} (hv : account.Valid) (hdue : ExitDue command account plan p)
    (h : broker.executeMarketExit .exact command account plan books = .ok r) :
    ∃ next q, r.record.account = some next ∧ next.positions.get? command.symbol = some q ∧
        q.isFlat .exact := by
  obtain ⟨p', next, closed, hx⟩ := PaperBroker.executeMarketExit_cases h
  obtain rfl : p' = p := Option.mem_unique hx.position hdue.position
  obtain ⟨_, q, hq, hflat⟩ := AccountState.applyFill_valid hv
    (fun _ x hx' => by rw [hdue.position, Option.some.injEq] at hx'; rw [hx.quantity, hx'])
      hx.filled
  exact ⟨next, q, hx.record.1, hq, hflat.mpr rfl⟩

theorem executeMarketExit_built_iff (broker : PaperBroker) (filters : ExchangeFilterSnapshot)
    (command : MarketExitCommand) (account : AccountState) (plan : ExitPlan) (p : PositionState)
    (books : List BookSnapshot) (book : BookSnapshot)
    (hbuilt : Built broker filters command.symbol account)
    (hfilters : command.exchangeFilters = filters) (hdue : ExitDue command account plan p)
    (hbook : MarketFillEngine.earliest (PaperBroker.readyRequest command p) books = some book)
    (husable : broker.marketFills.Usable (PaperBroker.readyRequest command p) book)
    (hintime : book.observedAt < command.expiresAt) :
    (∃ r next q, broker.executeMarketExit .exact command account plan books = .ok r ∧
        r.record.account = some next ∧ next.positions.get? command.symbol = some q ∧
        q.isFlat .exact) ↔
      p.quantity .exact ≤ filters.maximumQuantity ∧
      filters.minimumNotional ≤ p.quantity .exact * command.decisionExecutablePrice := by
  obtain ⟨hv, hcur, hadm⟩ := hbuilt.admitted
  have hp := hadm p hdue.position
  obtain ⟨htrade, hmin, t, ht, hcap⟩ := hp.isOpen hdue.isOpen
  have hiff :
      filters.admits .exact command.intent.side (p.quantity .exact)
      command.decisionExecutablePrice ↔ _ :=
    ExchangeFilterSnapshot.admits_iff htrade hp.stepped hmin hdue.price
  rw [← hiff, ← hfilters]
  constructor
  · rintro ⟨r, next, q, hr, _⟩
    exact PaperBroker.executeMarketExit_admits hdue.position hr
  · intro hadmits
    have hready : PaperBroker.ExitReady command account plan p :=
      ⟨hv, hdue.experiment, hdue.position, hdue.isOpen, hdue.status, hdue.wellFormed, hdue.matched,
        hfilters ▸ (hcap.trans_le (hdue.triggered t ht)).le, hdue.filterSymbol, hadmits,
        hdue.latency, hdue.clientOrderId, hdue.expiry, hdue.fee, hdue.price, hcur⟩
    obtain ⟨r, hr, _⟩ := PaperBroker.executeMarketExit_exact hready hbook husable hintime
    obtain ⟨next, q, hnext, hq, hflat⟩ := hdue.flat hv hr
    exact ⟨r, next, q, hr, hnext, hq, hflat⟩

/-! ## ten bought at 100, to be sold at a half -/

namespace Demo

theorem filterSymbol_ne : "BTCUSDT" ≠ "" := by decide
theorem filterTypes_ne : [PaperOrderType.market] ≠ [] := by decide
theorem filterStep_pos : (0 : ℚ) < 1 := by decide
theorem staleness_pos : (0 : Time) < 5 := by decide
theorem deepBook_venue_le (t : ℕ) : (t : Time) ≤ t := le_rfl

def notionalFilters : ExchangeFilterSnapshot :=
  { symbol := "BTCUSDT", status := "TRADING", priceTick := 1, quantityStep := 1,
    minimumQuantity := 1, maximumQuantity := 15, minimumNotional := 10,
    supportedOrderTypes := [.market], capturedAt := 0, symbol_ne := filterSymbol_ne,
    priceTick_pos := filterStep_pos, quantityStep_pos := filterStep_pos,
    minimumQuantity_pos := filterStep_pos, maximumQuantity_pos := by decide,
    minimumNotional_pos := by decide, minimum_le_maximum := by decide,
    supportedOrderTypes_ne := filterTypes_ne }

theorem bid_pos (price : ℕ) : (0 : ℚ) < price + 1 / 4 := by positivity

theorem ask_pos (price : ℕ) : (0 : ℚ) < price + 1 / 2 := by positivity

def entryBroker : PaperBroker := ⟨⟨"key"⟩, ⟨5, staleness_pos⟩⟩

def deepBook (t price : Nat) : BookSnapshot :=
  { eventId := "book" ++ toString t, symbol := "BTCUSDT", venueEventAt := t, observedAt := t,
    sequence := t, bids := [⟨price + 1 / 4, 20, bid_pos price, by decide⟩],
    asks := [⟨price + 1 / 2, 20, ask_pos price, by decide⟩], markPrice := price + 1 / 2,
    eventId_ne := fun e => by simp at e, symbol_ne := filterSymbol_ne,
    venue_le := deepBook_venue_le t, bids_ne := by simp, asks_ne := by simp, bids_desc := by simp,
    asks_asc := by simp, not_crossed := by norm_num, markPrice_pos := ask_pos price }

def entryClaims : AuthorizationClaims :=
  ⟨⟨"uuid:experiment"⟩, ⟨"uuid:cycle"⟩, ⟨"uuid:proposal"⟩, ⟨"gates"⟩, "BTCUSDT", .buy,
    10, 2000, 10, 40⟩

def entryTen : MarketEntryCommand :=
  { orderId := ⟨"uuid:order"⟩, fillId := ⟨"uuid:fill"⟩, positionId := ⟨"uuid:position"⟩,
    exitPlanId := ⟨"uuid:plan"⟩, experimentId := ⟨"uuid:experiment"⟩,
    decisionCycleId := ⟨"uuid:cycle"⟩, proposalId := ⟨"uuid:proposal"⟩, gateChainHash := ⟨"gates"⟩,
    clientOrderId := "entry", symbol := "BTCUSDT", side := .buy, requestedQuantity := 10,
    approvedQuantity := 10, approvedNotional := 2000, decisionExecutablePrice := 100,
    decisionCompletedAt := 10, executionLatency := 1, createdAt := 10, expiresAt := 40,
    takerFeeRate := 0, expectedLossFraction := 1 / 10, expectedGainFraction := 1 / 10,
    capability := ⟨entryClaims, ⟨"key", entryClaims⟩⟩, exchangeFilters := notionalFilters }

def entryAccount : AccountState :=
  (AccountState.create ⟨"uuid:experiment"⟩ 10000 "USDT" 1).toOption.get (by decide +kernel)

def entryResult : PaperBrokerResult :=
  (entryBroker.executeMarketEntry .exact entryTen entryAccount [deepBook 20 99] none).toOption.get
    (by decide +kernel)

def heldAccount : AccountState := entryResult.record.account.get (by decide +kernel)

theorem heldAccount_built : Built entryBroker notionalFilters "BTCUSDT" heldAccount :=
  .entered (.created (eq_ok_of_toOption (Option.some_get _).symm)) rfl rfl
    (eq_ok_of_toOption (Option.some_get _).symm) (Option.some_get _).symm

def heldPlan : ExitPlan := entryResult.record.exitPlan.get (by decide +kernel)

def stopExit (price : ℚ) : MarketExitCommand :=
  { orderId := ⟨"uuid:exit"⟩, fillId := ⟨"uuid:exit-fill"⟩, experimentId := ⟨"uuid:experiment"⟩,
    proposalId := ⟨"uuid:proposal"⟩, clientOrderId := "exit", symbol := "BTCUSDT",
    decisionExecutablePrice := price, executionLatency := 1, createdAt := 50, expiresAt := 80,
    takerFeeRate := 0, intent := heldPlan.intentFor .stop 50 (some price),
    exchangeFilters := notionalFilters }

theorem stopExit_refused :
    Built entryBroker notionalFilters "BTCUSDT" heldAccount ∧
      entryBroker.executeMarketExit .exact (stopExit (1 / 2)) heldAccount
        (heldPlan.triggered .stop 50 (some (1 / 2)) (1 / 2)) [deepBook 60 0] =
        .error (.exitExecutionHalt "exchange_filter:notional_below_minimum" none) :=
  ⟨heldAccount_built, by decide +kernel⟩

def heldPosition : PositionState := (heldAccount.positions.get? "BTCUSDT").get (by decide +kernel)

theorem stopExit_due :
    ExitDue (stopExit 50) heldAccount (heldPlan.triggered .stop 50 (some 50) 50) heldPosition where
  experiment := by decide +kernel
  position := (Option.some_get _).symm
  isOpen := by decide +kernel
  status := rfl
  wellFormed := ExitPlan.triggered_wellFormed .stop (by decide +kernel) (by decide) (by decide)
  matched := by decide +kernel
  triggered := by decide +kernel
  filterSymbol := rfl
  latency := by decide
  clientOrderId := by decide
  expiry := by decide
  fee := by decide
  price := by decide

theorem executeMarketExit_built_iff_held :
    (∃ r next q, entryBroker.executeMarketExit .exact (stopExit 50) heldAccount
        (heldPlan.triggered .stop 50 (some 50) 50) [deepBook 60 50] = .ok r ∧
        r.record.account = some next ∧ next.positions.get? "BTCUSDT" = some q ∧ q.isFlat .exact) ↔
      heldPosition.quantity .exact ≤ 15 ∧ 10 ≤ heldPosition.quantity .exact * 50 :=
  executeMarketExit_built_iff entryBroker notionalFilters (stopExit 50) heldAccount
    (heldPlan.triggered .stop 50 (some 50) 50) heldPosition [deepBook 60 50] (deepBook 60 50)
    heldAccount_built rfl stopExit_due (by decide +kernel) (by decide +kernel) (by decide +kernel)

end Demo

end Maais
