import Maais.Lib.Run
import Maais.Paper.Fills
import Maais.Paper.Orders

/-!
# The queue of a limit order

A limit order waits behind the quantity that was displayed at its price, and takes a tenth of what
trades through it afterwards.

* `advance_cases`  what a trade can do: nothing, expire the order, move the sequence on, or be
  consumed;
* `Journal`  the queue of a run with what it emitted and the trades it consumed;
* `Kept`  what every run keeps, and `limit_queue_kept` that it does;
* `Follows`  an order into which the emitted fills are replayed follows the queue.
-/

namespace Maais
open Lib

@[ext] structure TradePrint where
  eventId : String
  symbol : String
  venueEventAt : Time
  observedAt : Time
  sequence : Nat
  price : ℚ
  quantity : ℚ
  aggressorSide : PaperOrderSide
  eventId_ne : eventId ≠ ""
  symbol_ne : symbol ≠ ""
  venue_le : venueEventAt ≤ observedAt
  price_pos : 0 < price
  quantity_pos : 0 < quantity

instance : DecidableEq TradePrint := fun _ _ => decidable_of_iff _ TradePrint.ext_iff.symm

structure LimitFill where
  marketEventId : String
  fillAt : Time
  quantity : ℚ
  price : ℚ
  fee : ℚ

structure LimitQueueState where
  orderId : UUID
  symbol : String
  side : PaperOrderSide
  limitPrice : ℚ
  requestedQuantity : ℚ
  filledQuantity : ℚ
  queueAhead : ℚ
  eligibleAfter : Time
  expiresAt : Time
  makerFeeRate : ℚ
  status : PaperOrderStatus
  lastSequence : Nat

namespace LimitQueueState

def remainingQuantity (A : Arith) (s : LimitQueueState) : ℚ :=
  A.sub s.requestedQuantity s.filledQuantity

def restingLevels (book : BookSnapshot) : PaperOrderSide → List BookLevel
  | .buy => book.bids
  | .sell => book.asks

def fromBook (orderId : UUID) (side : PaperOrderSide) (limitPrice quantity : ℚ)
    (eligibleAfter expiresAt : Time) (makerFeeRate : ℚ) (book : BookSnapshot) :
    Py LimitQueueState := do
  requirePositiveDecimal limitPrice "limit_price"
  requirePositiveDecimal quantity "quantity"
  raiseIf (expiresAt ≤ eligibleAfter) (.valueError "expires_at must follow eligible_after")
  raiseIf (makerFeeRate < 0 ∨ makerFeeRate > 1)
    (.valueError "maker_fee_rate must be a finite Decimal in [0, 1]")
  let ahead := (restingLevels book side).find? (fun level => decide (level.price = limitPrice))
  return { orderId, symbol := book.symbol, side, limitPrice, requestedQuantity := quantity,
           filledQuantity := 0, queueAhead := (ahead.map (·.quantity)).getD 0, eligibleAfter,
           expiresAt, makerFeeRate, status := .accepted, lastSequence := book.sequence }

def qualifies (s : LimitQueueState) (trade : TradePrint) : Prop :=
  s.side = .buy ∧ trade.aggressorSide = .sell ∧ trade.price < s.limitPrice ∨
    s.side = .sell ∧ trade.aggressorSide = .buy ∧ trade.price > s.limitPrice

instance (s : LimitQueueState) (trade : TradePrint) : Decidable (s.qualifies trade) := by
  unfold qualifies
  infer_instance

def consumed (s : LimitQueueState) (trade : TradePrint) : ℚ :=
  if 0 < s.queueAhead then min s.queueAhead trade.quantity else 0

def fillQuantity (A : Arith) (s : LimitQueueState) (trade : TradePrint) : ℚ :=
  min (s.remainingQuantity A) (A.mul (A.sub trade.quantity (s.consumed trade)) (1 / 10))

/-- `advance_limit_queue`: the next state and the fills -/
def advanceLimitQueue (A : Arith) (s : LimitQueueState) (trade : TradePrint) :
    LimitQueueState × List LimitFill :=
  if s.status.terminal then (s, [])
  else if trade.symbol ≠ s.symbol then (s, [])
  else if trade.observedAt ≥ s.expiresAt then
    ({ s with status := .expired, lastSequence := trade.sequence }, [])
  else if trade.observedAt ≤ s.eligibleAfter ∨ trade.sequence ≤ s.lastSequence then (s, [])
  else if ¬ s.qualifies trade then ({ s with lastSequence := trade.sequence }, [])
  else
    let queueAhead := A.sub s.queueAhead (s.consumed trade)
    let fillQuantity := s.fillQuantity A trade
    if fillQuantity ≤ 0 then ({ s with queueAhead, lastSequence := trade.sequence }, [])
    else
      let cumulative := A.add s.filledQuantity fillQuantity
      let status := if cumulative = s.requestedQuantity then .filled else .partiallyFilled
      ({ s with filledQuantity := cumulative, queueAhead, status, lastSequence := trade.sequence },
        [{ marketEventId := trade.eventId, fillAt := trade.observedAt, quantity := fillQuantity,
           price := trade.price, fee := A.mul (A.mul fillQuantity trade.price) s.makerFeeRate }])

/-! ## what a trade can do -/

/-- a trade that the queue consumes: new, in time and through the limit -/
structure Counts (s : LimitQueueState) (trade : TradePrint) : Prop where
  live : ¬ s.status.terminal
  symbol : trade.symbol = s.symbol
  before : trade.observedAt < s.expiresAt
  after : s.eligibleAfter < trade.observedAt
  new : s.lastSequence < trade.sequence
  through : s.qualifies trade

theorem counts_iff (s : LimitQueueState) (trade : TradePrint) :
    s.Counts trade ↔ ¬ s.status.terminal ∧ trade.symbol = s.symbol ∧
    trade.observedAt < s.expiresAt ∧ s.eligibleAfter < trade.observedAt ∧
    s.lastSequence < trade.sequence ∧ s.qualifies trade :=
  ⟨fun h => ⟨h.1, h.2, h.3, h.4, h.5, h.6⟩,
    fun ⟨h1, h2, h3, h4, h5, h6⟩ => ⟨h1, h2, h3, h4, h5, h6⟩⟩

instance (s : LimitQueueState) (trade : TradePrint) : Decidable (s.Counts trade) :=
  decidable_of_iff' _ (counts_iff s trade)

def filledBy (s : LimitQueueState) (trade : TradePrint) (quantity : ℚ) : LimitQueueState :=
  { s with
    filledQuantity := s.filledQuantity + quantity
    queueAhead := s.queueAhead - s.consumed trade
    status := if s.filledQuantity + quantity = s.requestedQuantity then
      .filled else .partiallyFilled
    lastSequence := trade.sequence }

def fillOf (s : LimitQueueState) (trade : TradePrint) (quantity : ℚ) : LimitFill :=
  ⟨trade.eventId, trade.observedAt, quantity, trade.price, quantity * trade.price * s.makerFeeRate⟩

inductive Effect (s : LimitQueueState) (trade : TradePrint) :
    LimitQueueState × List LimitFill → Prop
  | ignored (h : ¬ s.Counts trade) : Effect s trade (s, [])
  | expired (h : ¬ s.Counts trade) (hlive : ¬ s.status.terminal)
      (hlate : s.expiresAt ≤ trade.observedAt) :
      Effect s trade ({ s with status := .expired, lastSequence := trade.sequence }, [])
  | passed (h : ¬ s.Counts trade) (hlive : ¬ s.status.terminal)
      (hnew : s.lastSequence < trade.sequence) :
      Effect s trade ({ s with lastSequence := trade.sequence }, [])
  | queued (h : s.Counts trade) (hnone : s.fillQuantity .exact trade ≤ 0) :
      Effect s trade
      ({ s with queueAhead := s.queueAhead - s.consumed trade, lastSequence := trade.sequence }, [])
  | filled (h : s.Counts trade) (hsome : 0 < s.fillQuantity .exact trade) :
      Effect s trade
      (s.filledBy trade (s.fillQuantity .exact trade),
      [s.fillOf trade (s.fillQuantity .exact trade)])

theorem advance_cases (s : LimitQueueState) (trade : TradePrint) :
    Effect s trade (s.advanceLimitQueue .exact trade) := by
  unfold advanceLimitQueue
  by_cases hterm : s.status.terminal
  · rw [if_pos hterm]
    exact .ignored fun h => h.live hterm
  rw [if_neg hterm]
  by_cases hsym : trade.symbol ≠ s.symbol
  · rw [if_pos hsym]
    exact .ignored fun h => hsym h.symbol
  rw [if_neg hsym]
  by_cases hlate : trade.observedAt ≥ s.expiresAt
  · rw [if_pos hlate]
    exact .expired (fun h => absurd h.before (not_lt.mpr hlate)) hterm hlate
  rw [if_neg hlate]
  by_cases hold : trade.observedAt ≤ s.eligibleAfter ∨ trade.sequence ≤ s.lastSequence
  · rw [if_pos hold]
    exact .ignored fun h =>
      hold.elim (fun h' => absurd h.after (not_lt.mpr h')) (fun h' => absurd h.new (not_lt.mpr h'))
  rw [if_neg hold]
  obtain ⟨hafter, hnew⟩ := not_or.mp hold
  by_cases hq : ¬ s.qualifies trade
  · rw [if_pos hq]
    exact .passed (fun h => hq h.through) hterm (not_le.mp hnew)
  rw [if_neg hq]
  have hcounts : s.Counts trade :=
    ⟨hterm, not_not.mp hsym, not_le.mp hlate, not_le.mp hafter, not_le.mp hnew, not_not.mp hq⟩
  dsimp only
  by_cases hnone : s.fillQuantity .exact trade ≤ 0
  · rw [if_pos hnone]
    exact .queued hcounts hnone
  · rw [if_neg hnone]
    exact .filled hcounts (not_le.mp hnone)

section
variable {s : LimitQueueState} {trade : TradePrint}

theorem consumed_nonneg (s : LimitQueueState) (trade : TradePrint) : 0 ≤ s.consumed trade := by
  unfold consumed
  split
  · rename_i h
    exact le_min h.le trade.quantity_pos.le
  · exact le_rfl

theorem consumed_add_fill_le (s : LimitQueueState) (trade : TradePrint) :
    s.consumed trade + 10 * s.fillQuantity .exact trade ≤ trade.quantity := by
  have hle : s.fillQuantity .exact trade ≤ (trade.quantity - s.consumed trade) * (1 / 10) :=
    min_le_right _ _
  linarith

theorem consumed_le (s : LimitQueueState) (trade : TradePrint) :
    s.consumed trade ≤ trade.quantity := by
  unfold consumed
  split
  · exact min_le_right _ _
  · exact trade.quantity_pos.le

theorem fillQuantity_le (s : LimitQueueState) (trade : TradePrint) :
    s.fillQuantity .exact trade ≤ s.requestedQuantity - s.filledQuantity := min_le_left _ _

theorem advance_old (hbefore : trade.observedAt < s.expiresAt)
    (hold : trade.sequence ≤ s.lastSequence) : s.advanceLimitQueue .exact trade = (s, []) := by
  unfold advanceLimitQueue
  split_ifs with h1 h2 h3 h4
  · rfl
  · rfl
  · exact absurd hbefore (not_lt.mpr h3)
  · rfl
  all_goals exact absurd (Or.inr hold) h4

theorem advance_queueAhead_le (s : LimitQueueState) (trade : TradePrint) :
    (s.advanceLimitQueue .exact trade).1.queueAhead ≤ s.queueAhead := by
  have hnonneg := consumed_nonneg s trade
  generalize hout : s.advanceLimitQueue .exact trade = out
  rcases hout ▸ advance_cases s trade with _ | _ | _ | _ | _
  · exact le_rfl
  · exact le_rfl
  · exact le_rfl
  · exact sub_le_self _ hnonneg
  · exact sub_le_self _ hnonneg

end

/-! ## runs -/

structure Journal where
  state : LimitQueueState
  fills : List LimitFill
  trades : List TradePrint

def Journal.step (j : Journal) (trade : TradePrint) : Journal :=
  let out := j.state.advanceLimitQueue .exact trade
  { state := out.1, fills := j.fills ++ out.2, trades := if j.state.Counts trade then
    j.trades ++ [trade] else j.trades }

/-- the calls of `advance_limit_queue` on observed trades, one after the other -/
def journal (s : LimitQueueState) (trades : List TradePrint) : Journal :=
  run Journal.step ⟨s, [], []⟩ trades

structure SameTerms (s₀ s : LimitQueueState) : Prop where
  orderId : s.orderId = s₀.orderId
  symbol : s.symbol = s₀.symbol
  side : s.side = s₀.side
  limitPrice : s.limitPrice = s₀.limitPrice
  requestedQuantity : s.requestedQuantity = s₀.requestedQuantity
  eligibleAfter : s.eligibleAfter = s₀.eligibleAfter
  expiresAt : s.expiresAt = s₀.expiresAt
  makerFeeRate : s.makerFeeRate = s₀.makerFeeRate

/-- a trade strictly through the limit, between eligibility and expiry -/
structure Through (s₀ : LimitQueueState) (trade : TradePrint) : Prop where
  symbol : trade.symbol = s₀.symbol
  after : s₀.eligibleAfter < trade.observedAt
  before : trade.observedAt < s₀.expiresAt
  through : s₀.qualifies trade

theorem SameTerms.through {s₀ s : LimitQueueState} {trade : TradePrint} (h : SameTerms s₀ s)
    (hc : s.Counts trade) : Through s₀ trade := by
  have hthrough := hc.through
  unfold qualifies at hthrough
  rw [h.side, h.limitPrice] at hthrough
  exact ⟨h.symbol ▸ hc.symbol, h.eligibleAfter ▸ hc.after, h.expiresAt ▸ hc.before, hthrough⟩

structure Follows (s : LimitQueueState) (o : PaperOrder) : Prop where
  quantity : o.quantity = s.requestedQuantity
  filled : o.filledQuantity = s.filledQuantity
  status : s.status ≠ .expired → o.status = s.status
  version : o.version = o.events.length

/-- what holds in every run from a state of `from_book` -/
structure Inv (s₀ : LimitQueueState) (j : Journal) : Prop where
  terms : SameTerms s₀ j.state
  filled_le : j.state.filledQuantity ≤ j.state.requestedQuantity
  live : j.state.status = .accepted ∨ j.state.status = .partiallyFilled ∨ j.state.status = .filled ∨
    j.state.status = .expired
  volume : s₀.queueAhead - j.state.queueAhead + 10 * j.state.filledQuantity ≤
    (j.trades.map (·.quantity)).sum
  /-- an expiry may move the sequence back, but then nothing counts any more -/
  seen : ¬ j.state.status.terminal → ∀ trade ∈ j.trades, trade.sequence ≤ j.state.lastSequence
  increasing : j.trades.Pairwise (fun a b => a.sequence < b.sequence)
  through : ∀ trade ∈ j.trades, Through s₀ trade
  emitted : ∀ fill ∈ j.fills, ∃ trade ∈ j.trades, fill.marketEventId = trade.eventId ∧
    fill.fillAt = trade.observedAt ∧ fill.price = trade.price
  replayed : ∀ o, Follows s₀ o →
    ∃ o', j.fills.foldlM (fun o fill => o.applyFill .exact fill.quantity fill.fillAt) o = .ok o' ∧
    Follows j.state o'

section
variable {s s₀ : LimitQueueState} {trade : TradePrint} {j : Journal} {o : PaperOrder}

theorem filledBy_status (s : LimitQueueState) (trade : TradePrint) (q : ℚ) :
    (s.filledBy trade q).status = .filled ∨ (s.filledBy trade q).status = .partiallyFilled := by
  unfold filledBy
  dsimp only
  split
  · exact .inl rfl
  · exact .inr rfl

/-- a fill of the queue is accepted by an order that follows it, and the order follows the next
state -/
theorem Follows.applyFill {q : ℚ} (h : Follows s o)
    (hopen : s.status = .accepted ∨ s.status = .partiallyFilled) (hq : 0 < q)
    (hle : q ≤ s.requestedQuantity - s.filledQuantity) (t : Time) :
    ∃ o', o.applyFill .exact q t = .ok o' ∧ Follows (s.filledBy trade q) o' := by
  have hstatus : o.status = s.status := h.status (by rcases hopen with h | h <;> rw [h] <;> decide)
  have hfills : ¬ (o.status ≠ .accepted ∧ o.status ≠ .partiallyFilled) := by
    rw [hstatus]
    rcases hopen with h | h <;> simp [h]
  have hterm : ¬ o.status.terminal := by
    rw [hstatus]
    rcases hopen with h | h <;> simp [h, PaperOrderStatus.terminal]
  have hfits : ¬ q > o.remainingQuantity .exact := by
    rw [PaperOrder.remainingQuantity, Arith.exact_sub, h.quantity, h.filled]
    exact not_lt.mpr hle
  have hrest : Arith.exact.add o.filledQuantity q = s.filledQuantity +
    q := by rw [Arith.exact_add, h.filled]
  rw [PaperOrder.applyFill, raiseIf_bind_neg hfills, requirePositiveDecimal,
    raiseIf_bind_neg (not_le.mpr hq), raiseIf_bind_neg hfits]
  dsimp only
  rw [PaperOrder.transition, raiseIf_bind_neg hterm, pure_eq_ok, ok_bind]
  refine ⟨_, rfl, h.quantity, hrest, fun _ => ?_, ?_⟩
  · show (if _ = o.quantity then PaperOrderStatus.filled else .partiallyFilled) = _
    rw [hrest, h.quantity]
    rfl
  · show o.version + 1 = (o.events ++ [_]).length
    rw [List.length_append, h.version]
    rfl

theorem step_of_not_counts (h : ¬ j.state.Counts trade) :
    j.step trade =
      ⟨(j.state.advanceLimitQueue .exact trade).1,
      j.fills ++ (j.state.advanceLimitQueue .exact trade).2, j.trades⟩ := by
  rw [Journal.step, if_neg h]

theorem step_of_counts (h : j.state.Counts trade) :
    j.step trade =
      ⟨(j.state.advanceLimitQueue .exact trade).1,
      j.fills ++ (j.state.advanceLimitQueue .exact trade).2, j.trades ++ [trade]⟩ := by
  rw [Journal.step, if_pos h]

/-- an order that follows the state of a run also follows a state that differs in the sequence and
the queue only -/
theorem Follows.same {s' : LimitQueueState} (h : Follows s o)
    (hr : s'.requestedQuantity = s.requestedQuantity) (hf : s'.filledQuantity = s.filledQuantity)
    (hs : s'.status = s.status ∨ s'.status = .expired) : Follows s' o := by
  refine ⟨h.quantity.trans hr.symm, h.filled.trans hf.symm, fun hne => ?_, h.version⟩
  rcases hs with hs | hs
  · rw [hs] at hne ⊢
    exact h.status hne
  · exact absurd hs hne

theorem Inv.consume (h : Inv s₀ j) (hc : j.state.Counts trade) :
    (j.trades ++ [trade]).Pairwise (fun a b => a.sequence < b.sequence) ∧
      (∀ x ∈ j.trades ++ [trade], x.sequence ≤ trade.sequence) ∧
      ∀ x ∈ j.trades ++ [trade], Through s₀ x := by
  have hseen : ∀ x ∈ j.trades, x.sequence < trade.sequence :=
    fun x hx => lt_of_le_of_lt (h.seen hc.live x hx) hc.new
  refine ⟨List.pairwise_append.mpr ⟨h.increasing, List.pairwise_singleton _ _, ?_⟩, ?_, ?_⟩
  · intro a ha b hb
    rw [List.mem_singleton.mp hb]
    exact hseen a ha
  · intro x hx
    rcases List.mem_append.mp hx with hx | hx
    · exact (hseen x hx).le
    · rw [List.mem_singleton.mp hx]
  · intro x hx
    rcases List.mem_append.mp hx with hx | hx
    · exact h.through x hx
    · rw [List.mem_singleton.mp hx]
      exact h.terms.through hc

theorem Inv.open (h : Inv s₀ j) (hlive : ¬ j.state.status.terminal) :
    j.state.status = .accepted ∨ j.state.status = .partiallyFilled := by
  rcases h.live with hs | hs | hs | hs
  · exact .inl hs
  · exact .inr hs
  · exact absurd (.inl hs) hlive
  · exact absurd (.inr (.inr (.inr hs))) hlive

theorem sum_concat (l : List TradePrint) (trade : TradePrint) :
    ((l ++ [trade]).map (·.quantity)).sum = (l.map (·.quantity)).sum + trade.quantity := by
  simp

theorem Inv.step (h : Inv s₀ j) (trade : TradePrint) : Inv s₀ (j.step trade) := by
  have hconsumed := consumed_le j.state trade
  have hshare := consumed_add_fill_le j.state trade
  obtain ⟨t1, t2, t3, t4, t5, t6, t7, t8⟩ := h.terms
  generalize hout : j.state.advanceLimitQueue .exact trade = out
  rcases hout ▸ advance_cases j.state trade with hc | ⟨hc, hlive, hlate⟩ | ⟨hc, hlive, hnew⟩ | ⟨hc,
    hnone⟩ | ⟨hc, hsome⟩
  · rw [step_of_not_counts hc, hout, List.append_nil]
    exact h
  · rw [step_of_not_counts hc, hout, List.append_nil]
    refine ⟨⟨t1, t2, t3, t4, t5, t6, t7, t8⟩, h.filled_le, .inr (.inr (.inr rfl)), h.volume,
      fun hnot => absurd (.inr (.inr (.inr rfl))) hnot, h.increasing, h.through, h.emitted,
      fun o ho => ?_⟩
    obtain ⟨o', ho', hf⟩ := h.replayed o ho
    exact ⟨o', ho', hf.same rfl rfl (.inr rfl)⟩
  · rw [step_of_not_counts hc, hout, List.append_nil]
    refine ⟨⟨t1, t2, t3, t4, t5, t6, t7, t8⟩, h.filled_le, h.live, h.volume,
      fun hnot x hx => (h.seen hnot x hx).trans hnew.le, h.increasing, h.through, h.emitted,
      fun o ho => ?_⟩
    obtain ⟨o', ho', hf⟩ := h.replayed o ho
    exact ⟨o', ho', hf.same rfl rfl (.inl rfl)⟩
  · rw [step_of_counts hc, hout, List.append_nil]
    obtain ⟨hinc, hseen, hthrough⟩ := h.consume hc
    refine ⟨⟨t1, t2, t3, t4, t5, t6, t7, t8⟩, h.filled_le, h.live, ?_, fun _ => hseen, hinc,
      hthrough, ?_, fun o ho => ?_⟩
    · rw [sum_concat]
      dsimp only
      linarith [h.volume]
    · intro fill hfill
      obtain ⟨x, hx, heq⟩ := h.emitted fill hfill
      exact ⟨x, List.mem_append_left _ hx, heq⟩
    · obtain ⟨o', ho', hf⟩ := h.replayed o ho
      exact ⟨o', ho', hf.same rfl rfl (.inl rfl)⟩
  · rw [step_of_counts hc, hout]
    obtain ⟨hinc, hseen, hthrough⟩ := h.consume hc
    have hfits := fillQuantity_le j.state trade
    refine ⟨⟨t1, t2, t3, t4, t5, t6, t7, t8⟩, ?_, ?_, ?_, fun _ => hseen, hinc, hthrough, ?_,
      fun o ho => ?_⟩
    · show j.state.filledQuantity + _ ≤ j.state.requestedQuantity
      linarith
    · exact (filledBy_status j.state trade _).elim (fun hs => .inr (.inr (.inl hs)))
        (fun hs => .inr (.inl hs))
    · rw [sum_concat]
      show s₀.queueAhead - (j.state.queueAhead - _) + 10 * (j.state.filledQuantity + _) ≤ _
      linarith [h.volume]
    · intro fill hfill
      rcases List.mem_append.mp hfill with hfill | hfill
      · obtain ⟨x, hx, heq⟩ := h.emitted fill hfill
        exact ⟨x, List.mem_append_left _ hx, heq⟩
      · rw [List.mem_singleton.mp hfill]
        exact ⟨trade, List.mem_append_right _ (List.mem_singleton_self _), rfl, rfl, rfl⟩
    · obtain ⟨o', ho', hf⟩ := h.replayed o ho
      obtain ⟨o'', ho'', hf'⟩ := hf.applyFill (h.open hc.live) hsome hfits trade.observedAt
      refine ⟨o'', ?_, hf'⟩
      rw [List.foldlM_append, ho', ok_bind, List.foldlM_cons]
      show (o'.applyFill .exact (j.state.fillQuantity .exact trade) trade.observedAt >>= _) = _
      rw [ho'', ok_bind]
      rfl

theorem fromBook_eq {orderId : UUID} {side : PaperOrderSide} {limitPrice quantity makerFeeRate : ℚ}
    {eligibleAfter expiresAt : Time} {book : BookSnapshot}
    (h : fromBook orderId side limitPrice quantity eligibleAfter expiresAt makerFeeRate book =
    .ok s₀) : s₀.filledQuantity = 0 ∧ 0 < s₀.requestedQuantity ∧ s₀.status = .accepted := by
  simp only [fromBook, bind_eq_ok, requirePositiveDecimal_eq_ok, pure_ok_iff] at h
  obtain ⟨_, _, _, hq, _, _, _, _, rfl⟩ := h
  exact ⟨rfl, hq, rfl⟩

theorem Inv.start (h0 : s₀.filledQuantity = 0) (hq : 0 < s₀.requestedQuantity)
    (hs : s₀.status = .accepted) : Inv s₀ ⟨s₀, [], []⟩ where
  terms := ⟨rfl, rfl, rfl, rfl, rfl, rfl, rfl, rfl⟩
  filled_le := by
    rw [h0]
    exact hq.le
  live := .inl hs
  volume := by simp [h0]
  seen := fun _ x hx => nomatch hx
  increasing := List.Pairwise.nil
  through := fun x hx => nomatch hx
  emitted := fun x hx => nomatch hx
  replayed := fun o ho => ⟨o, rfl, ho⟩

theorem Inv.journal (h : Inv s₀ ⟨s₀, [], []⟩) (trades : List TradePrint) :
    Inv s₀ (s₀.journal trades) :=
  run_inv Journal.step (fun _ trade hj => hj.step trade) h trades

theorem journal_trades_sublist (s₀ : LimitQueueState) (trades : List TradePrint) :
    (s₀.journal trades).trades.Sublist trades := by
  have hstep : ∀ (l : List TradePrint) (j : Journal) (before : List TradePrint),
      j.trades.Sublist before → (run Journal.step j l).trades.Sublist (before ++ l) := by
    intro l
    induction l with
    | nil =>
      intro j before h
      rwa [List.append_nil]
    | cons trade l ih =>
      intro j before h
      rw [run_cons, ← List.singleton_append, ← List.append_assoc]
      refine ih _ _ ?_
      unfold Journal.step
      dsimp only
      split
      · exact h.append (List.Sublist.refl _)
      · exact h.trans (List.sublist_append_left _ _)
  exact hstep trades ⟨s₀, [], []⟩ [] (List.Sublist.refl _)

end

inductive AcceptedOrder (quantity : ℚ) (o : PaperOrder) : Prop
  | mk (c z : PaperOrder) (orderId experimentId proposalId : UUID) (clientOrderId : String)
      (commandHash : CommandContent) (symbol : String) (side : PaperOrderSide)
      (orderType : PaperOrderType) (effect : PositionEffect) (limitPrice : Option ℚ)
      (reduceOnly : Bool) (openQuantity : ℚ) (createdAt expiresAt authorizedAt acceptedAt : Time)
        (hc : PaperOrder.create orderId experimentId proposalId clientOrderId commandHash symbol
        side orderType effect quantity limitPrice reduceOnly openQuantity createdAt expiresAt =
        .ok c)
      (hz : c.authorize authorizedAt = .ok z) (ho : z.accept acceptedAt = .ok o)

theorem transition_version {o q : PaperOrder} {status : PaperOrderStatus} {e : String} {t : Time}
    {payload : OrderPayload} (h : o.transition status e t payload = .ok q)
    (hv : o.version = o.events.length) : q.version = q.events.length := by
  simp only [PaperOrder.transition, bind_eq_ok, pure_ok_iff] at h
  obtain ⟨_, _, rfl⟩ := h
  show o.version + 1 = (o.events ++ [_]).length
  rw [List.length_append, hv]
  rfl

theorem AcceptedOrder.follows {s₀ : LimitQueueState} {o : PaperOrder}
    (h : AcceptedOrder s₀.requestedQuantity o) (h0 : s₀.filledQuantity = 0)
    (hs : s₀.status = .accepted) : Follows s₀ o := by
  obtain ⟨c, z, _, _, _, _, _, _, _, _, _, _, _, _, _, _, _, _, hc, hz, ho⟩ := h
  obtain ⟨hz1, _, _, hzf⟩ := PaperOrder.authorize_eq hz
  obtain ⟨ho1, hstatus, _, hof⟩ := PaperOrder.accept_eq ho
  obtain ⟨_, _, _, _, _, _, _, _, hquantity, hfilled, _⟩ := PaperOrder.create_eq hc
  have hcv : c.version = c.events.length := by
    simp only [PaperOrder.create, bind_eq_ok, pure_ok_iff] at hc
    obtain ⟨_, _, _, _, _, _, _, _, rfl⟩ := hc
    rfl
  simp only [PaperOrder.authorize, bind_eq_ok] at hz
  obtain ⟨_, _, hz⟩ := hz
  simp only [PaperOrder.accept, bind_eq_ok] at ho
  obtain ⟨_, _, ho⟩ := ho
  exact ⟨ho1.quantity.trans (hz1.quantity.trans hquantity), by rw [hof, hzf, hfilled, h0],
    fun _ => hstatus.trans hs.symm, transition_version ho (transition_version hz hcv)⟩

structure Kept (s₀ : LimitQueueState) (trades : List TradePrint) : Prop where
  filled_le : (s₀.journal trades).state.filledQuantity ≤ s₀.requestedQuantity
  /-- the queue ahead never increases, whatever trade comes next -/
  ahead : ∀ trade, ((s₀.journal trades).state.advanceLimitQueue .exact trade).1.queueAhead ≤
    (s₀.journal trades).state.queueAhead
  /-- the trades consumed are trades of the run through the limit, none of them twice -/
  once : (s₀.journal trades).trades.Sublist trades ∧ (s₀.journal trades).trades.Nodup ∧
    ∀ trade ∈ (s₀.journal trades).trades, Through s₀ trade
  volume : s₀.queueAhead - (s₀.journal trades).state.queueAhead + 10 *
    (s₀.journal trades).state.filledQuantity ≤ ((s₀.journal trades).trades.map (·.quantity)).sum
  old : ∀ trade : TradePrint, trade.observedAt < s₀.expiresAt →
    trade.sequence ≤ (s₀.journal trades).state.lastSequence →
    (s₀.journal trades).state.advanceLimitQueue .exact trade = ((s₀.journal trades).state, [])
  fills : ∀ fill ∈ (s₀.journal trades).fills, ∃ trade ∈ trades, Through s₀ trade ∧
    fill.marketEventId = trade.eventId ∧ fill.fillAt = trade.observedAt ∧ fill.price = trade.price
  replay : ∀ o, AcceptedOrder s₀.requestedQuantity o → ∃ o',
    (s₀.journal trades).fills.foldlM (fun o fill => o.applyFill .exact fill.quantity fill.fillAt)
      o = .ok o' ∧ o'.filledQuantity = (s₀.journal trades).state.filledQuantity ∧
      ((s₀.journal trades).state.status ≠ .expired → o'.status = (s₀.journal trades).state.status) ∧
      o'.version = o'.events.length

/-- **what every run of a queue keeps**, whatever trades are observed and in whatever order -/
theorem limit_queue_kept (orderId : UUID) (side : PaperOrderSide) (limitPrice quantity : ℚ)
    (eligibleAfter expiresAt : Time) (makerFeeRate : ℚ) (book : BookSnapshot) (s₀ : LimitQueueState)
    (trades : List TradePrint)
    (h : fromBook orderId side limitPrice quantity eligibleAfter expiresAt makerFeeRate book =
    .ok s₀) : Kept s₀ trades := by
  obtain ⟨h0, hq, hs⟩ := fromBook_eq h
  have hinv := (Inv.start h0 hq hs).journal trades
  have hsub := journal_trades_sublist s₀ trades
  refine
    { filled_le := hinv.terms.requestedQuantity ▸ hinv.filled_le, ahead := advance_queueAhead_le _
      once :=
      ⟨hsub, hinv.increasing.imp (fun hlt heq => absurd (heq ▸ hlt) (lt_irrefl _)), hinv.through⟩
      volume := hinv.volume
      old := fun trade hb hold => advance_old (hinv.terms.expiresAt ▸ hb) hold
      fills := fun fill hfill => ?_
      replay := fun o ho => ?_ }
  · obtain ⟨trade, ht, heq⟩ := hinv.emitted fill hfill
    exact ⟨trade, hsub.subset ht, hinv.through trade ht, heq⟩
  · obtain ⟨o', ho', hf⟩ := hinv.replayed o (ho.follows h0 hs)
    exact ⟨o', ho', hf.filled, hf.status, hf.version⟩

namespace Demo

theorem btc_ne : "BTCUSDT" ≠ "" := by decide
theorem book_ne : "book" ≠ "" := by decide
theorem pos5 : (0 : ℚ) < 5 := by decide
theorem pos100 : (0 : ℚ) < 100 := by decide

def restingBook : BookSnapshot :=
  { eventId := "book", symbol := "BTCUSDT", venueEventAt := 0, observedAt := 0, sequence := 1,
    bids := [⟨100, 5, pos100, pos5⟩], asks := [⟨101, 5, by norm_num, pos5⟩], markPrice := 100,
    eventId_ne := book_ne, symbol_ne := btc_ne, venue_le := le_refl _, bids_ne := by simp,
    asks_ne := by simp, bids_desc := by simp, asks_asc := by simp, not_crossed := by norm_num,
    markPrice_pos := pos100 }

def sold (sequence : Nat) (price quantity : Nat) (hp : 0 < price)
    (hq : 0 < quantity) : TradePrint :=
  { eventId := "trade", symbol := "BTCUSDT", venueEventAt := 10 + sequence,
    observedAt := 10 + sequence, sequence, price, quantity, aggressorSide := .sell,
    eventId_ne := by decide, symbol_ne := btc_ne, venue_le := le_refl _,
    price_pos := natCast_pos hp, quantity_pos := natCast_pos hq }

/-- one at the limit, one through it and the same again, one that fills the rest, one after the
end -/
def soldThrough : List TradePrint :=
  [sold 2 100 50 (by decide) (by decide), sold 3 99 8 (by decide) (by decide),
    sold 3 99 8 (by decide) (by decide), sold 7 98 100 (by decide) (by decide),
    sold 95 90 10 (by decide) (by decide)]

def bidForTwo : Py LimitQueueState :=
  fromBook ⟨"uuid:order"⟩ .buy 100 2 10 100 (1 / 1000) restingBook

theorem bidForTwo_kept : ∃ s₀, bidForTwo = .ok s₀ ∧
    (s₀.journal soldThrough).fills.map (·.quantity) = [3 / 10, 17 / 10] ∧ Kept s₀ soldThrough := by
  obtain ⟨s₀, hs, hfills⟩ := exists_ok_of_any (x := bidForTwo)
    (p := fun s₀ => decide ((s₀.journal soldThrough).fills.map (·.quantity) = [3 / 10, 17 / 10]))
      (by decide +kernel)
  exact ⟨s₀, hs, of_decide_eq_true hfills, limit_queue_kept _ _ _ _ _ _ _ _ s₀ soldThrough hs⟩

end Demo

end LimitQueueState

end Maais
