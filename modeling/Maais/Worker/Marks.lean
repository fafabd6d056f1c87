import Maais.Worker.Deadlines

/-!
# The marks a flatten is planned from

The planner fixes its time, waits for the database, and only then reads the latest marks; the events
that are ingested meanwhile replace them.  `prepareFlatten` takes the buffer at the time of the
reading, so an interleaving is a split of the ingested events: those before the plan, those during
the load, those during the wait for books.

* `Saw`  what a buffer keeps of the marks it was shown;
* `latestAtOrBefore`  the mark a trigger should use;
* `prepare_uses_latest_iff`  when the planner does not miss it.
-/

set_option linter.unusedVariables false

namespace Maais
open Lib

abbrev ObservedMark := ObservedMarketEvent × MarkFundingPayload

def markOf (symbol : String) (e : ObservedMarketEvent) : Option ObservedMark :=
  match e.payload with
  | .markFunding mark => if e.symbol = symbol then some (e, mark) else none
  | _ => none

def marksOf (symbol : String) (events : List ObservedMarketEvent) : List ObservedMark :=
  events.filterMap (markOf symbol)

def latestAtOrBefore (symbol : String) (t : Time) (events : List ObservedMarketEvent) :
    Option ObservedMark :=
  ((marksOf symbol events).filter (fun m => m.1.observedAt ≤ t)).getLast?

theorem markOf_some {symbol : String} {e : ObservedMarketEvent} {m : ObservedMark}
    (h : markOf symbol e = some m) : m.1 = e ∧ e.symbol = symbol ∧
    e.payload = .markFunding m.2 := by
  unfold markOf at h
  split at h
  · rename_i mark hp
    split_ifs at h with hs
    cases h
    exact ⟨rfl, hs, hp⟩
  · cases h

theorem marksOf_append (symbol : String) (l l' : List ObservedMarketEvent) :
    marksOf symbol (l ++ l') = marksOf symbol l ++ marksOf symbol l' := List.filterMap_append

theorem marksOf_singleton (symbol : String) (e : ObservedMarketEvent) :
    marksOf symbol [e] = (markOf symbol e).toList := by
  unfold marksOf
  cases h : markOf symbol e <;> simp [h]

theorem mem_marksOf {symbol : String} {events : List ObservedMarketEvent} {m : ObservedMark} :
    m ∈ marksOf symbol events ↔ ∃ e ∈ events, markOf symbol e = some m := List.mem_filterMap

/-! ## what the buffer keeps -/

/-- the buffer keeps the last mark of every symbol; marks came in the order of their observation -/
structure ObservationBuffer.Saw (buffer : ObservationBuffer) (events : List ObservedMarketEvent) :
    Prop where
  latest : ∀ symbol, buffer.marks.get? symbol = (marksOf symbol events).getLast?
  ordered : ∀ symbol,
    (marksOf symbol events).Pairwise (fun m m' => m.1.observedAt ≤ m'.1.observedAt)

namespace ObservationBuffer

variable {cfg : WorkerConfig} {buffer next : ObservationBuffer} {events : List ObservedMarketEvent}
  {event : ObservedMarketEvent}

theorem Saw.empty : Saw .empty [] := ⟨fun _ => rfl, fun _ => .nil⟩

theorem Saw.other (h : Saw buffer events) (hm : ∀ symbol, markOf symbol event = none)
    (hn : next.marks = buffer.marks) : Saw next (events ++ [event]) := by
  have hsame : ∀ symbol, marksOf symbol (events ++ [event]) = marksOf symbol events := by
    intro symbol
    rw [marksOf_append, marksOf_singleton, hm symbol, Option.toList_none, List.append_nil]
  refine ⟨?_, ?_⟩
  · intro symbol
    rw [hn, hsame]
    exact h.latest symbol
  · intro symbol
    rw [hsame]
    exact h.ordered symbol

theorem le_last {l : List ObservedMark}
    (h : l.Pairwise (fun m m' => m.1.observedAt ≤ m'.1.observedAt)) {last : ObservedMark}
    (hl : l.getLast? = some last) {m : ObservedMark} (hm : m ∈ l) :
    m.1.observedAt ≤ last.1.observedAt := by
  obtain ⟨pre, rfl⟩ := List.getLast?_eq_some_iff.mp hl
  rw [List.pairwise_append] at h
  rcases List.mem_append.mp hm with hm | hm
  · exact h.2.2 m hm last (List.mem_singleton_self _)
  · rw [List.mem_singleton.mp hm]

variable {mark : MarkFundingPayload}

theorem replaceMark_cases (hp : event.payload = .markFunding mark)
    (hpay : ∀ previous, buffer.marks.get? event.symbol = some previous →
    previous.1.payload = .markFunding previous.2) (h : buffer.replaceMark event mark = .ok next) :
    next.marks.get? event.symbol = some (event, mark) ∧
      (∀ symbol, event.symbol ≠ symbol → next.marks.get? symbol = buffer.marks.get? symbol) ∧
      ∀ previous, buffer.marks.get? event.symbol = some previous →
          previous.1.observedAt ≤ event.observedAt := by
  unfold replaceMark at h
  split at h
  · rename_i hnone
    cases h
    exact ⟨Dict.get?_set_self ..,
      fun symbol hne => Dict.get?_set_of_ne _ (Ne.symm hne) _, by simp [hnone]⟩
  · rename_i previous hprev
    have hlast : ∀ previous', buffer.marks.get? event.symbol = some previous' →
        previous' = previous :=
      fun previous' hp' => (Option.mem_unique hprev hp').symm
    split_ifs at h with hid
    · rw [raiseIf_bind_eq_ok, pure_ok_iff, ne_eq, not_not] at h
      obtain ⟨hsame, rfl⟩ := h
      have hmark : previous.2 = mark := by
        have := hpay previous hprev
        rw [hsame, hp] at this
        exact (MarketPayload.markFunding.inj this).symm
      refine ⟨hprev.trans (congrArg some (Prod.ext hsame hmark)), fun _ _ => rfl, ?_⟩
      intro previous' hp'
      rw [hlast previous' hp', hsame]
    · rw [raiseIf_bind_eq_ok, pure_ok_iff] at h
      obtain ⟨hle, rfl⟩ := h
      refine ⟨Dict.get?_set_self .., fun symbol hne => Dict.get?_set_of_ne _ (Ne.symm hne) _, ?_⟩
      intro previous' hp'
      rw [hlast previous' hp']
      exact not_lt.mp hle

theorem Saw.replaceMark (h : Saw buffer events) (hp : event.payload = .markFunding mark)
    (hr : buffer.replaceMark event mark = .ok next) : Saw next (events ++ [event]) := by
  have hself : markOf event.symbol event = some (event, mark) := by simp [markOf, hp]
  have hother : ∀ symbol, event.symbol ≠ symbol → markOf symbol event = none := by
    intro symbol hne
    simp [markOf, hp, hne]
  have hkeep : ∀ symbol, event.symbol ≠ symbol → marksOf symbol (events ++ [event]) =
      marksOf symbol events := by
    intro symbol hne
    rw [marksOf_append, marksOf_singleton, hother symbol hne, Option.toList_none, List.append_nil]
  have hadd : marksOf event.symbol (events ++ [event]) = marksOf event.symbol events ++
      [(event, mark)] := by
    rw [marksOf_append, marksOf_singleton, hself, Option.toList_some]
  have hpay : ∀ previous, buffer.marks.get? event.symbol = some previous →
      previous.1.payload = .markFunding previous.2 := by
    intro previous hprev
    obtain ⟨e, _, he⟩ :=
      mem_marksOf.mp (List.mem_of_getLast? ((h.latest event.symbol).symm.trans hprev))
    obtain ⟨hfst, _, hpay⟩ := markOf_some he
    rw [hfst, hpay]
  obtain ⟨hnew, hrest, hle⟩ := replaceMark_cases hp hpay hr
  refine ⟨?_, ?_⟩
  · intro symbol
    by_cases hs : event.symbol = symbol
    · subst hs
      rw [hnew, hadd, List.getLast?_concat]
    · rw [hrest symbol hs, hkeep symbol hs]
      exact h.latest symbol
  · intro symbol
    by_cases hs : event.symbol = symbol
    · subst hs
      rw [hadd, List.pairwise_append]
      refine ⟨h.ordered _, List.pairwise_singleton .., ?_⟩
      intro m hm m' hm'
      rw [List.mem_singleton.mp hm']
      obtain ⟨last, hlast⟩ :=
        Option.isSome_iff_exists.mp (List.getLast?_isSome.mpr (List.ne_nil_of_mem hm))
      exact (le_last (h.ordered _) hlast hm).trans (hle last ((h.latest _).trans hlast))
    · rw [hkeep symbol hs]
      exact h.ordered symbol

theorem observeBook_marks {capacity : Nat} {book : OrderBookPayload}
    (h : buffer.observeBook capacity event book = .ok next) : next.marks = buffer.marks := by
  simp only [observeBook, bind_eq_ok, orRaise_eq_ok] at h
  obtain ⟨sequence, _, h⟩ := h
  split at h
  · rw [raiseIf_bind_eq_ok, pure_ok_iff] at h
    exact h.2 ▸ rfl
  · unfold appendBook at h
    split at h
    · cases h
      rfl
    · simp only [bind_eq_ok, pure_ok_iff] at h
      obtain ⟨added, _, rfl⟩ := h
      rfl

theorem Saw.observe (h : Saw buffer events) (ho : buffer.observe cfg event = .ok next) :
    Saw next (events ++ [event]) := by
  rw [ObservationBuffer.observe, raiseIf_bind_eq_ok] at ho
  obtain ⟨_, ho⟩ := ho
  split at ho
  · rename_i mark hp
    exact h.replaceMark hp ho
  · rename_i book hp
    exact h.other (fun symbol => by simp [markOf, hp]) (observeBook_marks ho)
  · rename_i hmark hbook
    cases ho
    refine h.other (fun symbol => ?_) rfl
    unfold markOf
    split
    · rename_i mark hp
      exact absurd hp (hmark mark)
    · rfl

/-- **the buffer of a run** knows the last mark of every symbol -/
theorem Saw.observeAll {more : List ObservedMarketEvent} (h : Saw buffer events)
    (ho : buffer.observeAll cfg more = .ok next) : Saw next (events ++ more) := by
  induction more generalizing buffer events with
  | nil =>
    cases ho
    rwa [List.append_nil]
  | cons event more ih =>
    rw [ObservationBuffer.observeAll, List.foldlM_cons, bind_eq_ok] at ho
    obtain ⟨seen, hseen, ho⟩ := ho
    have := ih (h.observe hseen) ho
    rwa [List.append_assoc] at this

theorem Saw.latestMark (h : Saw buffer events) (symbol : String) (t : Time) :
    buffer.latestMark symbol t =
      (((marksOf symbol events).getLast?).filter (fun m => m.1.observedAt ≤ t)).map
      (fun m => (m.2.markPrice, m.1)) := by
  rw [ObservationBuffer.latestMark, h.latest]

end ObservationBuffer

/-! ## no other function misses a mark -/

def Marked (e : PyError) : Prop := ∀ m, e ≠ .flattenPlanningError "flatten_missing_causal_mark" m

theorem marked_of_code {code message : String} (h : code ≠ "flatten_missing_causal_mark") :
    Marked (.flattenPlanningError code message) :=
  fun _ he => h (PyError.flattenPlanningError.inj he).1

section
variable {A : Arith} {cfg : WorkerConfig} {db : Database}

theorem requirePositiveDecimal_marked {value : ℚ} {field : String} :
    RaisesOnly Marked (requirePositiveDecimal value field) := .raiseIf nofun

theorem requireNonnegative_marked {value : ℚ} {field : String} :
    RaisesOnly Marked (requireNonnegative value field) := .raiseIf nofun

variable {a : AccountState} {symbol : String}

theorem AccountState.position_marked : RaisesOnly Marked (a.position symbol) :=
  .orRaise nofun

theorem ExecutionTables.loadAccount_marked {t : ExecutionTables} {idOrder : UUID → Nat}
    {e : ExecutionTables.ExperimentCapital} : RaisesOnly Marked (t.loadAccount A idOrder e) := by
  unfold loadAccount
  split
  · exact requirePositiveDecimal_marked.bind fun _ => .guard nofun <| .guard nofun .ok
  · exact .guard nofun .ok

theorem Database.loadFlattenSource_marked : RaisesOnly Marked (db.loadFlattenSource cfg) := by
  have horder : ∀ row, RaisesOnly Marked (db.execution.pendingOrder row) :=
    fun row => .guard nofun .ok
  have hpending : RaisesOnly Marked (db.loadPendingOrders cfg) :=
    RaisesOnly.mapM fun row => (horder row).bind fun _ => .ok
  have hlineage : ∀ p : PositionState, RaisesOnly Marked (do
      let proposalId ← db.execution.loadPositionEntryProposalId cfg.idOrder p.positionId
      return (p.positionId, proposalId)) := fun p => (RaisesOnly.orRaise nofun).bind fun _ => .ok
  exact ExecutionTables.loadAccount_marked.bind fun _ => hpending.bind fun _ =>
    (RaisesOnly.mapM hlineage).bind fun _ => .ok

/-! the broker -/

variable {side : PaperOrderSide}

theorem ExchangeFilterSnapshot.prepare_marked {filters : ExchangeFilterSnapshot}
    {orderType : PaperOrderType} {rq aq an : ℚ} {price : Option ℚ} :
    RaisesOnly Marked (filters.prepare A side orderType rq aq price an) := by
  have hprice : ∀ q, RaisesOnly Marked (priceAndNotional A filters side orderType q price) := by
    intro q
    unfold priceAndNotional
    split
    · exact (RaisesOnly.orRaise nofun).bind fun _ =>
        (requirePositiveDecimal_marked.bind fun _ => .ok).bind fun _ => .ok
    · exact (RaisesOnly.orRaise nofun).bind fun _ => requirePositiveDecimal_marked.bind fun _ => .ok
  exact .guard nofun <| .guard nofun <| requirePositiveDecimal_marked.bind fun _ =>
    requirePositiveDecimal_marked.bind fun _ => .guard nofun <|
      (requirePositiveDecimal_marked.bind fun _ => .ok).bind fun _ =>
        .guard nofun <| .guard nofun <| (hprice _).bind fun _ => .guard nofun <| .guard nofun .ok

theorem PaperOrder.transition_marked {o : PaperOrder} {status : PaperOrderStatus}
    {eventType : String} {t : Time} {payload : OrderPayload} :
    RaisesOnly Marked (o.transition status eventType t payload) := .guard nofun .ok

theorem PaperOrder.acceptedOrder_marked {orderId experimentId proposalId : UUID}
    {clientOrderId : String} {content : CommandContent} {effect : PositionEffect}
    {q openQuantity : ℚ} {reduceOnly : Bool} {createdAt expiresAt : Time} :
    RaisesOnly Marked
      (acceptedOrder orderId experimentId proposalId clientOrderId content symbol side effect q
      reduceOnly openQuantity createdAt expiresAt) := by
  have hkind : RaisesOnly Marked (checkKind .market effect q none reduceOnly openQuantity) :=
    .guard nofun <| .guard nofun <| .guard nofun <| .guard nofun <| .guard nofun <| .raiseIf nofun
  refine RaisesOnly.bind ?_ fun created => RaisesOnly.bind ?_ fun authorized => ?_
  · exact .guard nofun <| requirePositiveDecimal_marked.bind fun _ =>
      .guard nofun <| hkind.bind fun _ => .ok
  · exact .guard nofun transition_marked
  · exact .guard nofun transition_marked

variable {books : List BookSnapshot}

theorem MarketFillEngine.fill_marked {engine : MarketFillEngine} {request : MarketFillRequest} :
    RaisesOnly Marked (engine.fill A request books) := by
  have hwalk : ∀ levels q id, RaisesOnly Marked (walk A levels q id) :=
    fun levels q id => .guard nofun .ok
  refine (RaisesOnly.orRaise nofun).bind fun book =>
    .guard nofun <| (hwalk _ _ _).bind fun slices => ?_
  exact .guard nofun <| requirePositiveDecimal_marked.bind fun _ =>
      requirePositiveDecimal_marked.bind fun _ =>
    requirePositiveDecimal_marked.bind fun _ => .guard nofun <| .guard nofun <| .guard nofun <|
      .guard nofun <| .guard nofun .ok

theorem AccountState.reduce_marked {fillId positionId : UUID} {q price fee : ℚ} {t : Time} :
    RaisesOnly Marked (a.applyFill A fillId positionId symbol side .reduce q price fee t) := by
  have hclose : ∀ p : PositionState, RaisesOnly Marked (p.closeFill A q price fee t) := fun p =>
    requirePositiveDecimal_marked.bind fun _ => requirePositiveDecimal_marked.bind fun _ =>
      requireNonnegative_marked.bind fun _ => .guard nofun .ok
  have hfilled : RaisesOnly Marked (a.reducingFill A symbol side q price fee t) :=
    (RaisesOnly.orRaise nofun).bind fun p => .guard nofun <| .guard nofun <|
      (hclose p).bind fun _ => .ok
  exact requirePositiveDecimal_marked.bind fun _ => requirePositiveDecimal_marked.bind fun _ =>
    requireNonnegative_marked.bind fun _ => hfilled.bind fun _ => .guard nofun <| .guard nofun .ok

theorem ExitPlan.postInit_marked {plan : ExitPlan} : RaisesOnly Marked plan.postInit :=
  .guard nofun <| .guard nofun <| .guard nofun <| .guard nofun <| .guard nofun .ok

theorem PaperExecutionRecord.validate_marked {r : PaperExecutionRecord} :
    RaisesOnly Marked (r.validate A) := by
  have hplan : RaisesOnly Marked (r.validatePlan A) := by
    unfold validatePlan
    split
    · exact .ok
    · exact .error nofun
    · exact AccountState.position_marked.bind fun _ =>
        .guard nofun <| .guard nofun <| .raiseIf nofun
  exact .guard nofun <| .guard nofun <| .guard nofun <| .guard nofun <| .guard nofun <|
    .guard nofun <| .guard nofun hplan

theorem PaperBroker.executeMarketExit_marked {broker : PaperBroker} {command : MarketExitCommand}
    {plan : ExitPlan} : RaisesOnly Marked (broker.executeMarketExit A command a plan books) := by
  have hfilter : ∀ {x : Py PreparedOrder}, RaisesOnly Marked x →
      RaisesOnly Marked (catchFilter x) := by
    intro x hx
    unfold catchFilter
    split
    · exact .error nofun
    · exact hx
  have hcatch : ∀ {x : Py PaperFill}, RaisesOnly Marked x → RaisesOnly Marked (catchFill x) := by
    intro x hx
    unfold catchFill
    split
    · exact .error nofun
    · exact hx
  have heligible : ∀ t latency, RaisesOnly Marked (eligibility t latency) :=
    fun t latency => .guard nofun .ok
  have hrequest : ∀ r : MarketFillRequest, RaisesOnly Marked r.postInit := fun r =>
    .guard nofun <| requirePositiveDecimal_marked.bind fun _ =>
        requirePositiveDecimal_marked.bind fun _ =>
      .guard nofun .ok
  have horder : ∀ (o : PaperOrder) q t, RaisesOnly Marked (o.applyFill A q t) := fun o q t =>
    .guard nofun <| requirePositiveDecimal_marked.bind fun _ => .guard nofun <|
      PaperOrder.transition_marked.bind fun _ => .ok
  have hstored : ∀ f : ExecutionFillRecord, RaisesOnly Marked (f.postInit A) := fun f =>
    .guard nofun <| requirePositiveDecimal_marked.bind fun _ =>
        requirePositiveDecimal_marked.bind fun _ =>
      .guard nofun <| .guard nofun .ok
  have hsettle : ∀ position order fill,
      RaisesOnly Marked (settleExit A command a plan position order fill) :=
    fun position order fill => .guard nofun <| (horder _ _ _).bind fun _ =>
        AccountState.reduce_marked.bind fun _ =>
      (RaisesOnly.guard nofun ExitPlan.postInit_marked).bind fun _ => (hstored _).bind fun _ =>
        PaperExecutionRecord.validate_marked.bind fun _ => .ok
  exact .guard nofun <| AccountState.position_marked.bind fun _ => .guard nofun <| .guard nofun <|
    .guard nofun <| .guard nofun <| (hfilter ExchangeFilterSnapshot.prepare_marked).bind fun _ =>
      .guard nofun <| (heligible _ _).bind fun _ => PaperOrder.acceptedOrder_marked.bind fun _ =>
        (hrequest _).bind fun _ => (hcatch MarketFillEngine.fill_marked).bind fun _ => hsettle _ _ _

/-! the planner behind its triggers -/

namespace Database

variable {trigger : FlattenTrigger}

theorem flattenBooks_marked {buffer : ObservationBuffer} :
    RaisesOnly Marked (flattenBooks buffer trigger) := by
  have hbooks : RaisesOnly Marked (buffer.booksAfter trigger.symbol trigger.eligibleAfter) :=
    .guard nofun .ok
  unfold flattenBooks
  split
  · exact .ok
  · exact .error (marked_of_code (by decide))
  · rename_i he
    rw [he] at hbooks
    exact hbooks

theorem flattenStep_marked {commandId : UUID} {t : Time}
    {done : AccountState × List PaperExecutionRecord} {input : FlattenInput × List BookSnapshot} :
    RaisesOnly Marked (flattenStep cfg commandId t done input) := by
  have hcatch : ∀ {x : Py PaperBrokerResult} symbol, RaisesOnly Marked x →
      RaisesOnly Marked (catchHalt symbol x) := by
    intro x symbol hx
    unfold catchHalt
    split
    · exact .error (marked_of_code (by decide))
    · exact hx
  have hflatten : ∀ (plan : ExitPlan) price, RaisesOnly Marked (plan.emergencyFlatten t price) :=
      fun plan price =>
    (RaisesOnly.raiseIf nofun).bind fun _ => requirePositiveDecimal_marked.bind fun _ =>
      ExitPlan.postInit_marked.bind fun _ => .ok
  exact (hflatten _ _).bind fun _ => (RaisesOnly.orRaise nofun).bind fun _ =>
    (hcatch _ PaperBroker.executeMarketExit_marked).bind fun _ =>
      (RaisesOnly.orRaise nofun).bind fun _ => .ok

theorem flattenPlan_marked {plan : FlattenPlan} : RaisesOnly Marked (plan.postInit A) := by
  have hcheck : ∀ a pair, RaisesOnly Marked (FlattenPlan.checkExecution A a pair) := fun a pair =>
    PaperExecutionRecord.validate_marked.bind fun _ => (RaisesOnly.orRaise nofun).bind fun _ =>
      .guard nofun <| .guard nofun <| .guard nofun .ok
  exact .guard nofun <| (RaisesOnly.foldlM hcheck).bind fun _ => .guard nofun .ok

/-! ## triggers -/

def markFacts (m : ObservedMark) : String × Time × ℚ := (m.1.eventId, m.1.observedAt, m.2.markPrice)

def triggerFacts (trigger : FlattenTrigger) : String × Time × ℚ :=
  (trigger.markEventId, trigger.markObservedAt, trigger.markPrice)

/-- the position has its plan, still active, and its lineage: what is left to look for is its
mark -/
def Ready (source : FlattenSource) (p : PositionState) : Prop :=
  (∃ plan ∈ source.exitPlans.find? (fun plan => plan.positionId = p.positionId),
    plan.status = .active) ∧ (source.entryProposalIds.find? (fun e => e.1 = p.positionId)).isSome

/-- the last mark of the symbol that was ingested was observed by the time of the plan -/
def Current (t : Time) (events : List ObservedMarketEvent) (symbol : String) : Prop :=
  ∃ m ∈ (marksOf symbol events).getLast?, m.1.observedAt ≤ t

/-- the positions are looked at in order, until one fails for another reason than its mark -/
def CurrentUntil (source : FlattenSource) (current : String → Prop) : List PositionState → Prop
  | [] => True
  | p :: rest => Ready source p → current p.symbol ∧ CurrentUntil source current rest

theorem currentUntil_of_forall {source : FlattenSource} {current : String → Prop}
    {l : List PositionState} (h : ∀ p ∈ l, current p.symbol) : CurrentUntil source current l := by
  induction l with
  | nil => trivial
  | cons p rest ih => exact fun _ =>
    ⟨h p List.mem_cons_self, ih fun p' hp' => h p' (List.mem_cons_of_mem p hp')⟩

variable {source : FlattenSource} {buffer : ObservationBuffer} {events : List ObservedMarketEvent}
  {t : Time} {p : PositionState} {m : ObservedMark}

theorem flattenInput_of_current (cfg : WorkerConfig) (hb : buffer.Saw events) (hr : Ready source p)
    (hlast : (marksOf p.symbol events).getLast? = some m) (hle : m.1.observedAt ≤ t) :
    ∃ input, flattenInput cfg source buffer t p = .ok input ∧ input.trigger.symbol = p.symbol ∧
      triggerFacts input.trigger = markFacts m := by
  obtain ⟨⟨plan, hplan, hactive⟩, hlineage⟩ := hr
  obtain ⟨proposal, hproposal⟩ := Option.isSome_iff_exists.mp hlineage
  have hlatest : buffer.latestMark p.symbol t = some (m.2.markPrice, m.1) := by
    rw [hb.latestMark, hlast, Option.filter_some, if_pos (by simpa using hle), Option.map_some]
  obtain ⟨e, _, he⟩ := mem_marksOf.mp (List.mem_of_getLast? hlast)
  obtain ⟨hfst, hsymbol, _⟩ := markOf_some he
  have hid : ¬ (p.symbol = "" ∨ m.1.eventId = "") := by
    rw [hfst, ← hsymbol]
    exact not_or.mpr ⟨e.symbol_ne, e.eventId_ne⟩
  have hlater : ¬ t + cfg.policy.executionLatency ≤ m.1.observedAt := by
    have := cfg.policy.executionLatency_pos
    exact not_le.mpr (by linarith)
  refine ⟨⟨plan, proposal.2,
    ⟨p.symbol, p.positionId, plan.planId, m.1.eventId, m.1.observedAt, m.2.markPrice,
    t + cfg.policy.executionLatency⟩⟩, ?_, rfl, rfl⟩
  rw [flattenInput, hplan, hproposal, hlatest]
  simp only [orRaise_some, ok_bind, raiseIf_not_bind hactive, FlattenTrigger.postInit,
    raiseIf_bind_neg hid, raiseIf_bind_neg hlater,
    raiseIf_bind_neg (not_le.mpr m.2.markPrice_pos), pure_eq_ok]

/-- a ready position whose last mark came after the plan has no mark: the ones before it are gone -/
theorem flattenInput_of_replaced (hb : buffer.Saw events) (hr : Ready source p)
    (hc : ¬ Current t events p.symbol) :
    flattenInput cfg source buffer t p =
      .error (.flattenPlanningError "flatten_missing_causal_mark"
        ("no causal mark is available for " ++ p.symbol)) := by
  obtain ⟨⟨plan, hplan, hactive⟩, hlineage⟩ := hr
  obtain ⟨proposal, hproposal⟩ := Option.isSome_iff_exists.mp hlineage
  have hlatest : buffer.latestMark p.symbol t = none := by
    rw [hb.latestMark]
    cases hlast : (marksOf p.symbol events).getLast? with
    | none => rfl
    | some last =>
      have hnot : ¬ last.1.observedAt ≤ t := fun hle => hc ⟨last, hlast, hle⟩
      rw [Option.filter_some, if_neg (by simpa using hnot), Option.map_none]
  rw [flattenInput, hplan, hproposal, hlatest]
  simp only [orRaise_some, ok_bind, raiseIf_not_bind hactive, orRaise_none, error_bind]

theorem flattenInput_of_unready (cfg : WorkerConfig) (buffer : ObservationBuffer) (t : Time)
    (hr : ¬ Ready source p) : ∃ e, flattenInput cfg source buffer t p = .error e ∧ Marked e := by
  unfold flattenInput
  cases hplan : source.exitPlans.find? (fun plan => plan.positionId = p.positionId) with
  | none => exact ⟨_, rfl, nofun⟩
  | some plan =>
    by_cases hactive : plan.status = .active
    · rw [orRaise_some, ok_bind, raiseIf_not_bind hactive]
      cases hlineage : source.entryProposalIds.find? (fun e => e.1 = p.positionId) with
      | none => exact ⟨_, rfl, marked_of_code (by decide)⟩
      | some proposal => exact absurd ⟨⟨plan, hplan, hactive⟩, by rw [hlineage]; rfl⟩ hr
    · rw [orRaise_some, ok_bind, raiseIf_bind_pos hactive]
      exact ⟨_, rfl, marked_of_code (by decide)⟩

theorem inputs_marked_iff (cfg : WorkerConfig) (hb : buffer.Saw events)
    (positions : List PositionState) :
    RaisesOnly Marked (positions.mapM (flattenInput cfg source buffer t)) ↔
      CurrentUntil source (Current t events) positions := by
  induction positions with
  | nil => exact ⟨fun _ => trivial, fun _ => .ok⟩
  | cons p rest ih =>
    rw [List.mapM_cons, CurrentUntil]
    by_cases hr : Ready source p
    · by_cases hc : Current t events p.symbol
      · obtain ⟨m, hlast, hle⟩ := hc
        obtain ⟨input, hinput, _⟩ := flattenInput_of_current cfg hb hr hlast hle
        rw [hinput, ok_bind, ← ih]
        constructor
        · intro h _
          refine ⟨⟨m, hlast, hle⟩, fun e he => h e ?_⟩
          rw [he, error_bind]
        · intro h
          exact (h hr).2.bind fun _ => .ok
      · rw [flattenInput_of_replaced hb hr hc, error_bind]
        exact ⟨fun h => absurd rfl (h _ rfl _), fun h => absurd (h hr).1 hc⟩
    · obtain ⟨e, he, hmarked⟩ := flattenInput_of_unready cfg buffer t hr
      rw [he, error_bind]
      exact ⟨fun _ h => absurd h hr, fun _ => .error hmarked⟩

structure Planning (cfg : WorkerConfig) (db : Database) (q : OperatorCommand)
    (source : FlattenSource) : Prop where
  command : q.experimentId = cfg.manifest.experimentId ∧ q.commandType = .flatten ∧
    q.status = .accepted
  loaded : db.loadFlattenSource cfg = .ok source
  scope : source.account.experimentId = cfg.manifest.experimentId
  pending : source.pendingOrderCount = 0
  plans : plansMatch cfg source

variable {q : OperatorCommand}

theorem prepareFlatten_of_planning (h : Planning cfg db q source)
    (before after : ObservationBuffer) (hopen : flattenPositions cfg source.account ≠ []) :
    db.prepareFlatten cfg q t before after = planExits cfg q.commandId t before after source := by
  rw [prepareFlatten, raiseIf_not_bind h.command, h.loaded, ok_bind,
    raiseIf_not_bind h.scope, raiseIf_not_bind h.pending, if_neg hopen]

variable {before after : ObservationBuffer}

theorem prepareFlatten_marked_iff (hb : before.Saw events) :
    RaisesOnly Marked (db.prepareFlatten cfg q t before after) ↔
      ∀ source, Planning cfg db q source →
        CurrentUntil source (Current t events) (flattenPositions cfg source.account) := by
  constructor
  · intro h source hp
    by_cases hopen : flattenPositions cfg source.account = []
    · rw [hopen]
      trivial
    rw [prepareFlatten_of_planning hp before after hopen, planExits, raiseIf_not_bind hp.plans] at h
    rw [← inputs_marked_iff cfg hb]
    intro e he
    refine h e ?_
    rw [he, error_bind]
  · intro h
    unfold prepareFlatten
    by_cases hcommand : q.experimentId = cfg.manifest.experimentId ∧ q.commandType = .flatten ∧
      q.status = .accepted
    · rw [raiseIf_not_bind hcommand]
      refine loadFlattenSource_marked.bind_ok fun source hsource => ?_
      by_cases hscope : source.account.experimentId = cfg.manifest.experimentId
      · by_cases hpending : source.pendingOrderCount = 0
        · rw [raiseIf_not_bind hscope, raiseIf_not_bind hpending]
          split
          · exact flattenPlan_marked
          by_cases hplans : plansMatch cfg source
          · have hinputs :=
              (inputs_marked_iff cfg hb _).mpr
              (h source ⟨hcommand, hsource, hscope, hpending, hplans⟩)
            exact .guard (marked_of_code (by decide)) <| hinputs.bind fun inputs =>
              (RaisesOnly.mapM fun _ => flattenBooks_marked).bind fun _ =>
                (RaisesOnly.foldlM fun _ _ => flattenStep_marked).bind fun _ => flattenPlan_marked
          · rw [planExits, raiseIf_bind_pos hplans]
            exact .error (marked_of_code (by decide))
        · rw [raiseIf_not_bind hscope, raiseIf_bind_pos hpending]
          exact .error (marked_of_code (by decide))
      · rw [raiseIf_bind_pos hscope]
        exact .error (marked_of_code (by decide))
    · rw [raiseIf_bind_pos hcommand]
      exact .error (fun _ h => by cases h)

theorem prepareFlatten_triggers {plan : FlattenPlan}
    (h : db.prepareFlatten cfg q t before after = .ok plan) (ht : trigger ∈ plan.triggers) :
    ∃ source, Planning cfg db q source ∧ ∃ p ∈ flattenPositions cfg source.account, ∃ input,
      flattenInput cfg source before t p = .ok input ∧ input.trigger = trigger := by
  simp only [prepareFlatten, bind_eq_ok, raiseIf_eq_ok, ne_eq, not_not] at h
  obtain ⟨_, hcommand, source, hsource, _, hscope, _, hpending, h⟩ := h
  split at h
  · rw [flattenPlan_postInit_eq h] at ht
    cases ht
  · simp only [planExits, bind_eq_ok, raiseIf_eq_ok, not_not] at h
    obtain ⟨_, hplans, inputs, hinputs, books, _, done, _, h⟩ := h
    rw [flattenPlan_postInit_eq h] at ht
    obtain ⟨input, hmem, rfl⟩ := List.mem_map.mp ht
    obtain ⟨p, hp, hinput⟩ := forall₂_mem_right (mapM_eq_ok.mp hinputs) hmem
    exact ⟨source, ⟨hcommand, hsource, hscope, hpending, hplans⟩, p, hp, input, hinput, rfl⟩

/-! ## the latest mark by the time of the plan -/

theorem latestAtOrBefore_append (symbol : String) (t : Time) (l l' : List ObservedMarketEvent) :
    latestAtOrBefore symbol t (l ++ l') = (latestAtOrBefore symbol t l').or
    (latestAtOrBefore symbol t l) := by
  rw [latestAtOrBefore, marksOf_append, List.filter_append, List.getLast?_append]
  rfl

theorem latestAtOrBefore_of_current (hb : buffer.Saw events) {symbol : String}
    (hlast : (marksOf symbol events).getLast? = some m) (hle : m.1.observedAt ≤ t) :
    latestAtOrBefore symbol t events = some m := by
  have hall : ∀ m' ∈ marksOf symbol events, decide (m'.1.observedAt ≤ t) = true := by
    intro m' hm'
    exact decide_eq_true ((ObservationBuffer.le_last (hb.ordered symbol) hlast hm').trans hle)
  rw [latestAtOrBefore, List.filter_eq_self.mpr hall, hlast]

structure UsesLatest (cfg : WorkerConfig) (db : Database) (q : OperatorCommand) (plannedAt : Time)
    (before after : ObservationBuffer) (events : List ObservedMarketEvent) : Prop where
  marked : RaisesOnly Marked (db.prepareFlatten cfg q plannedAt before after)
  triggers : ∀ source, Planning cfg db q source → ∀ p ∈ flattenPositions cfg source.account,
    ∀ input, flattenInput cfg source before plannedAt p = .ok input →
      (latestAtOrBefore p.symbol plannedAt events).map markFacts = some (triggerFacts input.trigger)
  plan : ∀ plan, db.prepareFlatten cfg q plannedAt before after = .ok plan →
    ∀ trigger ∈ plan.triggers, (latestAtOrBefore trigger.symbol plannedAt events).map markFacts =
    some (triggerFacts trigger)

/-- a mark that is ingested during the wait for books and was observed by the time of the plan is
the one that was read -/
def Unmissed (plannedAt : Time) (events waiting : List ObservedMarketEvent)
    (symbol : String) : Prop :=
  ∀ late ∈ latestAtOrBefore symbol plannedAt waiting, ∀ m ∈ (marksOf symbol events).getLast?,
    markFacts late = markFacts m

theorem latest_facts_iff (hb : buffer.Saw events) (waiting : List ObservedMarketEvent)
    {symbol : String} (hlast : (marksOf symbol events).getLast? = some m)
    (hle : m.1.observedAt ≤ t) : (latestAtOrBefore symbol t (events ++ waiting)).map markFacts =
      some (markFacts m) ↔ Unmissed t events waiting symbol := by
  unfold Unmissed
  rw [latestAtOrBefore_append, latestAtOrBefore_of_current hb hlast hle]
  cases latestAtOrBefore symbol t waiting with
  | none => simp
  | some late => simp [hlast]

theorem flattenInput_eq_ok (hb : buffer.Saw events) {input : FlattenInput}
    (h : flattenInput cfg source buffer t p = .ok input) :
    Ready source p ∧ input.trigger.symbol = p.symbol ∧ ∃ m, (marksOf p.symbol events).getLast? =
      some m ∧ m.1.observedAt ≤ t ∧ triggerFacts input.trigger = markFacts m := by
  have hr : Ready source p := by
    by_contra hr
    obtain ⟨e, he, _⟩ := flattenInput_of_unready cfg buffer t hr
    rw [h] at he
    cases he
  have hc : Current t events p.symbol := by
    by_contra hc
    rw [flattenInput_of_replaced hb hr hc] at h
    cases h
  obtain ⟨m, hlast, hle⟩ := hc
  obtain ⟨input', hinput', hsymbol, hfacts⟩ := flattenInput_of_current cfg hb hr hlast hle
  obtain rfl : input = input' := Except.ok.inj (h.symm.trans hinput')
  exact ⟨hr, hsymbol, m, hlast, hle, hfacts⟩

end Database

end

/-- **which mark a flatten is planned from**: the latest observed by the time of the plan exactly
when, for every position the planner comes to, the last mark ingested before it read the marks was
observed by then, and the wait for books brings none that should have been used -/
theorem Database.prepare_uses_latest_iff (cfg : WorkerConfig) (db : Database) (q : OperatorCommand)
    (plannedAt : Time) (earlier loading waiting : List ObservedMarketEvent)
    (before after : ObservationBuffer)
    (hbefore : ObservationBuffer.empty.observeAll cfg (earlier ++ loading) = .ok before)
    (hafter : before.observeAll cfg waiting = .ok after) :
    UsesLatest cfg db q plannedAt before after (earlier ++ loading ++ waiting) ↔
      ∀ source, Planning cfg db q source →
      CurrentUntil source (Current plannedAt (earlier ++ loading))
      (flattenPositions cfg source.account) ∧ ∀ p ∈ flattenPositions cfg source.account,
      Ready source p → Current plannedAt (earlier ++ loading) p.symbol →
      Unmissed plannedAt (earlier ++ loading) waiting p.symbol := by
  have hb : before.Saw (earlier ++ loading) := by
    have := ObservationBuffer.Saw.empty.observeAll hbefore
    rwa [List.nil_append] at this
  constructor
  · intro h source hp
    refine ⟨(prepareFlatten_marked_iff hb).mp h.marked source hp, ?_⟩
    intro p hmem hr hc
    obtain ⟨m, hlast, hle⟩ := hc
    obtain ⟨input, hinput, _, hfacts⟩ := flattenInput_of_current cfg hb hr hlast hle
    rw [← latest_facts_iff hb waiting hlast hle, ← hfacts]
    exact h.triggers source hp p hmem input hinput
  · intro h
    have htriggers : ∀ source, Planning cfg db q source → ∀ p ∈ flattenPositions cfg source.account,
        ∀ input, flattenInput cfg source before plannedAt p = .ok input →
          (latestAtOrBefore p.symbol plannedAt (earlier ++ loading ++ waiting)).map markFacts =
            some (triggerFacts input.trigger) := by
      intro source hp p hmem input hinput
      obtain ⟨hr, _, m, hlast, hle, hfacts⟩ := flattenInput_eq_ok hb hinput
      rw [hfacts, latest_facts_iff hb waiting hlast hle]
      exact (h source hp).2 p hmem hr ⟨m, hlast, hle⟩
    refine ⟨(prepareFlatten_marked_iff hb).mpr fun source hp => (h source hp).1, htriggers, ?_⟩
    intro plan hplan trigger ht
    obtain ⟨source, hp, p, hmem, input, hinput, rfl⟩ := prepareFlatten_triggers hplan ht
    rw [(flattenInput_eq_ok hb hinput).2.1]
    exact htriggers source hp p hmem input hinput

/-! ## a mark that arrives during the load -/

namespace Demo

theorem secondSymbol_ne : "ETHUSDT" ≠ "" := by decide

def ofSecond (e : ObservedMarketEvent) : ObservedMarketEvent :=
  { e with symbol := "ETHUSDT", symbol_ne := secondSymbol_ne }

def pairConfig : WorkerConfig :=
  { config with
    manifest := { manifest with symbols := ["BTCUSDT", "ETHUSDT"] }
    filters := fun symbol =>
      if symbol = "ETHUSDT" then
        { filters with symbol := "ETHUSDT", symbol_ne := secondSymbol_ne } else filters
    filters_symbol := by decide }

/-- ten of each are bought at 70 and 72, and a flatten is accepted at 81 -/
def acceptedRun : List Input :=
  started ++ [.ingest (mark 10 99) 10, .ingest (ofSecond (mark 11 99)) 11, .ingest (bar 0) 60,
    .ingest (book 70 99) 70, .ingest (ofSecond (bar 0)) 71, .ingest (ofSecond (book 72 99)) 72] ++
    List.replicate 6 (dispatch buy 73) ++
    [.enqueue (command .flatten .empty 80 "flatten-1" (by decide +kernel)), poll 81]

def acceptedDb : Database := (run (World.step pairConfig) world acceptedRun).db

def accepted : OperatorCommand :=
  acceptedDb.acceptedFlattens.headD (command .flatten .empty 80 "flatten-1" (by decide +kernel))

def ingested (events : List ObservedMarketEvent) : ObservationBuffer :=
  (ObservationBuffer.empty.observeAll pairConfig events).toOption.getD .empty

def marked : List ObservedMarketEvent := [mark 10 99, ofSecond (mark 11 99)]

/-- the mark of 83 replaces that of 10 while the source is loaded -/
theorem mark_replaced :
    ObservationBuffer.empty.observeAll pairConfig (marked ++ [mark 83 99]) =
      .ok (ingested (marked ++ [mark 83 99])) ∧
        (acceptedDb.loadFlattenSource pairConfig).toOption.map
          (fun source => (Database.flattenPositions pairConfig source.account).map (·.symbol)) =
          some ["BTCUSDT", "ETHUSDT"] ∧
      (∀ symbol ∈ ["BTCUSDT", "ETHUSDT"], ∃ m ∈ marksOf symbol marked, m.1.observedAt ≤ 82) ∧
      acceptedDb.prepareFlatten pairConfig accepted 82 (ingested (marked ++ [mark 83 99]))
          (ingested (marked ++ [mark 83 99] ++ [book 85 99, ofSecond (book 88 99)])) =
        .error (.flattenPlanningError "flatten_missing_causal_mark"
          "no causal mark is available for BTCUSDT") ∧
      ¬ Database.UsesLatest pairConfig acceptedDb accepted 82 (ingested (marked ++ [mark 83 99]))
          (ingested (marked ++ [mark 83 99] ++ [book 85 99, ofSecond (book 88 99)]))
          (marked ++ [mark 83 99] ++ [book 85 99, ofSecond (book 88 99)]) := by
  have hmissing :
      acceptedDb.prepareFlatten pairConfig accepted 82 (ingested (marked ++ [mark 83 99]))
        (ingested (marked ++ [mark 83 99] ++ [book 85 99, ofSecond (book 88 99)])) =
        .error (.flattenPlanningError "flatten_missing_causal_mark"
        "no causal mark is available for BTCUSDT") := by
    decide +kernel
  refine ⟨by decide +kernel, by decide +kernel, by decide +kernel, hmissing, ?_⟩
  intro h
  exact h.marked _ hmissing _ rfl

/-- a mark of 81 during the load, and one of 83 during the wait -/
theorem latest_mark_used :
    Database.UsesLatest pairConfig acceptedDb accepted 82 (ingested (marked ++ [mark 81 98]))
        (ingested (marked ++ [mark 81 98] ++ [mark 83 97, book 85 99, ofSecond (book 88 99)]))
        (marked ++ [mark 81 98] ++ [mark 83 97, book 85 99, ofSecond (book 88 99)]) ∧
      (acceptedDb.prepareFlatten pairConfig accepted 82 (ingested (marked ++ [mark 81 98]))
        (ingested
          (marked ++ [mark 81 98] ++ [mark 83 97, book 85 99, ofSecond (book 88 99)]))).toOption.map
          (fun plan => plan.triggers.map (fun t => (t.symbol, t.markObservedAt, t.markPrice))) =
        some [("BTCUSDT", 81, 99), ("ETHUSDT", 11, 100)] := by
  refine ⟨?_, by decide +kernel⟩
  refine (Database.prepare_uses_latest_iff pairConfig acceptedDb accepted 82 marked [mark 81 98]
    [mark 83 97, book 85 99, ofSecond (book 88 99)] _ _ (by decide +kernel) (by decide +kernel)).mpr
      ?_
  intro source hp
  have hsymbols : (Database.flattenPositions pairConfig source.account).map (·.symbol) =
      ["BTCUSDT", "ETHUSDT"] := by
    have hload : (acceptedDb.loadFlattenSource pairConfig).toOption.map
        (fun source => (Database.flattenPositions pairConfig source.account).map (·.symbol)) =
          some ["BTCUSDT", "ETHUSDT"] := by decide +kernel
    rw [hp.loaded] at hload
    exact Option.some.inj hload
  have hsymbol : ∀ p ∈ Database.flattenPositions pairConfig source.account, p.symbol ∈
      ["BTCUSDT", "ETHUSDT"] :=
    fun p hp => hsymbols ▸ List.mem_map_of_mem hp
  have hcurrent : ∀ symbol ∈ ["BTCUSDT", "ETHUSDT"],
      ∃ m ∈ (marksOf symbol (marked ++ [mark 81 98])).getLast?,
      m.1.observedAt ≤ 82 := by decide +kernel
  have hwait : ∀ symbol ∈ ["BTCUSDT", "ETHUSDT"],
      latestAtOrBefore symbol 82 [mark 83 97, book 85 99, ofSecond (book 88 99)] =
      none := by decide +kernel
  refine ⟨Database.currentUntil_of_forall fun p hp => hcurrent _ (hsymbol p hp), ?_⟩
  intro p hmem _ _ late hlate
  rw [hwait _ (hsymbol p hmem)] at hlate
  cases hlate

end Demo

end Maais
