import Maais.Store.Records

/-!
# How the execution tables are filed

The identity of a position is derived from its symbol, and the identity of its exit plan from the
position, so all positions a symbol ever had share one row and one plan.

* `AccountFiled`  rows and plans stand under their derived identities, a closed row has a closed
  plan;
* `OrdersFiled`  every order and fill was derived from a proposal, or from a plan that is closed;
* `Agrees`  an account whose positions are the stored ones;
* `AccountFiled.persisted`, `OrdersFiled.recorded`  the writers keep this.
-/

namespace Maais
open Lib

/-! ## identities -/

def positionIdOf (experimentId : UUID) (symbol : String) : UUID :=
  idOf "paper-position" [experimentId.text, symbol]

def planIdOf (positionId : UUID) : UUID := idOf "exit-plan" [positionId.text]

theorem positionIdOf_inj {experimentId : UUID} {s s' : String} :
    positionIdOf experimentId s = positionIdOf experimentId s' ↔ s = s' := by
  rw [positionIdOf, positionIdOf, idOf_inj, intercalate_two, intercalate_two,
    String.append_right_inj, String.append_right_inj]

theorem planIdOf_inj {u v : UUID} : planIdOf u = planIdOf v ↔ u = v := by
  rw [planIdOf, planIdOf, idOf_inj, intercalate_one, intercalate_one, UUID.text_inj]

/-- where an order comes from: its id, its client identity and the id of its fill -/
inductive Origin (plans : Dict UUID ExitPlan) : UUID → String → UUID → Prop
  | entry (proposalId : UUID) : Origin plans (idOf "paper-order" [proposalId.text, "entry"])
      ("paper-" ++ proposalId.text) (idOf "paper-fill" [proposalId.text, "entry"])
  | protective {planId : UUID} {plan : ExitPlan} (experimentId : UUID) (eventId : String)
      (version : Nat) (hp : plans.get? planId = some plan) (hc : plan.status = .closed) :
      Origin plans (idOf "protective-order" [experimentId.text, planId.text, eventId])
        ("paper-protect-" ++ planId.text ++ "-" ++ toString version)
        (idOf "protective-fill" [experimentId.text, planId.text, eventId])
  | flatten {positionId : UUID} {plan : ExitPlan} (commandId : UUID)
      (hp : plans.get? (planIdOf positionId) = some plan) (hc : plan.status = .closed) :
      Origin plans (idOf "flatten-order" [commandId.text, positionId.text])
        ("paper-flatten-" ++ commandId.text ++ "-" ++ positionId.text)
        (idOf "flatten-fill" [commandId.text, positionId.text])

def ClosedKept (plans plans' : Dict UUID ExitPlan) : Prop :=
  ∀ id plan, plans.get? id = some plan → plan.status = .closed → plans'.get? id = some plan

section
variable {plans plans' : Dict UUID ExitPlan} {orderId fillId : UUID} {clientOrderId : String}

theorem Origin.mono (h : Origin plans orderId clientOrderId fillId) (hk : ClosedKept plans plans') :
    Origin plans' orderId clientOrderId fillId := by
  cases h with
  | entry proposalId => exact .entry proposalId
  | protective e ev v hp hc => exact .protective e ev v (hk _ _ hp hc) hc
  | flatten c hp hc => exact .flatten c (hk _ _ hp hc) hc

theorem entry_client_ne (u : UUID) {c : Char} {l : List Char} (hc : c.isDigit = false)
    (s : String) : "paper-" ++ u.text ≠ "paper-" ++ (String.ofList (c :: l) ++ s) := by
  intro h
  obtain ⟨d, l', hl, hd⟩ := u.text_head
  have hs := congrArg String.toList ((String.append_right_inj _).mp h)
  rw [hl] at hs
  simp only [String.toList_append, String.toList_ofList, List.cons_append, List.cons.injEq] at hs
  rw [hs.1, hc] at hd
  cases hd

theorem append_protect (s : String) : "paper-protect-" ++ s = "paper-" ++ ("protect-" ++ s) := by
  rw [← String.append_assoc]
  rfl

theorem append_flatten (s : String) : "paper-flatten-" ++ s = "paper-" ++ ("flatten-" ++ s) := by
  rw [← String.append_assoc]
  rfl

/-- an order, client identity or fill of a plan's protective exit says that the plan is closed -/
theorem Origin.protective_closed {experimentId planId : UUID} {eventId s : String}
    (h : Origin plans orderId clientOrderId fillId)
    (hid : orderId = idOf "protective-order" [experimentId.text, planId.text, eventId] ∨
      clientOrderId = "paper-protect-" ++ (planId.text ++ s) ∨
      fillId = idOf "protective-fill" [experimentId.text, planId.text, eventId]) :
    ∃ plan, plans.get? planId = some plan ∧ plan.status = .closed := by
  cases h with
  | entry proposalId =>
    rcases hid with hid | hid | hid
    · exact absurd (idOf_ns hid (by decide) (by decide)) (by decide)
    · rw [append_protect] at hid
      exact absurd hid (entry_client_ne proposalId (c := 'p') (l := "rotect-".toList) (by decide) _)
    · exact absurd (idOf_ns hid (by decide) (by decide)) (by decide)
  | @protective planId' plan e ev v hp hc =>
    have hsame : planId' = planId := by
      rcases hid with hid | hid | hid
      · rw [idOf_inj, intercalate_three, intercalate_three] at hid
        have hrest := (UUID.text_append_inj hid).2
        exact (UUID.text_append_inj ((String.append_right_inj _).mp hrest)).1
      · simp only [String.append_assoc] at hid
        exact (UUID.text_append_inj ((String.append_right_inj _).mp hid)).1
      · rw [idOf_inj, intercalate_three, intercalate_three] at hid
        have hrest := (UUID.text_append_inj hid).2
        exact (UUID.text_append_inj ((String.append_right_inj _).mp hrest)).1
    exact ⟨plan, hsame ▸ hp, hc⟩
  | @flatten positionId plan c hp hc =>
    rcases hid with hid | hid | hid
    · exact absurd (idOf_ns hid (by decide) (by decide)) (by decide)
    · simp only [String.append_assoc] at hid
      rw [append_protect, append_flatten, String.append_right_inj] at hid
      have hl := congrArg String.toList hid
      simp at hl
    · exact absurd (idOf_ns hid (by decide) (by decide)) (by decide)

theorem Origin.flatten_closed {commandId positionId : UUID}
    (h : Origin plans orderId clientOrderId fillId)
    (hid : orderId = idOf "flatten-order" [commandId.text, positionId.text] ∨
      clientOrderId = "paper-flatten-" ++ (commandId.text ++ ("-" ++ positionId.text)) ∨
      fillId = idOf "flatten-fill" [commandId.text, positionId.text]) :
    ∃ plan, plans.get? (planIdOf positionId) = some plan ∧ plan.status = .closed := by
  cases h with
  | entry proposalId =>
    rcases hid with hid | hid | hid
    · exact absurd (idOf_ns hid (by decide) (by decide)) (by decide)
    · rw [append_flatten] at hid
      exact absurd hid (entry_client_ne proposalId (c := 'f') (l := "latten-".toList) (by decide) _)
    · exact absurd (idOf_ns hid (by decide) (by decide)) (by decide)
  | @protective planId plan e ev v hp hc =>
    rcases hid with hid | hid | hid
    · exact absurd (idOf_ns hid (by decide) (by decide)) (by decide)
    · simp only [String.append_assoc] at hid
      rw [append_protect, append_flatten, String.append_right_inj] at hid
      have hl := congrArg String.toList hid
      simp at hl
    · exact absurd (idOf_ns hid (by decide) (by decide)) (by decide)
  | @flatten positionId' plan c hp hc =>
    have hsame : positionId' = positionId := by
      rcases hid with hid | hid | hid
      · rw [idOf_inj, intercalate_two, intercalate_two] at hid
        exact UUID.text_inj.mp ((String.append_right_inj _).mp (UUID.text_append_inj hid).2)
      · simp only [String.append_assoc] at hid
        have hrest := (UUID.text_append_inj ((String.append_right_inj _).mp hid)).2
        exact UUID.text_inj.mp ((String.append_right_inj _).mp hrest)
      · rw [idOf_inj, intercalate_two, intercalate_two] at hid
        exact UUID.text_inj.mp ((String.append_right_inj _).mp (UUID.text_append_inj hid).2)
    exact ⟨plan, hsame ▸ hp, hc⟩

end

/-! ## rows and plans -/

def ExitPlan.Fits (plan : ExitPlan) (side : Direction) : Prop :=
  (side = .neutral → plan.status = .closed) ∧ (plan.status ≠ .closed → plan.side = side)

structure PlanFiled (t : ExecutionTables) (id : UUID) (plan : ExitPlan) : Prop where
  planId : plan.planId = id
  derived : id = planIdOf plan.positionId
  version : 1 ≤ plan.version
  closed : plan.status = .closed → 2 ≤ plan.version
  current : plan.status ≠ .superseded
  placed : ∃ row, t.positions.get? plan.positionId = some row

structure AccountFiled (experimentId : UUID) (t : ExecutionTables) : Prop where
  positions : ∀ id row, t.positions.get? id = some row →
    row.id = id ∧ id = positionIdOf experimentId row.symbol ∧ row.Check
  plans : ∀ id plan, t.exitPlans.get? id = some plan → PlanFiled t id plan
  planned : ∀ id row, t.positions.get? id = some row →
    ∃ plan, t.exitPlans.get? (planIdOf id) = some plan ∧ plan.Fits row.side

def Agrees (experimentId : UUID) (t : ExecutionTables) (a : AccountState) : Prop :=
  ∀ symbol p, a.positions.get? symbol = some p →
    p.symbol = symbol ∧ p.positionId = positionIdOf experimentId symbol ∧
      ∃ row, t.positions.get? p.positionId = some row ∧ row.side = p.side

section
variable {A : Arith} {experimentId : UUID} {t t' : ExecutionTables} {a b : AccountState}
  {symbol : String} {p q : PositionState} {idOrder : UUID → Nat}

theorem Agrees.load {e : ExecutionTables.ExperimentCapital}
    (hf : AccountFiled experimentId t) (h : t.loadAccount A idOrder e = .ok a) :
    Agrees experimentId t a := by
  intro symbol p hp
  obtain ⟨row, hrow, hs, rfl⟩ := ExecutionTables.loadAccount_position h hp
  obtain ⟨id, hid⟩ := (Dict.mem_values_iff _).mp hrow
  obtain ⟨hrid, hpid, _⟩ := hf.positions id row hid
  refine ⟨hs, ?_, row, ?_, rfl⟩
  · show row.id = _
    rw [hrid, hpid, hs]
  · show t.positions.get? row.id = _
    rw [hrid, hid]

theorem Agrees.move (h : Agrees experimentId t a) (hm : a.Moves symbol q b)
    (hp : a.positions.get? symbol = some p) (hid : p.SameIdentity q) (hside : q.side = p.side) :
    Agrees experimentId t b := by
  intro s x hx
  by_cases hs : s = symbol
  · subst hs
    rw [hm.at_symbol] at hx
    cases hx
    obtain ⟨hsym, hpid, row, hrow, hrs⟩ := h s p hp
    exact ⟨hid.2.2.trans hsym, hid.1.trans hpid, row, hid.1.symm ▸ hrow, hrs.trans hside.symm⟩
  · rw [hm.elsewhere s hs] at hx
    exact h s x hx

theorem Agrees.identities (h : Agrees experimentId t a) (hm : a.Moves symbol q b)
    (hq : q.symbol = symbol ∧ q.positionId = positionIdOf experimentId symbol) {s : String}
    {x : PositionState} (hx : b.positions.get? s = some x) :
    x.symbol = s ∧ x.positionId = positionIdOf experimentId s := by
  by_cases hs : s = symbol
  · subst hs
    rw [hm.at_symbol] at hx
    cases hx
    exact hq
  · rw [hm.elsewhere s hs] at hx
    obtain ⟨h1, h2, _⟩ := h s x hx
    exact ⟨h1, h2⟩

structure PlanFor (plan : ExitPlan) (positionId : UUID) : Prop where
  planId : plan.planId = planIdOf positionId
  positionId : plan.positionId = positionId
  version : 1 ≤ plan.version
  closed : plan.status = .closed → 2 ≤ plan.version
  current : plan.status ≠ .superseded

variable {plan : Option ExitPlan} {table' table : Dict UUID ExitPlan}

theorem persistedPlans_cases (h : ExecutionTables.persistPlan A table plan = .ok table') :
    (plan = none ∧ table' = table) ∨ ∃ x, plan = some x ∧
      (∀ row ∈ table.get? x.planId, row.version ≤ x.version) ∧
      table' = table.set x.planId (storedPlan A x) := by
  cases plan with
  | none =>
    cases h
    exact Or.inl ⟨rfl, rfl⟩
  | some x =>
    obtain ⟨hv, _, rfl⟩ := ExecutionTables.persistPlan_eq h
    exact Or.inr ⟨x, rfl, hv, rfl⟩

variable {id : UUID}

theorem persistedPlans_of_ne {positionId : UUID}
    (h : ExecutionTables.persistPlan A table plan = .ok table')
    (hplan : ∀ x ∈ plan, PlanFor x positionId) (hid : id ≠ positionId) :
    table'.get? (planIdOf id) = table.get? (planIdOf id) := by
  obtain ⟨_, rfl⟩ | ⟨x, rfl, _, rfl⟩ := persistedPlans_cases h
  · rfl
  · rw [Dict.get?_set_of_ne]
    rw [(hplan x rfl).planId]
    exact fun e => hid (planIdOf_inj.mp e)

variable {sourceId : Option UUID}

/-- **a persisted account stays filed**: one position moved, with its plan -/
theorem AccountFiled.persisted {created : Bool} (hf : AccountFiled experimentId t)
    (ha : Agrees experimentId t a) (hm : a.Moves symbol q b)
    (hq : q.symbol = symbol ∧ q.positionId = positionIdOf experimentId symbol)
    (hplan : ∀ x ∈ plan, PlanFor x q.positionId)
    (hfits : ∃ x, t'.exitPlans.get? (planIdOf q.positionId) = some x ∧ x.Fits q.side)
    (h : ExecutionTables.Persisted A t b plan sourceId t' created) : AccountFiled experimentId t' ∧
    Agrees experimentId t' b := by
  have hids := fun s x hx => ha.identities hm hq (s := s) (x := x) hx
  have hmem : ∀ {s x}, b.positions.get? s = some x → x ∈ b.positions.values :=
    fun hx => (Dict.mem_values_iff _).mpr ⟨_, hx⟩
  have hqmem := hmem hm.at_symbol
  have hrows := fun id row hr => ExecutionTables.persistPositions_get h.positions id row hr
  refine ⟨⟨?_, ?_, ?_⟩, ?_⟩
  · intro id row hr
    obtain ⟨x, hx, rfl, rfl, hcheck⟩ | ⟨hold, _⟩ := hrows id row hr
    · obtain ⟨s, hs⟩ := (Dict.mem_values_iff _).mp hx
      obtain ⟨hsym, hid⟩ := hids s x hs
      exact ⟨rfl, by rw [hid, ← hsym]; rfl, hcheck⟩
    · exact hf.positions id row hold
  · intro id x hx
    obtain ⟨_, hsame⟩ | ⟨y, rfl, _, hset⟩ := persistedPlans_cases h.plans
    · rw [hsame] at hx
      have hold := hf.plans id x hx
      exact ⟨hold.planId, hold.derived, hold.version, hold.closed, hold.current,
        ExecutionTables.persistPositions_keeps h.positions hold.placed⟩
    · have hy := hplan y rfl
      rw [hset, Dict.get?_set] at hx
      split at hx
      · rename_i hid
        cases hx
        refine ⟨hid.symm, ?_, hy.version, hy.closed, hy.current, ?_⟩
        · rw [hid, hy.planId]
          exact congrArg planIdOf hy.positionId.symm
        · obtain ⟨row, hrow⟩ := ExecutionTables.persistPositions_mem h.positions hqmem
          refine ⟨row, ?_⟩
          show t'.positions.get? y.positionId = _
          rw [hy.positionId, hrow]
      · have hold := hf.plans id x hx
        exact ⟨hold.planId, hold.derived, hold.version, hold.closed, hold.current,
          ExecutionTables.persistPositions_keeps h.positions hold.placed⟩
  · intro id row hr
    obtain ⟨x, hx, rfl, rfl, _⟩ | ⟨hold, hne⟩ := hrows id row hr
    · obtain ⟨s, hs⟩ := (Dict.mem_values_iff _).mp hx
      by_cases hsym : s = symbol
      · subst hsym
        rw [hm.at_symbol] at hs
        cases hs
        exact hfits
      · -- another position: its row had this side before, and its plan is not the one written
        have hs' := hs
        rw [hm.elsewhere s hsym] at hs'
        obtain ⟨_, hid, row₀, hrow₀, hside⟩ := ha s x hs'
        obtain ⟨y, hy, hyfits⟩ := hf.planned _ row₀ hrow₀
        refine ⟨y, ?_, ?_⟩
        · rw [persistedPlans_of_ne h.plans hplan, hy]
          rw [hid, hq.2, Ne, positionIdOf_inj]
          exact hsym
        · rw [hside] at hyfits
          exact hyfits
    · obtain ⟨y, hy, hyfits⟩ := hf.planned id row hold
      exact ⟨y, by rw [persistedPlans_of_ne h.plans hplan (Ne.symm (hne q hqmem)), hy], hyfits⟩
  · intro s x hx
    obtain ⟨hsym, hid⟩ := hids s x hx
    obtain ⟨row, hrow⟩ := ExecutionTables.persistPositions_mem h.positions (hmem hx)
    refine ⟨hsym, hid, row, hrow, ?_⟩
    obtain ⟨y, hy, hyid, rfl, _⟩ | ⟨_, hne⟩ := hrows _ row hrow
    · obtain ⟨s', hs'⟩ := (Dict.mem_values_iff _).mp hy
      obtain ⟨_, hid'⟩ := hids s' y hs'
      have hss : s' = s := positionIdOf_inj.mp (hid'.symm.trans (hyid.trans hid))
      rw [hss, hx] at hs'
      cases hs'
      rfl
    · exact absurd rfl (hne x (hmem hx))

theorem AccountFiled.open_row (hf : AccountFiled experimentId t) {plan : ExitPlan}
    (hp : t.exitPlans.get? id = some plan) (hs : plan.status ≠ .closed) :
    ∃ row, t.positions.get? plan.positionId = some row ∧ row.status = .open ∧ row.side = plan.side ∧
      row.side ≠ .neutral := by
  have hplan := hf.plans id plan hp
  obtain ⟨row, hrow⟩ := hplan.placed
  obtain ⟨y, hy, hneutral, hside⟩ := hf.planned _ row hrow
  rw [← hplan.derived, hp, Option.some.injEq] at hy
  subst hy
  have hne : row.side ≠ .neutral := fun hn => hs (hneutral hn)
  refine ⟨row, hrow, ?_, (hside hs).symm, hne⟩
  obtain ⟨_, _, hcheck⟩ := hf.positions _ row hrow
  rcases hcheck.2.2 with ⟨hopen, _⟩ | ⟨_, _, hn, _⟩
  · exact hopen
  · exact absurd hn hne

theorem AccountFiled.mem_open (hf : AccountFiled experimentId t)
    {plan : ExitPlan} (hp : t.exitPlans.get? id = some plan) (ho : ExecutionTables.openPlan plan) :
    plan ∈ t.loadOpenExitPlans idOrder := by
  have hs : plan.status ≠ .closed := by
    rcases ho with ho | ho <;> simp [ho]
  obtain ⟨row, hrow, hst, _⟩ := hf.open_row hp hs
  exact ExecutionTables.mem_loadOpenExitPlans.mpr ⟨(Dict.mem_values_iff _).mpr ⟨id, hp⟩, ho,
    row, hrow, hst⟩

theorem AccountFiled.get?_listed (hf : AccountFiled experimentId t) {plan : ExitPlan}
    (h : plan ∈ t.loadOpenExitPlans idOrder) :
    t.exitPlans.get? (planIdOf plan.positionId) = some plan ∧ plan.status ≠ .closed ∧
      PlanFiled t plan.planId plan := by
  obtain ⟨hv, ho, _⟩ := ExecutionTables.mem_loadOpenExitPlans.mp h
  obtain ⟨id, hid⟩ := (Dict.mem_values_iff _).mp hv
  have hplan := hf.plans id plan hid
  refine ⟨hplan.derived ▸ hid, ?_, hplan.planId.symm ▸ hplan⟩
  rcases ho with ho | ho <;> simp [ho]

/-! ## orders and fills -/

structure OrdersFiled (t : ExecutionTables) : Prop where
  orders : ∀ id row, t.orders.get? id = some row →
    row.id = id ∧ row.version = 4 ∧ ∃ fillId, Origin t.exitPlans id row.clientOrderId fillId
  fills : ∀ id f, t.fills.get? id = some f →
    ∃ clientOrderId, Origin t.exitPlans f.orderIntentId clientOrderId id

theorem closedKept_of_persisted (h : ExecutionTables.persistPlan A table plan = .ok table')
    (hopen : ∀ x ∈ plan, ∀ old, table.get? x.planId = some old → old.status ≠ .closed) :
    ClosedKept table table' := by
  intro id old hold hc
  obtain ⟨_, rfl⟩ | ⟨x, rfl, _, rfl⟩ := persistedPlans_cases h
  · exact hold
  · rw [Dict.get?_set_of_ne, hold]
    rintro rfl
    exact hopen x rfl old hold hc

theorem OrdersFiled.mono (h : OrdersFiled t) (ho : t'.orders = t.orders) (hf : t'.fills = t.fills)
    (hk : ClosedKept t.exitPlans t'.exitPlans) : OrdersFiled t' := by
  refine ⟨fun id row hr => ?_, fun id f hfill => ?_⟩
  · rw [ho] at hr
    obtain ⟨hid, hv, fillId, horigin⟩ := h.orders id row hr
    exact ⟨hid, hv, fillId, horigin.mono hk⟩
  · rw [hf] at hfill
    obtain ⟨client, horigin⟩ := h.fills id f hfill
    exact ⟨client, horigin.mono hk⟩

variable {r : PaperExecutionRecord} {f : ExecutionFillRecord}

theorem OrdersFiled.recorded (h : OrdersFiled t)
    (hr : ExecutionTables.Recorded A t r b t') (hk : ClosedKept t.exitPlans t'.exitPlans)
    (hfills : r.fills = [f]) (hf : f.orderIntentId = r.order.orderId) (hv : r.order.version = 4)
    (horigin : Origin t'.exitPlans r.order.orderId r.order.clientOrderId f.id) :
    OrdersFiled t' := by
  refine ⟨?_, ?_⟩
  · rw [hr.orders]
    refine Dict.forall_set _ (fun id row hrow => ?_) ⟨rfl, hv, f.id, horigin⟩
    obtain ⟨hid, hver, fillId, ho⟩ := h.orders id row hrow
    exact ⟨hid, hver, fillId, ho.mono hk⟩
  · have hold : ∀ id x, t.fills.get? id = some x →
        ∃ client, Origin t'.exitPlans x.orderIntentId client id := by
      intro id x hx
      obtain ⟨client, ho⟩ := h.fills id x hx
      exact ⟨client, ho.mono hk⟩
    obtain ⟨ordered, filled, hordered, hput, hfilled⟩ := hr.fills
    rw [hfills] at hput
    simp only [List.foldlM_cons, List.foldlM_nil, bind_eq_ok, pure_ok_iff] at hput
    obtain ⟨_, hput, rfl⟩ := hput
    obtain ⟨_, _, _, ⟨hsame, _⟩ | ⟨hset, _⟩⟩ := ExecutionTables.putFill_eq hput
    · rw [hfilled, hsame, hordered]
      exact hold
    · rw [hfilled, hset, hordered]
      refine Dict.forall_set _ hold ⟨r.order.clientOrderId, ?_⟩
      show Origin t'.exitPlans f.orderIntentId _ _
      rw [hf]
      exact horigin

theorem OrdersFiled.stored (h : OrdersFiled t) (hs : t.Stored r) :
    ∃ fillId, Origin t.exitPlans r.order.orderId r.order.clientOrderId fillId := by
  obtain ⟨row, hfind, hid, _⟩ := hs
  obtain ⟨id, hrow⟩ := (Dict.mem_values_iff _).mp (List.mem_of_find?_eq_some hfind)
  have hclient : row.clientOrderId = r.order.clientOrderId := by simpa using List.find?_some hfind
  obtain ⟨hrid, _, fillId, ho⟩ := h.orders id row hrow
  rw [← hid, ← hclient, hrid]
  exact ⟨fillId, ho⟩

structure Filed (experimentId : UUID) (t : ExecutionTables) : Prop where
  account : AccountFiled experimentId t
  orders : OrdersFiled t

theorem Filed.empty : Filed experimentId .empty := by
  refine ⟨⟨?_, ?_, ?_⟩, ⟨?_, ?_⟩⟩ <;> (intro _ _ h; cases h)

theorem Filed.persisted {created : Bool}
    (hf : Filed experimentId t) (ha : Agrees experimentId t a) (hm : a.Moves symbol q b)
    (hq : q.symbol = symbol ∧ q.positionId = positionIdOf experimentId symbol)
    (hplan : ∀ x ∈ plan, PlanFor x q.positionId)
    (hopen : ∀ x ∈ plan, ∀ old, t.exitPlans.get? x.planId = some old → old.status ≠ .closed)
    (hfits : ∃ x, t'.exitPlans.get? (planIdOf q.positionId) = some x ∧ x.Fits q.side)
    (h : ExecutionTables.Persisted A t b plan sourceId t' created) (ho : t'.orders = t.orders)
    (hfl : t'.fills = t.fills) : Filed experimentId t' ∧ Agrees experimentId t' b := by
  obtain ⟨hacc, hag⟩ := hf.account.persisted ha hm hq hplan hfits h
  exact ⟨⟨hacc, hf.orders.mono ho hfl (closedKept_of_persisted h.plans hopen)⟩, hag⟩

theorem Filed.recorded {plan : ExitPlan}
    (hf : Filed experimentId t) (ha : Agrees experimentId t a) (hm : a.Moves symbol q b)
    (hq : q.symbol = symbol ∧ q.positionId = positionIdOf experimentId symbol)
    (hrp : r.exitPlan = some plan) (hplan : PlanFor plan q.positionId) (hfits : plan.Fits q.side)
    (hopen : ∀ old, t.exitPlans.get? plan.planId = some old → plan.version < old.version ∨
    old.status ≠ .closed) (hfills : r.fills = [f]) (hfo : f.orderIntentId = r.order.orderId)
    (hv : r.order.version = 4)
    (horigin : ∀ plans, plans.get? plan.planId = some (storedPlan A plan) →
      Origin plans r.order.orderId r.order.clientOrderId f.id)
    (h : ExecutionTables.Recorded A t r b t') : Filed experimentId t' ∧ Agrees experimentId t' b ∧
      t'.exitPlans = t.exitPlans.set plan.planId (storedPlan A plan) := by
  obtain ⟨created, hp⟩ := h.persisted
  rw [hrp] at hp
  obtain ⟨hver, _, hset⟩ := ExecutionTables.persistPlan_eq hp.plans
  have hself : t'.exitPlans.get? plan.planId =
    some (storedPlan A plan) := by rw [hset, Dict.get?_set_self]
  have hopen' : ∀ x ∈ some plan, ∀ old, t.exitPlans.get? x.planId = some old →
      old.status ≠ .closed := by
    intro x hx old hold
    cases hx
    rcases hopen old hold with hlt | hne
    · exact absurd (hver old hold) (not_le.mpr hlt)
    · exact hne
  have hplan' : ∀ x ∈ some plan, PlanFor x q.positionId := by
    intro x hx
    cases hx
    exact hplan
  obtain ⟨hacc, hag⟩ := hf.account.persisted ha hm hq hplan'
    ⟨storedPlan A plan, by rw [← hplan.planId, hself], hfits⟩ hp
  exact ⟨⟨hacc, hf.orders.recorded h (closedKept_of_persisted hp.plans hopen') hfills hfo hv
    (horigin _ hself)⟩, hag, hset⟩

end

end Maais
