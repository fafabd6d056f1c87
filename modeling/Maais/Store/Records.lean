import Maais.Store.Execution

/-!
# What the writers of the execution repository wrote

* `Persisted`  the rows `persistAccount` left, table by table;
* `record_cases`, `recordAccountState_cases`, `recordFunding_cases`  a writer that returned either
  found its content stored, or persisted the account.
-/

namespace Maais
open Lib

namespace ExecutionTables

variable {A : Arith} {db db' : ExecutionTables}

/-! ## the account -/

variable {leverage : Nat} {table' table : Dict UUID PositionRow} {p : PositionState}

theorem persistPosition_eq (h : persistPosition A leverage table p = .ok table') :
    (∀ row ∈ table.get? p.positionId, row.version ≤ p.version) ∧ (positionRow A p leverage).Check ∧
      table' = table.set p.positionId (positionRow A p leverage) := by
  simp only [persistPosition, bind_eq_ok, raiseIf_eq_ok, not_not, pure_ok_iff] at h
  obtain ⟨_, hv, _, hc, rfl⟩ := h
  exact ⟨fun row hr => not_lt.mp fun hlt => hv ⟨row, hr, hlt⟩, hc, rfl⟩

variable {l : List PositionState}

/-- every row of the table after the loop is the checked row of a position, or was there before -/
theorem persistPositions_get (h : l.foldlM (persistPosition A leverage) table = .ok table')
    (id : UUID) (row : PositionRow) (hr : table'.get? id = some row) :
    (∃ p ∈ l, p.positionId = id ∧ row = positionRow A p leverage ∧ row.Check) ∨
      table.get? id = some row ∧ ∀ p ∈ l, p.positionId ≠ id := by
  induction l generalizing table with
  | nil =>
    cases h
    exact Or.inr ⟨hr, by simp⟩
  | cons p l ih =>
    rw [List.foldlM_cons, bind_eq_ok] at h
    obtain ⟨t, ht, h⟩ := h
    obtain ⟨_, hcheck, rfl⟩ := persistPosition_eq ht
    obtain ⟨q, hq, hrow⟩ | ⟨hold, hne⟩ := ih h
    · exact Or.inl ⟨q, List.mem_cons_of_mem p hq, hrow⟩
    · by_cases hid : p.positionId = id
      · rw [← hid, Dict.get?_set_self, Option.some.injEq] at hold
        exact Or.inl ⟨p, List.mem_cons_self, hid, hold.symm, hold ▸ hcheck⟩
      · rw [Dict.get?_set_of_ne _ (Ne.symm hid)] at hold
        refine Or.inr ⟨hold, fun q hq => ?_⟩
        rcases List.mem_cons.mp hq with rfl | hq
        · exact hid
        · exact hne q hq

theorem persistPositions_keeps (h : l.foldlM (persistPosition A leverage) table = .ok table')
    {id : UUID} (hrow : ∃ row, table.get? id = some row) : ∃ row, table'.get? id = some row := by
  refine foldlM_ok_inv (I := fun t : Dict UUID PositionRow => ∃ row, t.get? id = some row) ?_ hrow h
  rintro q _ s s' ⟨row, hs⟩ hq
  obtain ⟨_, _, rfl⟩ := persistPosition_eq hq
  by_cases hid : q.positionId = id
  · exact ⟨_, by rw [← hid, Dict.get?_set_self]⟩
  · exact ⟨row, by rw [Dict.get?_set_of_ne _ (Ne.symm hid), hs]⟩

theorem persistPositions_mem (h : l.foldlM (persistPosition A leverage) table = .ok table')
    (hp : p ∈ l) : ∃ row, table'.get? p.positionId = some row := by
  induction l generalizing table with
  | nil => cases hp
  | cons q l ih =>
    rw [List.foldlM_cons, bind_eq_ok] at h
    obtain ⟨t, ht, h⟩ := h
    rcases List.mem_cons.mp hp with rfl | hp
    · obtain ⟨_, _, rfl⟩ := persistPosition_eq ht
      exact persistPositions_keeps h ⟨_, Dict.get?_set_self _ _ _⟩
    · exact ih h hp

theorem persistPositions_setAll (h : l.foldlM (persistPosition A leverage) table = .ok table') :
    table' = table.setAll (·.positionId) (fun p => positionRow A p leverage) l := by
  induction l generalizing table with
  | nil =>
    cases h
    rfl
  | cons p l ih =>
    rw [List.foldlM_cons, bind_eq_ok] at h
    obtain ⟨t, ht, h⟩ := h
    obtain ⟨_, _, rfl⟩ := persistPosition_eq ht
    exact ih h

variable {plan : ExitPlan}

theorem persistPlan_eq {table table' : Dict UUID ExitPlan}
    (h : persistPlan A table (some plan) = .ok table') :
    (∀ row ∈ table.get? plan.planId, row.version ≤ plan.version) ∧ (storedPlan A plan).Check ∧
      table' = table.set plan.planId (storedPlan A plan) := by
  simp only [persistPlan, bind_eq_ok, raiseIf_eq_ok, not_not, pure_ok_iff] at h
  obtain ⟨_, hv, _, hc, rfl⟩ := h
  exact ⟨fun row hr => not_lt.mp fun hlt => hv ⟨row, hr, hlt⟩, hc, rfl⟩

def snapshotRow (A : Arith) (plans : Dict UUID ExitPlan) (account : AccountState)
    (plan : Option ExitPlan) (sourceId : Option UUID) (snapshotAt : Time) : SnapshotRow :=
  { sourceId, accountVersion := account.version, snapshotAt,
    snapshot := storedSnapshot A (account.snapshot A),
    riskAtStop := A.store (riskAtStop A plans account plan) }

structure Persisted (A : Arith) (db : ExecutionTables) (account : AccountState)
    (plan : Option ExitPlan) (sourceId : Option UUID) (db' : ExecutionTables)
    (created : Bool) : Prop where
  positions : account.positions.values.foldlM (persistPosition A account.leverage) db.positions =
    .ok db'.positions
  lots : (accountLots account).foldlM (persistLot A) db.lots = .ok db'.lots
  plans : persistPlan A db.exitPlans plan = .ok db'.exitPlans
  snapshots : ∃ t, account.updatedAt = some t ∧
    if account.version ∈ db.snapshots.map (·.accountVersion) then
      db'.snapshots = db.snapshots ∧ created = false
    else
      db'.snapshots = db.snapshots ++ [snapshotRow A db'.exitPlans account plan sourceId t] ∧
        created = true

variable {created : Bool}

theorem insertSnapshot_eq {row : SnapshotRow} (h : db.insertSnapshot row = .ok (db', created)) :
    if row.accountVersion ∈ db.snapshots.map (·.accountVersion) then db' = db ∧ created = false
    else db' = { db with snapshots := db.snapshots ++ [row] } ∧ created = true := by
  unfold insertSnapshot at h
  split at h
  · rename_i hm
    cases h
    rw [if_pos hm]
    exact ⟨rfl, rfl⟩
  · rename_i hm
    simp only [bind_eq_ok, pure_ok_iff, Prod.mk.injEq] at h
    obtain ⟨_, _, rfl, rfl⟩ := h
    rw [if_neg hm]
    exact ⟨rfl, rfl⟩

variable {account : AccountState} {sourceId : Option UUID}

theorem persistAccount_cases {plan : Option ExitPlan}
    (h : db.persistAccount A account plan sourceId = .ok (db', created)) :
    Persisted A db account plan sourceId db' created ∧ db'.orders = db.orders ∧
      db'.orderEvents = db.orderEvents ∧ db'.fills = db.fills ∧ db'.fundings = db.fundings := by
  simp only [persistAccount, bind_eq_ok, orRaise_eq_ok] at h
  obtain ⟨positions, hp, lots, hl, plans, hpl, t, ht, h⟩ := h
  have hs := insertSnapshot_eq h
  split at hs
  · rename_i hm
    obtain ⟨rfl, rfl⟩ := hs
    refine ⟨⟨hp, hl, hpl, t, ht, ?_⟩, rfl, rfl, rfl, rfl⟩
    rw [if_pos hm]
    exact ⟨rfl, rfl⟩
  · rename_i hm
    obtain ⟨rfl, rfl⟩ := hs
    refine ⟨⟨hp, hl, hpl, t, ht, ?_⟩, rfl, rfl, rfl, rfl⟩
    rw [if_neg hm]
    exact ⟨rfl, rfl⟩

/-! ## executions -/

def SameAccount (db db' : ExecutionTables) : Prop :=
  db'.positions = db.positions ∧ db'.lots = db.lots ∧ db'.exitPlans = db.exitPlans ∧
    db'.snapshots = db.snapshots

variable {db₁ : ExecutionTables}

theorem Persisted.of_same {plan : Option ExitPlan}
    (h : Persisted A db₁ account plan sourceId db' created) (hs : SameAccount db db₁) :
    Persisted A db account plan sourceId db' created := by
  obtain ⟨h1, h2, h3, h4⟩ := hs
  obtain ⟨hp, hl, hpl, hsn⟩ := h
  rw [h1] at hp
  rw [h2] at hl
  rw [h3] at hpl
  rw [h4] at hsn
  exact ⟨hp, hl, hpl, hsn⟩

theorem putFill_eq {f : ExecutionFillRecord} (h : putFill A db f = .ok db') :
    SameAccount db db' ∧ db'.orders = db.orders ∧ db'.fundings = db.fundings ∧
      (db'.fills = db.fills ∧ db.fills.get? f.id = some f ∨
        db'.fills = db.fills.set f.id (fillRow A f) ∧ db.fills.get? f.id = none) := by
  unfold putFill at h
  split at h
  · rename_i row hrow
    simp only [bind_eq_ok, raiseIf_eq_ok, ne_eq, not_not, pure_ok_iff] at h
    obtain ⟨_, rfl, rfl⟩ := h
    exact ⟨⟨rfl, rfl, rfl, rfl⟩, rfl, rfl, Or.inl ⟨rfl, hrow⟩⟩
  · rename_i hrow
    simp only [bind_eq_ok, pure_ok_iff] at h
    obtain ⟨_, _, _, _, rfl⟩ := h
    exact ⟨⟨rfl, rfl, rfl, rfl⟩, rfl, rfl, Or.inr ⟨rfl, hrow⟩⟩

variable {r : PaperExecutionRecord}

theorem putOrder_eq {ts : List OrderTransition} (h : db.putOrder A r ts = .ok db') :
    (orderRow A r).Check ∧ SameAccount db db' ∧ db'.fills = db.fills ∧ db'.fundings = db.fundings ∧
      db'.orders = db.orders.set r.order.orderId (orderRow A r) := by
  simp only [putOrder, bind_eq_ok, raiseIf_eq_ok, not_not, pure_ok_iff] at h
  obtain ⟨_, hc, rfl⟩ := h
  exact ⟨hc, ⟨rfl, rfl, rfl, rfl⟩, rfl, rfl, rfl⟩

/-- the order of the record is already stored, in this version -/
def Stored (db : ExecutionTables) (r : PaperExecutionRecord) : Prop :=
  ∃ existing, db.findClient r.order.clientOrderId = some existing ∧ existing.id = r.order.orderId ∧
    existing.version = r.order.version

/-- the order is new, or a later version of the stored one -/
def Fresh (db : ExecutionTables) (r : PaperExecutionRecord) : Prop :=
  db.isNewOrder r ∨ ∃ existing, db.findClient r.order.clientOrderId = some existing ∧
    existing.id = r.order.orderId ∧ existing.version < r.order.version

theorem upsertOrder_cases {out : Option ExecutionTables} (h : db.upsertOrder A r = .ok out) :
    (out = none ∧ db.Stored r) ∨
      ∃ ordered ts, out = some ordered ∧ db.Fresh r ∧ db.putOrder A r ts = .ok ordered := by
  unfold upsertOrder at h
  split at h
  · rename_i hnew
    simp only [bind_eq_ok, pure_ok_iff] at h
    obtain ⟨ordered, ho, rfl⟩ := h
    exact Or.inr ⟨ordered, r.order.events, rfl, Or.inl hnew, ho⟩
  · split at h
    · cases h
    · rename_i existing hex
      simp only [updateOrder, bind_eq_ok, raiseIf_eq_ok, not_or, ne_eq, not_not, not_lt] at h
      obtain ⟨_, ⟨_, hid⟩, _, hle, h⟩ := h
      split at h
      · rename_i hv
        simp only [bind_eq_ok, pure_ok_iff] at h
        obtain ⟨_, _, rfl⟩ := h
        exact Or.inl ⟨rfl, existing, hex, hid, hv.symm⟩
      · rename_i hv
        simp only [bind_eq_ok, pure_ok_iff] at h
        obtain ⟨_, _, ordered, ho, rfl⟩ := h
        have hlt : existing.version < r.order.version := lt_of_le_of_ne hle (Ne.symm hv)
        exact Or.inr ⟨ordered, _, rfl, Or.inr ⟨existing, hex, hid, hlt⟩, ho⟩

structure Recorded (A : Arith) (db : ExecutionTables) (r : PaperExecutionRecord)
    (account : AccountState) (db' : ExecutionTables) : Prop where
  fresh : db.Fresh r
  check : (orderRow A r).Check
  orders : db'.orders = db.orders.set r.order.orderId (orderRow A r)
  fills : ∃ ordered filled, ordered.fills = db.fills ∧ r.fills.foldlM (putFill A) ordered =
    .ok filled ∧ db'.fills = filled.fills
  persisted : ∃ created, Persisted A db account r.exitPlan none db' created
  fundings : db'.fundings = db.fundings

theorem putFills_same {l : List ExecutionFillRecord} (h : l.foldlM (putFill A) db = .ok db₁) :
    SameAccount db db₁ ∧ db₁.orders = db.orders ∧ db₁.fundings = db.fundings := by
  refine foldlM_ok_inv (I := fun t : ExecutionTables =>
    SameAccount db t ∧ t.orders = db.orders ∧ t.fundings = db.fundings) ?_
      ⟨⟨rfl, rfl, rfl, rfl⟩, rfl, rfl⟩ h
  rintro f _ s s' ⟨⟨h1, h2, h3, h4⟩, ho, hf⟩ hput
  obtain ⟨⟨g1, g2, g3, g4⟩, go, gf, _⟩ := putFill_eq hput
  exact ⟨⟨g1.trans h1, g2.trans h2, g3.trans h3, g4.trans h4⟩, go.trans ho, gf.trans hf⟩

/-- **what `record` did**: nothing when the version of the order was stored, else everything -/
theorem record_cases {res : PaperExecutionResult}
    (ha : r.account = some account) (h : db.record A r = .ok (db', res)) :
    r.validate A = .ok () ∧ (db' = db ∧ db.Stored r ∨ Recorded A db r account db') := by
  simp only [record, bind_eq_ok] at h
  obtain ⟨_, hv, ordered, ho, h⟩ := h
  refine ⟨hv, ?_⟩
  obtain ⟨rfl, hst⟩ | ⟨ordered, ts, rfl, hfresh, hput⟩ := upsertOrder_cases ho
  · cases h
    exact Or.inl ⟨rfl, hst⟩
  · simp only [recorded, recordFills, persistRecordAccount, ha, bind_eq_ok, pure_ok_iff,
      Prod.mk.injEq] at h
    obtain ⟨_, ⟨filled, hfills, ⟨written, created⟩, hpersist, rfl⟩, rfl, rfl⟩ := h
    obtain ⟨hcheck, hsame, hfl, hfu, hord⟩ := putOrder_eq hput
    obtain ⟨hsame', hord', hfu'⟩ := putFills_same hfills
    obtain ⟨hper, hord'', _, hfl'', hfu''⟩ := persistAccount_cases hpersist
    refine Or.inr ⟨hfresh, hcheck, ?_, ⟨ordered, filled, hfl, hfills, hfl''⟩, ⟨created, ?_⟩, ?_⟩
    · rw [hord'', hord', hord]
    · exact (hper.of_same hsame').of_same hsame
    · rw [hfu'', hfu', hfu]

/-! ## marks and funding -/

theorem recordAccountState_cases {sourceEventId kind : String}
    (h : db.recordAccountState A account plan sourceEventId kind = .ok (db', created)) :
    (∃ p ∈ account.positions.values, p.positionId = plan.positionId) ∧ (db' = db ∧ created = false ∧
        some (snapshotSource account.experimentId kind sourceEventId) ∈
        db.snapshots.map (·.sourceId) ∨
      some (snapshotSource account.experimentId kind sourceEventId) ∉
        db.snapshots.map (·.sourceId) ∧
      (∃ latest ∈ db.latestSnapshot, account.version = latest.accountVersion + 1) ∧
      Persisted A db account (some plan)
        (some (snapshotSource account.experimentId kind sourceEventId)) db' true ∧
      db'.orders = db.orders ∧ db'.fills = db.fills ∧ db'.fundings = db.fundings) := by
  simp only [recordAccountState, bind_eq_ok, raiseIf_eq_ok, not_not] at h
  obtain ⟨_, _, _, hpos, h⟩ := h
  refine ⟨hpos, ?_⟩
  split at h
  · rename_i hm
    cases h
    exact Or.inl ⟨rfl, rfl, hm⟩
  · rename_i hm
    simp only [bind_eq_ok, raiseIf_eq_ok, not_not, pure_ok_iff, Prod.mk.injEq] at h
    obtain ⟨_, hlatest, ⟨written, new⟩, hpersist, _, hnew, rfl, rfl⟩ := h
    rw [Bool.not_eq_false] at hnew
    obtain ⟨hper, ho, _, hf, hfu⟩ := persistAccount_cases hpersist
    have hnew' : new = true := hnew
    rw [hnew'] at hper
    exact Or.inr ⟨hm, hlatest, hper, ho, hf, hfu⟩

theorem recordFunding_cases {funding : FundingRecord}
    (h : db.recordFunding A funding account = .ok (db', created)) :
    db' = db ∧ db.findFunding funding.marketEventId = some funding ∨
      ∃ latest, db.latestSnapshot = some latest ∧
      (latest.accountVersion < account.version ∧ db.findFunding funding.marketEventId = none) ∧
      Persisted A db account none none db' true ∧ db'.orders = db.orders ∧ db'.fills = db.fills ∧
      db'.fundings = db.fundings.set funding.id (fundingRow A funding) := by
  simp only [recordFunding, bind_eq_ok, orRaise_eq_ok] at h
  obtain ⟨_, _, latest, hl, h⟩ := h
  split at h
  · simp only [duplicateFunding, bind_eq_ok, raiseIf_eq_ok, ne_eq, not_not, pure_ok_iff,
      Prod.mk.injEq] at h
    obtain ⟨_, hfound, rfl, _⟩ := h
    exact Or.inl ⟨rfl, hfound⟩
  · rename_i hv
    simp only [bind_eq_ok] at h
    obtain ⟨_, _, _, _, h⟩ := h
    split at h
    · simp only [duplicateFunding, bind_eq_ok, raiseIf_eq_ok, ne_eq, not_not, pure_ok_iff,
        Prod.mk.injEq] at h
      obtain ⟨_, hfound, rfl, _⟩ := h
      exact Or.inl ⟨rfl, hfound⟩
    · rename_i hnone
      rw [Bool.not_eq_true, Option.isSome_eq_false_iff, Option.isNone_iff_eq_none] at hnone
      simp only [insertFunding, bind_eq_ok, raiseIf_eq_ok, pure_ok_iff,
        Prod.mk.injEq] at h
      obtain ⟨_, _, ⟨written, new⟩, hpersist, _, hnew, rfl, rfl⟩ := h
      rw [Bool.not_eq_false] at hnew
      have hnew' : new = true := hnew
      obtain ⟨hper, ho, _, hf, hfu⟩ := persistAccount_cases hpersist
      rw [hnew'] at hper
      exact Or.inr ⟨latest, hl, ⟨not_le.mp hv, hnone⟩,
        hper.of_same ⟨rfl, rfl, rfl, rfl⟩, ho, hf, hfu⟩

/-! ## reading -/

variable {idOrder : UUID → Nat} {a : AccountState} {e : ExperimentCapital}

theorem loadAccount_cases (h : db.loadAccount A idOrder e = .ok a) :
    (db.latestSnapshot = none ∧ AccountState.create e.experimentId e.initialCapital e.currency 1 =
      .ok a) ∨ ∃ s, db.latestSnapshot = some s ∧ a = db.restoredAccount idOrder e s ∧
      (a.reconcile A).ok := by
  unfold loadAccount at h
  split at h
  · rename_i hs
    exact Or.inl ⟨hs, h⟩
  · rename_i s hs
    simp only [bind_eq_ok, raiseIf_eq_ok, not_not, pure_ok_iff] at h
    obtain ⟨_, hr, rfl⟩ := h
    exact Or.inr ⟨s, hs, rfl, hr⟩

theorem create_positions {id : UUID} {capital : ℚ} {currency : String}
    (h : AccountState.create id capital currency leverage = .ok a) :
    a = ⟨id, capital, currency, leverage, capital, capital, .empty, 0, none⟩ := by
  simp only [AccountState.create, bind_eq_ok, pure_ok_iff] at h
  obtain ⟨_, _, _, _, _, _, rfl⟩ := h
  rfl

theorem loadAccount_position (h : db.loadAccount A idOrder e = .ok a) {symbol : String}
    (hp : a.positions.get? symbol = some p) :
    ∃ row ∈ db.positions.values, row.symbol = symbol ∧
      p = positionState row (db.positionLots idOrder row.id) := by
  obtain ⟨_, hc⟩ | ⟨s, _, rfl, _⟩ := loadAccount_cases h
  · rw [create_positions hc] at hp
    cases hp
  · obtain ⟨row, hrow, hs, hv⟩ | hn := Dict.get?_setAll_cases _ _ _ hp
    · exact ⟨row, hrow, hs, hv⟩
    · cases hn

theorem mem_loadOpenExitPlans :
    plan ∈ db.loadOpenExitPlans idOrder ↔ plan ∈ db.exitPlans.values ∧ openPlan plan ∧
      ∃ row, db.positions.get? plan.positionId = some row ∧ row.status = .open := by
  simp [loadOpenExitPlans, openExitPlans, List.mem_insertionSort]

end ExecutionTables

end Maais
