import Maais.Paper.History
import Maais.Store.Records

/-!
# What the ledger verifier finds in the stored rows

A money column keeps eighteen decimal places. Cash, the sums of the account and the amounts of every
position are rounded one by one, and both the loader and the verifier compare sums of rounded
amounts for equality.

* `accountProjectionMismatch`  the account part of `verify_ledger_consistency`;
* `numeric18`  exact arithmetic over `NUMERIC(38, 18)` columns;
* `Cancels`  what the columns of an account lose adds up;
* `persisted_account_verifies_iff`  exactly then the account is restored and verified.
-/

namespace Maais
open Lib

/-! ## the verifier -/

/-- the amounts an `account_projection_mismatch` reports -/
structure ProjectionMismatch where
  storedCash : ℚ
  expectedCash : ℚ
  storedEquity : ℚ
  expectedEquity : ℚ

namespace ExecutionTables

variable (A : Arith) (idOrder : UUID → Nat) (db : ExecutionTables)

def rowTotal (f : PositionRow → ℚ) : ℚ := A.sum (db.positions.values.map f)

def activeExits : List ExitPlan :=
  db.exitPlans.values.filter (fun plan => openPlan plan ∧
    (db.positions.get? plan.positionId).isSome)

/-- the checks of the latest snapshot against the position rows and the exit plans -/
def SnapshotAgrees (experiment : ExperimentCapital) (latest : SnapshotRow) : Prop :=
  let realized := db.rowTotal A (·.realizedPnl)
  let unrealized := db.rowTotal A (·.unrealizedPnl)
  let fees := db.rowTotal A (·.fees)
  let funding := db.rowTotal A (·.funding)
  let grossNotional := db.rowTotal A (fun row => A.mul row.quantity row.markPrice)
  let usedMargin := db.rowTotal A (·.initialMargin)
  let expectedCash := A.add (A.sub (A.add experiment.initialCapital realized) fees) funding
  let expectedEquity := A.add latest.snapshot.cashBalance unrealized
  let expectedFreeMargin := A.sub expectedEquity usedMargin
  let expectedRiskAtStop := A.sum (db.activeExits.map (planRisk A))
  latest.snapshot.cashBalance = expectedCash ∧ latest.snapshot.equity = expectedEquity ∧
    latest.snapshot.freeMargin = expectedFreeMargin ∧ latest.snapshot.realizedPnl = realized ∧
    latest.snapshot.unrealizedPnl = unrealized ∧ latest.snapshot.fees = fees ∧
    latest.snapshot.funding = funding ∧ latest.snapshot.grossNotional = grossNotional ∧
    latest.snapshot.usedMargin = usedMargin ∧ latest.riskAtStop = expectedRiskAtStop

instance (experiment : ExperimentCapital) (latest : SnapshotRow) :
    Decidable (db.SnapshotAgrees A experiment latest) := by
  unfold SnapshotAgrees
  infer_instance

def accountProjectionMismatch (experiment : ExperimentCapital) : Option ProjectionMismatch :=
  match db.latestSnapshot with
  | none => none
  | some latest =>
    if db.SnapshotAgrees A experiment latest then none
    else
      some
        { storedCash := latest.snapshot.cashBalance
          expectedCash :=
            A.add (A.sub (A.add experiment.initialCapital (db.rowTotal A (·.realizedPnl)))
            (db.rowTotal A (·.fees))) (db.rowTotal A (·.funding))
          storedEquity := latest.snapshot.equity
          expectedEquity := A.add latest.snapshot.cashBalance (db.rowTotal A (·.unrealizedPnl)) }

end ExecutionTables

/-! ## eighteen decimal places -/

def numeric18 : Arith := ⟨id, toPlaces 18⟩

def lost (x : ℚ) : ℚ := numeric18.store x - x

theorem store_eq (x : ℚ) : numeric18.store x = x + lost x := by
  unfold lost
  ring

theorem store_eq_iff {x y : ℚ} : numeric18.store x = x + y ↔ lost x = y := by
  rw [store_eq, add_right_inj]

theorem sum_store {α : Type} (f : α → ℚ) (l : List α) :
    (l.map (fun x => numeric18.store (f x))).sum =
    (l.map f).sum + (l.map (fun x => lost (f x))).sum := by
  simp only [store_eq]
  exact List.sum_map_add

namespace AccountState

def sumOf (a : AccountState) (f : PositionState → ℚ) : ℚ := (a.positions.values.map f).sum

theorem reconciles_iff {a : AccountState} : a.Reconciles ↔
    a.cashBalance = a.initialCapital + a.sumOf (·.realizedPnl) - a.sumOf (·.fees) + a.sumOf
    (·.funding) := by
  unfold Reconciles realizedPnl fees funding
  rw [total_exact, total_exact, total_exact]
  rfl

def marginOf (a : AccountState) (p : PositionState) : ℚ := p.grossNotional .exact / a.leverage

/-- what the cash column loses is what the columns of the positions lose -/
def CashCancels (a : AccountState) : Prop :=
  lost a.cashBalance = a.sumOf (fun p => lost p.realizedPnl) - a.sumOf (fun p => lost p.fees) +
    a.sumOf (fun p => lost p.funding)

/-- the column of a sum loses what the columns of its terms lose -/
def SumCancels (a : AccountState) (f : PositionState → ℚ) : Prop :=
  lost (a.sumOf f) = a.sumOf (fun p => lost (f p))

instance (a : AccountState) : Decidable a.CashCancels := by
  unfold CashCancels
  infer_instance

instance (a : AccountState) (f : PositionState → ℚ) : Decidable (a.SumCancels f) := by
  unfold SumCancels
  infer_instance

structure Cancels (a : AccountState) : Prop where
  cash : a.CashCancels
  realizedPnl : a.SumCancels (·.realizedPnl)
  unrealizedPnl : a.SumCancels (·.unrealizedPnl .exact)
  fees : a.SumCancels (·.fees)
  funding : a.SumCancels (·.funding)
  margin : a.SumCancels a.marginOf
  /-- the notional is multiplied again from the stored quantity and mark -/
  notional : lost (a.sumOf (·.grossNotional .exact)) = a.sumOf (fun p =>
    numeric18.store (p.quantity .exact) * numeric18.store p.markPrice - p.grossNotional .exact)
  equity : lost (a.equity .exact) = lost a.cashBalance +
    a.sumOf (fun p => lost (p.unrealizedPnl .exact))
  freeMargin : lost (a.freeMargin .exact) = lost a.cashBalance +
    a.sumOf (fun p => lost (p.unrealizedPnl .exact)) - a.sumOf (fun p => lost (a.marginOf p))

end AccountState

namespace ExecutionTables

structure Owned (db : ExecutionTables) (experiment : ExperimentCapital)
    (a : AccountState) : Prop where
  capital : experiment.initialCapital = a.initialCapital
  ids : (a.positions.values.map (·.positionId)).Nodup
  symbols : a.positions.Keyed (·.symbol)
  rows : ∀ id ∈ db.positions.keys, id ∈ a.positions.values.map (·.positionId)
  versions : ∀ s ∈ db.snapshots, s.accountVersion < a.version

def storedPlans (A : Arith) (db : ExecutionTables) : Option ExitPlan → Dict UUID ExitPlan
  | none => db.exitPlans
  | some plan => db.exitPlans.set plan.planId (storedPlan A plan)

/-- the one plan a snapshot takes its risk from: the given one where it is open, else the first open
plan of a position of the account -/
def onePlan (plans : Dict UUID ExitPlan) (account : AccountState) (plan : Option ExitPlan) :
    Option ExitPlan :=
  (plan.filter (fun x => openPlan x)).or
    (plans.values.find? (fun row =>
      openPlan row ∧ row.positionId ∈ account.positions.values.map (·.positionId)))

def openWith (db : ExecutionTables) (a : AccountState) (plan : Option ExitPlan) : List ExitPlan :=
  (db.storedPlans numeric18 plan).values.filter
    (fun x => openPlan x ∧ x.positionId ∈ a.positions.values.map (·.positionId))

/-- the risk of that one plan is, up to what its column loses, the risk of all open plans -/
def RiskCovered (db : ExecutionTables) (a : AccountState) (plan : Option ExitPlan) : Prop :=
  numeric18.store
    (((onePlan (db.storedPlans numeric18 plan) a plan).map (planRisk .exact)).getD 0) =
    ((db.openWith a plan).map (planRisk .exact)).sum

instance (db : ExecutionTables) (a : AccountState) (plan : Option ExitPlan) :
    Decidable (db.RiskCovered a plan) := by
  unfold RiskCovered
  infer_instance

section
variable {idOrder : UUID → Nat} {db db' : ExecutionTables} {experiment : ExperimentCapital}
  {a : AccountState} {plan : Option ExitPlan} {sourceId : Option UUID} {created : Bool}

/-! ### the rows -/

theorem Owned.rows_perm (ho : db.Owned experiment a)
    (hp : Persisted numeric18 db a plan sourceId db' created) :
    db'.positions.values.Perm
    (a.positions.values.map (fun p => positionRow numeric18 p a.leverage)) := by
  rw [persistPositions_setAll hp.positions]
  exact Dict.values_setAll_perm _ _ _ ho.ids ho.rows

theorem Owned.rowTotal_eq (ho : db.Owned experiment a)
    (hp : Persisted numeric18 db a plan sourceId db' created) (f : PositionRow → ℚ) :
    db'.rowTotal numeric18 f = a.sumOf (fun p => f (positionRow numeric18 p a.leverage)) := by
  have hsum : db'.rowTotal numeric18 f = (db'.positions.values.map f).sum := Arith.exact_sum _
  rw [hsum, ((ho.rows_perm hp).map f).sum_eq, List.map_map]
  rfl

variable {c : PositionRow → ℚ} {f : PositionState → ℚ}

theorem Owned.columnTotal_eq (ho : db.Owned experiment a)
    (hp : Persisted numeric18 db a plan sourceId db' created)
    (hcol : ∀ p, c (positionRow numeric18 p a.leverage) = numeric18.store (f p)) :
    db'.rowTotal numeric18 c = a.sumOf f + a.sumOf (fun p => lost (f p)) := by
  rw [ho.rowTotal_eq hp]
  simp only [hcol]
  exact sum_store f _

theorem Owned.latest_eq (ho : db.Owned experiment a)
    (hp : Persisted numeric18 db a plan sourceId db' created) :
    ∃ t, db'.latestSnapshot = some (snapshotRow numeric18 db'.exitPlans a plan sourceId t) := by
  obtain ⟨t, -, hs⟩ := hp.snapshots
  have hnew : a.version ∉ db.snapshots.map (·.accountVersion) := by
    intro hmem
    obtain ⟨s, hs, hv⟩ := List.mem_map.mp hmem
    exact absurd (ho.versions s hs) (by rw [hv]; exact lt_irrefl _)
  rw [if_neg hnew] at hs
  refine ⟨t, ?_⟩
  rw [latestSnapshot, hs.1, List.argmax_concat]
  cases hold : db.snapshots.argmax (·.accountVersion) with
  | none => rfl
  | some s =>
    have hlt : s.accountVersion < a.version := ho.versions s (List.argmax_mem hold)
    show (if s.accountVersion < a.version then _ else _) = _
    rw [if_pos hlt]

/-! ### restoring -/

theorem Owned.loaded_sum (idOrder : UUID → Nat) (ho : db.Owned experiment a)
    (hp : Persisted numeric18 db a plan sourceId db' created)
    (hcol : ∀ row lots, f (positionState row lots) = c row) :
    ((db'.loadPositions idOrder).values.map f).sum = db'.rowTotal numeric18 c := by
  have hkeys : a.positions.values.map (·.symbol) = a.positions.keys := by
    rw [Dict.values, Dict.keys, List.map_map]
    refine List.map_congr_left fun e he => ?_
    exact ho.symbols e.1 e.2 ((Dict.mem_entries_iff _).mp he)
  have hsymbols : (db'.positions.values.map (·.symbol)).Nodup := by
    rw [((ho.rows_perm hp).map _).nodup_iff, List.map_map]
    show (a.positions.values.map (·.symbol)).Nodup
    rw [hkeys]
    exact a.positions.nodup
  have hvalues : (db'.loadPositions idOrder).values =
      db'.positions.values.map
        (fun row => positionState row (db'.positionLots idOrder row.id)) := by
    rw [loadPositions, Dict.values,
      Dict.setAll_entries Dict.empty _ _ hsymbols List.nil_prefix, List.map_map]
    rfl
  have hsum : db'.rowTotal numeric18 c = (db'.positions.values.map c).sum := Arith.exact_sum _
  rw [hvalues, List.map_map, hsum]
  exact congrArg List.sum (List.map_congr_left fun row _ => hcol row _)

/-- a persisted account can be loaded when, and only when, its cash column loses what its positions
lose -/
theorem Owned.loads_iff (ho : db.Owned experiment a) (hrec : a.Reconciles)
    (hp : Persisted numeric18 db a plan sourceId db' created) :
    db'.loadAccount numeric18 idOrder experiment ≠
      .error (.arithmeticError "restored account does not reconcile") ↔
      a.CashCancels := by
  obtain ⟨t, hlatest⟩ := ho.latest_eq hp
  have hR := ho.columnTotal_eq hp (f := (·.realizedPnl)) (c := (·.realizedPnl)) fun _ => rfl
  have hF := ho.columnTotal_eq hp (f := (·.fees)) (c := (·.fees)) fun _ => rfl
  have hU := ho.columnTotal_eq hp (f := (·.funding)) (c := (·.funding)) fun _ => rfl
  set restored :=
    db'.restoredAccount idOrder experiment
    (snapshotRow numeric18 db'.exitPlans a plan sourceId t) with hrestored
  have hloads : db'.loadAccount numeric18 idOrder experiment ≠
      .error (.arithmeticError "restored account does not reconcile") ↔ restored.Reconciles := by
    rw [← AccountState.reconcile_ok_iff]
    simp only [loadAccount, hlatest]
    by_cases hok : (restored.reconcile numeric18).ok
    · rw [raiseIf_not_bind hok]
      exact ⟨fun _ => hok, fun _ he => by cases he⟩
    · rw [raiseIf_bind_pos hok]
      exact ⟨fun h => absurd rfl h, fun h => absurd h hok⟩
  rw [hloads]
  have hcash := AccountState.reconciles_iff.mp hrec
  have hrestores : restored.Reconciles ↔ numeric18.store a.cashBalance = a.initialCapital +
      db'.rowTotal numeric18 (·.realizedPnl) - db'.rowTotal numeric18 (·.fees) +
        db'.rowTotal numeric18 (·.funding) := by
    rw [← ho.loaded_sum idOrder hp (f := (·.realizedPnl)) fun _ _ => rfl,
      ← ho.loaded_sum idOrder hp (f := (·.fees)) fun _ _ => rfl,
      ← ho.loaded_sum idOrder hp (f := (·.funding)) fun _ _ => rfl, ← ho.capital]
    exact AccountState.reconciles_iff
  rw [hrestores, hR, hF, hU, store_eq, AccountState.CashCancels]
  constructor <;> intro h <;> linarith

/-! ### verifying -/

theorem riskAtStop_onePlan (A : Arith) (plans : Dict UUID ExitPlan) (account : AccountState)
    (plan : Option ExitPlan) :
    riskAtStop A plans account plan = ((onePlan plans account plan).map (planRisk A)).getD 0 := by
  unfold riskAtStop onePlan
  cases plan.filter (fun x => openPlan x) with
  | some plan => rfl
  | none =>
    rw [Option.none_or]
    cases plans.values.find? (fun row =>
      openPlan row ∧ row.positionId ∈ account.positions.values.map (·.positionId)) with
    | some row => rfl
    | none => rfl

theorem Persisted.exitPlans_eq {A : Arith} (hp : Persisted A db a plan sourceId db' created) :
    db'.exitPlans = db.storedPlans A plan := by
  cases plan with
  | none => exact (Except.ok.inj hp.plans).symm
  | some plan => exact (persistPlan_eq hp.plans).2.2

theorem Owned.activeExits_eq (ho : db.Owned experiment a)
    (hp : Persisted numeric18 db a plan sourceId db' created) :
    db'.activeExits = db.openWith a plan := by
  have hkeys : ∀ id, (db'.positions.get? id).isSome ↔
      id ∈ a.positions.values.map (·.positionId) := by
    intro id
    rw [persistPositions_setAll hp.positions, Option.isSome_iff_exists]
    constructor
    · rintro ⟨row, hrow⟩
      obtain ⟨p, hpm, rfl, -⟩ | hold := Dict.get?_setAll_cases _ _ _ hrow
      · exact List.mem_map_of_mem hpm
      · exact ho.rows id ((Dict.mem_keys_iff _).mpr ⟨row, hold⟩)
    · intro hid
      obtain ⟨p, hpm, rfl⟩ := List.mem_map.mp hid
      exact ⟨_, Dict.get?_setAll_of_mem _ _ _ ho.ids hpm⟩
  unfold activeExits openWith
  rw [hp.exitPlans_eq]
  refine List.filter_congr fun x _ => ?_
  rw [decide_eq_decide, hkeys]

theorem Persisted.riskAtStop_eq (hp : Persisted numeric18 db a plan sourceId db' created) :
    riskAtStop numeric18 db'.exitPlans a plan =
      ((onePlan (db.storedPlans numeric18 plan) a plan).map (planRisk .exact)).getD 0 := by
  rw [riskAtStop_onePlan, hp.exitPlans_eq]
  rfl

theorem equity_sumOf : a.equity .exact = a.cashBalance + a.sumOf (·.unrealizedPnl .exact) := by
  show a.cashBalance + a.unrealizedPnl .exact = _
  rw [AccountState.unrealizedPnl, AccountState.total_exact]
  rfl

theorem usedMargin_sumOf : a.usedMargin .exact = a.sumOf a.marginOf := by
  show a.grossNotional .exact / (a.leverage : ℚ) = _
  rw [AccountState.grossNotional, AccountState.total_exact, AccountState.sumOf]
  unfold AccountState.marginOf
  simp only [div_eq_mul_inv]
  rw [List.sum_map_mul_right]

/-- the ten checks of the verifier on the snapshot of an account, in exact arithmetic -/
theorem snapshotAgrees_iff {t : Time} :
    db'.SnapshotAgrees numeric18 experiment
      (snapshotRow numeric18 db'.exitPlans a plan sourceId t) ↔
        numeric18.store a.cashBalance = experiment.initialCapital + db'.rowTotal numeric18
        (·.realizedPnl) - db'.rowTotal numeric18 (·.fees) + db'.rowTotal numeric18 (·.funding) ∧
      numeric18.store (a.equity .exact) =
        numeric18.store a.cashBalance + db'.rowTotal numeric18 (·.unrealizedPnl) ∧
      numeric18.store (a.freeMargin .exact) = numeric18.store a.cashBalance +
        db'.rowTotal numeric18 (·.unrealizedPnl) - db'.rowTotal numeric18 (·.initialMargin) ∧
      numeric18.store (a.realizedPnl .exact) = db'.rowTotal numeric18 (·.realizedPnl) ∧
      numeric18.store (a.unrealizedPnl .exact) = db'.rowTotal numeric18 (·.unrealizedPnl) ∧
      numeric18.store (a.fees .exact) = db'.rowTotal numeric18 (·.fees) ∧
      numeric18.store (a.funding .exact) = db'.rowTotal numeric18 (·.funding) ∧
      numeric18.store (a.grossNotional .exact) =
        db'.rowTotal numeric18 (fun row => numeric18.mul row.quantity row.markPrice) ∧
      numeric18.store (a.usedMargin .exact) = db'.rowTotal numeric18 (·.initialMargin) ∧
      numeric18.store (riskAtStop numeric18 db'.exitPlans a plan) =
        numeric18.sum (db'.activeExits.map (planRisk numeric18)) := Iff.rfl

theorem Owned.notionalTotal_eq (ho : db.Owned experiment a)
    (hp : Persisted numeric18 db a plan sourceId db' created) :
    db'.rowTotal numeric18 (fun row => numeric18.mul row.quantity row.markPrice) =
      a.sumOf (·.grossNotional .exact) + a.sumOf (fun p =>
        numeric18.store (p.quantity .exact) *
            numeric18.store p.markPrice - p.grossNotional .exact) := by
  have hsum : a.sumOf (fun p => numeric18.store (p.quantity .exact) * numeric18.store p.markPrice) =
      a.sumOf (·.grossNotional .exact) + a.sumOf (fun p =>
        numeric18.store (p.quantity .exact) *
            numeric18.store p.markPrice - p.grossNotional .exact) := by
    unfold AccountState.sumOf
    rw [← List.sum_map_add]
    simp only [add_sub_cancel]
  rw [ho.rowTotal_eq hp, ← hsum]
  rfl

theorem Owned.riskTotal_eq (ho : db.Owned experiment a)
    (hp : Persisted numeric18 db a plan sourceId db' created) :
    numeric18.sum (db'.activeExits.map (planRisk numeric18)) =
      ((db.openWith a plan).map (planRisk .exact)).sum := by
  rw [ho.activeExits_eq hp]
  exact Arith.exact_sum _

/-- the verifier accepts a persisted account when, and only when, the losses of all its columns
cancel -/
theorem Owned.verifies_iff (ho : db.Owned experiment a) (hrec : a.Reconciles)
    (hp : Persisted numeric18 db a plan sourceId db' created) :
    db'.accountProjectionMismatch numeric18 experiment = none ↔ a.Cancels ∧
        db.RiskCovered a plan := by
  obtain ⟨t, hlatest⟩ := ho.latest_eq hp
  have hagrees : db'.accountProjectionMismatch numeric18 experiment = none ↔
      db'.SnapshotAgrees numeric18 experiment
        (snapshotRow numeric18 db'.exitPlans a plan sourceId t) := by
    simp only [accountProjectionMismatch, hlatest]
    split <;> simp_all
  have hR := ho.columnTotal_eq hp (f := (·.realizedPnl)) (c := (·.realizedPnl)) fun _ => rfl
  have hX :=
    ho.columnTotal_eq hp (f := (·.unrealizedPnl .exact)) (c := (·.unrealizedPnl)) fun _ => rfl
  have hF := ho.columnTotal_eq hp (f := (·.fees)) (c := (·.fees)) fun _ => rfl
  have hU := ho.columnTotal_eq hp (f := (·.funding)) (c := (·.funding)) fun _ => rfl
  have hM := ho.columnTotal_eq hp (f := a.marginOf) (c := (·.initialMargin)) fun _ => rfl
  rw [hagrees, snapshotAgrees_iff, hp.riskAtStop_eq, ho.riskTotal_eq hp, hR, hX, hF, hU, hM,
    ho.notionalTotal_eq hp, ho.capital]
  -- every sum is now one over the positions; what is left is to move the exact parts to one side
  have hcash := AccountState.reconciles_iff.mp hrec
  have hequity := equity_sumOf (a := a)
  have hused := usedMargin_sumOf (a := a)
  have hfree : a.freeMargin .exact = a.equity .exact - a.usedMargin .exact := rfl
  have hr : a.realizedPnl .exact = a.sumOf (·.realizedPnl) := AccountState.total_exact _ _
  have hx : a.unrealizedPnl .exact = a.sumOf (·.unrealizedPnl .exact) :=
    AccountState.total_exact _ _
  have hf : a.fees .exact = a.sumOf (·.fees) := AccountState.total_exact _ _
  have hu : a.funding .exact = a.sumOf (·.funding) := AccountState.total_exact _ _
  have hg : a.grossNotional .exact = a.sumOf (·.grossNotional .exact) :=
    AccountState.total_exact _ _
  rw [hr, hx, hf, hu, hg, hused]
  have hc := store_eq a.cashBalance
  have he := store_eq (a.equity .exact)
  have hm := store_eq (a.freeMargin .exact)
  constructor
  · rintro ⟨h1, h2, h3, h4, h5, h6, h7, h8, h9, h10⟩
    refine ⟨⟨?_, store_eq_iff.mp h4, store_eq_iff.mp h5, store_eq_iff.mp h6, store_eq_iff.mp h7,
      store_eq_iff.mp h9, store_eq_iff.mp h8, ?_, ?_⟩, h10⟩
    · show lost a.cashBalance = _
      linarith
    · linarith
    · linarith
  · rintro ⟨⟨c1, c4, c5, c6, c7, c9, c8, c2, c3⟩, h10⟩
    unfold AccountState.CashCancels at c1
    refine ⟨?_, ?_, ?_, store_eq_iff.mpr c4, store_eq_iff.mpr c5, store_eq_iff.mpr c6,
      store_eq_iff.mpr c7, store_eq_iff.mpr c8, store_eq_iff.mpr c9, h10⟩
    · linarith
    · linarith
    · linarith

/-- **what survives the columns**: a reconciled account that is persisted can be restored and passes
the ledger verifier when, and only when, the losses of its columns cancel and the snapshot carries
the risk of all its plans -/
theorem persisted_account_verifies_iff (idOrder : UUID → Nat) (db db' : ExecutionTables)
    (experiment : ExperimentCapital) (a : AccountState) (plan : Option ExitPlan)
    (sourceId : Option UUID) (created : Bool) (ho : db.Owned experiment a)
    (hrec : (a.reconcile .exact).ok)
    (h : db.persistAccount numeric18 a plan sourceId = .ok (db', created)) :
    (db'.loadAccount numeric18 idOrder experiment ≠
        .error (.arithmeticError "restored account does not reconcile") ∧
        db'.accountProjectionMismatch numeric18 experiment = none) ↔
      a.Cancels ∧ db.RiskCovered a plan := by
  have hp := (persistAccount_cases h).1
  have hbooks := (AccountState.reconcile_ok_iff a).mp hrec
  rw [ho.loads_iff hbooks hp, ho.verifies_iff hbooks hp]
  exact ⟨fun h => h.2, fun h => ⟨h.1.cash, h⟩⟩

end

end ExecutionTables

/-! ## two thirds -/

namespace Demo

def thirdPrice : ℚ := toDigits 28 (302 / 300)

def thirds : List Operation :=
  [.fill ⟨"uuid:1"⟩ ⟨"uuid:bitcoin"⟩ "BTCUSDT" .buy .open 3 thirdPrice 0 10,
    .fill ⟨"uuid:2"⟩ ⟨"uuid:bitcoin"⟩ "BTCUSDT" .sell .reduce 1 (101 / 100) 0 20,
    .fill ⟨"uuid:3"⟩ ⟨"uuid:ether"⟩ "ETHUSDT" .buy .open 3 thirdPrice 0 30,
    .fill ⟨"uuid:4"⟩ ⟨"uuid:ether"⟩ "ETHUSDT" .sell .reduce 1 (101 / 100) 0 40]

def thirdsAccount : AccountState :=
  ((do
    let a ← AccountState.create ⟨"uuid:experiment"⟩ 9 "USDT" 1
    a.replay decimal28 thirds : Py AccountState)).toOption.get (by decide +kernel)

/-- cash has gained twice 0.00333..., which is rounded up, and each position keeps its own, rounded
down -/
theorem thirds_unrestored :
    (thirdsAccount.reconcile .exact).ok ∧ (thirdsAccount.reconcile decimal28).ok ∧
      (do
        let written ← ExecutionTables.empty.persistAccount decimal28 thirdsAccount none none
        written.1.loadAccount decimal28 (fun _ => 0) ⟨⟨"uuid:experiment"⟩, 9, "USDT"⟩) =
      .error (.arithmeticError "restored account does not reconcile") := by
  decide +kernel

def tradedTables : ExecutionTables :=
  ((ExecutionTables.empty.persistAccount numeric18 tradedAccount none none).toOption.get
    (by decide +kernel)).1

theorem tradedAccount_owned :
    ExecutionTables.empty.Owned ⟨⟨"uuid:experiment"⟩, 1000, "USDT"⟩ tradedAccount := by
  have hreplay : freshAccount.replay .exact tradeHistory = .ok tradedAccount :=
    eq_ok_of_toOption (Option.some_get _).symm
  have hvalid : freshAccount.Valid :=
    (AccountState.create_valid (eq_ok_of_toOption (Option.some_get _).symm)).1
  have hbooked := AccountState.replay_booked hvalid (by decide +kernel) hreplay
  refine ⟨by decide +kernel, by decide +kernel,
    fun symbol p hp => (hbooked.valid.positions symbol p hp).2.1, (fun id hid => nomatch hid),
    (fun s hs => nomatch hs)⟩

theorem persisted_traded_verifies :
    tradedTables.loadAccount numeric18 (fun _ => 0) ⟨⟨"uuid:experiment"⟩, 1000, "USDT"⟩ ≠
        .error (.arithmeticError "restored account does not reconcile") ∧
      tradedTables.accountProjectionMismatch numeric18 ⟨⟨"uuid:experiment"⟩, 1000, "USDT"⟩ = none :=
  (ExecutionTables.persisted_account_verifies_iff (fun _ => 0) .empty tradedTables
    ⟨⟨"uuid:experiment"⟩, 1000, "USDT"⟩ tradedAccount none none true tradedAccount_owned
    (by decide +kernel) (eq_ok_of_toOption (by decide +kernel))).mpr
    ⟨⟨by decide +kernel, by decide +kernel, by decide +kernel, by decide +kernel, by decide +kernel,
      by decide +kernel, by decide +kernel, by decide +kernel, by decide +kernel⟩, by
        decide +kernel⟩

end Demo

end Maais
