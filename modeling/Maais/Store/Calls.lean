import Maais.Paper.Closable
import Maais.Store.Ledger

/-!
# Runs of the execution repository

The tables are those of one experiment. Every call of a writer is a transaction of its own: what
raised is rolled back, and what violates a unique index raises as it is flushed.

* `committed`  the unique indexes of positions, exit plans and lots;
* `call_cases`  a call that returned wrote nothing of an account, or persisted the one it was given;
* `risk_stored_iff`  the latest snapshot carries the risk of all open plans after every call of a
  run, exactly when every call of the run keeps it.
-/

namespace Maais
open Lib

namespace ExecutionTables

/-! ## one transaction -/

/-- `uq_position_one_open_symbol` -/
def OneOpenPosition (db : ExecutionTables) : Prop :=
  ((db.positions.values.filter (fun row => row.status = .open)).map
    (fun row => (row.experimentId, row.symbol))).Nodup

/-- `uq_exit_one_active_position` -/
def OneOpenPlan (db : ExecutionTables) : Prop :=
  ((db.exitPlans.values.filter (fun plan => openPlan plan)).map (·.positionId)).Nodup

/-- `uq_lot_opening_fill` -/
def OneLotPerFill (db : ExecutionTables) : Prop := (db.lots.values.map (·.lot.openingFillId)).Nodup

instance (db : ExecutionTables) : Decidable db.OneOpenPosition := by
  unfold OneOpenPosition
  infer_instance

instance (db : ExecutionTables) : Decidable db.OneOpenPlan := by
  unfold OneOpenPlan
  infer_instance

instance (db : ExecutionTables) : Decidable db.OneLotPerFill := by
  unfold OneLotPerFill
  infer_instance

def committed {β : Type} (written : ExecutionTables × β) : Py (ExecutionTables × β) := do
  raiseIf (¬ written.1.OneOpenPosition) (.integrityError "uq_position_one_open_symbol")
  raiseIf (¬ written.1.OneOpenPlan) (.integrityError "uq_exit_one_active_position")
  raiseIf (¬ written.1.OneLotPerFill) (.integrityError "uq_lot_opening_fill")
  return written

structure Indexed (db : ExecutionTables) : Prop where
  positions : db.OneOpenPosition
  plans : db.OneOpenPlan
  lots : db.OneLotPerFill

theorem committed_eq_ok {β : Type} {written out : ExecutionTables × β} :
    committed written = .ok out ↔ written.1.Indexed ∧ out = written := by
  simp only [committed, bind_eq_ok, raiseIf_eq_ok, not_not, pure_ok_iff]
  constructor
  · rintro ⟨_, hp, _, hx, _, hl, rfl⟩
    exact ⟨⟨hp, hx, hl⟩, rfl⟩
  · rintro ⟨⟨hp, hx, hl⟩, rfl⟩
    exact ⟨(), hp, (), hx, (), hl, rfl⟩

/-! ## calls -/

inductive Call
  | record (r : PaperExecutionRecord)
  | accountState (account : AccountState) (plan : ExitPlan) (sourceEventId sourceEventKind : String)
  | funding (settlement : FundingRecord) (account : AccountState)

namespace Call

def account : Call → Option AccountState
  | .record r => r.account
  | .accountState account _ _ _ => some account
  | .funding _ account => some account

def plan : Call → Option ExitPlan
  | .record r => r.exitPlan
  | .accountState _ plan _ _ => some plan
  | .funding _ _ => none

def Writes (db : ExecutionTables) : Call → Prop
  | .record r => ¬ db.Stored r ∧ r.account ≠ none
  | .accountState account _ sourceEventId sourceEventKind =>
    some (snapshotSource account.experimentId sourceEventKind sourceEventId) ∉
      db.snapshots.map (·.sourceId)
  | .funding settlement _ => db.findFunding settlement.marketEventId = none

end Call

variable (A : Arith)

def call (db : ExecutionTables) : Call → Py ExecutionTables
  | .record r => do
    let written ← db.record A r
    let out ← committed written
    return out.1
  | .accountState account plan sourceEventId sourceEventKind => do
    let written ← db.recordAccountState A account plan sourceEventId sourceEventKind
    let out ← committed written
    return out.1
  | .funding settlement account => do
    let written ← db.recordFunding A settlement account
    let out ← committed written
    return out.1

def step (db : ExecutionTables) (c : Call) : ExecutionTables :=
  match db.call A c with
  | .ok db' => db'
  | .error _ => db

def run (calls : List Call) : ExecutionTables := calls.foldl (step A) .empty

theorem run_concat (calls : List Call) (c : Call) :
    run A (calls ++ [c]) = (run A calls).step A c := by
  simp [run]

/-! ## what a call did -/

variable {A} {db db' : ExecutionTables} {r : PaperExecutionRecord}

theorem Fresh.not_stored (h : db.Fresh r) : ¬ db.Stored r := by
  rintro ⟨existing, hfind, _, hversion⟩
  obtain ⟨_, hnone⟩ | ⟨other, hother, _, hlt⟩ := h
  · rw [hnone] at hfind
    cases hfind
  · rw [hother, Option.some.injEq] at hfind
    subst hfind
    omega

theorem record_without_account {res : PaperExecutionResult} (ha : r.account = none)
    (h : db.record A r = .ok (db', res)) : SameAccount db db' := by
  simp only [record, bind_eq_ok] at h
  obtain ⟨_, _, ordered, ho, h⟩ := h
  obtain ⟨rfl, _⟩ | ⟨ordered, ts, rfl, _, hput⟩ := upsertOrder_cases ho
  · cases h
    exact ⟨rfl, rfl, rfl, rfl⟩
  · simp only [recorded, recordFills, persistRecordAccount, ha, bind_eq_ok, pure_eq_ok,
      Except.ok.injEq, Prod.mk.injEq] at h
    obtain ⟨_, ⟨filled, hfills, rfl⟩, rfl, _⟩ := h
    obtain ⟨_, ⟨h1, h2, h3, h4⟩, _⟩ := putOrder_eq hput
    obtain ⟨⟨g1, g2, g3, g4⟩, _⟩ := putFills_same hfills
    exact ⟨g1.trans h1, g2.trans h2, g3.trans h3, g4.trans h4⟩

variable {account : AccountState}

theorem validate_placed (ha : r.account = some account)
    (h : r.validate A = .ok ()) (plan : ExitPlan) (hplan : r.exitPlan = some plan) :
    ∃ p ∈ account.positions.values, p.positionId = plan.positionId := by
  simp only [PaperExecutionRecord.validate, bind_eq_ok, PaperExecutionRecord.validatePlan,
    ha, hplan] at h
  obtain ⟨_, _, _, _, _, _, _, _, _, _, _, _, _, _, p, hp, _, hid, _⟩ := h
  rw [raiseIf_eq_ok, ne_eq, not_not] at hid
  rw [AccountState.position, orRaise_eq_ok] at hp
  exact ⟨p, account.positions.mem_values_iff.mpr ⟨_, hp⟩, hid.symm⟩

/-- the account of a call was persisted, with a plan of one of its positions -/
structure Wrote (A : Arith) (db : ExecutionTables) (c : Call) (account : AccountState)
    (db' : ExecutionTables) : Prop where
  brought : c.account = some account
  writes : c.Writes db
  persisted : ∃ sourceId created, Persisted A db account c.plan sourceId db' created
  placed : ∀ plan, c.plan = some plan → ∃ p ∈ account.positions.values, p.positionId =
    plan.positionId

variable {c : Call}

theorem call_cases (h : db.call A c = .ok db') :
    (¬ c.Writes db ∧ SameAccount db db') ∨ ∃ account, Wrote A db c account db' := by
  cases c with
  | record r =>
    simp only [call, bind_eq_ok, committed_eq_ok, pure_ok_iff] at h
    obtain ⟨⟨written, res⟩, hrec, _, ⟨_, rfl⟩, rfl⟩ := h
    cases ha : r.account with
    | none => exact Or.inl ⟨fun hw => hw.2 ha, record_without_account ha hrec⟩
    | some account =>
      obtain ⟨hvalid, ⟨hsame, hst⟩ | hr⟩ := record_cases ha hrec
      · obtain rfl : written = db := hsame
        exact Or.inl ⟨fun hw => hw.1 hst, rfl, rfl, rfl, rfl⟩
      · refine Or.inr ⟨account, ha, ⟨hr.fresh.not_stored, by rw [ha]; simp⟩, ?_,
          validate_placed ha hvalid⟩
        obtain ⟨created, hp⟩ := hr.persisted
        exact ⟨none, created, hp⟩
  | accountState account plan sourceEventId kind =>
    simp only [call, bind_eq_ok, committed_eq_ok, pure_ok_iff] at h
    obtain ⟨⟨written, created⟩, hrec, _, ⟨_, rfl⟩, rfl⟩ := h
    obtain ⟨hplaced, ⟨hsame, _, hst⟩ | ⟨hnew, _, hp, _⟩⟩ := recordAccountState_cases hrec
    · obtain rfl : written = db := hsame
      exact Or.inl ⟨fun hw => hw hst, rfl, rfl, rfl, rfl⟩
    · refine Or.inr ⟨account, rfl, hnew, ⟨_, _, hp⟩, ?_⟩
      intro other hother
      obtain rfl : plan = other := Option.some.inj hother
      exact hplaced
  | funding settlement account =>
    simp only [call, bind_eq_ok, committed_eq_ok, pure_ok_iff] at h
    obtain ⟨⟨written, created⟩, hrec, _, ⟨_, rfl⟩, rfl⟩ := h
    obtain ⟨hsame, hst⟩ | ⟨_, _, ⟨_, hnew⟩, hp, _⟩ := recordFunding_cases hrec
    · obtain rfl : written = db := hsame
      refine Or.inl ⟨fun hw => ?_, rfl, rfl, rfl, rfl⟩
      rw [Call.Writes, hst] at hw
      cases hw
    · exact Or.inr ⟨account, rfl, hnew, ⟨none, true, hp⟩, fun plan hplan => nomatch hplan⟩

/-! ## the plans of a run -/

/-- the rows of the exit plans: each has its own id as key, a quantity, and a position row -/
structure PlanRows (db : ExecutionTables) : Prop where
  keyed : db.exitPlans.Keyed (·.planId)
  sized : ∀ plan ∈ db.exitPlans.values, 0 < plan.quantity
  placed : ∀ plan ∈ db.exitPlans.values, (db.positions.get? plan.positionId).isSome

variable {plan : Option ExitPlan}

theorem mem_storedPlans {x : ExitPlan} (h : x ∈ (db.storedPlans .exact plan).values) :
    plan = some x ∨ x ∈ db.exitPlans.values := by
  cases plan with
  | none => exact Or.inr h
  | some new =>
    rw [storedPlans, storedPlan_exact] at h
    obtain rfl | ⟨id, _, hget⟩ := db.exitPlans.mem_values_set.mp h
    · exact Or.inl rfl
    · exact Or.inr (db.exitPlans.mem_values_iff.mpr ⟨id, hget⟩)

variable {sourceId : Option UUID}

theorem Persisted.sized {created : Bool}
    (h : Persisted .exact db account plan sourceId db' created) : ∀ x, plan = some x →
    0 < x.quantity := by
  rintro x rfl
  obtain ⟨_, hcheck, _⟩ := persistPlan_eq h.plans
  rw [storedPlan_exact] at hcheck
  exact hcheck.1

theorem PlanRows.of_wrote (h : db.PlanRows) (hw : Wrote .exact db c account db') :
    db'.PlanRows := by
  obtain ⟨sourceId, created, hper⟩ := hw.persisted
  have hplans := hper.exitPlans_eq
  refine ⟨?_, fun plan hplan => ?_, fun plan hplan => ?_⟩
  · rw [hplans]
    cases c.plan with
    | none => exact h.keyed
    | some new => exact h.keyed.set rfl
  · rw [hplans] at hplan
    obtain hnew | hold := mem_storedPlans hplan
    · exact hper.sized plan hnew
    · exact h.sized plan hold
  · rw [hplans] at hplan
    rw [Option.isSome_iff_exists]
    obtain hnew | hold := mem_storedPlans hplan
    · obtain ⟨p, hp, hid⟩ := hw.placed plan hnew
      rw [← hid]
      exact persistPositions_mem hper.positions hp
    · exact persistPositions_keeps hper.positions (Option.isSome_iff_exists.mp (h.placed plan hold))

theorem PlanRows.step (h : db.PlanRows) (c : Call) : (db.step .exact c).PlanRows := by
  unfold ExecutionTables.step
  split
  · rename_i db' hcall
    obtain ⟨_, hp, _, hx, _⟩ | ⟨account, hw⟩ := call_cases hcall
    · refine ⟨by rw [hx]; exact h.keyed, by rw [hx]; exact h.sized, ?_⟩
      rw [hx, hp]
      exact h.placed
    · exact h.of_wrote hw
  · exact h

theorem run_planRows (calls : List Call) : (run .exact calls).PlanRows := by
  induction calls using List.reverseRecOn with
  | nil => exact ⟨Dict.Keyed.empty, (fun _ h => nomatch h), (fun _ h => nomatch h)⟩
  | append_singleton calls c ih =>
    rw [run_concat]
    exact ih.step c

/-! ## the risk of the latest snapshot -/

def openPlans (plans : Dict UUID ExitPlan) : List ExitPlan :=
  plans.values.filter (fun plan => openPlan plan)

def openRisk (plans : Dict UUID ExitPlan) : ℚ := ((openPlans plans).map (planRisk .exact)).sum

def RiskStored (db : ExecutionTables) : Prop :=
  ∀ latest, db.latestSnapshot = some latest → latest.riskAtStop = openRisk db.exitPlans

theorem PlanRows.openRisk_eq (h : db.PlanRows) :
    openRisk db.exitPlans = Arith.exact.sum (db.activeExits.map (planRisk .exact)) := by
  have hfilter : openPlans db.exitPlans = db.activeExits := by
    apply List.filter_congr
    intro plan hplan
    rw [decide_eq_decide, and_iff_left (h.placed plan hplan)]
  rw [openRisk, hfilter]
  simp

def Newest (db : ExecutionTables) (account : AccountState) : Prop :=
  ∀ s ∈ db.snapshots, s.accountVersion < account.version

instance (db : ExecutionTables) (account : AccountState) : Decidable (db.Newest account) := by
  unfold Newest
  infer_instance

def heldRisk (plan : ExitPlan) : ℚ := if openPlan plan then planRisk .exact plan else 0

/-- what a call that writes must leave.  Where its snapshot becomes the latest: no open plan but the
one of the snapshot with a stop away from its entry.  Where another snapshot stays the latest: a
plan that carries the risk of the one it replaces. -/
def KeepsRisk (db : ExecutionTables) (c : Call) : Prop :=
  ∀ db' account, db.call .exact c = .ok db' → c.Writes db → c.account = some account →
    if db.Newest account then
      ∀ x ∈ openPlans (db.storedPlans .exact c.plan),
        some x ≠ onePlan (db.storedPlans .exact c.plan) account c.plan →
        x.stopPrice = x.averageEntry
    else
      ∀ plan, c.plan = some plan →
        heldRisk plan = ((db.exitPlans.get? plan.planId).map heldRisk).getD 0

theorem planRisk_nonneg {plan : ExitPlan} (h : 0 < plan.quantity) : 0 ≤ planRisk .exact plan :=
  mul_nonneg (abs_nonneg _) h.le

theorem planRisk_eq_zero {plan : ExitPlan} (h : 0 < plan.quantity) :
    planRisk .exact plan = 0 ↔ plan.stopPrice = plan.averageEntry := by
  have hrisk : planRisk .exact plan = |plan.averageEntry - plan.stopPrice| * plan.quantity := rfl
  rw [hrisk, mul_eq_zero, or_iff_left h.ne', abs_eq_zero, sub_eq_zero, eq_comm]

theorem openRisk_eq_sum (plans : Dict UUID ExitPlan) :
    openRisk plans = (plans.values.map heldRisk).sum := by
  unfold openRisk openPlans
  induction plans.values with
  | nil => rfl
  | cons plan l ih =>
    by_cases hopen : openPlan plan
    · simp only [List.filter_cons, hopen, decide_true, if_true, List.map_cons,
        List.sum_cons, ih, heldRisk]
    · simp only [List.filter_cons, hopen, decide_false, Bool.false_eq_true, if_false, List.map_cons,
        List.sum_cons, ih, heldRisk, zero_add]

theorem openRisk_storedPlans (db : ExecutionTables) (plan : Option ExitPlan) :
    openRisk (db.storedPlans .exact plan) = openRisk db.exitPlans ↔
      ∀ x, plan = some x → heldRisk x = ((db.exitPlans.get? x.planId).map heldRisk).getD 0 := by
  cases plan with
  | none => exact iff_of_true rfl fun x hx => nomatch hx
  | some plan =>
    rw [openRisk_eq_sum, openRisk_eq_sum, storedPlans, storedPlan_exact, Dict.sum_values_set]
    constructor
    · intro h x hx
      obtain rfl : plan = x := Option.some.inj hx
      linarith
    · intro h
      rw [h plan rfl]
      ring

/-- of a list without repetitions, one element has the sum of all exactly when the others are
zero -/
theorem sum_eq_one_iff {l : List ExitPlan} (one : Option ExitPlan) (hn : l.Nodup)
    (hsized : ∀ x ∈ l, 0 < x.quantity) (hone : ∀ x, one = some x → x ∈ l) :
    (one.map (planRisk .exact)).getD 0 = (l.map (planRisk .exact)).sum ↔
      ∀ x ∈ l, some x ≠ one → x.stopPrice = x.averageEntry := by
  have hzero : ∀ l' : List ExitPlan, (∀ x ∈ l', x ∈ l) →
      ((l'.map (planRisk .exact)).sum = 0 ↔ ∀ x ∈ l', x.stopPrice = x.averageEntry) := by
    intro l' hsub
    constructor
    · intro hsum x hx
      rw [← planRisk_eq_zero (hsized x (hsub x hx))]
      refine List.all_zero_of_le_zero_le_of_sum_eq_zero ?_ hsum (List.mem_map_of_mem hx)
      intro y hy
      obtain ⟨x, hx, rfl⟩ := List.mem_map.mp hy
      exact planRisk_nonneg (hsized x (hsub x hx))
    · intro h
      apply List.sum_eq_zero
      intro y hy
      obtain ⟨x, hx, rfl⟩ := List.mem_map.mp hy
      exact (planRisk_eq_zero (hsized x (hsub x hx))).mpr (h x hx)
  cases one with
  | none =>
    rw [Option.map_none, Option.getD_none, eq_comm, hzero l fun _ hx => hx]
    simp
  | some one =>
    have hsum := List.sum_map_erase (planRisk .exact) (hone one rfl)
    rw [Option.map_some, Option.getD_some, ← hsum, left_eq_add,
      hzero _ fun _ hx => List.mem_of_mem_erase hx]
    simp only [hn.mem_erase_iff, ne_eq, Option.some.injEq]
    tauto

/-! ## one call -/

theorem PlanRows.nodup (h : db.PlanRows) : (openPlans db.exitPlans).Nodup :=
  List.Nodup.filter _ (List.Nodup.of_map _ h.keyed.nodup_values)

theorem onePlan_mem {x : ExitPlan}
    (h : onePlan (db.storedPlans .exact plan) account plan = some x) :
    x ∈ openPlans (db.storedPlans .exact plan) := by
  rw [onePlan, Option.or_eq_some_iff] at h
  rw [openPlans, List.mem_filter, decide_eq_true_eq]
  obtain hgiven | ⟨_, hfound⟩ := h
  · rw [Option.filter_eq_some_iff, decide_eq_true_eq] at hgiven
    obtain ⟨rfl, hopen⟩ := hgiven
    rw [storedPlans, storedPlan_exact]
    exact ⟨(Dict.mem_values_iff _).mpr ⟨x.planId, Dict.get?_set_self _ _ _⟩, hopen⟩
  · have hx := List.find?_some hfound
    rw [decide_eq_true_eq] at hx
    exact ⟨List.mem_of_find?_eq_some hfound, hx.1⟩

theorem latestSnapshot_append {row : SnapshotRow} (hs : db'.snapshots = db.snapshots ++ [row]) :
    db'.latestSnapshot = if ∀ s ∈ db.snapshots, s.accountVersion < row.accountVersion then some row
      else db.latestSnapshot := by
  unfold latestSnapshot
  rw [hs, List.argmax_concat]
  cases hl : db.snapshots.argmax (·.accountVersion) with
  | none =>
    rw [List.argmax_eq_none] at hl
    simp [hl]
  | some latest =>
    have hmem : latest ∈ db.snapshots := List.argmax_mem hl
    have hmax : ∀ s ∈ db.snapshots, s.accountVersion ≤ latest.accountVersion := fun s hs =>
      List.le_of_mem_argmax hs hl
    by_cases hlt : latest.accountVersion < row.accountVersion
    · have hall : ∀ s ∈ db.snapshots, s.accountVersion < row.accountVersion := fun s hs =>
        lt_of_le_of_lt (hmax s hs) hlt
      simp only [hlt, if_true, if_pos hall]
    · have hall : ¬ ∀ s ∈ db.snapshots, s.accountVersion < row.accountVersion :=
        fun h => hlt (h latest hmem)
      simp only [hlt, if_false, if_neg hall]

theorem Persisted.latest {created : Bool}
    (h : Persisted .exact db account plan sourceId db' created) :
    if db.Newest account then
      ∃ t, db'.latestSnapshot = some (snapshotRow .exact db'.exitPlans account plan sourceId t)
    else db'.latestSnapshot = db.latestSnapshot := by
  obtain ⟨t, _, hs⟩ := h.snapshots
  by_cases hin : account.version ∈ db.snapshots.map (·.accountVersion)
  · have hnot : ¬ db.Newest account := by
      intro hnew
      obtain ⟨s, hmem, hv⟩ := List.mem_map.mp hin
      have := hnew s hmem
      omega
    rw [if_pos hin] at hs
    rw [if_neg hnot, latestSnapshot, latestSnapshot, hs.1]
  · rw [if_neg hin] at hs
    rw [latestSnapshot_append hs.1]
    by_cases hnew : db.Newest account
    · rw [if_pos hnew]
      exact ⟨t, if_pos hnew⟩
    · rw [if_neg hnew]
      exact if_neg hnew

theorem latestSnapshot_of_not_newest (h : ¬ db.Newest account) :
    ∃ latest, db.latestSnapshot = some latest := by
  rw [← Option.ne_none_iff_exists']
  intro hnone
  rw [latestSnapshot, List.argmax_eq_none] at hnone
  refine h fun s hs => ?_
  rw [hnone] at hs
  cases hs

theorem Wrote.risk_iff (hw : Wrote .exact db c account db')
    (hrows : db.PlanRows) (h : db.RiskStored) (hcall : db.call .exact c = .ok db') :
    db'.RiskStored ↔ db.KeepsRisk c := by
  obtain ⟨sourceId, created, hper⟩ := hw.persisted
  have hrows' := hrows.of_wrote hw
  have hplans := hper.exitPlans_eq
  have hlatest := hper.latest
  have hkeeps : ∀ P : AccountState → Prop,
      (∀ t account', db.call .exact c = .ok t → c.Writes db → c.account = some account' →
        P account') ↔ P account := by
    intro P
    constructor
    · intro hall
      exact hall db' account hcall hw.writes hw.brought
    · intro hP t account' _ _ ha
      rw [hw.brought, Option.some.injEq] at ha
      exact ha ▸ hP
  rw [KeepsRisk, hkeeps]
  unfold RiskStored
  by_cases hnew : db.Newest account
  · rw [if_pos hnew] at hlatest ⊢
    obtain ⟨t, ht⟩ := hlatest
    have hone := sum_eq_one_iff (onePlan db'.exitPlans account c.plan) hrows'.nodup
      (fun x hx => hrows'.sized x (List.mem_of_mem_filter hx))
      (fun x hx => by rw [hplans] at hx ⊢; exact onePlan_mem hx)
    rw [ht, hplans] at *
    rw [← hone, ← riskAtStop_onePlan]
    simp only [Option.some.injEq, forall_eq']
    exact Iff.rfl
  · rw [if_neg hnew] at hlatest ⊢
    obtain ⟨latest, hl⟩ := latestSnapshot_of_not_newest hnew
    rw [hlatest, hl, hplans, ← openRisk_storedPlans]
    simp only [Option.some.injEq, forall_eq']
    rw [h latest hl, eq_comm]

theorem step_risk_iff (hrows : db.PlanRows) (h : db.RiskStored) (c : Call) :
    (db.step .exact c).RiskStored ↔ db.KeepsRisk c := by
  unfold ExecutionTables.step
  cases hcall : db.call .exact c with
  | error e =>
    refine iff_of_true h fun db' account hok => ?_
    rw [hcall] at hok
    cases hok
  | ok db' =>
    obtain ⟨hno, _, _, hx, hs⟩ | ⟨account, hw⟩ := call_cases hcall
    · refine iff_of_true ?_ fun _ _ _ hwrites => absurd hwrites hno
      intro latest hl
      rw [latestSnapshot, hs] at hl
      rw [hx]
      exact h latest hl
    · exact hw.risk_iff hrows h hcall

/-! ## every run -/

theorem risk_stored_iff (calls : List Call) :
    (∀ before, before <+: calls → (run .exact before).RiskStored ∧
      openRisk (run .exact before).exitPlans =
        Arith.exact.sum ((run .exact before).activeExits.map (planRisk .exact))) ↔
      ∀ before c, before ++ [c] <+: calls → (run .exact before).KeepsRisk c := by
  constructor
  · intro h before c hc
    have hafter := (h _ hc).1
    rw [run_concat] at hafter
    have hbefore := (h before ((List.prefix_append before [c]).trans hc)).1
    exact (step_risk_iff (run_planRows before) hbefore c).mp hafter
  · intro h before hb
    refine ⟨?_, (run_planRows before).openRisk_eq⟩
    induction before using List.reverseRecOn with
    | nil => exact fun latest hl => nomatch hl
    | append_singleton before c ih =>
      rw [run_concat,
        step_risk_iff (run_planRows before) (ih ((List.prefix_append before [c]).trans hb))]
      exact h before c hb

end ExecutionTables

/-! ## entries in two symbols -/

namespace Demo
open ExecutionTables

theorem etherSymbol_ne : "ETHUSDT" ≠ "" := by decide

def etherFilters : ExchangeFilterSnapshot :=
  { notionalFilters with symbol := "ETHUSDT", symbol_ne := etherSymbol_ne }

def etherBook (t price : Nat) : BookSnapshot :=
  { deepBook t price with symbol := "ETHUSDT", symbol_ne := etherSymbol_ne }

def etherClaims : AuthorizationClaims :=
  { entryClaims with decisionCycleId := ⟨"uuid:ether-cycle"⟩, proposalId := ⟨"uuid:ether-proposal"⟩,
                     symbol := "ETHUSDT" }

def etherTen : MarketEntryCommand :=
  { entryTen with
    orderId := ⟨"uuid:ether-order"⟩, fillId := ⟨"uuid:ether-fill"⟩,
      positionId := ⟨"uuid:ether-position"⟩,
    exitPlanId := ⟨"uuid:ether-plan"⟩, decisionCycleId := ⟨"uuid:ether-cycle"⟩,
    proposalId := ⟨"uuid:ether-proposal"⟩, clientOrderId := "ether-entry", symbol := "ETHUSDT",
    capability := ⟨etherClaims, ⟨"key", etherClaims⟩⟩, exchangeFilters := etherFilters }

def etherResult : PaperBrokerResult :=
  (entryBroker.executeMarketEntry .exact etherTen heldAccount [etherBook 30 99] none).toOption.get
    (by decide +kernel)

def twoEntries : List Call := [.record entryResult.record, .record etherResult.record]

/-- each plan risks a tenth of 995; the second snapshot carries that of the second plan alone -/
theorem two_symbols_risk :
    (run .exact twoEntries).latestSnapshot.map SnapshotRow.riskAtStop = some (199 / 2) ∧
      openRisk (run .exact twoEntries).exitPlans = 199 ∧ ¬ (run .exact twoEntries).RiskStored ∧
      ((run .exact twoEntries).accountProjectionMismatch .exact
        ⟨⟨"uuid:experiment"⟩, 10000, "USDT"⟩).isSome := by
  have hstored : (run .exact twoEntries).latestSnapshot.map SnapshotRow.riskAtStop =
    some (199 / 2) := by decide +kernel
  have hopen : openRisk (run .exact twoEntries).exitPlans = 199 := by decide +kernel
  refine ⟨hstored, hopen, fun h => ?_, by decide +kernel⟩
  obtain ⟨latest, hl, hv⟩ := Option.map_eq_some_iff.mp hstored
  have hrisk := h latest hl
  rw [hv, hopen] at hrisk
  norm_num at hrisk

end Demo

end Maais
