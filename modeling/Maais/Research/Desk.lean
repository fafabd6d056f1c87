import Maais.Lib.Dict
import Maais.Research.Counterfactuals
import Mathlib.Data.List.Sort

/-!
# The counterfactual desk

The worker hands books, marks, funding settlements and closed bars to the counterfactuals one after
the other. Books fill the pending ones at the time they were observed; a closed bar is applied at
the time the bar closed, however late it is dispatched.

* `observeBook`, `observeMark`, `observeFunding`, `dispatch`  the continuous observer and the
  transaction of a bar;
* `early_bars_kept`  in a run no bar changes a counterfactual filled after the bar closed, and none
  is refused for a trigger before the creation of its plan, while no bar meets such a counterfactual
  of its symbol.
-/

namespace Maais
open Lib

/-! ## tables -/

/-- the columns of `trade_proposals` a counterfactual is compared with -/
structure ProposalRow where
  id : UUID
  experimentId : UUID
  decisionCycleId : UUID
  symbol : String
  direction : Direction
  status : ProposalStatus
deriving DecidableEq

structure ResearchTables where
  proposals : Dict UUID ProposalRow
  /-- by proposal: the row holds the whole state -/
  counterfactuals : Dict UUID CounterfactualState
deriving DecidableEq

/-- the check constraints of `counterfactuals` -/
def CounterfactualState.Check (A : Arith) (s : CounterfactualState) : Prop :=
  s.direction ≠ .neutral ∧ 0 < A.store s.quantity ∧ 0 < A.store s.decisionExecutablePrice ∧
    (0 ≤ A.store s.feeRate ∧ A.store s.feeRate < 1) ∧
    (0 ≤ A.store s.maximumFavorableExcursion ∧ 0 ≤ A.store s.maximumAdverseExcursion) ∧
      0 < s.version ∧
    (s.status = .noFill ∨ s.status = .resolved ↔ s.closedAt ≠ none) ∧
    (s.status = .open ∨ s.status = .resolved ↔ s.entryFill ≠ none)

instance CounterfactualState.decidableCheck (A : Arith) (s : CounterfactualState) : Decidable
    (s.Check A) := by
  unfold CounterfactualState.Check
  infer_instance

def ProposalRow.Matches (p : ProposalRow) (s : CounterfactualState) : Prop :=
  p.experimentId = s.experimentId ∧ p.decisionCycleId = s.decisionCycleId ∧ p.symbol = s.symbol ∧
    p.direction = s.direction

instance (p : ProposalRow) (s : CounterfactualState) : Decidable (p.Matches s) := by
  unfold ProposalRow.Matches
  infer_instance

/-- what the desk is configured with; `idOrder` is the order of the ids in the database -/
structure DeskConfig where
  arith : Arith
  marketFills : MarketFillEngine
  idOrder : UUID → Nat
  experimentId : UUID
  symbols : List String

namespace ResearchTables

def empty : ResearchTables := ⟨.empty, .empty⟩

variable (cfg : DeskConfig) (db : ResearchTables)

def insert (s : CounterfactualState) : Py ResearchTables := do
  raiseIf (∃ row ∈ db.counterfactuals.values, row.counterfactualId = s.counterfactualId)
    (.integrityError "counterfactuals_pkey")
  return { db with counterfactuals := db.counterfactuals.set s.proposalId s }

def update (row s : CounterfactualState) : Py ResearchTables := do
  raiseIf (row.counterfactualId ≠ s.counterfactualId)
    (.counterfactualIdentityConflict "proposal already has a different counterfactual identity")
  raiseIf (s.version < row.version)
    (.staleCounterfactualState "state is older than persisted projection")
  if s.version = row.version then
    raiseIf (row ≠ s)
      (.counterfactualIdentityConflict "same counterfactual version has different content")
    return db
  else
    raiseIf ((s.events.filter (fun e => e.sequence > row.version)).head?.map (·.sequence) ≠
      some (row.version + 1)) (.staleCounterfactualState "event sequence is not contiguous")
    return { db with counterfactuals := db.counterfactuals.set s.proposalId s }

def record (s : CounterfactualState) : Py ResearchTables := do
  let proposal ← orRaise (db.proposals.get? s.proposalId)
    (.valueError "counterfactual proposal does not exist")
  raiseIf (proposal.status ≠ .rejected)
    (.valueError "counterfactuals require a rejected directional proposal")
  raiseIf (¬ proposal.Matches s)
    (.valueError "counterfactual identity differs from rejected proposal")
  raiseIf (¬ s.Check cfg.arith) (.integrityError "counterfactuals")
  match db.counterfactuals.get? s.proposalId with
  | none => db.insert s
  | some row => db.update row s

def select (keep : CounterfactualState → Bool) (at' : CounterfactualState → Time) :
    List CounterfactualState :=
  (db.counterfactuals.values.filter (fun s => s.experimentId = cfg.experimentId ∧
    keep s)).insertionSort (fun a b => toLex (at' a, cfg.idOrder a.counterfactualId) ≤
    toLex (at' b, cfg.idOrder b.counterfactualId))

def getUnresolved : List CounterfactualState :=
  db.select cfg (fun s => s.status = .pending ∨ s.status = .open) (·.createdAt)

/-- `hypothetical_fill_at` -/
def fillAt (s : CounterfactualState) : Time := (s.entryFill.map (·.fillAt)).getD 0

def horizonDue (observedAt : Time) (s : CounterfactualState) : Prop :=
  ∃ h ∈ Horizon.all, s.outcome h = none ∧
    ∃ fill ∈ s.entryFill, fill.fillAt ≤ observedAt - h.duration

instance (observedAt : Time) (s : CounterfactualState) : Decidable (horizonDue observedAt s) := by
  unfold horizonDue
  infer_instance

def getMarkObservable (symbol : String) (observedAt : Time) : Py (List CounterfactualState) := do
  raiseIf (symbol = "") (.valueError "counterfactual observation symbol is required")
  return db.select cfg
    (fun s => s.symbol = symbol ∧ (s.status = .open ∨
      s.status = .resolved ∧ s.outcome .hours24 = none ∧ horizonDue observedAt s)) fillAt

def getFundingObservable (symbol : String) (fundingAt : Time) : Py (List CounterfactualState) := do
  raiseIf (symbol = "") (.valueError "counterfactual funding symbol is required")
  return db.select cfg
    (fun s => s.symbol = symbol ∧
      (∃ fill ∈ s.entryFill, fill.fillAt ≤ fundingAt ∧
      (s.status = .open ∨ s.status = .resolved ∧ s.outcome .hours24 = none ∧
      fill.fillAt ≥ fundingAt - researchWindow))) fillAt

/-! ## the continuous observer -/

def planId (s : CounterfactualState) : UUID :=
  .uuid5 ("maais://counterfactual-exit-plan/" ++ s.counterfactualId.text)

def enterAt (book : BookSnapshot) (s : CounterfactualState) : Py CounterfactualState := do
  let request ← MarketFillRequest.postInit
    { symbol := s.symbol, side := s.expectedSide, quantity := s.quantity,
      eligibleAfter := s.eligibleAfter, decisionExecutablePrice := s.decisionExecutablePrice,
      takerFeeRate := s.feeRate }
  match cfg.marketFills.fill cfg.arith request [book] with
  | .ok fill => s.enter cfg.arith fill (planId s)
  | .error (.fillRejection reason _) => s.markNoFill reason book.observedAt
  | .error e => .error e

def fillOne (symbol : String) (book : BookSnapshot) (db : ResearchTables)
    (s : CounterfactualState) : Py ResearchTables :=
  if s.symbol ≠ symbol ∨ s.status ≠ .pending ∨ book.observedAt ≤ s.eligibleAfter then .ok db
  else do
    let updated ← enterAt cfg book s
    db.record cfg updated

/-- `_observe_book`; the observation buffer may not hold the book of the event any more -/
def observeBook (symbol : String) (found : Option BookSnapshot) : Py ResearchTables := do
  raiseIf (symbol ∉ cfg.symbols)
    (.continuousRuntimeConflict "book symbol is outside the experiment")
  match found with
  | none => return db
  | some book => (db.getUnresolved cfg).foldlM (fillOne cfg symbol book) db

/-- `_observe_mark`; `official` is what the official position makes of the mark, before anything is
stored -/
def observeMark (symbol : String) (markPrice : ℚ) (observedAt : Time) (marketEventId : String)
    (official : Py Unit) : Py ResearchTables := do
  raiseIf (symbol ∉ cfg.symbols)
    (.continuousRuntimeConflict "mark symbol is outside the experiment")
  let states ← db.getMarkObservable cfg symbol observedAt
  let observed ← states.mapM (fun s => s.observeMark cfg.arith markPrice observedAt marketEventId)
  official
  ((states.zip observed).filter (fun pair => pair.2 ≠ pair.1)).foldlM
    (fun db pair => db.record cfg pair.2) db

/-- one counterfactual of `_observe_funding` -/
def fundOne (rate markPrice : ℚ) (fundingAt : Time) (marketEventId : String) (db : ResearchTables)
    (s : CounterfactualState) : Py ResearchTables := do
  let updated ← s.applyFunding cfg.arith rate markPrice fundingAt marketEventId
  if updated = s then return db else db.record cfg updated

def observeFunding (symbol : String) (rate markPrice : ℚ) (fundingAt : Time)
    (marketEventId : String) (official : Py Unit) : Py ResearchTables := do
  raiseIf (symbol ∉ cfg.symbols)
    (.continuousRuntimeConflict "funding symbol is outside the experiment")
  official
  let states ← db.getFundingObservable cfg symbol fundingAt
  states.foldlM (fundOne cfg rate markPrice fundingAt marketEventId) db

end ResearchTables

/-! ## the transaction of a closed bar -/

/-- a closed bar, and what the cycle before and around the counterfactuals came to -/
structure BarDispatch where
  symbol : String
  barCloseAt : Time
  marketEventId : String
  frameMark : Option ℚ
  close : ℚ
  direction : Direction
  proposal : Option ProposalRow
  rejected : Option CounterfactualRequest
  decided : Py Unit
  bundle : Py Bool
  stored : Py Unit
  /-- the progress of a recovery, after the counterfactuals -/
  recovery : Py Unit

namespace BarDispatch

variable (b : BarDispatch)

/-- `frame.mark_price or frame.bar.close` -/
def markPrice : ℚ :=
  match b.frameMark with
  | some mark => if mark = 0 then b.close else mark
  | none => b.close

def decisionApproved : Bool := decide (∃ p ∈ b.proposal, p.status = .approved)

def observation : CounterfactualObservation :=
  .closedBar b.marketEventId b.markPrice b.direction b.decisionApproved

end BarDispatch

namespace ResearchTables

variable (cfg : DeskConfig) (db : ResearchTables) (b : BarDispatch)

def recordProposal (new : Bool) : Py ResearchTables :=
  match new, b.proposal with
  | true, some p => do
    raiseIf (db.proposals.get? p.id ≠ none) (.integrityError "trade_proposals_pkey")
    return { db with proposals := db.proposals.set p.id p }
  | _, _ => .ok db

def recordRejected (counterfactual : Option CounterfactualState) : Py ResearchTables :=
  match counterfactual with
  | none => .ok db
  | some s => db.record cfg s

/-- `record_outcome`, with the outcome it records -/
def recordOutcome : Py ResearchTables := do
  b.decided
  let counterfactual ← b.rejected.mapM CounterfactualState.create
  raiseIf (∃ s ∈ counterfactual, ¬ ∃ p ∈ b.proposal, p.status = .rejected ∧ s.proposalId = p.id)
    (.valueError "counterfactual requires the matching rejected proposal")
  let new ← b.bundle
  let proposed ← db.recordProposal b new
  let recorded ← proposed.recordRejected cfg counterfactual
  b.stored
  return recorded

/-- one counterfactual of the loop of `dispatch` -/
def updateOne (db : ResearchTables) (s : CounterfactualState) : Py ResearchTables :=
  if s.symbol ≠ b.symbol ∨ s.status ≠ .open then .ok db
  else do
    let updated ← s.observeClosedBar cfg.arith b.markPrice b.direction b.decisionApproved
      b.barCloseAt b.marketEventId
    db.record cfg updated

def updateAll (recorded : ResearchTables) : Py ResearchTables :=
  (db.getUnresolved cfg).foldlM (updateOne cfg b) recorded

def dispatch : Py ResearchTables := do
  let recorded ← db.recordOutcome cfg b
  let updated ← db.updateAll cfg b recorded
  b.recovery
  return updated

/-! ## runs -/

inductive Input
  | book (symbol : String) (found : Option BookSnapshot)
  | mark (symbol : String) (markPrice : ℚ) (observedAt : Time) (marketEventId : String)
    (official : Py Unit)
  | funding (symbol : String) (rate markPrice : ℚ) (fundingAt : Time) (marketEventId : String)
    (official : Py Unit)
  | bar (b : BarDispatch)

def handle : Input → Py ResearchTables
  | .book symbol found => db.observeBook cfg symbol found
  | .mark symbol price at' id official => db.observeMark cfg symbol price at' id official
  | .funding symbol rate price at' id official =>
    db.observeFunding cfg symbol rate price at' id official
  | .bar b => db.dispatch cfg b

def step (input : Input) : ResearchTables :=
  match db.handle cfg input with
  | .ok db' => db'
  | .error _ => db

def run (inputs : List Input) : ResearchTables := inputs.foldl (step cfg) .empty

theorem run_concat (inputs : List Input) (input : Input) :
    run cfg (inputs ++ [input]) = (run cfg inputs).step cfg input := by
  simp [run]

/-! ## the rows of a run -/

structure Rows (db : ResearchTables) : Prop where
  keyed : db.counterfactuals.Keyed (·.proposalId)
  sound : ∀ s ∈ db.counterfactuals.values, s.Sound

section
variable {cfg db b} {db' : ResearchTables} {s : CounterfactualState}

/-- **what `record` did**: the version was stored as it is, or it is new -/
theorem record_cases (h : db.record cfg s = .ok db') :
    db' = db ∧ db.counterfactuals.get? s.proposalId = some s ∨
      db'.counterfactuals = db.counterfactuals.set s.proposalId s ∧
        ∀ row, db.counterfactuals.get? s.proposalId = some row → row.version < s.version := by
  simp only [record, bind_eq_ok] at h
  obtain ⟨_, _, _, _, _, _, _, _, h⟩ := h
  cases hget : db.counterfactuals.get? s.proposalId with
  | none =>
    simp only [hget, insert, bind_eq_ok, pure_ok_iff] at h
    obtain ⟨_, _, rfl⟩ := h
    exact Or.inr ⟨rfl, fun row hrow => by cases hrow⟩
  | some row =>
    simp only [hget, update, bind_eq_ok, raiseIf_eq_ok, not_lt] at h
    obtain ⟨_, _, _, hle, h⟩ := h
    split at h
    · simp only [bind_eq_ok, raiseIf_eq_ok, ne_eq, not_not, pure_ok_iff] at h
      obtain ⟨_, rfl, rfl⟩ := h
      exact Or.inl ⟨rfl, rfl⟩
    · rename_i hv
      simp only [bind_eq_ok, pure_ok_iff] at h
      obtain ⟨_, _, rfl⟩ := h
      refine Or.inr ⟨rfl, fun row' hrow => ?_⟩
      obtain rfl : row = row' := Option.some.inj hrow
      omega

theorem Rows.record (h : db.Rows) (hs : s.Sound) (hrec : db.record cfg s = .ok db') : db'.Rows := by
  obtain ⟨rfl, _⟩ | ⟨hset, _⟩ := record_cases hrec
  · exact h
  · refine ⟨?_, fun x hx => ?_⟩
    · rw [hset]
      exact h.keyed.set rfl
    · rw [hset, Dict.mem_values_set] at hx
      obtain rfl | ⟨id, _, hget⟩ := hx
      · exact hs
      · exact h.sound x (db.counterfactuals.mem_values_iff.mpr ⟨id, hget⟩)

theorem mem_select {keep : CounterfactualState → Bool} {at' : CounterfactualState → Time} :
    s ∈ db.select cfg keep at' ↔
      s ∈ db.counterfactuals.values ∧ s.experimentId = cfg.experimentId ∧ keep s = true := by
  simp [select, List.mem_insertionSort]

theorem Rows.loop (cfg : DeskConfig) {α : Type} {l : List α}
    {f : ResearchTables → α → Py ResearchTables} (h : db.Rows)
    (hf : ∀ a ∈ l, ∀ t t', f t a = .ok t' → t' = t ∨ ∃ s, s.Sound ∧ t.record cfg s = .ok t')
    (hl : l.foldlM f db = .ok db') : db'.Rows := by
  refine foldlM_ok_inv (I := Rows) (fun a ha t t' ht hstep => ?_) h hl
  obtain rfl | ⟨s, hs, hrec⟩ := hf a ha t t' hstep
  · exact ht
  · exact ht.record hs hrec

theorem enterAt_sound {book : BookSnapshot} {t : CounterfactualState}
    (h : enterAt cfg book s = .ok t) : t.Sound := by
  simp only [enterAt, bind_eq_ok] at h
  obtain ⟨request, _, h⟩ := h
  split at h
  · rename_i fill _
    obtain ⟨_, _, _, hv, _, hfill, plan, hplan, hcreated⟩ := CounterfactualState.enter_cases h
    exact ⟨by omega, fun _ => ⟨fill, plan, hfill, hplan, hcreated⟩⟩
  · obtain ⟨_, _, _, hv, hstatus⟩ := CounterfactualState.markNoFill_cases h
    refine ⟨by omega, fun hopen => ?_⟩
    rw [hstatus] at hopen
    cases hopen
  · cases h

theorem sound_of_cases {t : CounterfactualState} (hs : s.Sound)
    (h : t = s ∨ CounterfactualState.Later s t) :
    t.Sound := by
  obtain rfl | hl := h
  · exact hs
  · exact hs.later hl

variable {symbol : String}

theorem Rows.observeBook {found : Option BookSnapshot} (h : db.Rows)
    (hb : db.observeBook cfg symbol found = .ok db') : db'.Rows := by
  simp only [ResearchTables.observeBook, bind_eq_ok] at hb
  obtain ⟨_, _, hb⟩ := hb
  split at hb
  · cases hb
    exact h
  · refine h.loop cfg (fun s hs t t' hstep => ?_) hb
    unfold fillOne at hstep
    split at hstep
    · cases hstep
      exact Or.inl rfl
    · simp only [bind_eq_ok] at hstep
      obtain ⟨updated, hu, hrec⟩ := hstep
      exact Or.inr ⟨updated, enterAt_sound hu, hrec⟩

theorem Rows.observeMark {price : ℚ} {at' : Time} {id : String} {official : Py Unit}
    (h : db.Rows) (hm : db.observeMark cfg symbol price at' id official = .ok db') : db'.Rows := by
  simp only [ResearchTables.observeMark, getMarkObservable, bind_eq_ok, pure_ok_iff] at hm
  obtain ⟨_, _, states, ⟨_, _, rfl⟩, observed, hobserved, _, _, hm⟩ := hm
  refine h.loop cfg (fun pair hpair t t' hstep => Or.inr ⟨pair.2, ?_, hstep⟩) hm
  obtain ⟨x, hx, hxo⟩ := forall₂_mem_right (mapM_eq_ok.mp hobserved)
    (List.of_mem_zip (List.mem_of_mem_filter hpair)).2
  exact sound_of_cases (h.sound x (mem_select.mp hx).1) (CounterfactualState.observeMark_cases hxo)

theorem Rows.observeFunding {rate price : ℚ} {at' : Time} {id : String} {official : Py Unit}
    (h : db.Rows) (hf : db.observeFunding cfg symbol rate price at' id official = .ok db') :
    db'.Rows := by
  simp only [ResearchTables.observeFunding, getFundingObservable, bind_eq_ok, pure_ok_iff] at hf
  obtain ⟨_, _, _, _, states, ⟨_, _, rfl⟩, hf⟩ := hf
  refine h.loop cfg (fun s hs t t' hstep => ?_) hf
  have hsound := h.sound s (mem_select.mp hs).1
  simp only [fundOne, bind_eq_ok] at hstep
  obtain ⟨updated, hu, hstep⟩ := hstep
  split at hstep
  · cases hstep
    exact Or.inl rfl
  · exact Or.inr ⟨updated, sound_of_cases hsound (CounterfactualState.applyFunding_cases hu hsound),
      hstep⟩

theorem recordOutcome_cases (h : db.recordOutcome cfg b = .ok db') :
    db'.counterfactuals = db.counterfactuals ∨ ∃ (s : CounterfactualState) (t : ResearchTables),
      s.Sound ∧ s.version = 1 ∧ t.counterfactuals = db.counterfactuals ∧
      t.record cfg s = .ok db' := by
  simp only [recordOutcome, bind_eq_ok, pure_ok_iff] at h
  obtain ⟨_, _, counterfactual, hc, _, _, new, _, proposed, hp, recorded, hrec, _, _, rfl⟩ := h
  have hproposed : proposed.counterfactuals = db.counterfactuals := by
    unfold recordProposal at hp
    split at hp
    · simp only [bind_eq_ok, pure_ok_iff] at hp
      obtain ⟨_, _, rfl⟩ := hp
      rfl
    · cases hp
      rfl
  cases counterfactual with
  | none =>
    cases hrec
    exact Or.inl hproposed
  | some s =>
    cases hr : b.rejected with
    | none =>
      rw [hr] at hc
      cases hc
    | some request =>
      rw [hr, Option.mapM_some] at hc
      obtain ⟨s', hs', hs⟩ := bind_eq_ok.mp hc
      obtain rfl : s' = s := Option.some.inj (Except.ok.inj hs)
      obtain ⟨hsound, hv, _⟩ := CounterfactualState.create_sound hs'
      exact Or.inr ⟨s', proposed, hsound, hv, hproposed, hrec⟩

theorem Rows.of_counterfactuals (h : db.Rows) (heq : db'.counterfactuals = db.counterfactuals) :
    db'.Rows := by
  refine ⟨?_, ?_⟩
  · rw [heq]
    exact h.keyed
  · rw [heq]
    exact h.sound

theorem Rows.recordOutcome (h : db.Rows) (ho : db.recordOutcome cfg b = .ok db') : db'.Rows := by
  obtain heq | ⟨s, t, hs, _, heq, hrec⟩ := recordOutcome_cases ho
  · exact h.of_counterfactuals heq
  · exact (h.of_counterfactuals heq).record hs hrec

theorem Rows.dispatch (h : db.Rows) (hd : db.dispatch cfg b = .ok db') : db'.Rows := by
  simp only [ResearchTables.dispatch, bind_eq_ok, pure_ok_iff] at hd
  obtain ⟨recorded, hr, updated, hu, _, _, rfl⟩ := hd
  refine (h.recordOutcome hr).loop cfg (fun s hs t t' hstep => ?_) hu
  unfold updateOne at hstep
  split at hstep
  · cases hstep
    exact Or.inl rfl
  · simp only [bind_eq_ok] at hstep
    obtain ⟨updated, hu, hrec⟩ := hstep
    refine Or.inr ⟨updated, ?_, hrec⟩
    obtain ⟨_, ⟨rfl, _⟩ | hl⟩ := CounterfactualState.observeClosedBar_cases hu
    · exact h.sound updated (mem_select.mp hs).1
    · exact (h.sound s (mem_select.mp hs).1).later hl

theorem run_rows (inputs : List Input) : (run cfg inputs).Rows := by
  induction inputs using List.reverseRecOn with
  | nil => exact ⟨Dict.Keyed.empty, fun s hs => nomatch hs⟩
  | append_singleton inputs input ih =>
    rw [run_concat, step]
    split
    · rename_i hstep
      cases input with
      | book symbol found => exact ih.observeBook hstep
      | mark symbol price at' id official => exact ih.observeMark hstep
      | funding symbol rate price at' id official => exact ih.observeFunding hstep
      | bar b => exact ih.dispatch hstep
    · exact ih

/-! ## a closed bar -/

def Touches (b : BarDispatch) (s : CounterfactualState) : Prop := s.symbol = b.symbol ∧
    s.status = .open

instance (b : BarDispatch) (s : CounterfactualState) : Decidable (Touches b s) := by
  unfold Touches
  infer_instance

def After (cfg : DeskConfig) (b : BarDispatch) (s : CounterfactualState)
    (row : Option CounterfactualState) :
    Prop :=
  if Touches b s then
    ∃ u, s.observeClosedBar cfg.arith b.markPrice b.direction b.decisionApproved b.barCloseAt
    b.marketEventId = .ok u ∧ row = some u
  else row = some s

variable {t' : ResearchTables}

theorem updateOne_cases {t : ResearchTables} (h : updateOne cfg b t s = .ok t')
    (hrow : t.counterfactuals.get? s.proposalId = some s) :
    (∀ k, k ≠ s.proposalId → t'.counterfactuals.get? k = t.counterfactuals.get? k) ∧
      After cfg b s (t'.counterfactuals.get? s.proposalId) := by
  unfold updateOne at h
  unfold After
  by_cases htouch : Touches b s
  · rw [if_neg (by rw [not_or, not_not, not_not]; exact htouch), bind_eq_ok] at h
    obtain ⟨u, hu, hrec⟩ := h
    have hid : u.proposalId = s.proposalId := by
      obtain ⟨_, ⟨rfl, _⟩ | hl⟩ := CounterfactualState.observeClosedBar_cases hu
      · rfl
      · exact hl.proposalId
    rw [if_pos htouch]
    obtain ⟨rfl, hget⟩ | ⟨hset, _⟩ := record_cases hrec
    · exact ⟨fun _ _ => rfl, u, hu, hid ▸ hget⟩
    · rw [hset, hid]
      exact ⟨fun k hk => Dict.get?_set_of_ne _ hk _, u, hu, Dict.get?_set_self _ _ _⟩
  · have hskip : s.symbol ≠ b.symbol ∨ s.status ≠ .open := by
      by_contra hno
      rw [not_or, not_not, not_not] at hno
      exact htouch hno
    rw [if_pos hskip] at h
    cases h
    rw [if_neg htouch]
    exact ⟨fun _ _ => rfl, hrow⟩

theorem updateOnes_cases {l : List CounterfactualState} {t : ResearchTables}
    (hn : (l.map (·.proposalId)).Nodup)
    (hrows : ∀ s ∈ l, t.counterfactuals.get? s.proposalId = some s)
    (h : l.foldlM (updateOne cfg b) t = .ok t') :
    (∀ k, k ∉ l.map (·.proposalId) → t'.counterfactuals.get? k = t.counterfactuals.get? k) ∧
      ∀ s ∈ l, After cfg b s (t'.counterfactuals.get? s.proposalId) := by
  induction l generalizing t with
  | nil =>
    cases h
    exact ⟨fun _ _ => rfl, fun s hs => absurd hs List.not_mem_nil⟩
  | cons s l ih =>
    rw [List.map_cons, List.nodup_cons] at hn
    rw [List.foldlM_cons, bind_eq_ok] at h
    obtain ⟨t₁, h₁, hl⟩ := h
    obtain ⟨hother, hafter⟩ := updateOne_cases h₁ (hrows s List.mem_cons_self)
    have hrows₁ : ∀ x ∈ l, t₁.counterfactuals.get? x.proposalId = some x := by
      intro x hx
      rw [hother _ fun e => hn.1 (e ▸ List.mem_map_of_mem hx)]
      exact hrows x (List.mem_cons_of_mem s hx)
    obtain ⟨hrest, hall⟩ := ih hn.2 hrows₁ hl
    constructor
    · intro k hk
      rw [List.map_cons, List.mem_cons, not_or] at hk
      rw [hrest k hk.2, hother k hk.1]
    · intro x hx
      rcases List.mem_cons.mp hx with rfl | hx
      · rw [hrest _ hn.1]
        exact hafter
      · exact hall x hx

theorem recordOutcome_keeps (h : db.Rows) (ho : db.recordOutcome cfg b = .ok db') {k : UUID}
    (hrow : db.counterfactuals.get? k = some s) : db'.counterfactuals.get? k = some s := by
  obtain heq | ⟨new, t, _, hv, heq, hrec⟩ := recordOutcome_cases ho
  · rw [heq, hrow]
  · obtain ⟨rfl, _⟩ | ⟨hset, hlt⟩ := record_cases hrec
    · rw [heq, hrow]
    · rw [hset, heq]
      by_cases hk : k = new.proposalId
      · -- a stored version is at least the first, which is that of a new one
        rw [heq, ← hk] at hlt
        have hs := (h.sound s (db.counterfactuals.mem_values_iff.mpr ⟨k, hrow⟩)).version
        have := hlt s hrow
        omega
      · rw [Dict.get?_set_of_ne _ hk, hrow]

theorem Rows.get? (h : db.Rows) (hs : s ∈ db.counterfactuals.values) :
    db.counterfactuals.get? s.proposalId = some s := h.keyed.get?_of_mem hs

theorem Rows.nodup (h : db.Rows) : ((db.getUnresolved cfg).map (·.proposalId)).Nodup := by
  have hfilter :=
      h.keyed.nodup_values.sublist ((List.filter_sublist (p := fun s : CounterfactualState =>
    s.experimentId = cfg.experimentId ∧ decide (s.status = .pending ∨ s.status = .open) = true)).map
      _)
  exact ((List.perm_insertionSort _ _).map _).nodup_iff.mpr hfilter

theorem record_raises : RaisesOnly (· ≠ ExitPlan.tooEarly) (db.record cfg s) := by
  refine RaisesOnly.bind (RaisesOnly.orRaise (by decide)) fun proposal => ?_
  refine RaisesOnly.guard (by decide)
    (RaisesOnly.guard (by decide) (RaisesOnly.guard (by decide) ?_))
  cases db.counterfactuals.get? s.proposalId with
  | none => exact RaisesOnly.guard (by decide) RaisesOnly.ok
  | some row =>
    refine RaisesOnly.guard (by decide) (RaisesOnly.guard (by decide) ?_)
    split
    · exact RaisesOnly.guard (by decide) RaisesOnly.ok
    · exact RaisesOnly.guard (by decide) RaisesOnly.ok

/-! ## early bars -/

def Early (b : BarDispatch) (s : CounterfactualState) : Prop :=
  s.status = .open ∧ ∃ fill, s.entryFill = some fill ∧ b.barCloseAt < fill.fillAt

/-- the bar leaves every counterfactual alone that was filled after it closed, and its loop is not
refused for a trigger before the creation of a plan -/
def KeepsEarly (cfg : DeskConfig) (db : ResearchTables) (b : BarDispatch) : Prop :=
  (∀ s ∈ db.counterfactuals.values, Early b s →
    (db.step cfg (.bar b)).counterfactuals.get? s.proposalId = some s) ∧
  ∀ recorded, db.recordOutcome cfg b = .ok recorded →
    db.updateAll cfg b recorded ≠ .error ExitPlan.tooEarly

/-- no counterfactual of the bar's symbol was filled after the bar closed, unless it has observed
the bar before -/
def Causal (cfg : DeskConfig) (db : ResearchTables) (b : BarDispatch) : Prop :=
  ∀ s ∈ db.counterfactuals.values, s.experimentId = cfg.experimentId → s.symbol = b.symbol →
    Early b s → s.Observed b.observation b.barCloseAt

theorem Early.mem (hs : s ∈ db.counterfactuals.values) (hexp : s.experimentId = cfg.experimentId)
    (he : Early b s) : s ∈ db.getUnresolved cfg :=
  mem_select.mpr ⟨hs, hexp, by simp [he.1]⟩

theorem dispatch_cases (h : db.Rows) (hd : db.dispatch cfg b = .ok db')
    (hs : s ∈ db.counterfactuals.values) :
    if s ∈ db.getUnresolved cfg then After cfg b s (db'.counterfactuals.get? s.proposalId)
    else db'.counterfactuals.get? s.proposalId = some s := by
  simp only [ResearchTables.dispatch, bind_eq_ok, pure_ok_iff] at hd
  obtain ⟨recorded, hr, updated, hu, _, _, rfl⟩ := hd
  have hkept : ∀ x ∈ db.counterfactuals.values,
      recorded.counterfactuals.get? x.proposalId = some x :=
    fun x hx => recordOutcome_keeps h hr (h.get? hx)
  obtain ⟨hrest, hall⟩ := updateOnes_cases h.nodup (fun x hx => hkept x (mem_select.mp hx).1) hu
  split
  · rename_i hmem
    exact hall s hmem
  · rename_i hmem
    rw [hrest s.proposalId, hkept s hs]
    -- the proposal of a row is in the loop only with the row itself
    intro hid
    obtain ⟨x, hx, hxs⟩ := List.mem_map.mp hid
    have heq : some x = some s := by rw [← h.get? (mem_select.mp hx).1, hxs, h.get? hs]
    exact hmem (Option.some.inj heq ▸ hx)

theorem Causal.updateAll_raises (h : db.Rows) (hc : db.Causal cfg b) (recorded : ResearchTables) :
    RaisesOnly (· ≠ ExitPlan.tooEarly) (db.updateAll cfg b recorded) := by
  refine RaisesOnly.foldlM_mem fun s hs t => ?_
  obtain ⟨hmem, hexp, _⟩ := mem_select.mp hs
  unfold updateOne
  split
  · exact RaisesOnly.ok
  · rename_i htouch
    rw [not_or, not_not, not_not] at htouch
    refine RaisesOnly.bind ?_ fun _ => record_raises
    obtain ⟨fill, plan, hfill, _⟩ := (h.sound s hmem).opened htouch.2
    by_cases hearly : b.barCloseAt < fill.fillAt
    · have hobserved := hc s hmem hexp htouch.1 ⟨htouch.2, fill, hfill, hearly⟩
      by_cases hid : b.marketEventId = ""
      · rw [CounterfactualState.observeClosedBar, raiseIf_bind_pos hid]
        exact RaisesOnly.error (by decide)
      · rw [CounterfactualState.observeClosedBar_observed hid hobserved]
        exact RaisesOnly.ok
    · exact CounterfactualState.observeClosedBar_raises (h.sound s hmem) htouch.2 hfill
        (not_lt.mp hearly)

theorem Causal.dispatch_keeps (h : db.Rows) (hc : db.Causal cfg b)
    (hd : db.dispatch cfg b = .ok db') (hs : s ∈ db.counterfactuals.values) (he : Early b s) :
    db'.counterfactuals.get? s.proposalId = some s := by
  have hafter := dispatch_cases h hd hs
  split at hafter
  · rename_i hmem
    unfold After at hafter
    split at hafter
    · rename_i htouch
      obtain ⟨u, hu, hrow⟩ := hafter
      have hobserved := hc s hs (mem_select.mp hmem).2.1 htouch.1 he
      have hid := (CounterfactualState.observeClosedBar_cases hu).1
      rw [CounterfactualState.observeClosedBar_observed hid hobserved, Except.ok.injEq] at hu
      rw [hrow, hu]
    · exact hafter
  · exact hafter

/-- **one closed bar** that is causal -/
theorem Causal.keepsEarly (h : db.Rows) (hc : db.Causal cfg b) : db.KeepsEarly cfg b := by
  constructor
  · intro s hs he
    rw [step, handle]
    split
    · rename_i hd
      exact hc.dispatch_keeps h hd hs he
    · exact h.get? hs
  · intro recorded _ herror
    exact hc.updateAll_raises h recorded _ herror rfl

/-- **one closed bar** whose transaction returns: the loop reaches a counterfactual filled after the
bar closed and leaves it only where it has observed the bar -/
theorem KeepsEarly.causal (h : db.Rows) (hkeeps : db.KeepsEarly cfg b)
    (hd : db.dispatch cfg b = .ok db') : db.Causal cfg b := by
  intro s hs hexp hsymbol he
  have hrow := hkeeps.1 s hs he
  have hstep : db.step cfg (.bar b) = db' := by rw [step, handle, hd]
  have hafter := dispatch_cases h hd hs
  rw [if_pos (he.mem hs hexp), After, if_pos ⟨hsymbol, he.1⟩, ← hstep, hrow] at hafter
  obtain ⟨u, hu, hus⟩ := hafter
  obtain rfl : s = u := Option.some.inj hus
  obtain ⟨_, ⟨_, hobserved | hclosed⟩ | hl⟩ := CounterfactualState.observeClosedBar_cases hu
  · exact hobserved
  · exact absurd he.1 hclosed
  · exact absurd rfl hl.ne

theorem early_bars_kept (cfg : DeskConfig) (inputs : List Input) :
    ((∀ before b, before ++ [.bar b] <+: inputs → (run cfg before).Causal cfg b) →
      ∀ before b, before ++ [.bar b] <+: inputs → (run cfg before).KeepsEarly cfg b) ∧
    ∀ before b db', before ++ [.bar b] <+: inputs → (run cfg before).dispatch cfg b = .ok db' →
      ((run cfg before).KeepsEarly cfg b ↔ (run cfg before).Causal cfg b) := by
  constructor
  · intro hall before b hp
    exact (hall before b hp).keepsEarly (run_rows before)
  · intro before b db' _ hd
    exact ⟨fun hkeeps => hkeeps.causal (run_rows before) hd,
      fun hc => hc.keepsEarly (run_rows before)⟩

end

end ResearchTables

namespace Demo
open ResearchTables

def researchDesk : DeskConfig :=
  { arith := .exact, marketFills := ⟨5000000, by decide⟩, idOrder := fun _ => 0,
    experimentId := ⟨"uuid:experiment"⟩, symbols := ["BTCUSDT"] }

def refusedProposal : ProposalRow :=
  { id := ⟨"uuid:refused"⟩, experimentId := ⟨"uuid:experiment"⟩, decisionCycleId := ⟨"uuid:cycle"⟩,
    symbol := "BTCUSDT", direction := .long, status := .rejected }

/-- the counterfactual of a proposal that is refused a second after the minute of its bar -/
def refusedEntry : CounterfactualRequest :=
  { counterfactualId := ⟨"uuid:counterfactual"⟩, experimentId := ⟨"uuid:experiment"⟩,
    proposalId := ⟨"uuid:refused"⟩, decisionCycleId := ⟨"uuid:cycle"⟩, symbol := "BTCUSDT",
    direction := .long, rejectionGate := .ev, priorGateChain := [.dataQuality, .ev], quantity := 1,
    decisionExecutablePrice := 100, eligibleAfter := 61500000, feeRate := 1 / 1000,
    expectedLossFraction := 1 / 100, expectedGainFraction := 1 / 50, createdAt := 61000000 }

def refusedBar : BarDispatch :=
  { symbol := "BTCUSDT", barCloseAt := 60000000, marketEventId := "bar-1", frameMark := some 100,
    close := 100, direction := .long, proposal := some refusedProposal,
    rejected := some refusedEntry, decided := .ok (), bundle := .ok true, stored := .ok (),
    recovery := .ok () }

theorem researchSymbol_ne : "BTCUSDT" ≠ "" := by decide
theorem researchBook_ne : "book" ≠ "" := by decide
theorem researchSize_pos : (0 : ℚ) < 5 := by decide
theorem researchBid_pos : (0 : ℚ) < 99 := by decide
theorem researchAsk_pos : (0 : ℚ) < 100 := by decide

def thirdMinuteBook : BookSnapshot :=
  { eventId := "book", symbol := "BTCUSDT", venueEventAt := 120400000, observedAt := 120500000,
    sequence := 1, bids := [⟨99, 5, researchBid_pos, researchSize_pos⟩],
    asks := [⟨100, 5, researchAsk_pos, researchSize_pos⟩], markPrice := 100,
    eventId_ne := researchBook_ne, symbol_ne := researchSymbol_ne, venue_le := by decide,
    bids_ne := by decide, asks_ne := by decide, bids_desc := by simp, asks_asc := by simp,
    not_crossed := by decide, markPrice_pos := researchAsk_pos }

def secondBar (mark : ℚ) : BarDispatch :=
  { symbol := "BTCUSDT", barCloseAt := 120000000, marketEventId := "bar-2", frameMark := some mark,
    close := mark, direction := .neutral, proposal := none, rejected := none, decided := .ok (),
    bundle := .ok true, stored := .ok (), recovery := .ok () }

def filledRun : List Input := [.bar refusedBar, .book "BTCUSDT" (some thirdMinuteBook)]

def enteredState : CounterfactualState :=
  ((run researchDesk filledRun).counterfactuals.get? ⟨"uuid:refused"⟩).get (by decide +kernel)

/-- the hypothetical fill is at 120.5 s; the bar that closed at 120 s counts as its first bar, and
with a mark below the stop the whole transaction is refused -/
theorem late_bar_counted :
    enteredState.entryFill.map (·.fillAt) = some 120500000 ∧
    ((run researchDesk (filledRun ++ [.bar (secondBar 100)])).counterfactuals.get?
      ⟨"uuid:refused"⟩).bind (fun s => s.exitPlan.map (·.barsElapsed)) = some 1 ∧
    (run researchDesk filledRun).updateAll researchDesk (secondBar 98)
      (run researchDesk filledRun) = .error ExitPlan.tooEarly ∧
    ¬ (run researchDesk filledRun).KeepsEarly researchDesk (secondBar 100) ∧
    ¬ (run researchDesk filledRun).KeepsEarly researchDesk (secondBar 98) := by
  have hcounted : ((run researchDesk (filledRun ++ [.bar (secondBar 100)])).counterfactuals.get?
      ⟨"uuid:refused"⟩).bind (fun s => s.exitPlan.map (·.barsElapsed)) = some 1 := by decide +kernel
  have hrefused :
      (run researchDesk filledRun).updateAll researchDesk (secondBar 98)
      (run researchDesk filledRun) = .error ExitPlan.tooEarly := by decide +kernel
  refine ⟨by decide +kernel, hcounted, hrefused, fun hkeeps => ?_, fun hkeeps => ?_⟩
  · have hrow := hkeeps.1 enteredState (by decide +kernel)
      ⟨by decide +kernel,
      enteredState.entryFill.get (by decide +kernel), by decide +kernel, by decide +kernel⟩
    rw [← run_concat, show enteredState.proposalId = ⟨"uuid:refused"⟩ by decide +kernel] at hrow
    rw [hrow] at hcounted
    exact absurd hcounted (by decide +kernel)
  · exact hkeeps.2 (run researchDesk filledRun) rfl hrefused

end Demo

end Maais
