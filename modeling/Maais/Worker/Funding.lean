import Maais.Paper.History
import Maais.Worker.Continuous

/-!
# Funding and the quantity held at settlement

A settlement is observed some time after it took place. It is applied to what the account holds when
it is processed, if that position was opened before the settlement.

* `Desk`  the official account and the settlements stored for it, over fills, marks and settlements;
* `observeFunding_settle`  what the worker does with a settlement is what the desk does;
* `OnTime`  no fill of the symbol falls between a settlement and its processing;
* `Accepts`  the account takes the fill or the mark, and is not newer than the settlement;
* `funding_settles`  a run on time is taken, and pays every settlement on the quantity held at its
  time.
-/

namespace Maais
open Lib

/-! ## settlements, fills and marks -/

structure FundingNotice where
  eventId : String
  symbol : String
  fundingAt : Time
  rate : ℚ
  rateType : String
  markPrice : ℚ
deriving DecidableEq

/-- what the payload of a settlement promises -/
def FundingNotice.Proper (n : FundingNotice) : Prop :=
  n.symbol ≠ "" ∧ n.eventId ≠ "" ∧ 0 < n.markPrice ∧
    (n.rateType = "Regular" ∨ n.rateType = "Special")

instance (n : FundingNotice) : Decidable n.Proper := by
  unfold FundingNotice.Proper
  infer_instance

inductive Occurrence
  | fill (fillId positionId : UUID) (symbol : String) (side : PaperOrderSide)
    (effect : PositionEffect) (quantity price fee : ℚ) (fillAt : Time)
  | mark (symbol : String) (price : ℚ) (observedAt : Time)
  | settlement (notice : FundingNotice) (observedAt : Time)

structure Desk where
  account : AccountState
  stored : List FundingRecord

namespace Desk

variable (A : Arith) (d : Desk)

def findStored (eventId : String) : Option FundingRecord :=
  d.stored.find? (fun row => row.marketEventId = eventId)

def Conflicts (n : FundingNotice) : Prop :=
  ∃ row ∈ d.findStored n.eventId, row.fundingAt ≠ n.fundingAt ∨ row.rate ≠ n.rate ∨
    row.rateType ≠ n.rateType ∨ row.markPrice ≠ n.markPrice

instance {n : FundingNotice} : Decidable (d.Conflicts n) := by
  unfold Conflicts
  infer_instance

/-- the settlement is new, and the position that is open now was open at its time -/
def Applies (n : FundingNotice) : Prop :=
  d.findStored n.eventId = none ∧ ∃ p ∈ d.account.positions.get? n.symbol, ¬ p.isFlat A ∧
    ∃ t ∈ p.openedAt, t ≤ n.fundingAt

instance {n : FundingNotice} : Decidable (d.Applies A n) := by
  unfold Applies
  infer_instance

def command (n : FundingNotice) (observedAt : Time) : FundingSettlementCommand :=
  { experimentId := d.account.experimentId, symbol := n.symbol, marketEventId := n.eventId,
    fundingAt := n.fundingAt, observedAt, markPrice := n.markPrice, rate := n.rate,
    rateType := n.rateType, account := d.account }

/-- the part of `_observe_funding` behind the checks of the event -/
def settle (n : FundingNotice) (observedAt : Time) : Py Desk := do
  raiseIf (observedAt < n.fundingAt)
    (.continuousRuntimeConflict "funding event timestamps are inconsistent")
  raiseIf (d.Conflicts n)
    (.continuousRuntimeConflict "funding event identity has different persisted content")
  if d.Applies A n then
    let command ← (d.command n observedAt).postInit A
    let outcome ← command.apply A
    return ⟨outcome.account, d.stored ++ [outcome.record]⟩
  else return d

def take : Occurrence → Py Desk
  | .fill fillId positionId symbol side effect quantity price fee fillAt => do
    let account ← d.account.applyFill A fillId positionId symbol side effect quantity
      price fee fillAt
    return { d with account }
  | .mark symbol price observedAt => do
    let account ← d.account.mark A symbol price observedAt
    return { d with account }
  | .settlement notice observedAt => d.settle A notice observedAt

def run (os : List Occurrence) : Py Desk := os.foldlM (fun d o => d.take A o) d

/-- a fill or a mark passes the checks of the account; a settlement is observed neither before its
time nor before the last update of the account -/
def Accepts : Occurrence → Prop
  | .fill fillId positionId symbol side effect quantity price fee fillAt =>
    (d.account.applyFill A fillId positionId symbol side effect quantity price fee
      fillAt).toOption.isSome
  | .mark symbol price observedAt => (d.account.mark A symbol price observedAt).toOption.isSome
  | .settlement notice observedAt => notice.Proper ∧ notice.fundingAt ≤ observedAt ∧
      ∀ t ∈ d.account.updatedAt, t ≤ observedAt

instance (o : Occurrence) : Decidable (d.Accepts A o) := by
  cases o <;> unfold Accepts <;> infer_instance

def AllAccepted (A : Arith) : Desk → List Occurrence → Prop
  | _, [] => True
  | d, o :: os => d.Accepts A o ∧ ∀ d' ∈ (d.take A o).toOption, AllAccepted A d' os

def decideAllAccepted (A : Arith) : (d : Desk) → (os : List Occurrence) →
    Decidable (AllAccepted A d os)
  | _, [] => .isTrue trivial
  | d, o :: os =>
    haveI := fun d' => decideAllAccepted A d' os
    inferInstanceAs (Decidable (_ ∧ ∀ d' ∈ (d.take A o).toOption, AllAccepted A d' os))

instance (d : Desk) (os : List Occurrence) : Decidable (AllAccepted A d os) :=
  decideAllAccepted A d os

end Desk

/-! ## the desk in the database -/

def ObservedMarketEvent.settlementNotice (event : ObservedMarketEvent)
    (payload : FundingSettlementPayload) : FundingNotice :=
  ⟨event.eventId, event.symbol, payload.fundingAt, payload.fundingRate, payload.rateType,
    payload.markPrice⟩

theorem FundingSettlementCommand.postInit_experiment {A : Arith} {c c' : FundingSettlementCommand}
    (h : c.postInit A = .ok c') : c.account.experimentId = c.experimentId := by
  simp only [postInit, bind_eq_ok, raiseIf_eq_ok, not_not] at h
  obtain ⟨_, _, _, hid, _⟩ := h
  exact hid

/-- the settlement the desk added, and the account it came to, are recorded -/
def Desk.Recorded (A : Arith) (d d' : Desk) (t t' : ExecutionTables) : Prop :=
  ∃ record, d'.stored = d.stored ++ [record] ∧ ∃ created, t.recordFunding A record d'.account =
    .ok (t', created)

/-- **a settlement goes through the desk** of the loaded account and the stored settlements:
`_observe_funding` returns what the desk settles, and records the account and the settlement it
comes to -/
theorem Database.observeFunding_settle {cfg : WorkerConfig} {db db' : Database}
    {event : ObservedMarketEvent} {payload : FundingSettlementPayload}
    (h : db.observeFunding cfg event payload = .ok db') :
    ∃ account d', db.loadAccount cfg = .ok account ∧
      Desk.settle cfg.arith ⟨account, db.execution.fundings.values⟩
      (event.settlementNotice payload) event.observedAt = .ok d' ∧
      (d' = ⟨account, db.execution.fundings.values⟩ ∧ db' = db ∨
        Desk.Recorded cfg.arith ⟨account, db.execution.fundings.values⟩ d' db.execution
        db'.execution) := by
  simp only [observeFunding, checkStoredFunding, bind_eq_ok, raiseIf_eq_ok, not_or, not_lt] at h
  obtain ⟨_, _, _, ⟨_, htime⟩, _, hsame, account, ha, h⟩ := h
  set d : Desk := ⟨account, db.execution.fundings.values⟩
  set n := event.settlementNotice payload
  have hlate : ¬ event.observedAt < n.fundingAt := not_lt.mpr htime
  have hconflict : ¬ d.Conflicts n := hsame
  have happlies : d.Applies cfg.arith n ↔ db.fundingApplies cfg account event payload := by
    simp only [Desk.Applies, fundingApplies, openPosition, Option.mem_def,
      Option.filter_eq_some_iff, decide_eq_true_eq, and_assoc]
    rfl
  split at h
  · rename_i happ
    simp only [settleFunding, recordFundingOutcome, bind_eq_ok, pure_ok_iff] at h
    obtain ⟨command, hc, outcome, ho, recorded, hr, rfl⟩ := h
    -- the command is checked against the experiment, so the desk issues the same one
    have hid : d.account.experimentId = cfg.manifest.experimentId :=
      FundingSettlementCommand.postInit_experiment hc
    have hcommand : d.command n event.observedAt = fundingCommand cfg account event payload := by
      rw [Desk.command, fundingCommand, hid]
      rfl
    refine ⟨account, ⟨outcome.account, d.stored ++ [outcome.record]⟩, ha, ?_,
      Or.inr ⟨outcome.record, rfl, recorded.2, hr⟩⟩
    rw [Desk.settle, raiseIf_bind_neg hlate, raiseIf_bind_neg hconflict, if_pos (happlies.mpr happ),
      hcommand, hc, ok_bind, ho]
    rfl
  · rename_i happ
    cases h
    refine ⟨account, d, ha, ?_, Or.inl ⟨rfl, rfl⟩⟩
    rw [Desk.settle, raiseIf_bind_neg hlate, raiseIf_bind_neg hconflict,
      if_neg (happlies.not.mpr happ)]
    rfl

/-! ## what is held -/

namespace Occurrence

def adds (symbol : String) (upTo : Time) : Occurrence → ℚ
  | .fill _ _ s side _ quantity _ _ fillAt => if s = symbol ∧ fillAt ≤ upTo then
    side.sign * quantity else 0
  | _ => 0

def nets (symbol : String) : Occurrence → ℚ
  | .fill _ _ s side _ quantity _ _ _ => if s = symbol then side.sign * quantity else 0
  | _ => 0

def fillTime (symbol : String) : Occurrence → Option Time
  | .fill _ _ s _ _ _ _ _ fillAt => if s = symbol then some fillAt else none
  | _ => none

def notice : Occurrence → Option FundingNotice
  | .settlement n _ => some n
  | _ => none

end Occurrence

def heldAt (os : List Occurrence) (symbol : String) (t : Time) : ℚ :=
  (os.map (Occurrence.adds symbol t)).sum

def heldNow (os : List Occurrence) (symbol : String) : ℚ := (os.map (Occurrence.nets symbol)).sum

def noticesOf (os : List Occurrence) : List FundingNotice := os.filterMap Occurrence.notice

def fillTimes (os : List Occurrence) (symbol : String) : List Time :=
  os.filterMap (Occurrence.fillTime symbol)

/-- what a settlement is to bring: longs pay a positive rate -/
def owed (os : List Occurrence) (n : FundingNotice) : ℚ :=
  -(heldAt os n.symbol n.fundingAt * n.markPrice * n.rate)

def OnTime (done : List Occurrence) : Occurrence → Prop
  | .fill _ _ symbol _ _ _ _ _ fillAt => ∀ n ∈ noticesOf done, n.symbol = symbol →
    n.fundingAt < fillAt
  | .mark _ _ _ => True
  | .settlement n _ => ∀ t ∈ fillTimes done n.symbol, t ≤ n.fundingAt

def AllOnTime (done : List Occurrence) : List Occurrence → Prop
  | [] => True
  | o :: os => OnTime done o ∧ AllOnTime (done ++ [o]) os

instance (done : List Occurrence) (o : Occurrence) : Decidable (OnTime done o) := by
  cases o <;> (unfold OnTime; infer_instance)

def decideAllOnTime : (done os : List Occurrence) → Decidable (AllOnTime done os)
  | _, [] => .isTrue trivial
  | done, o :: os =>
    haveI := decideAllOnTime (done ++ [o]) os
    inferInstanceAs (Decidable (_ ∧ _))

instance (done os : List Occurrence) : Decidable (AllOnTime done os) := decideAllOnTime done os

def Identified (os : List Occurrence) : Prop :=
  ∀ m ∈ noticesOf os, ∀ n ∈ noticesOf os, m.eventId = n.eventId → m = n

instance (os : List Occurrence) : Decidable (Identified os) := by
  unfold Identified
  infer_instance

section
variable {done : List Occurrence} {symbol : String}

theorem heldAt_append (o : Occurrence) (t : Time) :
    heldAt (done ++ [o]) symbol t = heldAt done symbol t + o.adds symbol t := by
  simp [heldAt]

theorem noticesOf_append (os : List Occurrence) :
    noticesOf (done ++ os) = noticesOf done ++ noticesOf os :=
  List.filterMap_append

theorem fillTimes_append (os : List Occurrence) :
    fillTimes (done ++ os) symbol = fillTimes done symbol ++ fillTimes os symbol :=
  List.filterMap_append

theorem heldNow_append (o : Occurrence) :
    heldNow (done ++ [o]) symbol = heldNow done symbol + o.nets symbol := by
  simp [heldNow]

theorem heldAt_eq_heldNow {t : Time} (h : ∀ s ∈ fillTimes done symbol, s ≤ t) :
    heldAt done symbol t = heldNow done symbol := by
  unfold heldAt heldNow
  congr 1
  refine List.map_congr_left fun o ho => ?_
  cases o with
  | fill fillId positionId s side effect n price fee fillAt =>
    show (if s = symbol ∧ fillAt ≤ t then _ else _) = if s = symbol then _ else _
    by_cases hs : s = symbol
    · have hmem : fillAt ∈ fillTimes done symbol :=
        List.mem_filterMap.mpr ⟨_, ho, by simp [Occurrence.fillTime, hs]⟩
      rw [if_pos ⟨hs, h fillAt hmem⟩, if_pos hs]
    · rw [if_neg (fun h => hs h.1), if_neg hs]
  | mark s price t => rfl
  | settlement n t => rfl

end

/-! ## what an occurrence does to the account -/

namespace PositionState

variable {p q : PositionState}

theorem openFill_signed {fillId : UUID} {side : PaperOrderSide} {n price fee : ℚ} {t : Time}
    (h : p.openFill .exact fillId side.openingDirection n price fee t = .ok q) :
    q.signedQuantity = p.signedQuantity + side.sign * n ∧
      q.openedAt = (if p.isFlat .exact then some t else p.openedAt) := by
  obtain ⟨-, -, hside, -, -, hsame⟩ := openFill_step h
  simp only [openFill, bind_eq_ok, pure_ok_iff] at h
  obtain ⟨_, _, _, _, _, _, _, _, _, _, rfl⟩ := h
  refine ⟨?_, rfl⟩
  have hq : heldOf (p.lots ++ [⟨fillId, fillId, t, price, n, n, fee, fee, 0⟩]) =
      heldOf p.lots + n := by
    rw [heldOf_append, heldOf_cons, heldOf_nil, add_zero]
  unfold signedQuantity
  rw [quantity_eq_held, quantity_eq_held, hq, PaperOrderSide.sign_openingDirection]
  by_cases hf : p.isFlat .exact
  · have h0 : heldOf p.lots = 0 := (quantity_eq_held p).symm.trans hf
    rw [h0]
    ring
  · rw [hsame hf, PaperOrderSide.sign_openingDirection]
    ring

theorem closeFill_signed {n price fee : ℚ} {t : Time} (hv : p.Valid)
    (h : p.closeFill .exact n price fee t = .ok q) :
    q.signedQuantity = p.signedQuantity - p.side.sign * n ∧ q.openedAt = p.openedAt ∧
    ¬ p.isFlat .exact := by
  obtain ⟨hqv, hq, -⟩ := closeFill_books hv h
  simp only [closeFill, bind_eq_ok, raiseIf_eq_ok, pure_ok_iff, not_or] at h
  obtain ⟨_, _, _, _, _, _, _, ⟨hopen, -⟩, rfl⟩ := h
  refine ⟨?_, rfl, hopen⟩
  unfold signedQuantity
  rw [hq]
  show (if 0 < Arith.exact.sub (p.quantity .exact) n then p.side else .neutral).sign * _ = _
  split
  · ring
  · rename_i hn
    -- what is left is not negative, so nothing is left
    have hnonneg := hqv.quantity_nonneg
    rw [hq] at hnonneg
    have hzero : p.quantity .exact - n = 0 := le_antisymm (not_lt.mp hn) hnonneg
    rw [hzero, mul_zero, ← mul_sub, hzero, mul_zero]

theorem applyFunding_signed {amount : ℚ} (h : p.applyFunding .exact amount = .ok q) :
    q.signedQuantity = p.signedQuantity ∧ q.openedAt = p.openedAt := by
  simp only [applyFunding, bind_eq_ok, pure_ok_iff] at h
  obtain ⟨_, _, rfl⟩ := h
  refine ⟨?_, rfl⟩
  unfold signedQuantity
  rw [quantity_eq_held, quantity_eq_held]
  exact congrArg _ (heldOf_fundLot _ _ _)

theorem signedQuantity_of_flat (h : p.isFlat .exact) : p.signedQuantity = 0 := by
  have hq : p.quantity .exact = 0 := h
  rw [signedQuantity, hq, mul_zero]

end PositionState

namespace AccountState

def signedOf (a : AccountState) (symbol : String) : ℚ :=
  ((a.positions.get? symbol).map (·.signedQuantity)).getD 0

/-- what a change of one symbol did to holdings, funding and opening times -/
structure Shifts (a : AccountState) (symbol : String) (delta paid : ℚ) (opens : Option Time)
    (b : AccountState) : Prop where
  valid : b.Valid
  held : ∀ s, b.signedOf s = a.signedOf s + if s = symbol then delta else 0
  funding : b.funding .exact = a.funding .exact + paid
  opened : ∀ s q, b.positions.get? s = some q → ¬ q.isFlat .exact → ∀ t ∈ q.openedAt,
    (s = symbol ∧ opens = some t) ∨ ∃ p, a.positions.get? s = some p ∧
    ¬ p.isFlat .exact ∧ t ∈ p.openedAt

variable {a b : AccountState} {symbol : String}

theorem Shifts.of_advance {q : PositionState} {cash delta paid : ℚ} {t : Time} {opens : Option Time}
    (hv : (a.advance .exact symbol q cash t).Valid)
    (hheld : q.signedQuantity = a.signedOf symbol + delta)
    (hfunding : q.funding = ((a.positions.get? symbol).map (·.funding)).getD 0 + paid)
    (hopened : ¬ q.isFlat .exact → ∀ t ∈ q.openedAt, opens = some t ∨
      ∃ p, a.positions.get? symbol = some p ∧ ¬ p.isFlat .exact ∧ t ∈ p.openedAt) :
    Shifts a symbol delta paid opens (a.advance .exact symbol q cash t) := by
  refine ⟨hv, fun s => ?_, ?_, fun s x hx ho u hu => ?_⟩
  · unfold signedOf
    rw [advance_positions, Dict.get?_set]
    split
    · rename_i hs
      rw [hs, Option.map_some, Option.getD_some, hheld, signedOf]
    · rw [add_zero]
  · simp only [AccountState.funding, total_exact, advance_positions, Dict.sum_values_set]
    rw [hfunding]
    ring
  · rw [advance_positions, Dict.get?_set] at hx
    split at hx
    · rename_i hs
      cases hx
      obtain hnew | hold := hopened ho u hu
      · exact Or.inl ⟨hs, hnew⟩
      · exact Or.inr (hs ▸ hold)
    · exact Or.inr ⟨x, hx, ho, hu⟩

theorem Shifts.trans {c : AccountState} {paid paid' : ℚ} (h : Shifts a symbol 0 paid none b)
    (h' : Shifts b symbol 0 paid' none c) : Shifts a symbol 0 (paid + paid') none c := by
  refine ⟨h'.valid, fun s => ?_, ?_, fun s q hq ho t ht => ?_⟩
  · rw [h'.held, h.held, ite_self, add_zero]
  · rw [h'.funding, h.funding, add_assoc]
  · obtain ⟨-, hnone⟩ | ⟨p, hp, hpo, hpt⟩ := h'.opened s q hq ho t ht
    · cases hnone
    · exact h.opened s p hp hpo t hpt

theorem applyFill_shifts (hv : a.Valid) {fillId positionId : UUID} {side : PaperOrderSide}
    {effect : PositionEffect} {n price fee : ℚ} {t : Time}
    (h : a.applyFill .exact fillId positionId symbol side effect n price fee t = .ok b) :
    Shifts a symbol (side.sign * n) 0 (some t) b := by
  have happly : a.apply .exact (.fill fillId positionId symbol side effect n price fee t) = .ok b :=
    h
  have hvalid := (apply_flow hv happly).1
  obtain ⟨q, cash, rfl, hr, hcase⟩ := applyFill_cases h
  obtain ⟨_, current, hc, hq, _⟩ | ⟨_, current, hc, hopen, hside, hq, _⟩ := hcase
  · obtain ⟨hsigned, hopened⟩ := PositionState.openFill_signed hq
    obtain ⟨_, _, hfunding, _⟩ := PositionState.openFill_books (hc.lots_valid hv) hq
    refine .of_advance hvalid ?_ ?_ fun ho u hu => ?_
    · rw [hsigned, signedOf, hc.getD_eq _ fun p _ _ _ hl => ?_]
      rw [PositionState.signedQuantity, PositionState.quantity_eq_held, hl,
        PositionState.heldOf_nil, mul_zero]
    · rw [hc.getD_eq _ fun p _ _ hu _ => hu, hfunding, add_zero]
    · rw [hopened] at hu
      split at hu
      · exact Or.inl hu
      · rename_i hf
        rcases hc with hc | ⟨_, hc⟩
        · exact Or.inr ⟨current, hc, hf, hu⟩
        · -- the empty position is flat
          simp only [PositionState.empty, bind_eq_ok, pure_ok_iff] at hc
          obtain ⟨_, _, rfl⟩ := hc
          exact absurd rfl hf
  · obtain ⟨hcv, _⟩ := hv.positions symbol current hc
    obtain ⟨hsigned, hopened, hopen⟩ := PositionState.closeFill_signed hcv hq
    obtain ⟨_, _, _, hfunding, _⟩ := PositionState.closeFill_books hcv hq
    have hsign : side.sign = -current.side.sign := by
      rw [hside]
      exact Direction.sign_closingSide (hcv.isOpen hopen).1
    refine .of_advance hvalid ?_ ?_ fun ho u hu => ?_
    · rw [hsigned, signedOf, hc, Option.map_some, Option.getD_some, hsign]
      ring
    · rw [hc, Option.map_some, Option.getD_some, hfunding, add_zero]
    · exact Or.inr ⟨current, hc, hopen, hopened ▸ hu⟩

theorem mark_shifts (hv : a.Valid) {price : ℚ} {t : Time}
    (h : a.mark .exact symbol price t = .ok b) : Shifts a symbol 0 0 none b := by
  have hvalid := mark_valid hv h
  obtain ⟨p, q, hp, hq, rfl⟩ := mark_cases h
  obtain ⟨_, rfl⟩ := PositionState.mark_eq hq
  refine .of_advance hvalid ?_ ?_ fun ho u hu => Or.inr ⟨p, hp, ho, hu⟩
  · rw [signedOf, hp, add_zero]
    rfl
  · rw [hp, add_zero]
    rfl

theorem applyFunding_shifts (hv : a.Valid) {rate : ℚ} {t : Time} {p : PositionState}
    (hp : a.positions.get? symbol = some p) (h : a.applyFunding .exact symbol rate t = .ok b) :
    Shifts a symbol 0 (-(p.signedQuantity * p.markPrice * rate)) none b := by
  have hvalid := applyFunding_valid hv h
  obtain ⟨p', q, hp', hopen, hq, rfl, _⟩ := applyFunding_cases h
  rw [hp, Option.some.injEq] at hp'
  subst hp'
  obtain ⟨hsigned, hopened⟩ := PositionState.applyFunding_signed hq
  obtain ⟨_, _, hfunding, _⟩ := PositionState.applyFunding_books hq
  have hamount : fundingAmount .exact p rate = -(p.signedQuantity * p.markPrice * rate) := by
    unfold fundingAmount PositionState.grossNotional PositionState.signedQuantity
    simp only [Arith.exact_mul, Arith.exact_neg]
    have hside := ((hv.positions symbol p hp).1.isOpen hopen).1
    cases hs : p.side with
    | long =>
      rw [if_pos rfl]
      simp only [Direction.sign, one_mul]
    | short =>
      rw [if_neg (by decide)]
      simp only [Direction.sign]
      ring
    | neutral => exact absurd hs hside
  refine .of_advance hvalid ?_ ?_ fun ho u hu => Or.inr ⟨p, hp, hopen, hopened ▸ hu⟩
  · rw [hsigned, signedOf, hp, add_zero]
    rfl
  · rw [hp, hfunding, hamount]
    rfl

theorem mark_ok {A : Arith} {price : ℚ} {t : Time} (hp : a.positions.get? symbol = some p)
    (hprice : 0 < price) :
    a.mark A symbol price t = .ok (a.advance A symbol
      { p with markPrice := price, version := p.version + 1 } a.cashBalance t) := by
  simp only [mark, position, PositionState.mark, bind_eq_ok, orRaise_eq_ok,
    requirePositiveDecimal_eq_ok, pure_eq_ok]
  exact ⟨p, hp, _, ⟨(), hprice, rfl⟩, rfl⟩

theorem applyFunding_ok {rate : ℚ} {t : Time} (hv : a.Valid) (hp : a.positions.get? symbol = some p)
    (hopen : ¬ p.isFlat .exact) : ∃ b, a.applyFunding .exact symbol rate t = .ok b := by
  obtain ⟨q, hq⟩ : ∃ q, p.applyFunding .exact (fundingAmount .exact p rate) = .ok q :=
    ⟨_, by rw [PositionState.applyFunding, raiseIf_bind_neg hopen]; rfl⟩
  obtain ⟨hreal, hfees, hfunding, _⟩ := PositionState.applyFunding_books hq
  have hrec :
      (a.advance .exact symbol q (a.cashBalance + fundingAmount .exact p rate) t).Reconciles := by
    refine advance_reconciles hv.reconciles ?_
    rw [hp, hreal, hfees, hfunding]
    simp
  refine ⟨a.advance .exact symbol q (a.cashBalance + fundingAmount .exact p rate) t, ?_⟩
  simp only [applyFunding, position, bind_eq_ok, orRaise_eq_ok, raiseIf_eq_ok, not_not, pure_eq_ok]
  exact ⟨p, hp, (), hopen, q, hq, (), (reconcile_ok_iff _).mpr hrec, rfl⟩

end AccountState

theorem FundingRecord.postInit_ok {f : FundingRecord} (hid : f.marketEventId ≠ "")
    (htime : f.fundingAt ≤ f.observedAt) (htype : f.rateType = "Regular" ∨ f.rateType = "Special")
    (hmark : 0 < f.markPrice) (hnotional : 0 < f.notional) : f.postInit = .ok f := by
  simp only [FundingRecord.postInit, bind_eq_ok, raiseIf_eq_ok,
    requirePositiveDecimal_eq_ok, pure_eq_ok]
  exact ⟨(), hid, (), not_lt.mpr htime, (), fun h => htype.elim h.1 h.2, (), hmark, (),
    hnotional, trivial⟩

namespace FundingSettlementCommand

variable {c : FundingSettlementCommand} {o : FundingApplicationOutcome} {p : PositionState}

/-- in exact arithmetic the settlement of an open position is always applied -/
theorem apply_ok (hv : c.account.Valid)
    (hp : c.account.positions.get? c.symbol = some p) (hopen : ¬ p.isFlat .exact)
    (hid : c.marketEventId ≠ "") (hmark : 0 < c.markPrice)
    (htype : c.rateType = "Regular" ∨ c.rateType = "Special") (htime : c.fundingAt ≤ c.observedAt) :
    ∃ o, c.apply .exact = .ok o := by
  have hm := AccountState.mark_ok (A := .exact) (t := c.observedAt) hp hmark
  set q : PositionState := { p with markPrice := c.markPrice, version := p.version + 1 }
  set marked := c.account.advance .exact c.symbol q c.account.cashBalance c.observedAt
  have hq : marked.positions.get? c.symbol = some q := Dict.get?_set_self _ _ _
  obtain ⟨funded, hf⟩ : ∃ b, marked.applyFunding .exact c.symbol c.rate c.observedAt = .ok b :=
    AccountState.applyFunding_ok (AccountState.mark_valid hv hm) hq hopen
  obtain ⟨_, q', _, _, _, heq, hrec⟩ := AccountState.applyFunding_cases hf
  have hnext : funded.positions.get? c.symbol = some q' := by
    rw [heq]
    exact Dict.get?_set_self _ _ _
  have hquantity : 0 < p.quantity .exact :=
    lt_of_le_of_ne (hv.positions _ p hp).1.quantity_nonneg (Ne.symm hopen)
  have hnotional : 0 < q.grossNotional .exact := mul_pos hquantity hmark
  simp only [apply, hm, ok_bind, AccountState.position, hq, orRaise_some, hf, hnext]
  rw [FundingRecord.postInit_ok hid htime htype hmark hnotional, ok_bind, raiseIf_not_bind hrec]
  exact ⟨_, rfl⟩

theorem apply_record {A : Arith} (h : c.apply A = .ok o) :
    o.record.marketEventId = c.marketEventId ∧ o.record.fundingAt = c.fundingAt ∧
      o.record.rate = c.rate ∧ o.record.rateType = c.rateType ∧
      o.record.markPrice = c.markPrice := by
  simp only [apply, FundingRecord.postInit, bind_eq_ok, pure_ok_iff] at h
  obtain ⟨_, _, _, _, _, _, _, _, record, ⟨_, _, _, _, _, _, _, _, _, _, hrec⟩, _, _, rfl⟩ := h
  rw [← hrec]
  exact ⟨rfl, rfl, rfl, rfl, rfl⟩

/-- the mark and the payment of a settlement are one shift of the account -/
theorem apply_shifts (hv : c.account.Valid)
    (hp : c.account.positions.get? c.symbol = some p) (h : c.apply .exact = .ok o) :
    c.account.Shifts c.symbol 0 (-(p.signedQuantity * c.markPrice * c.rate)) none o.account := by
  obtain ⟨marked, hm, hf⟩ := apply_cases h
  have hmarked := AccountState.mark_shifts hv hm
  obtain ⟨p', q, hp', hq, rfl⟩ := AccountState.mark_cases hm
  obtain rfl : p' = p := Option.mem_unique hp' hp
  obtain ⟨-, rfl⟩ := PositionState.mark_eq hq
  rw [← zero_add (-_)]
  exact hmarked.trans
    (AccountState.applyFunding_shifts hmarked.valid AccountState.advance_moves.at_symbol hf)

end FundingSettlementCommand

/-! ## runs -/

namespace Desk

/-- the desk after the occurrences `done`: what it holds, and what its settlements have paid -/
structure Settled (done : List Occurrence) (d : Desk) : Prop where
  valid : d.account.Valid
  held : ∀ symbol, d.account.signedOf symbol = heldNow done symbol
  opened : ∀ symbol p, d.account.positions.get? symbol = some p → ¬ p.isFlat .exact →
    ∀ t ∈ p.openedAt, t ∈ fillTimes done symbol
  paid : d.account.funding .exact = ∑ n ∈ (noticesOf done).toFinset, owed done n
  stored : ∀ row ∈ d.stored, ∃ n ∈ noticesOf done, n.eventId = row.marketEventId ∧
    n.fundingAt = row.fundingAt ∧ n.rate = row.rate ∧ n.rateType = row.rateType ∧
    n.markPrice = row.markPrice
  /-- a settlement that was not applied found no position that was open at its time, and none has
  come since -/
  skipped : ∀ n ∈ noticesOf done, d.findStored n.eventId = none → ∀ p,
    d.account.positions.get? n.symbol = some p → ¬ p.isFlat .exact →
    ∀ t ∈ p.openedAt, n.fundingAt < t

variable {done : List Occurrence} {d d' : Desk} {o : Occurrence}

/-- an occurrence that is no settlement, and adds nothing at the times of those before it -/
theorem Settled.shifted (h : d.Settled done) {symbol : String} {delta : ℚ} {opens : Option Time}
    {b : AccountState} (hs : d.account.Shifts symbol delta 0 opens b) (hnotice : o.notice = none)
    (hnets : ∀ s, o.nets s = if s = symbol then delta else 0)
    (htimes : ∀ t, opens = some t → o.fillTime symbol = some t)
    (hadds : ∀ n ∈ noticesOf done, o.adds n.symbol n.fundingAt = 0)
    (hlate : ∀ t, opens = some t → ∀ n ∈ noticesOf done, n.symbol = symbol → n.fundingAt < t) :
    Settled (done ++ [o]) { d with account := b } := by
  have hnotices : noticesOf (done ++ [o]) = noticesOf done := by
    rw [noticesOf_append, noticesOf, noticesOf, List.filterMap_cons, hnotice, List.filterMap_nil,
      List.append_nil]
  refine ⟨hs.valid, fun s => ?_, fun s p hp ho t ht => ?_, ?_,
    fun row hrow => ?_, fun n hn hnone p hp ho t ht => ?_⟩
  · rw [heldNow_append, hnets, ← h.held]
    exact hs.held s
  · rw [fillTimes_append, List.mem_append]
    obtain ⟨rfl, hnew⟩ | ⟨p', hp', ho', ht'⟩ := hs.opened s p hp ho t ht
    · exact Or.inr (List.mem_filterMap.mpr ⟨o, List.mem_singleton_self o, htimes t hnew⟩)
    · exact Or.inl (h.opened s p' hp' ho' t ht')
  · have hsum : ∑ n ∈ (noticesOf done).toFinset, owed (done ++ [o]) n =
        ∑ n ∈ (noticesOf done).toFinset, owed done n := by
      refine Finset.sum_congr rfl fun n hn => ?_
      unfold owed
      rw [heldAt_append, hadds n (List.mem_toFinset.mp hn), add_zero]
    rw [hnotices, hsum, ← h.paid]
    exact hs.funding.trans (add_zero _)
  · rw [hnotices]
    exact h.stored row hrow
  · rw [hnotices] at hn
    obtain ⟨hsym, hnew⟩ | ⟨p', hp', ho', ht'⟩ := hs.opened n.symbol p hp ho t ht
    · exact hlate t hnew n hn hsym
    · exact h.skipped n hn hnone p' hp' ho' t ht'

theorem Settled.fill (h : d.Settled done) {fillId positionId : UUID} {symbol : String}
    {side : PaperOrderSide} {effect : PositionEffect} {n price fee : ℚ} {t : Time}
    {b : AccountState}
    (hot : OnTime done (.fill fillId positionId symbol side effect n price fee t))
    (hb : d.account.applyFill .exact fillId positionId symbol side effect n price fee t = .ok b) :
    Settled (done ++ [.fill fillId positionId symbol side effect n price fee t])
    { d with account := b } := by
  refine h.shifted (AccountState.applyFill_shifts h.valid hb) rfl (fun s => ?_) (fun u hu => ?_)
    (fun m hm => ?_) (fun u hu m hm hs => ?_)
  · show (if symbol = s then _ else _) = _
    simp only [eq_comm]
  · cases hu
    exact if_pos rfl
  · refine if_neg ?_
    rintro ⟨hs, hle⟩
    exact absurd (hot m hm hs.symm) (not_lt.mpr hle)
  · cases hu
    exact hot m hm hs

theorem Settled.mark (h : d.Settled done) {symbol : String} {price : ℚ} {t : Time}
    {b : AccountState} (hb : d.account.mark .exact symbol price t = .ok b) :
    Settled (done ++ [.mark symbol price t]) { d with account := b } := by
  refine h.shifted (AccountState.mark_shifts h.valid hb) rfl (fun s => ?_) (fun u hu => nomatch hu)
    (fun m hm => rfl) (fun u hu => nomatch hu)
  split <;> rfl

theorem findStored_some {eventId : String} {row : FundingRecord}
    (h : d.findStored eventId = some row) : row ∈ d.stored ∧ row.marketEventId = eventId :=
  ⟨List.mem_of_find?_eq_some h, by simpa using List.find?_some h⟩

/-! ### settlements -/

section
variable {n : FundingNotice} {t : Time}

theorem settlement_appended (done : List Occurrence) (n : FundingNotice) (t : Time) :
    (∀ symbol, heldNow (done ++ [.settlement n t]) symbol = heldNow done symbol) ∧
      (∀ symbol, fillTimes (done ++ [.settlement n t]) symbol = fillTimes done symbol) ∧
      (∀ m, owed (done ++ [.settlement n t]) m = owed done m) ∧
      noticesOf (done ++ [.settlement n t]) = noticesOf done ++ [n] := by
  refine ⟨fun symbol => ?_, fun symbol => ?_, fun m => ?_, ?_⟩
  · rw [heldNow_append]
    exact add_zero _
  · rw [fillTimes_append]
    exact List.append_nil _
  · unfold owed
    rw [heldAt_append]
    show -((heldAt done m.symbol m.fundingAt + 0) * m.markPrice * m.rate) = _
    rw [add_zero]
  · rw [noticesOf_append]
    rfl

theorem owed_sum_appended :
    ∑ m ∈ (noticesOf (done ++ [.settlement n t])).toFinset, owed (done ++ [.settlement n t]) m =
      (∑ m ∈ (noticesOf done).toFinset, owed done m) + if n ∈ noticesOf done then
      0 else owed done n := by
  obtain ⟨-, -, howed, hnotices⟩ := settlement_appended done n t
  simp only [howed, hnotices, List.toFinset_append, List.toFinset_cons, List.toFinset_nil,
    insert_empty_eq]
  rw [Finset.union_comm, ← Finset.insert_eq]
  split
  · rename_i hn
    rw [Finset.insert_eq_of_mem (List.mem_toFinset.mpr hn), add_zero]
  · rename_i hn
    rw [Finset.sum_insert (fun hmem => hn (List.mem_toFinset.mp hmem)), add_comm]

/-- the settlement a stored row came from is the only one of its identity -/
theorem Settled.stored_same (h : d.Settled done) (hid : Identified (done ++ [.settlement n t]))
    {row : FundingRecord} (hrow : d.findStored n.eventId = some row) : n ∈ noticesOf done ∧
      n.fundingAt = row.fundingAt ∧ n.rate = row.rate ∧ n.rateType = row.rateType ∧
      n.markPrice = row.markPrice := by
  obtain ⟨hmem, heq⟩ := findStored_some hrow
  obtain ⟨m, hm, hmid, hrest⟩ := h.stored row hmem
  rw [Identified, noticesOf_append] at hid
  obtain rfl : m = n :=
    hid m (List.mem_append_left _ hm) n (List.mem_append_right _ (List.mem_singleton_self n))
    (hmid.trans heq)
  exact ⟨hm, hrest⟩

theorem Settled.consistent (h : d.Settled done) (hid : Identified (done ++ [.settlement n t])) :
    ¬ d.Conflicts n := by
  rintro ⟨row, hrow, hne⟩
  obtain ⟨_, hat, hrate, htype, hmark⟩ := h.stored_same hid hrow
  simp [← hat, ← hrate, ← htype, ← hmark] at hne

theorem Settled.passed (h : d.Settled done) (hot : OnTime done (.settlement n t))
    (hid : Identified (done ++ [.settlement n t])) (hn : ¬ d.Applies .exact n) :
    d.Settled (done ++ [.settlement n t]) := by
  obtain ⟨hheld, htimes, -, hnotices⟩ := settlement_appended done n t
  -- a position that is open now was opened by one of the fills, all of which precede the settlement
  have hopen : ∀ p, d.account.positions.get? n.symbol = some p → ¬ p.isFlat .exact →
      ∃ u ∈ p.openedAt, u ≤ n.fundingAt := by
    intro p hp ho
    obtain ⟨u, hu⟩ := Option.ne_none_iff_exists'.mp (h.valid.positions n.symbol p hp).1.openedAt
    exact ⟨u, hu, hot u (h.opened n.symbol p hp ho u hu)⟩
  have hdue : n ∉ noticesOf done → owed done n = 0 := by
    intro hnew
    have hnone : d.findStored n.eventId = none := by
      by_contra hsome
      obtain ⟨row, hrow⟩ := Option.ne_none_iff_exists'.mp hsome
      exact hnew (h.stored_same hid hrow).1
    have hzero : d.account.signedOf n.symbol = 0 := by
      unfold AccountState.signedOf
      cases hp : d.account.positions.get? n.symbol with
      | none => rfl
      | some p =>
        refine PositionState.signedQuantity_of_flat (p := p) ?_
        by_contra ho
        exact hn ⟨hnone, p, hp, ho, hopen p hp ho⟩
    unfold owed
    rw [heldAt_eq_heldNow hot, ← h.held, hzero]
    ring
  refine ⟨h.valid, fun s => (h.held s).trans (hheld s).symm, fun s p hp ho u hu => ?_, ?_,
    fun row hrow => ?_, fun m hm hnone p hp ho u hu => ?_⟩
  · rw [htimes]
    exact h.opened s p hp ho u hu
  · rw [owed_sum_appended, ← h.paid]
    split
    · exact (add_zero _).symm
    · rename_i hnew
      rw [hdue hnew, add_zero]
  · obtain ⟨m, hm, hrest⟩ := h.stored row hrow
    rw [hnotices]
    exact ⟨m, List.mem_append_left _ hm, hrest⟩
  · rw [hnotices, List.mem_append, List.mem_singleton] at hm
    rcases hm with hm | rfl
    · exact h.skipped m hm hnone p hp ho u hu
    · exact absurd ⟨hnone, p, hp, ho, hopen p hp ho⟩ hn

theorem Settled.applied (h : d.Settled done) (hot : OnTime done (.settlement n t))
    (hn : d.Applies .exact n) {outcome : FundingApplicationOutcome}
    (ho : (d.command n t).apply .exact = .ok outcome) :
    Settled (done ++ [.settlement n t]) ⟨outcome.account, d.stored ++ [outcome.record]⟩ := by
  obtain ⟨hheld, htimes, -, hnotices⟩ := settlement_appended done n t
  obtain ⟨hnone, p, hp, hopen, u, hu, hle⟩ := hn
  have hnew : n ∉ noticesOf done := fun hmem =>
    absurd (h.skipped n hmem hnone p hp hopen u hu) (not_lt.mpr hle)
  have hrecord := FundingSettlementCommand.apply_record ho
  have hs := FundingSettlementCommand.apply_shifts h.valid hp ho
  have hpaid : -(p.signedQuantity * n.markPrice * n.rate) = owed done n := by
    unfold owed
    rw [heldAt_eq_heldNow hot, ← h.held, AccountState.signedOf, hp]
    rfl
  -- neither the mark nor the payment opens a position
  have hback : ∀ s x, outcome.account.positions.get? s = some x → ¬ x.isFlat .exact →
      ∀ u ∈ x.openedAt, ∃ y, d.account.positions.get? s = some y ∧ ¬ y.isFlat .exact ∧
      u ∈ y.openedAt := by
    intro s x hx hxo u hu
    obtain ⟨-, hnone⟩ | hy := hs.opened s x hx hxo u hu
    · cases hnone
    · exact hy
  have hstored : ∀ m : FundingNotice,
      Desk.findStored ⟨outcome.account, d.stored ++ [outcome.record]⟩ m.eventId = none →
      d.findStored m.eventId = none ∧ m.eventId ≠ n.eventId := by
    intro m hnone
    unfold Desk.findStored at hnone ⊢
    rw [List.find?_append, Option.or_eq_none_iff] at hnone
    refine ⟨hnone.1, fun heq => ?_⟩
    have hne := hnone.2
    rw [List.find?_singleton, if_pos (by rw [heq, hrecord.1]; exact decide_eq_true rfl)] at hne
    cases hne
  refine ⟨hs.valid, fun s => ?_, fun s x hx hxo u hu => ?_, ?_, fun row hrow => ?_,
    fun m hm hnone x hx hxo u hu => ?_⟩
  · rw [hheld, ← h.held]
    show outcome.account.signedOf s = _
    rw [hs.held, ite_self, add_zero]
    rfl
  · rw [htimes]
    obtain ⟨y, hy, hyo, hyu⟩ := hback s x hx hxo u hu
    exact h.opened s y hy hyo u hyu
  · show outcome.account.funding .exact = _
    rw [hs.funding, owed_sum_appended, if_neg hnew, ← h.paid]
    exact congrArg _ hpaid
  · rw [hnotices]
    rcases List.mem_append.mp hrow with hrow | hrow
    · obtain ⟨m, hm, hrest⟩ := h.stored row hrow
      exact ⟨m, List.mem_append_left _ hm, hrest⟩
    · obtain ⟨h1, h2, h3, h4, h5⟩ := hrecord
      rw [List.mem_singleton.mp hrow]
      exact ⟨n, List.mem_append_right _ (List.mem_singleton_self n), h1.symm, h2.symm, h3.symm,
        h4.symm, h5.symm⟩
  · obtain ⟨hnone', hne⟩ := hstored m hnone
    rw [hnotices, List.mem_append, List.mem_singleton] at hm
    rcases hm with hm | rfl
    · obtain ⟨y, hy, hyo, hyu⟩ := hback m.symbol x hx hxo u hu
      exact h.skipped m hm hnone' y hy hyo u hyu
    · exact absurd rfl hne

end

theorem command_accepted (h : d.Settled done) (hn : d.Applies .exact n)
    (ha : d.Accepts .exact (.settlement n t)) :
    (d.command n t).postInit .exact = .ok (d.command n t) ∧
    ∃ outcome, (d.command n t).apply .exact = .ok outcome := by
  obtain ⟨-, p, hp, hopen, hopened⟩ := hn
  obtain ⟨⟨hsym, hid, hmark, htype⟩, hat, htime⟩ := ha
  refine ⟨?_, FundingSettlementCommand.apply_ok h.valid hp hopen hid hmark htype hat⟩
  simp only [FundingSettlementCommand.postInit, AccountState.position, bind_eq_ok, raiseIf_eq_ok,
    orRaise_eq_ok, requirePositiveDecimal_eq_ok, not_not, pure_eq_ok]
  exact ⟨(), fun h => h.elim hsym hid, (), rfl, (), not_lt.mpr hat, (),
    fun h => h.elim fun u hu => absurd (htime u hu.1) (not_le.mpr hu.2), (), hmark, (), htype, p,
    hp, (), hopen, (), hopened, trivial⟩

theorem Settled.take (h : d.Settled done) (hot : OnTime done o) (hid : Identified (done ++ [o]))
    (ha : d.Accepts .exact o) : ∃ d', d.take .exact o = .ok d' ∧ d'.Settled (done ++ [o]) := by
  cases o with
  | fill fillId positionId symbol side effect n price fee t =>
    obtain ⟨b, hb⟩ := Option.isSome_iff_exists.mp ha
    have hb := eq_ok_of_toOption hb
    exact ⟨{ d with account := b }, by rw [Desk.take, hb]; rfl, h.fill hot hb⟩
  | mark symbol price t =>
    obtain ⟨b, hb⟩ := Option.isSome_iff_exists.mp ha
    have hb := eq_ok_of_toOption hb
    exact ⟨{ d with account := b }, by rw [Desk.take, hb]; rfl, h.mark hb⟩
  | settlement n t =>
    rw [Desk.take, settle, raiseIf_bind_neg (not_lt.mpr ha.2.1),
      raiseIf_bind_neg (h.consistent hid)]
    by_cases happ : d.Applies .exact n
    · obtain ⟨hcommand, outcome, ho⟩ := command_accepted h happ ha
      rw [if_pos happ, hcommand, ok_bind, ho]
      exact ⟨_, rfl, h.applied hot happ ho⟩
    · rw [if_neg happ]
      exact ⟨d, rfl, h.passed hot hid happ⟩

variable {os : List Occurrence}

theorem Identified.of_append (h : Identified (done ++ os)) : Identified done := by
  intro m hm n hn
  rw [Identified, noticesOf_append] at h
  exact h m (List.mem_append_left _ hm) n (List.mem_append_left _ hn)

theorem Settled.run (h : d.Settled done) (hot : AllOnTime done os) (hid : Identified (done ++ os))
    (ha : d.AllAccepted .exact os) : ∃ d', d.run .exact os = .ok d' ∧ d'.Settled (done ++ os) := by
  induction os generalizing d done with
  | nil =>
    refine ⟨d, rfl, ?_⟩
    rwa [List.append_nil]
  | cons o os ih =>
    obtain ⟨ho, hrest⟩ := hot
    have hsplit : done ++ o :: os = (done ++ [o]) ++ os := by simp
    rw [hsplit] at hid ⊢
    obtain ⟨c, hc, hsettled⟩ := h.take ho (Identified.of_append hid) ha.1
    obtain ⟨d', hd', hend⟩ := ih hsettled hrest hid (ha.2 c (by rw [hc]; rfl))
    exact ⟨d', by rw [Desk.run, List.foldlM_cons, hc]; exact hd', hend⟩

/-- **settlements on time**: when no fill of a symbol falls between a settlement and its processing,
and no settlement is older than the account, every run is taken and the funding of the account is,
over all settlements, what the quantity held at each of them owes -/
theorem funding_settles (experimentId : UUID) (capital : ℚ) (currency : String) (leverage : Nat)
    (os : List Occurrence) (a₀ : AccountState)
    (hcreate : AccountState.create experimentId capital currency leverage = .ok a₀)
    (haccepted : AllAccepted .exact ⟨a₀, []⟩ os) (hid : Identified os) (hot : AllOnTime [] os) :
    ∃ d, Desk.run .exact ⟨a₀, []⟩ os = .ok d ∧
      d.account.funding .exact = ∑ n ∈ (noticesOf os).toFinset, owed os n := by
  have hstart : Desk.Settled [] ⟨a₀, []⟩ := by
    have hv := (AccountState.create_valid hcreate).1
    simp only [AccountState.create, bind_eq_ok, pure_ok_iff] at hcreate
    obtain ⟨_, _, _, _, _, _, rfl⟩ := hcreate
    refine ⟨hv, fun s => rfl, fun s p hp => ?_, ?_, fun row hrow => (by cases hrow),
      fun n hn => (by cases hn)⟩
    · rw [Dict.get?_empty] at hp
      cases hp
    · rw [AccountState.funding, AccountState.total_exact]
      rfl
  obtain ⟨d, hd, hsettled⟩ := hstart.run hot hid haccepted
  exact ⟨d, hd, hsettled.paid⟩

end Desk

/-! ## a position closed before its settlement is observed -/

namespace Demo

def notice (fundingAt : Time) : FundingNotice :=
  ⟨"funding:" ++ toString fundingAt, "BTCUSDT", fundingAt, 1 / 1000, "Regular", 100⟩

/-- one long over the settlement at 20, and sold before it is observed at 40 -/
def closedBefore : List Occurrence :=
  [.fill ⟨"uuid:1"⟩ ⟨"uuid:long"⟩ "BTCUSDT" .buy .open 1 100 0 10,
    .fill ⟨"uuid:2"⟩ ⟨"uuid:long"⟩ "BTCUSDT" .sell .reduce 1 100 0 30, .settlement (notice 20) 40]

theorem closedBefore_unfunded :
    (Desk.run .exact ⟨freshAccount, []⟩ closedBefore).toOption.map (·.account.funding .exact) =
      some 0 ∧ ∑ n ∈ (noticesOf closedBefore).toFinset, owed closedBefore n = -1 / 10 := by
  decide +kernel

/-- both settlements are observed before the next fill, one of them twice -/
def openOver : List Occurrence :=
  [.fill ⟨"uuid:1"⟩ ⟨"uuid:long"⟩ "BTCUSDT" .buy .open 1 100 0 10, .settlement (notice 20) 25,
    .fill ⟨"uuid:2"⟩ ⟨"uuid:long"⟩ "BTCUSDT" .buy .open 1 100 0 30, .settlement (notice 40) 45,
    .settlement (notice 40) 46, .fill ⟨"uuid:3"⟩ ⟨"uuid:long"⟩ "BTCUSDT" .sell .reduce 2 100 0 50,
    .settlement (notice 60) 65]

theorem funding_settles_openOver :
    (∃ d, Desk.run .exact ⟨freshAccount, []⟩ openOver = .ok d ∧
      d.account.funding .exact = ∑ n ∈ (noticesOf openOver).toFinset, owed openOver n) ∧
    ∑ n ∈ (noticesOf openOver).toFinset, owed openOver n = -3 / 10 :=
  ⟨Desk.funding_settles ⟨"uuid:experiment"⟩ 1000 "USDT" 3 openOver freshAccount
      (eq_ok_of_toOption (Option.some_get _).symm) (by decide +kernel) (by decide +kernel)
        (by decide +kernel),
    by decide +kernel⟩

end Demo

end Maais
