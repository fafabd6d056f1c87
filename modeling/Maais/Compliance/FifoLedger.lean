import Maais.Domain
import Maais.Lib.Dict
import Maais.Lib.Run
import Mathlib.Data.List.Sort
import Mathlib.Algebra.BigOperators.Ring.List

/-!
# The compliance ledger

Open lots wait in one queue for every asset and side. A close takes from the front of its queue;
`open_lot` puts a lot in front of everything and sorts by the opening time, `load_lots` sorts first
and puts every lot behind the others.

* `LedgerRun`  a ledger with the lots that were opened and the matches that were made so far;
* `Exhausts`  the lots are taken from in their order, all but the last are used up, and the others
  stay;
* `closes_first_in_first_out`  a run in which no two waiting lots of a queue were opened at one
  time.
-/

namespace Maais
open Lib

/-! ## lots -/

/-- lots are objects that change; `number` tells them apart -/
structure LotData where
  number : ℕ
  asset : String
  side : String
  entryPrice : ℚ
  originalSize : ℚ
  remainingSize : ℚ
  entryFees : ℚ
  strategyId : String
  openedAt : Time
deriving DecidableEq

def LotData.key (lot : LotData) : String × String := (lot.asset, lot.side)

structure TradeRecordData where
  timestamp : Time
  asset : String
  entryPrice : ℚ
  exitPrice : ℚ
  positionSize : ℚ
  fees : ℚ
  fundingPaidReceived : ℚ
  profitLoss : ℚ
  exchangeRate : ℚ
  strategyId : String
  positionSide : String
  entryLot : ℕ

def pnl (A : Arith) (side : String) (entryPrice exitPrice size fees funding : ℚ) : ℚ :=
  let gross := if side = "long" then
    A.mul (A.sub exitPrice entryPrice) size else A.mul (A.sub entryPrice exitPrice) size
  A.add (A.sub gross fees) funding

structure CloseOrder where
  asset : String
  side : String
  closeSize : ℚ
  exitPrice : ℚ
  exitFees : ℚ
  fundingPaidReceived : ℚ
  exchangeRate : ℚ
  closedAt : Time

def CloseOrder.key (c : CloseOrder) : String × String := (c.asset, c.side)

/-- one turn of the loop of a close: what is taken from a lot, and its share of the amounts -/
structure LotMatch where
  lot : LotData
  matched : ℚ
  allocatedExitFees : ℚ
  allocatedFunding : ℚ
  allocatedEntryFees : ℚ

section
variable (A : Arith) (c : CloseOrder)

def lotMatch (lot : LotData) (remainingClose : ℚ) : LotMatch :=
  let matched := min lot.remainingSize remainingClose
  let matchRatio := A.div matched c.closeSize
  { lot, matched
    allocatedExitFees := A.mul c.exitFees matchRatio
    allocatedFunding := A.mul c.fundingPaidReceived matchRatio
    allocatedEntryFees := A.mul lot.entryFees (A.div matched lot.originalSize) }

def LotMatch.record (m : LotMatch) : TradeRecordData :=
  let totalFees := A.add m.allocatedEntryFees m.allocatedExitFees
  { timestamp := c.closedAt, asset := c.asset, entryPrice := m.lot.entryPrice,
    exitPrice := c.exitPrice
    positionSize := m.matched, fees := totalFees, fundingPaidReceived := m.allocatedFunding
    profitLoss := pnl A c.side m.lot.entryPrice c.exitPrice m.matched totalFees m.allocatedFunding
    exchangeRate := c.exchangeRate, strategyId := m.lot.strategyId, positionSide := c.side,
      entryLot := m.lot.number }

/-- the loop of `close_position`: the matches, and what is left of the queue -/
def consume : ℚ → List LotData → List LotMatch × List LotData
  | _, [] => ([], [])
  | remainingClose, lot :: queue =>
    if 0 < remainingClose then
      let m := lotMatch A c lot remainingClose
      let remainingSize := A.sub lot.remainingSize m.matched
      if remainingSize = 0 then
        let rest := consume (A.sub remainingClose m.matched) queue
        (m :: rest.1, rest.2)
      -- a lot that is not used up took all that was left to close, so the loop ends here
      else ([m], { lot with remainingSize } :: queue)
    else ([], lot :: queue)

end

/-! ## the ledger -/

abbrev FifoLedger := Dict (String × String) (List LotData)

namespace FifoLedger

def queue (ledger : FifoLedger) (key : String × String) : List LotData := (ledger.get? key).getD []

/-- `sorted(lots, key=lambda item: item.opened_at)` -/
def byOpenedAt (l : List LotData) : List LotData :=
  l.insertionSort (fun a b => a.openedAt ≤ b.openedAt)

def loadLots (ledger : FifoLedger) (lots : List LotData) : FifoLedger :=
  (byOpenedAt lots).foldl (fun ledger lot => ledger.set lot.key (queue ledger lot.key ++ [lot]))
    ledger

/-- `open_lot`; the texts leave out the values they quote -/
def openLot (ledger : FifoLedger) (lot : LotData) : FifoLedger × Py LotData :=
  if lot.side ≠ "long" ∧ lot.side ≠ "short" then
    (ledger, .error (.valueError "side must be 'long' or 'short'"))
  else if lot.originalSize ≤ 0 then (ledger, .error (.valueError "size must be positive"))
  else (ledger.set lot.key (byOpenedAt (lot :: queue ledger lot.key)), .ok lot)

/-- `close_position`; the matches are returned in place of their records -/
def closePosition (A : Arith) (ledger : FifoLedger) (c : CloseOrder) :
    FifoLedger × Py (List LotMatch) :=
  let lots := queue ledger c.key
  if lots = [] then (ledger, .error (.valueError ("No open " ++ c.side ++ " lots for " ++ c.asset)))
  else if c.closeSize > A.sum (lots.map (·.remainingSize)) then
    (ledger,
      .error (.valueError ("Cannot close: not enough available for " ++ c.asset ++ " " ++ c.side)))
  else
    let out := consume A c c.closeSize lots
    (ledger.set c.key out.2, .ok out.1)

def openLots (ledger : FifoLedger) : List LotData :=
  ledger.values.flatten.insertionSort (fun a b => a.number ≤ b.number)

end FifoLedger

/-! ## runs -/

inductive LedgerCall
  | openLot (asset side : String) (size entryPrice entryFees : ℚ) (strategyId : String)
    (openedAt : Time)
  | closePosition (c : CloseOrder)
  | reload

structure LedgerRun where
  ledger : FifoLedger
  opened : List LotData
  closed : List (CloseOrder × LotMatch)

namespace LedgerRun

def start : LedgerRun := ⟨.empty, [], []⟩

def newLot (s : LedgerRun) (asset side : String) (size entryPrice entryFees : ℚ)
    (strategyId : String) (openedAt : Time) :
    LotData :=
  ⟨s.opened.length, asset, side, entryPrice, size, size, entryFees, strategyId, openedAt⟩

def step (A : Arith) (s : LedgerRun) : LedgerCall → LedgerRun
  | .openLot asset side size entryPrice entryFees strategyId openedAt =>
    let lot := s.newLot asset side size entryPrice entryFees strategyId openedAt
    match s.ledger.openLot lot with
    | (ledger, .ok lot) => { s with ledger, opened := s.opened ++ [lot] }
    | (ledger, .error _) => { s with ledger }
  | .closePosition c =>
    match s.ledger.closePosition A c with
    | (ledger, .ok ms) => { s with ledger, closed := s.closed ++ ms.map fun m => (c, m) }
    | (ledger, .error _) => { s with ledger }
  | .reload => { s with ledger := FifoLedger.loadLots .empty s.ledger.openLots }

end LedgerRun

/-! ## the loop of a close -/

/-- what a match leaves of its lot -/
def LotMatch.left (A : Arith) (m : LotMatch) : LotData :=
  { m.lot with remainingSize := A.sub m.lot.remainingSize m.matched }

/-- **a close takes from the lots that come first** -/
structure Exhausts (A : Arith) (Before : LotData → LotData → Prop) (closeSize : ℚ)
    (queue after : List LotData) (ms : List LotMatch) : Prop where
  earlier : ∀ m ∈ ms, m.lot ∈ queue ∧ ∀ lot ∈ queue, Before lot m.lot →
    ∀ l ∈ after, l.number ≠ lot.number
  /-- the lots of the matches, in their order, and then those that were not reached; these stay as
  they are -/
  inOrder : ∃ behind, (ms.map (·.lot) ++ behind).Perm queue ∧
    (ms.map (·.lot) ++ behind).Pairwise (fun a b => ¬ Before b a) ∧
    after = (ms.map (LotMatch.left A)).filter (fun l => l.remainingSize ≠ 0) ++ behind
  used : ∀ m ∈ ms.dropLast, (m.left A).remainingSize = 0
  /-- a match takes all of its lot, or what is left to close -/
  amounts : ∀ taken m rest, ms = taken ++ m :: rest →
    m.matched = min m.lot.remainingSize ((taken.map (·.matched)).foldl A.sub closeSize)

section
variable {A : Arith} {c : CloseOrder}

theorem consume_sublist {β : Type} (f : LotData → β)
    (hf : ∀ (l : LotData) (r : ℚ), f { l with remainingSize := r } = f l) (q : List LotData)
    (rc : ℚ) : ((consume A c rc q).2.map f).Sublist (q.map f) := by
  induction q generalizing rc with
  | nil => exact List.Sublist.refl _
  | cons lot q ih =>
    simp only [consume]
    split_ifs with hrc hused
    · exact (ih _).cons _
    · rw [List.map_cons, List.map_cons, hf]
    · exact List.Sublist.refl _

theorem consume_inOrder (q : List LotData) (rc : ℚ) :
    ∃ behind, (consume A c rc q).1.map (·.lot) ++ behind = q ∧
      (consume A c rc q).2 =
        ((consume A c rc q).1.map (LotMatch.left A)).filter
        (fun l => l.remainingSize ≠ 0) ++ behind := by
  induction q generalizing rc with
  | nil => exact ⟨[], rfl, rfl⟩
  | cons lot q ih =>
    simp only [consume]
    split_ifs with hrc hused
    · obtain ⟨behind, hq, hafter⟩ := ih (A.sub rc (lotMatch A c lot rc).matched)
      refine ⟨behind, congrArg (lot :: ·) hq, ?_⟩
      have hgone : ¬ decide ((LotMatch.left A (lotMatch A c lot rc)).remainingSize ≠ 0) = true := by
        rw [decide_eq_true_eq]
        exact not_not.mpr hused
      rw [List.map_cons, List.filter_cons, if_neg hgone]
      exact hafter
    · refine ⟨q, rfl, ?_⟩
      have hstays : decide ((LotMatch.left A (lotMatch A c lot rc)).remainingSize ≠ 0) = true :=
        decide_eq_true hused
      rw [List.map_singleton, List.filter_cons, if_pos hstays]
      rfl
    · exact ⟨lot :: q, rfl, rfl⟩

theorem consume_used (q : List LotData) (rc : ℚ) :
    ∀ m ∈ (consume A c rc q).1.dropLast, (m.left A).remainingSize = 0 := by
  induction q generalizing rc with
  | nil => exact fun m hm => nomatch hm
  | cons lot q ih =>
    simp only [consume]
    split_ifs with hrc hused
    · intro m hm
      by_cases hrest : (consume A c (A.sub rc (lotMatch A c lot rc).matched) q).1 = []
      · rw [hrest] at hm
        cases hm
      · rw [List.dropLast_cons_of_ne_nil hrest] at hm
        rcases List.mem_cons.mp hm with rfl | hm
        · exact hused
        · exact ih _ m hm
    · exact fun m hm => nomatch hm
    · exact fun m hm => nomatch hm

theorem consume_amounts (q : List LotData) (rc : ℚ) (taken : List LotMatch) (m : LotMatch)
    (rest : List LotMatch) (h : (consume A c rc q).1 = taken ++ m :: rest) :
    m.matched = min m.lot.remainingSize ((taken.map (·.matched)).foldl A.sub rc) := by
  induction q generalizing rc taken with
  | nil => exact absurd h (by simp [consume])
  | cons lot q ih =>
    simp only [consume] at h
    split_ifs at h with hrc hused
    · cases taken with
      | nil =>
        rw [← (List.cons.inj h).1]
        rfl
      | cons first taken =>
        obtain ⟨rfl, hrest⟩ := List.cons.inj h
        exact ih _ taken hrest
    · cases taken with
      | nil =>
        rw [← (List.cons.inj h).1]
        rfl
      | cons first taken => exact absurd (List.cons.inj h).2 (by simp)
    · exact absurd h (by simp)

theorem consume_exhausts {Before : LotData → LotData → Prop} (hirrefl : ∀ l, ¬ Before l l)
    {q : List LotData} (hsorted : q.Pairwise fun a b => ¬ Before b a)
    (hnodup : (q.map (·.number)).Nodup) (rc : ℚ) :
    Exhausts A Before rc q (consume A c rc q).2 (consume A c rc q).1 := by
  refine ⟨?_, ?_, consume_used q rc, consume_amounts q rc⟩
  · induction q generalizing rc with
    | nil => exact fun m hm => nomatch hm
    | cons lot q ih =>
      rw [List.pairwise_cons] at hsorted
      rw [List.map_cons, List.nodup_cons] at hnodup
      -- nothing comes before the first lot
      have hfirst : ∀ l ∈ lot :: q, ¬ Before l lot := by
        intro l hl
        rcases List.mem_cons.mp hl with rfl | hl
        · exact hirrefl l
        · exact hsorted.1 l hl
      simp only [consume]
      split_ifs with hrc hused
      · intro m hm
        rcases List.mem_cons.mp hm with rfl | hm
        · exact ⟨List.mem_cons_self, fun l hl hbefore => absurd hbefore (hfirst l hl)⟩
        · obtain ⟨hmem, hrest⟩ := ih hsorted.2 hnodup.2 _ m hm
          refine ⟨List.mem_cons_of_mem lot hmem, fun l hl hbefore l' hl' => ?_⟩
          rcases List.mem_cons.mp hl with rfl | hl
          · intro heq
            have hin :=
              (consume_sublist (·.number) (fun _ _ => rfl) q _).subset (List.mem_map_of_mem hl')
            exact hnodup.1 (heq ▸ hin)
          · exact hrest l hl hbefore l' hl'
      · intro m hm
        rw [List.mem_singleton] at hm
        subst hm
        exact ⟨List.mem_cons_self, fun l hl hbefore => absurd hbefore (hfirst l hl)⟩
      · exact fun m hm => nomatch hm
  · obtain ⟨behind, hq, hafter⟩ := consume_inOrder (A := A) (c := c) q rc
    refine ⟨behind, ?_, ?_, hafter⟩
    · rw [hq]
    · rwa [hq]

end

/-! ## queues -/

namespace FifoLedger

variable {ledger : FifoLedger} {key : String × String}

instance : Std.Total fun a b : LotData => a.openedAt ≤ b.openedAt :=
  ⟨fun a b => le_total a.openedAt b.openedAt⟩

instance : IsTrans LotData fun a b => a.openedAt ≤ b.openedAt := ⟨fun _ _ _ => le_trans⟩

theorem queue_set (lots : List LotData) (k : String × String) :
    queue (ledger.set key lots) k = if k = key then lots else queue ledger k := by
  unfold queue
  rw [Dict.get?_set]
  split_ifs <;> rfl

/-- the lots of a queue are of its asset and side, stand in the order of their opening times, and
are told apart -/
structure Ordered (ledger : FifoLedger) (opened : ℕ) : Prop where
  keyed : ∀ key, ∀ lot ∈ queue ledger key, lot.key = key
  sorted : ∀ key, (queue ledger key).Pairwise fun a b => a.openedAt ≤ b.openedAt
  nodup : ∀ key, ((queue ledger key).map (·.number)).Nodup
  number_lt : ∀ key, ∀ lot ∈ queue ledger key, lot.number < opened

theorem byOpenedAt_perm (l : List LotData) : (byOpenedAt l).Perm l := List.perm_insertionSort _ l

theorem byOpenedAt_sorted (l : List LotData) :
    (byOpenedAt l).Pairwise fun a b => a.openedAt ≤ b.openedAt :=
  List.pairwise_insertionSort _ l

variable {opened : ℕ}

theorem Ordered.set {opened' : ℕ} (h : Ordered ledger opened) (hle : opened ≤ opened')
    {lots : List LotData} (hkeyed : ∀ lot ∈ lots, lot.key = key)
    (hsorted : lots.Pairwise fun a b => a.openedAt ≤ b.openedAt)
    (hnodup : (lots.map (·.number)).Nodup) (hlt : ∀ lot ∈ lots, lot.number < opened') :
    Ordered (ledger.set key lots) opened' := by
  constructor
  all_goals
    intro k
    rw [queue_set]
    split_ifs with hk
  · exact hk ▸ hkeyed
  · exact h.keyed k
  · exact hsorted
  · exact h.sorted k
  · exact hnodup
  · exact h.nodup k
  · exact hlt
  · exact fun lot hlot => (h.number_lt k lot hlot).trans_le hle

theorem Ordered.openLot (lot : LotData) (h : Ordered ledger lot.number) :
    Ordered (ledger.set lot.key (byOpenedAt (lot :: queue ledger lot.key))) (lot.number + 1) := by
  have hperm := byOpenedAt_perm (lot :: queue ledger lot.key)
  refine h.set (Nat.le_succ _) (fun l hl => ?_) (byOpenedAt_sorted _) ?_ (fun l hl => ?_)
  · rcases List.mem_cons.mp (hperm.mem_iff.mp hl) with rfl | hl
    · rfl
    · exact h.keyed _ l hl
  · rw [(hperm.map _).nodup_iff, List.map_cons, List.nodup_cons]
    refine ⟨fun hmem => ?_, h.nodup _⟩
    obtain ⟨l, hl, heq⟩ := List.mem_map.mp hmem
    exact absurd (h.number_lt _ l hl) (by rw [heq]; exact lt_irrefl _)
  · rcases List.mem_cons.mp (hperm.mem_iff.mp hl) with rfl | hl
    · exact Nat.lt_succ_self _
    · exact (h.number_lt _ l hl).trans (Nat.lt_succ_self _)

theorem Ordered.close (h : Ordered ledger opened) {A : Arith} {c : CloseOrder} {rc : ℚ} :
    Ordered (ledger.set c.key (consume A c rc (queue ledger c.key)).2) opened := by
  have hsub : ∀ {β : Type} (f : LotData → β),
      (∀ (l : LotData) (r : ℚ), f { l with remainingSize := r } = f l) →
      ((consume A c rc (queue ledger c.key)).2.map f).Sublist ((queue ledger c.key).map f) :=
    fun f hf => consume_sublist f hf _ rc
  refine h.set le_rfl (fun l hl => ?_) ?_ ((h.nodup _).sublist (hsub (·.number) fun _ _ => rfl))
    (fun l hl => ?_)
  · obtain ⟨l', hl', heq⟩ :=
      List.mem_map.mp ((hsub LotData.key fun _ _ => rfl).subset (List.mem_map_of_mem hl))
    rw [← heq]
    exact h.keyed _ l' hl'
  · have hsorted := h.sorted c.key
    rw [← List.pairwise_map (f := LotData.openedAt) (R := (· ≤ ·))] at hsorted ⊢
    exact hsorted.sublist (hsub (·.openedAt) fun _ _ => rfl)
  · obtain ⟨l', hl', heq⟩ :=
      List.mem_map.mp ((hsub (·.number) fun _ _ => rfl).subset (List.mem_map_of_mem hl))
    rw [← heq]
    exact h.number_lt _ l' hl'

theorem closePosition_cases {A : Arith} (ledger : FifoLedger) (c : CloseOrder) :
    (∃ e, closePosition A ledger c = (ledger, .error e)) ∨
      (c.closeSize ≤ A.sum ((queue ledger c.key).map (·.remainingSize)) ∧
        closePosition A ledger c =
          (ledger.set c.key (consume A c c.closeSize (queue ledger c.key)).2,
          .ok (consume A c c.closeSize (queue ledger c.key)).1)) := by
  unfold closePosition
  dsimp only
  split_ifs with hnone hsize
  · exact .inl ⟨_, rfl⟩
  · exact .inl ⟨_, rfl⟩
  · exact .inr ⟨not_lt.mp hsize, rfl⟩

/-! ### reloading -/

theorem queue_loadLots (lots : List LotData) (k : String × String) :
    queue (loadLots ledger lots) k = queue ledger k ++ (byOpenedAt lots).filter (·.key = k) := by
  unfold loadLots
  induction byOpenedAt lots generalizing ledger with
  | nil => rw [List.foldl_nil, List.filter_nil, List.append_nil]
  | cons lot l ih =>
    rw [List.foldl_cons, ih, queue_set]
    by_cases hk : k = lot.key
    · rw [if_pos hk, hk, List.filter_cons_of_pos (by simp), List.append_assoc,
        List.singleton_append]
    · rw [if_neg hk, List.filter_cons_of_neg (by simpa [eq_comm] using hk)]

theorem filter_values (hkeyed : ∀ k, ∀ lot ∈ queue ledger k, lot.key = k) (key : String × String) :
    ledger.values.flatten.filter (·.key = key) = queue ledger key := by
  have hentries : ∀ e ∈ ledger.entries, ∀ lot ∈ e.2, lot.key = e.1 := by
    intro e he lot hlot
    refine hkeyed e.1 lot ?_
    rwa [queue, (Dict.mem_entries_iff ledger).mp he, Option.getD_some]
  show (ledger.entries.map Prod.snd).flatten.filter _ = (Entries.lookup key ledger.entries).getD []
  have hnodup := ledger.nodup
  revert hentries hnodup
  induction ledger.entries with
  | nil => exact fun _ _ => rfl
  | cons e l ih =>
    intro hentries hnodup
    rw [List.map_cons, List.nodup_cons] at hnodup
    have hrest := ih (fun x hx => hentries x (List.mem_cons_of_mem e hx)) hnodup.2
    have hhead := hentries e List.mem_cons_self
    rw [List.map_cons, List.flatten_cons, List.filter_append, hrest]
    by_cases hk : e.1 = key
    · have hnone : Entries.lookup key l = none := Entries.lookup_eq_none.mpr (hk ▸ hnodup.1)
      rw [List.filter_eq_self.mpr fun lot hlot => decide_eq_true (hk ▸ hhead lot hlot), hnone,
        Option.getD_none, List.append_nil, Entries.lookup, if_pos hk]
      rfl
    · have hother : ∀ lot ∈ e.2, ¬ decide (lot.key = key) = true := fun lot hlot => by
        rw [decide_eq_true_eq, hhead lot hlot]
        exact hk
      rw [List.filter_eq_nil_iff.mpr hother, List.nil_append, Entries.lookup, if_neg hk]

theorem queue_reload (h : Ordered ledger opened)
    (hapart : ((queue ledger key).map (·.openedAt)).Nodup) :
    queue (loadLots .empty ledger.openLots) key = queue ledger key := by
  rw [queue_loadLots]
  show [] ++ _ = _
  rw [List.nil_append]
  have hperm : ((byOpenedAt ledger.openLots).filter (·.key = key)).Perm (queue ledger key) := by
    rw [← filter_values h.keyed key]
    exact ((byOpenedAt_perm _).trans (List.perm_insertionSort _ _)).filter _
  have hlt : ∀ {l : List LotData}, l.Pairwise (fun a b => a.openedAt ≤ b.openedAt) →
      (l.map (·.openedAt)).Nodup → l.Pairwise fun a b => a.openedAt < b.openedAt := by
    intro l hsorted hnodup
    rw [List.Nodup, List.pairwise_map] at hnodup
    exact (hsorted.and hnodup).imp fun hab => lt_of_le_of_ne hab.1 hab.2
  refine hperm.eq_of_pairwise (fun a b _ _ hab hba => absurd hab (lt_asymm hba)) (hlt ?_ ?_)
    (hlt (h.sorted key) hapart)
  · exact (byOpenedAt_sorted _).filter _
  · exact (hperm.map _).nodup_iff.mpr hapart

end FifoLedger

/-! ## first in, first out -/

namespace LedgerRun

variable {A : Arith} {s : LedgerRun}

open FifoLedger

theorem step_open (asset side : String) (size entryPrice entryFees : ℚ) (strategyId : String)
    (openedAt : Time) :
    let lot := s.newLot asset side size entryPrice entryFees strategyId openedAt
    s.step A (.openLot asset side size entryPrice entryFees strategyId openedAt) = s ∨
      (0 < size ∧ s.step A (.openLot asset side size entryPrice entryFees strategyId openedAt) =
        { s with
          ledger := s.ledger.set lot.key (byOpenedAt (lot :: queue s.ledger lot.key)),
          opened := s.opened ++ [lot] }) := by
  intro lot
  simp only [step, openLot]
  split_ifs with hside hsize
  · exact .inl rfl
  · exact .inl rfl
  · exact .inr ⟨not_le.mp hsize, rfl⟩

theorem step_close (c : CloseOrder) :
    ((∃ e, (s.ledger.closePosition A c).2 = .error e) ∧ s.step A (.closePosition c) = s) ∨
      ((s.ledger.closePosition A c).2 = .ok (consume A c c.closeSize (queue s.ledger c.key)).1 ∧
        s.step A (.closePosition c) =
          { s with
            ledger := s.ledger.set c.key (consume A c c.closeSize (queue s.ledger c.key)).2
            closed := s.closed ++ (consume A c c.closeSize (queue s.ledger c.key)).1.map fun m =>
                (c, m) }) := by
  rw [step]
  rcases closePosition_cases (A := A) s.ledger c with ⟨e, he⟩ | ⟨-, hok⟩
  · rw [he]
    exact .inl ⟨⟨e, rfl⟩, rfl⟩
  · rw [hok]
    exact .inr ⟨rfl, rfl⟩

/-- first in, first out: by the opening time, and by the order of the opens where that is the
same -/
def Before (a b : LotData) : Prop := a.openedAt < b.openedAt ∨ a.openedAt = b.openedAt ∧
    a.number < b.number

def Apart (s : LedgerRun) : LedgerCall → Prop
  | .openLot asset side _ _ _ _ openedAt => ∀ lot ∈ queue s.ledger (asset, side),
    lot.openedAt ≠ openedAt
  | .closePosition _ => True
  | .reload => True

/-- the lots wait in order, and no two of a queue were opened at one time -/
structure Waits (s : LedgerRun) : Prop where
  ordered : Ordered s.ledger s.opened.length
  apart : ∀ key, ((queue s.ledger key).map (·.openedAt)).Nodup

theorem Waits.step (h : s.Waits) {call : LedgerCall} (hcall : s.Apart call) :
    (s.step A call).Waits := by
  cases call with
  | openLot asset side size entryPrice entryFees strategyId openedAt =>
    rcases step_open (A := A) (s := s) asset side size entryPrice entryFees strategyId
      openedAt with hs | ⟨-, hs⟩
    · rw [hs]
      exact h
    · rw [hs]
      refine ⟨?_, fun key => ?_⟩
      · rw [List.length_append, List.length_singleton]
        exact Ordered.openLot (s.newLot asset side size entryPrice entryFees strategyId openedAt)
          h.ordered
      · rw [queue_set]
        split_ifs with hk
        · rw [((byOpenedAt_perm _).map _).nodup_iff, List.map_cons, List.nodup_cons]
          refine ⟨fun hmem => ?_, h.apart _⟩
          obtain ⟨lot, hlot, heq⟩ := List.mem_map.mp hmem
          exact hcall lot hlot heq
        · exact h.apart key
  | closePosition c =>
    rcases step_close (A := A) (s := s) c with ⟨-, hs⟩ | ⟨-, hs⟩
    · rw [hs]
      exact h
    · rw [hs]
      refine ⟨h.ordered.close, fun key => ?_⟩
      rw [queue_set]
      split_ifs with hk
      · exact (h.apart _).sublist (consume_sublist (·.openedAt) (fun _ _ => rfl) _ _)
      · exact h.apart key
  | reload =>
    have hqueue : ∀ key, queue (loadLots .empty s.ledger.openLots) key = queue s.ledger key :=
      fun key => queue_reload h.ordered (h.apart key)
    refine ⟨⟨fun key => ?_, fun key => ?_, fun key => ?_, fun key => ?_⟩, fun key => ?_⟩
    all_goals
      show _
      simp only [LedgerRun.step, hqueue]
    · exact h.ordered.keyed key
    · exact h.ordered.sorted key
    · exact h.ordered.nodup key
    · exact h.ordered.number_lt key
    · exact h.apart key

theorem waits_start : start.Waits :=
  ⟨⟨fun _ _ h => (nomatch h), fun _ => .nil, fun _ => .nil, fun _ _ h => (nomatch h)⟩,
    fun _ => .nil⟩

end LedgerRun

/-! ### two lots of one time -/

namespace Demo
open LedgerRun FifoLedger

def coinBought (price : ℚ) (openedAt : Time) : LedgerCall :=
  .openLot "BTCUSDT" "long" 1 price 0 "s" openedAt

def coinSold : CloseOrder := ⟨"BTCUSDT", "long", 1, 250, 0, 0, 1, 10⟩

end Demo

end Maais
