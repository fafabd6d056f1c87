import Maais.Compliance.FifoLedger

/-!
# What the compliance ledger adds up to

In exact arithmetic the shares of a close add up to the amounts they were taken from, and what was
matched of a lot is what is missing from it.

* `takenOf`, `consume_after`  what the matches of a close take from every lot is what is missing
  from its queue;
* `consume_sum`  they take the whole size;
* `Accounted`  the lots that wait are those that were opened, less what was taken from them;
* `closes_account`  the books of every run of opens and closes.
-/

namespace Maais
open Lib FifoLedger

def takenOf (number : ℕ) (ms : List LotMatch) : ℚ :=
  ((ms.filter (·.lot.number = number)).map (·.matched)).sum

section takenOf
variable {n : ℕ} {m : LotMatch} {ms ms' : List LotMatch}

theorem takenOf_append : takenOf n (ms ++ ms') = takenOf n ms + takenOf n ms' := by
  rw [takenOf, List.filter_append, List.map_append, List.sum_append, takenOf, takenOf]

theorem takenOf_cons_self :
    takenOf m.lot.number (m :: ms) = m.matched + takenOf m.lot.number ms := by
  rw [takenOf, List.filter_cons_of_pos (by simp), List.map_cons, List.sum_cons, takenOf]

theorem takenOf_cons_of_ne (h : m.lot.number ≠ n) : takenOf n (m :: ms) = takenOf n ms := by
  rw [takenOf, List.filter_cons_of_neg (by simpa using h), takenOf]

theorem takenOf_eq_zero (h : ∀ m ∈ ms, m.lot.number ≠ n) : takenOf n ms = 0 := by
  rw [takenOf, List.filter_eq_nil_iff.mpr fun m hm => by simpa using h m hm]
  rfl

end takenOf

/-! ## one close -/

section close
variable {c : CloseOrder}

def left (ms : List LotMatch) (lot : LotData) : Option LotData :=
  let remainingSize := lot.remainingSize - takenOf lot.number ms
  if remainingSize = 0 then none else some { lot with remainingSize }

theorem consume_mem {A : Arith} (q : List LotData) (rc : ℚ) :
    ∀ m ∈ (consume A c rc q).1, m.lot ∈ q ∧ ∃ rc', m = lotMatch A c m.lot rc' := by
  induction q generalizing rc with
  | nil => exact fun m hm => by cases hm
  | cons lot q ih =>
    simp only [consume]
    split_ifs with hrc hused
    · intro m hm
      rcases List.mem_cons.mp hm with rfl | hm
      · exact ⟨List.mem_cons_self, rc, rfl⟩
      · obtain ⟨hmem, hm'⟩ := ih _ m hm
        exact ⟨List.mem_cons_of_mem lot hmem, hm'⟩
    · intro m hm
      rw [List.mem_singleton] at hm
      exact ⟨hm ▸ List.mem_cons_self, rc, hm ▸ rfl⟩
    · exact fun m hm => by cases hm

variable {q : List LotData}

theorem filterMap_left_of_ne {ms : List LotMatch} (hpos : ∀ l ∈ q, 0 < l.remainingSize)
    (hne : ∀ l ∈ q, takenOf l.number ms = 0) : q.filterMap (left ms) = q := by
  rw [← List.filterMap_some (l := q), List.filterMap_filterMap]
  refine List.filterMap_congr fun l hl => ?_
  rw [Option.bind_some, left, hne l hl, sub_zero, if_neg (hpos l hl).ne']

/-- the turn of the loop at a lot: it is used up and the loop goes on, or it takes all that was
left, or nothing was left -/
theorem consume_cons (lot : LotData) (q : List LotData) (rc : ℚ) :
    let m := lotMatch .exact c lot rc
    (0 < rc ∧ m.matched = lot.remainingSize ∧ lot.remainingSize ≤ rc ∧
        consume .exact c rc (lot :: q) =
          (m :: (consume .exact c (rc - lot.remainingSize) q).1,
          (consume .exact c (rc - lot.remainingSize) q).2)) ∨
      (0 < rc ∧ m.matched = rc ∧ rc < lot.remainingSize ∧
        consume .exact c rc (lot :: q) =
        ([m], { lot with remainingSize := lot.remainingSize - rc } :: q)) ∨
      (rc ≤ 0 ∧ consume .exact c rc (lot :: q) = ([], lot :: q)) := by
  intro m
  by_cases hrc : 0 < rc
  · rcases le_or_gt lot.remainingSize rc with hle | hlt
    · have hm : m.matched = lot.remainingSize := min_eq_left hle
      have hused : Arith.exact.sub lot.remainingSize m.matched =
        0 := by rw [Arith.exact_sub, hm, sub_self]
      refine .inl ⟨hrc, hm, hle, ?_⟩
      rw [consume, if_pos hrc, if_pos hused, ← hm]
      rfl
    · have hm : m.matched = rc := min_eq_right hlt.le
      have hpart : Arith.exact.sub lot.remainingSize m.matched =
        lot.remainingSize - rc := by rw [Arith.exact_sub, hm]
      refine .inr (.inl ⟨hrc, hm, hlt, ?_⟩)
      rw [consume, if_pos hrc]
      show (if Arith.exact.sub lot.remainingSize m.matched = 0 then _ else _) = _
      rw [hpart, if_neg (sub_pos.mpr hlt).ne']
  · exact .inr (.inr ⟨not_lt.mp hrc, by rw [consume, if_neg hrc]⟩)

/-- **what the matches take from every lot is missing from it** -/
theorem consume_after (hnodup : (q.map (·.number)).Nodup) (hpos : ∀ l ∈ q, 0 < l.remainingSize)
    (rc : ℚ) : (consume .exact c rc q).2 = q.filterMap (left (consume .exact c rc q).1) ∧
      ∀ l ∈ q, takenOf l.number (consume .exact c rc q).1 ≤ l.remainingSize := by
  induction q generalizing rc with
  | nil => exact ⟨rfl, fun l hl => nomatch hl⟩
  | cons lot q ih =>
    rw [List.map_cons, List.nodup_cons] at hnodup
    have hrest : ∀ l ∈ q, 0 < l.remainingSize := fun l hl => hpos l (List.mem_cons_of_mem lot hl)
    have hother : ∀ l ∈ q, lot.number ≠ l.number :=
      fun l hl heq => hnodup.1 (heq ▸ List.mem_map_of_mem hl)
    rcases consume_cons (c := c) lot q rc with ⟨-, hm, -, h⟩ | ⟨-, hm, hlt, h⟩ | ⟨-, h⟩
    · -- the lot is used up, and the loop goes on behind it
      rw [h]
      obtain ⟨hafter, htaken⟩ := ih hnodup.2 hrest (rc - lot.remainingSize)
      have hself :
        takenOf lot.number
        (lotMatch .exact c lot rc :: (consume .exact c (rc - lot.remainingSize) q).1) =
          lot.remainingSize := by
        have hzero : takenOf lot.number (consume .exact c (rc - lot.remainingSize) q).1 = 0 :=
          takenOf_eq_zero fun m hmem heq => hother _ (consume_mem q _ m hmem).1 heq.symm
        refine (takenOf_cons_self (m := lotMatch .exact c lot rc)).trans ?_
        rw [hm]
        exact (congrArg (lot.remainingSize + ·) hzero).trans (add_zero _)
      have hsame : ∀ l ∈ q,
          takenOf l.number
          (lotMatch .exact c lot rc :: (consume .exact c (rc - lot.remainingSize) q).1) =
          takenOf l.number (consume .exact c (rc - lot.remainingSize) q).1 :=
          fun l hl => takenOf_cons_of_ne (hother l hl)
      constructor
      · rw [List.filterMap_cons_none (by rw [left, hself, sub_self, if_pos rfl])]
        exact hafter.trans (List.filterMap_congr fun l hl => by rw [left, left, hsame l hl])
      · intro l hl
        rcases List.mem_cons.mp hl with rfl | hl
        · exact hself.le
        · exact (hsame l hl).trans_le (htaken l hl)
    · rw [h]
      have hself : takenOf lot.number [lotMatch .exact c lot rc] = rc :=
        (takenOf_cons_self (m := lotMatch .exact c lot rc)).trans
          (by rw [hm, takenOf_eq_zero (by simp), add_zero])
      have hzero : ∀ l ∈ q, takenOf l.number [lotMatch .exact c lot rc] = 0 := fun l hl =>
        (takenOf_cons_of_ne (hother l hl)).trans (takenOf_eq_zero (by simp))
      constructor
      · rw [List.filterMap_cons_some (by rw [left, hself, if_neg (sub_pos.mpr hlt).ne']),
          filterMap_left_of_ne hrest hzero]
      · intro l hl
        rcases List.mem_cons.mp hl with rfl | hl
        · exact hself.trans_le hlt.le
        · exact (hzero l hl).trans_le (hrest l hl).le
    · rw [h]
      exact ⟨(filterMap_left_of_ne hpos fun l _ => takenOf_eq_zero (by simp)).symm,
        fun l hl => (hpos l hl).le⟩

theorem consume_sum (hpos : ∀ l ∈ q, 0 < l.remainingSize) {rc : ℚ} (hrc : 0 ≤ rc) :
    ((consume .exact c rc q).1.map (·.matched)).sum = min rc ((q.map (·.remainingSize)).sum) := by
  induction q generalizing rc with
  | nil => exact (min_eq_right hrc).symm
  | cons lot q ih =>
    have hrest : ∀ l ∈ q, 0 < l.remainingSize := fun l hl => hpos l (List.mem_cons_of_mem lot hl)
    have htotal : 0 ≤ (q.map (·.remainingSize)).sum := List.sum_nonneg fun x hx => by
      obtain ⟨l, hl, rfl⟩ := List.mem_map.mp hx
      exact (hrest l hl).le
    have hlot := hpos lot List.mem_cons_self
    rw [List.map_cons, List.sum_cons]
    rcases consume_cons (c := c) lot q rc with ⟨-, hm, hle, h⟩ | ⟨-, hm, hlt, h⟩ | ⟨hzero, h⟩
    · rw [h, List.map_cons, List.sum_cons, hm, ih hrest (sub_nonneg.mpr hle), ← min_add_add_left,
        add_sub_cancel]
    · rw [h, List.map_singleton, List.sum_singleton, hm, min_eq_left (by linarith)]
    · rw [h, le_antisymm hzero hrc, min_eq_left (by linarith)]
      rfl

end close

/-! ## runs -/

namespace LedgerRun

def matchesOf (s : LedgerRun) : List LotMatch := s.closed.map (·.2)

def remainingOf (s : LedgerRun) (lot : LotData) : ℚ :=
  ((queue s.ledger lot.key).find? (·.number = lot.number)).elim 0 (·.remainingSize)

def entryFeesOf (s : LedgerRun) (number : ℕ) : ℚ :=
  ((s.matchesOf.filter (·.lot.number = number)).map (·.allocatedEntryFees)).sum

def records (s : LedgerRun) : List TradeRecordData := s.closed.map fun x => x.2.record .exact x.1

def cashFlow (x : CloseOrder × LotMatch) : ℚ :=
  let bought := if x.1.side = "long" then x.2.lot.entryPrice else x.1.exitPrice
  let sold := if x.1.side = "long" then x.1.exitPrice else x.2.lot.entryPrice
  sold * x.2.matched - bought * x.2.matched

def Plain : LedgerCall → Prop
  | .openLot _ _ _ _ _ _ _ => True
  | .closePosition c => 0 < c.closeSize
  | .reload => False

structure Accounted (s : LedgerRun) : Prop where
  ordered : Ordered s.ledger s.opened.length
  opened_lt : ∀ o ∈ s.opened, o.number < s.opened.length
  opened_pos : ∀ o ∈ s.opened, 0 < o.originalSize
  told : ∀ o ∈ s.opened, ∀ o' ∈ s.opened, o.number = o'.number → o = o'
  waiting : ∀ key, ∀ l ∈ queue s.ledger key, ∃ o ∈ s.opened,
    l = { o with remainingSize := o.originalSize - takenOf o.number s.matchesOf } ∧
    0 < l.remainingSize
  gone : ∀ o ∈ s.opened, (∃ l ∈ queue s.ledger o.key, l.number = o.number) ∨
    takenOf o.number s.matchesOf = o.originalSize
  shares : ∀ m ∈ s.matchesOf, ∃ o ∈ s.opened, o.number = m.lot.number ∧
    m.allocatedEntryFees = o.entryFees * (m.matched / o.originalSize)

variable {s : LedgerRun}

theorem accounted_start : start.Accounted where
  ordered := waits_start.ordered
  opened_lt := fun _ h => nomatch h
  opened_pos := fun _ h => nomatch h
  told := fun _ h => nomatch h
  waiting := fun _ _ h => nomatch h
  gone := fun _ h => nomatch h
  shares := fun _ h => nomatch h

variable {lot : LotData}

theorem Accounted.open_ (h : s.Accounted) (hnumber : lot.number = s.opened.length)
    (hsize : lot.remainingSize = lot.originalSize) (hpos : 0 < lot.originalSize) :
    Accounted { s with
      ledger := s.ledger.set lot.key (byOpenedAt (lot :: queue s.ledger lot.key)),
          opened := s.opened ++ [lot] } := by
  have hfresh : ∀ o ∈ s.opened, o.number ≠ lot.number := fun o ho => (hnumber ▸ h.opened_lt o ho).ne
  have hzero : takenOf lot.number s.matchesOf = 0 := takenOf_eq_zero fun m hm heq => by
    obtain ⟨o, ho, hom, -⟩ := h.shares m hm
    exact hfresh o ho (hom.trans heq)
  have hmem : ∀ {key : String × String} {l : LotData},
      l ∈ queue (s.ledger.set lot.key (byOpenedAt (lot :: queue s.ledger lot.key))) key ↔
        (key = lot.key ∧ l = lot) ∨ l ∈ queue s.ledger key := by
    intro key l
    rw [queue_set]
    split_ifs with hk
    · rw [(byOpenedAt_perm _).mem_iff, List.mem_cons, hk]
      tauto
    · tauto
  constructor
  · rw [List.length_append, List.length_singleton, ← hnumber]
    exact Ordered.openLot lot (hnumber ▸ h.ordered)
  · intro o ho
    rw [List.length_append, List.length_singleton]
    rcases List.mem_append.mp ho with ho | ho
    · exact (h.opened_lt o ho).trans (Nat.lt_succ_self _)
    · rw [List.mem_singleton.mp ho, hnumber]
      exact Nat.lt_succ_self _
  · intro o ho
    rcases List.mem_append.mp ho with ho | ho
    · exact h.opened_pos o ho
    · rw [List.mem_singleton.mp ho]
      exact hpos
  · intro o ho o' ho' heq
    rcases List.mem_append.mp ho with ho | ho <;> rcases List.mem_append.mp ho' with ho' | ho'
    · exact h.told o ho o' ho' heq
    · exact absurd (List.mem_singleton.mp ho' ▸ heq) (hfresh o ho)
    · exact absurd (List.mem_singleton.mp ho ▸ heq).symm (hfresh o' ho')
    · rw [List.mem_singleton.mp ho, List.mem_singleton.mp ho']
  · intro key l hl
    rcases hmem.mp hl with ⟨-, rfl⟩ | hl
    · refine ⟨l, List.mem_append_right _ List.mem_cons_self, ?_, hsize ▸ hpos⟩
      show l = { l with remainingSize := l.originalSize - takenOf l.number s.matchesOf }
      rw [hzero, sub_zero]
      exact (congrArg (fun r => { l with remainingSize := r }) hsize)
    · obtain ⟨o, ho, heq⟩ := h.waiting key l hl
      exact ⟨o, List.mem_append_left _ ho, heq⟩
  · intro o ho
    rcases List.mem_append.mp ho with ho | ho
    · rcases h.gone o ho with ⟨l, hl, heq⟩ | hgone
      · exact .inl ⟨l, hmem.mpr (.inr hl), heq⟩
      · exact .inr hgone
    · rw [List.mem_singleton.mp ho]
      exact .inl ⟨lot, hmem.mpr (.inl ⟨rfl, rfl⟩), rfl⟩
  · intro m hm
    obtain ⟨o, ho, hom⟩ := h.shares m hm
    exact ⟨o, List.mem_append_left _ ho, hom⟩

theorem Accounted.lot_eq (h : s.Accounted) {key : String × String} {l o : LotData}
    (hl : l ∈ queue s.ledger key) (ho : o ∈ s.opened) (hnumber : l.number = o.number) :
    l = { o with remainingSize := o.originalSize - takenOf o.number s.matchesOf } ∧
        0 < l.remainingSize ∧ o.key = key := by
  obtain ⟨o', ho', heq, hpos⟩ := h.waiting key l hl
  have hkey := h.ordered.keyed key l hl
  obtain rfl : o' = o := h.told o' ho' o ho (by rw [← hnumber, heq])
  exact ⟨heq, hpos, by rw [← hkey, heq]; rfl⟩

theorem Accounted.close (h : s.Accounted) (c : CloseOrder) :
    Accounted { s with
      ledger := s.ledger.set c.key (consume .exact c c.closeSize (queue s.ledger c.key)).2
      closed := s.closed ++ (consume .exact c c.closeSize (queue s.ledger c.key)).1.map fun m =>
          (c, m) } := by
  set q := queue s.ledger c.key with hq
  set ms := (consume .exact c c.closeSize q).1 with hms
  have hpos : ∀ l ∈ q, 0 < l.remainingSize := fun l hl => by
    obtain ⟨-, -, -, hpos⟩ := h.waiting _ l hl
    exact hpos
  obtain ⟨hafter, htaken⟩ := consume_after (c := c) (h.ordered.nodup c.key) hpos c.closeSize
  have hmatches : (s.closed ++ ms.map fun m => (c, m)).map (·.2) = s.matchesOf ++ ms := by
    rw [List.map_append, List.map_map]
    exact congrArg (s.matchesOf ++ ·) (List.map_id ms)
  have hlot : ∀ m ∈ ms, m.lot ∈ q := fun m hm => (consume_mem q _ m hm).1
  constructor
  · exact h.ordered.close
  · exact h.opened_lt
  · exact h.opened_pos
  · exact h.told
  · intro key l hl
    show ∃ o ∈ s.opened, l = { o with remainingSize := o.originalSize - takenOf o.number _ } ∧ _
    rw [matchesOf, hmatches]
    rw [queue_set] at hl
    split_ifs at hl with hk
    · -- what the close left of a lot of its queue
      rw [hafter, List.mem_filterMap] at hl
      obtain ⟨lot, hlotq, hleft⟩ := hl
      obtain ⟨o, ho, heq, -⟩ := h.waiting _ lot hlotq
      rw [left] at hleft
      split_ifs at hleft with hnone
      have hnumber : lot.number = o.number := by rw [heq]
      have hrem : lot.remainingSize = o.originalSize - takenOf o.number s.matchesOf := by rw [heq]
      refine ⟨o, ho, ?_, ?_⟩
      · rw [← Option.some.inj hleft, takenOf_append, hnumber, hrem, heq, sub_sub]
      · rw [← Option.some.inj hleft]
        exact lt_of_le_of_ne (sub_nonneg.mpr (htaken lot hlotq)) (Ne.symm hnone)
    · obtain ⟨o, ho, heq, hlpos⟩ := h.waiting key l hl
      refine ⟨o, ho, ?_, hlpos⟩
      rw [takenOf_append, @takenOf_eq_zero _ ms, add_zero]
      · exact heq
      · intro m hm hnumber
        have hokey := (h.lot_eq (hlot m hm) ho hnumber).2.2
        exact hk ((h.lot_eq hl ho (by rw [heq])).2.2.symm.trans hokey)
  · intro o ho
    show (∃ l ∈ queue (s.ledger.set c.key _) o.key, l.number = o.number) ∨ takenOf o.number _ = _
    rw [matchesOf, hmatches, takenOf_append, queue_set]
    by_cases hwait : ∃ l ∈ queue s.ledger o.key, l.number = o.number
    · obtain ⟨l, hl, hnumber⟩ := hwait
      split_ifs with hk
      · have hlq : l ∈ q := by rw [hq, ← hk]; exact hl
        obtain ⟨heq, -, -⟩ := h.lot_eq hl ho hnumber
        have hrem : l.remainingSize = o.originalSize - takenOf o.number s.matchesOf := by rw [heq]
        by_cases hnone : l.remainingSize - takenOf l.number ms = 0
        · refine .inr ?_
          rw [hnumber] at hnone
          linarith
        · refine .inl ⟨{ l with remainingSize := l.remainingSize - takenOf l.number ms }, ?_,
            hnumber⟩
          rw [hafter, List.mem_filterMap]
          exact ⟨l, hlq, by rw [left, if_neg hnone]⟩
      · exact .inl ⟨l, hl, hnumber⟩
    · refine .inr ?_
      rw [(h.gone o ho).resolve_left hwait, @takenOf_eq_zero _ ms, add_zero]
      intro m hm hnumber
      obtain ⟨-, -, hokey⟩ := h.lot_eq (hlot m hm) ho hnumber
      exact hwait ⟨m.lot, by rw [hokey]; exact hlot m hm, hnumber⟩
  · intro m hm
    rw [matchesOf, hmatches, List.mem_append] at hm
    rcases hm with hm | hm
    · exact h.shares m hm
    · obtain ⟨hmq, rc, hrc⟩ := consume_mem q _ m hm
      obtain ⟨o, ho, heq, -⟩ := h.waiting _ _ hmq
      refine ⟨o, ho, by rw [heq], ?_⟩
      have hshare : m.allocatedEntryFees =
        m.lot.entryFees * (m.matched / m.lot.originalSize) := by rw [hrc]; rfl
      rw [hshare, heq]

/-- what a call keeps: a close takes earlier lots first, its shares add up, and one that raises
changes nothing -/
def Kept (s : LedgerRun) : LedgerCall → Prop
  | .openLot _ _ _ _ _ _ _ => True
  | .closePosition c =>
    (∀ ms, (s.ledger.closePosition .exact c).2 = .ok ms →
      Exhausts .exact (fun a b => a.openedAt < b.openedAt) c.closeSize (queue s.ledger c.key)
          (queue (s.ledger.closePosition .exact c).1 c.key) ms ∧
        (ms.map fun m => (m.record .exact c).positionSize).sum = c.closeSize ∧
        (ms.map (·.allocatedExitFees)).sum = c.exitFees ∧
        (ms.map (·.allocatedFunding)).sum = c.fundingPaidReceived) ∧
      ∀ e, (s.ledger.closePosition .exact c).2 = .error e →
        (s.ledger.closePosition .exact c).1 = s.ledger
  | .reload => True

theorem Accounted.step (h : s.Accounted) {call : LedgerCall} (hcall : Plain call) :
    (s.step .exact call).Accounted := by
  cases call with
  | openLot asset side size entryPrice entryFees strategyId openedAt =>
    rcases step_open (A := .exact) (s := s) asset side size entryPrice entryFees strategyId
      openedAt with hs | ⟨hpos, hs⟩
    · rw [hs]
      exact h
    · rw [hs]
      exact h.open_ rfl rfl hpos
  | closePosition c =>
    rcases step_close (A := .exact) (s := s) c with ⟨-, hs⟩ | ⟨-, hs⟩
    · rw [hs]
      exact h
    · rw [hs]
      exact h.close c
  | reload => exact hcall.elim

theorem sum_shares {c : CloseOrder} {q : List LotData} (hsize : 0 < c.closeSize)
    (hpos : ∀ l ∈ q, 0 < l.remainingSize) (henough : c.closeSize ≤ (q.map (·.remainingSize)).sum)
    (total : ℚ) :
    ((consume .exact c c.closeSize q).1.map fun m => total * (m.matched / c.closeSize)).sum =
    total := by
  have hsum := consume_sum (c := c) hpos hsize.le
  rw [min_eq_left henough] at hsum
  have hshare :
      ((consume .exact c c.closeSize q).1.map fun m => total * (m.matched / c.closeSize)) =
      (consume .exact c c.closeSize q).1.map fun m => total / c.closeSize * m.matched :=
    List.map_congr_left fun m _ => by ring
  rw [hshare, List.sum_map_mul_left, hsum, div_mul_cancel₀ _ hsize.ne']

theorem Accounted.kept (h : s.Accounted) {call : LedgerCall} (hcall : Plain call) :
    s.Kept call := by
  cases call with
  | openLot _ _ _ _ _ _ _ => trivial
  | reload => trivial
  | closePosition c =>
    have hsize : 0 < c.closeSize := hcall
    have hpos : ∀ l ∈ queue s.ledger c.key, 0 < l.remainingSize := fun l hl => by
      obtain ⟨-, -, -, hpos⟩ := h.waiting _ l hl
      exact hpos
    rw [Kept]
    rcases closePosition_cases (A := .exact) s.ledger c with ⟨e, he⟩ | ⟨henough, hclose⟩
    · rw [he]
      exact ⟨fun ms hms => (by cases hms), fun _ _ => rfl⟩
    rw [hclose]
    rw [Arith.exact_sum] at henough
    refine ⟨fun ms hms => ?_, fun e he => (by cases he)⟩
    obtain rfl : _ = ms := Except.ok.inj hms
    have hmatch : ∀ m ∈ (consume .exact c c.closeSize (queue s.ledger c.key)).1,
        m.allocatedExitFees = c.exitFees * (m.matched / c.closeSize) ∧
          m.allocatedFunding = c.fundingPaidReceived * (m.matched / c.closeSize) := by
      intro m hm
      obtain ⟨-, rc, hrc⟩ := consume_mem _ _ m hm
      rw [hrc]
      exact ⟨rfl, rfl⟩
    refine ⟨?_, ?_, ?_, ?_⟩
    · rw [queue_set, if_pos rfl]
      refine consume_exhausts (fun l => lt_irrefl l.openedAt) ?_ (h.ordered.nodup c.key) _
      exact (h.ordered.sorted c.key).imp fun hab => not_lt.mpr hab
    · exact (consume_sum hpos hsize.le).trans (min_eq_left henough)
    · rw [List.map_congr_left fun m hm => (hmatch m hm).1]
      exact sum_shares hsize hpos henough _
    · rw [List.map_congr_left fun m hm => (hmatch m hm).2]
      exact sum_shares hsize hpos henough _

theorem Accounted.remainingOf (h : s.Accounted) (hlot : lot ∈ s.opened) :
    takenOf lot.number s.matchesOf = lot.originalSize - s.remainingOf lot := by
  unfold LedgerRun.remainingOf
  cases hfind : (queue s.ledger lot.key).find? (·.number = lot.number) with
  | none =>
    have hgone := (h.gone lot hlot).resolve_left fun ⟨l, hl, hnumber⟩ => by
      simpa [hnumber] using List.find?_eq_none.mp hfind l hl
    rw [hgone, Option.elim_none, sub_zero]
  | some l =>
    have hnumber : l.number = lot.number := by simpa using List.find?_some hfind
    obtain ⟨heq, -, -⟩ := h.lot_eq (List.mem_of_find?_eq_some hfind) hlot hnumber
    rw [Option.elim_some, heq, sub_sub_cancel]

theorem Accounted.entryFeesOf (h : s.Accounted) (hlot : lot ∈ s.opened) :
    s.entryFeesOf lot.number =
    lot.entryFees * (takenOf lot.number s.matchesOf / lot.originalSize) := by
  have hshare : ∀ m ∈ s.matchesOf.filter (·.lot.number = lot.number),
      m.allocatedEntryFees = lot.entryFees / lot.originalSize * m.matched := by
    intro m hm
    rw [List.mem_filter, decide_eq_true_eq] at hm
    obtain ⟨o, ho, hnumber, hshare⟩ := h.shares m hm.1
    obtain rfl : o = lot := h.told o ho lot hlot (hnumber.trans hm.2)
    rw [hshare]
    ring
  rw [LedgerRun.entryFeesOf, List.map_congr_left hshare, List.sum_map_mul_left, takenOf]
  ring

/-- the profit of records is what they paid and received, less the fees, with the funding -/
theorem sum_profitLoss (l : List (CloseOrder × LotMatch)) :
    (l.map fun x => (x.2.record .exact x.1).profitLoss).sum = (l.map cashFlow).sum -
      (l.map fun x => (x.2.record .exact x.1).fees).sum +
      (l.map fun x => (x.2.record .exact x.1).fundingPaidReceived).sum := by
  induction l with
  | nil => simp
  | cons x l ih =>
    have hx : (x.2.record .exact x.1).profitLoss = cashFlow x - (x.2.record .exact x.1).fees +
        (x.2.record .exact x.1).fundingPaidReceived := by
      simp only [LotMatch.record, pnl, cashFlow, Arith.exact_add, Arith.exact_sub, Arith.exact_mul]
      split_ifs <;> ring
    simp only [List.map_cons, List.sum_cons, ih, hx]
    ring

theorem closes_account (calls : List LedgerCall) (hplain : ∀ call ∈ calls, Plain call) :
    let s := Lib.run (LedgerRun.step .exact) start calls
    AllSteps (LedgerRun.step .exact) Kept start calls ∧
      (∀ lot ∈ s.opened, takenOf lot.number s.matchesOf = lot.originalSize - s.remainingOf lot ∧
        s.entryFeesOf lot.number =
        lot.entryFees * (takenOf lot.number s.matchesOf / lot.originalSize)) ∧
      (s.records.map (·.profitLoss)).sum =
        (s.closed.map cashFlow).sum - (s.records.map (·.fees)).sum +
        (s.records.map (·.fundingPaidReceived)).sum := by
  intro s
  have hcalls : ∀ {t : LedgerRun} {l : List LedgerCall}, (∀ call ∈ l, Plain call) →
      AllSteps (LedgerRun.step .exact) (fun _ call => Plain call) t l := by
    intro t l hl
    induction l generalizing t with
    | nil => trivial
    | cons call l ih =>
      exact ⟨hl call List.mem_cons_self, ih fun x hx => hl x (List.mem_cons_of_mem call hx)⟩
  have haccounted : s.Accounted :=
    run_inv_of _ (fun _ _ ht hcall => ht.step hcall) accounted_start (hcalls hplain)
  refine ⟨AllSteps.of_inv _ (fun _ _ ht hcall => ht.step hcall) (fun _ _ ht hcall => ht.kept hcall)
    accounted_start (hcalls hplain),
    fun lot hlot => ⟨haccounted.remainingOf hlot, haccounted.entryFeesOf hlot⟩, ?_⟩
  simp only [records, List.map_map]
  exact sum_profitLoss s.closed

end LedgerRun

namespace Demo
open LedgerRun

theorem halfSold_accounted :
    AllSteps (LedgerRun.step .exact) Kept start
      [coinBought 100 0, coinBought 200 1000000,
      .closePosition { coinSold with closeSize := 3 / 2 }] :=
  (closes_account _ (by
    intro call hcall
    simp only [List.mem_cons, List.not_mem_nil, or_false] at hcall
    rcases hcall with rfl | rfl | rfl
    · trivial
    · trivial
    · show (0 : ℚ) < 3 / 2
      norm_num)).1

end Demo

end Maais
