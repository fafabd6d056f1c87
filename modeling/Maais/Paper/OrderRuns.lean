import Maais.Lib.Run
import Maais.Paper.Orders

/-!
# The life of a paper order

The transitions of an order are called in any order; one that raises leaves the order as it is.

* `Moved`  what a transition that returned did: one more event, from a status that is not terminal;
* `Booked`  the events are numbered from one on, and the filled quantity is what the fills brought;
* `order_lives`  so it is in every run, events are only added, and a terminal status is the last
  one.
-/

namespace Maais
open Lib

inductive OrderAct
  | authorize (eventAt : Time)
  | accept (eventAt : Time)
  | applyFill (quantity : ℚ) (eventAt : Time)
  | cancel (eventAt : Time)
  | expire (eventAt : Time)
  | reject (eventAt : Time) (reason : String)

def OrderPayload.fill : OrderPayload → ℚ
  | .filled quantity _ => quantity
  | _ => 0

namespace PaperOrder

section
variable (A : Arith) (o : PaperOrder)

def cancel (eventAt : Time) : Py PaperOrder :=
  o.transition .canceled "order.canceled" eventAt .value

def expire (eventAt : Time) : Py PaperOrder := o.transition .expired "order.expired" eventAt .value

def reject (eventAt : Time) (reason : String) : Py PaperOrder := do
  raiseIf (reason = "") (.valueError "rejection reason is required")
  o.transition .rejected "order.rejected" eventAt (.rejected reason)

def call : OrderAct → Py PaperOrder
  | .authorize eventAt => o.authorize eventAt
  | .accept eventAt => o.accept eventAt
  | .applyFill quantity eventAt => o.applyFill A quantity eventAt
  | .cancel eventAt => o.cancel eventAt
  | .expire eventAt => o.expire eventAt
  | .reject eventAt reason => o.reject eventAt reason

def step (act : OrderAct) : PaperOrder :=
  match o.call A act with
  | .ok q => q
  | .error _ => o

end

variable {o q : PaperOrder} {e : OrderTransition}

/-! ## one transition -/

structure Moved (o q : PaperOrder) (e : OrderTransition) : Prop where
  going : ¬ o.status.terminal
  same : o.SameOrder q
  events : q.events = o.events ++ [e]
  sequence : e.sequence = o.version + 1
  version : q.version = o.version + 1
  filled : q.filledQuantity = o.filledQuantity + e.payload.fill
  status : e.payload.fill = 0 ∧ q.status ≠ .filled ∨
    0 < e.payload.fill ∧ q.filledQuantity ≤ o.quantity ∧
    (q.status = .filled ↔ q.filledQuantity = o.quantity)

theorem transition_moved {status : PaperOrderStatus} {name : String} {t : Time}
    {payload : OrderPayload} (h : o.transition status name t payload = .ok q)
    (hfill : payload.fill = 0) (hs : status ≠ .filled) :
    o.Moved q ⟨o.version + 1, name, t, payload⟩ := by
  simp only [transition, bind_eq_ok, raiseIf_eq_ok, pure_ok_iff] at h
  obtain ⟨_, hgoing, rfl⟩ := h
  refine ⟨hgoing, ⟨rfl, rfl, rfl, rfl, rfl, rfl, rfl, rfl, rfl⟩, rfl, rfl, rfl, ?_,
    Or.inl ⟨hfill, hs⟩⟩
  show o.filledQuantity = o.filledQuantity + payload.fill
  rw [hfill, add_zero]

theorem applyFill_moved {n : ℚ} {t : Time} (h : o.applyFill .exact n t = .ok q) :
    ∃ e, o.Moved q e := by
  simp only [applyFill, requirePositiveDecimal, transition, bind_eq_ok, raiseIf_eq_ok, pure_eq_ok,
    Except.ok.injEq] at h
  obtain ⟨_, _, _, hn, _, hle, _, ⟨_, hgoing, rfl⟩, rfl⟩ := h
  refine ⟨_, hgoing, ⟨rfl, rfl, rfl, rfl, rfl, rfl, rfl, rfl, rfl⟩, rfl, rfl, rfl, rfl,
    Or.inr ⟨?_, ?_, ?_⟩⟩
  · exact not_le.mp hn
  · have hrest : n ≤ o.quantity - o.filledQuantity := not_lt.mp hle
    show o.filledQuantity + n ≤ o.quantity
    linarith
  · show (if _ = o.quantity then PaperOrderStatus.filled else .partiallyFilled) = .filled ↔ _
    split
    · rename_i heq
      exact iff_of_true rfl heq
    · rename_i hne
      exact iff_of_false (by decide) hne

theorem step_cases (o : PaperOrder) (act : OrderAct) : o.step .exact act = o ∨
    ∃ e, o.Moved (o.step .exact act) e := by
  cases h : o.call .exact act with
  | error e => exact Or.inl (by rw [step, h])
  | ok q =>
    rw [show o.step .exact act = q by rw [step, h]]
    right
    cases act with
    | authorize t =>
      simp only [call, authorize, bind_eq_ok] at h
      obtain ⟨_, _, h⟩ := h
      exact ⟨_, transition_moved h rfl (by decide)⟩
    | accept t =>
      simp only [call, accept, bind_eq_ok] at h
      obtain ⟨_, _, h⟩ := h
      exact ⟨_, transition_moved h rfl (by decide)⟩
    | applyFill n t => exact applyFill_moved h
    | cancel t => exact ⟨_, transition_moved h rfl (by decide)⟩
    | expire t => exact ⟨_, transition_moved h rfl (by decide)⟩
    | reject t reason =>
      simp only [call, reject, bind_eq_ok] at h
      obtain ⟨_, _, h⟩ := h
      exact ⟨_, transition_moved h rfl (by decide)⟩

/-! ## runs -/

structure Booked (o : PaperOrder) : Prop where
  numbered : o.events.map (·.sequence) = (List.range o.version).map (· + 1)
  filled : o.filledQuantity = (o.events.map (·.payload.fill)).sum
  nonneg : 0 ≤ o.filledQuantity
  bounded : o.filledQuantity ≤ o.quantity
  done : o.status = .filled ↔ o.filledQuantity = o.quantity

theorem Booked.moved (h : o.Booked) (hm : o.Moved q e) : q.Booked := by
  have hnumbered : q.events.map (·.sequence) = (List.range q.version).map (· + 1) := by
    rw [hm.events, hm.version, List.range_succ, List.map_append, List.map_append, h.numbered]
    simp [hm.sequence]
  have hfilled : q.filledQuantity = (q.events.map (·.payload.fill)).sum := by
    rw [hm.filled, hm.events, List.map_append, List.sum_append, h.filled]
    simp
  have hnonneg := h.nonneg
  have hbounded := h.bounded
  have hsum := hm.filled
  obtain ⟨hzero, hs⟩ | ⟨hpos, hle, hs⟩ := hm.status
  · -- the order was not filled before, for its status was not terminal
    have hopen : o.filledQuantity ≠ o.quantity := fun heq => hm.going (Or.inl (h.done.mpr heq))
    rw [hzero, add_zero] at hsum
    rw [← hm.same.quantity] at hbounded hopen
    refine ⟨hnumbered, hfilled, ?_, ?_, iff_of_false hs ?_⟩ <;> rw [hsum] <;> assumption
  · rw [← hm.same.quantity] at hle hs
    exact ⟨hnumbered, hfilled, by linarith, hle, hs⟩

structure Lives (o q : PaperOrder) : Prop where
  same : o.SameOrder q
  events : o.events <+: q.events
  final : o.status.terminal → q = o

theorem Lives.refl (o : PaperOrder) : o.Lives o :=
  ⟨⟨rfl, rfl, rfl, rfl, rfl, rfl, rfl, rfl, rfl⟩, List.prefix_rfl, fun _ => rfl⟩

theorem Lives.step (h : o.Lives q) (act : OrderAct) : o.Lives (q.step .exact act) := by
  obtain heq | ⟨e, hm⟩ := step_cases q act
  · rwa [heq]
  · refine ⟨h.same.trans hm.same, h.events.trans ⟨[e], hm.events.symm⟩, fun hterminal => ?_⟩
    exact absurd (h.final hterminal ▸ hterminal) hm.going

theorem Booked.step (h : o.Booked) (act : OrderAct) : (o.step .exact act).Booked := by
  obtain heq | ⟨e, hm⟩ := step_cases o act
  · rwa [heq]
  · exact h.moved hm

/-- **the life of an order**, whatever is called: it is filled exactly when nothing is left of it -/
theorem order_lives {orderId experimentId proposalId : UUID} {clientOrderId symbol : String}
    {commandHash : CommandContent} {side : PaperOrderSide} {orderType : PaperOrderType}
    {effect : PositionEffect} {n openQuantity : ℚ} {limitPrice : Option ℚ} {reduceOnly : Bool}
    {t u : Time}
    (hc : create orderId experimentId proposalId clientOrderId commandHash symbol side orderType
      effect n limitPrice reduceOnly openQuantity t u = .ok o) (before after : List OrderAct) :
    (run (step .exact) o before).Booked ∧
      (run (step .exact) o before).Lives (run (step .exact) o (before ++ after)) := by
  have hbooked : o.Booked := by
    simp only [create, requirePositiveDecimal, bind_eq_ok, raiseIf_eq_ok, pure_ok_iff] at hc
    obtain ⟨_, _, _, hn, _, _, _, _, rfl⟩ := hc
    have hpos : 0 < n := not_le.mp hn
    refine ⟨rfl, by simp [OrderPayload.fill], le_refl _, hpos.le, iff_of_false ?_ hpos.ne⟩
    show PaperOrderStatus.created ≠ .filled
    decide
  refine ⟨run_inv _ (fun _ act h => h.step act) hbooked before, ?_⟩
  rw [run_append]
  exact run_inv _ (fun _ act h => h.step act) (.refl _) after

end PaperOrder

namespace Demo

def twoAsked : Py PaperOrder :=
  PaperOrder.create ⟨"order"⟩ ⟨"experiment"⟩ ⟨"proposal"⟩ "client"
    (.exit ⟨"position"⟩ ⟨"plan"⟩ 1 .stop 2 0) "BTCUSDT" .sell .market .reduce 2 none true 2 1 9

/-- cancelled after one of the two was filled -/
theorem twoAsked_booked : ∃ o, twoAsked = .ok o ∧
    (run (PaperOrder.step .exact) o [.authorize 2, .accept 3, .applyFill 1 4,
    .cancel 5]).Booked := by
  obtain ⟨o, ho⟩ : ∃ o, twoAsked = .ok o := ⟨_, rfl⟩
  exact ⟨o, ho, (PaperOrder.order_lives ho _ []).1⟩

end Demo

end Maais
