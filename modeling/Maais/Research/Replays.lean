import Maais.Lib.Run
import Maais.Market.Events
import Maais.Research.Desk

/-!
# A counterfactual and the events applied to it

Marks, closed bars and funding settlements are applied to a counterfactual as they come, some of
them more than once. A mark that changes nothing leaves no transition behind.

* `Tracked.Sound`  the outcomes, the excursions and the transitions, told from the marks and bars of
  a run;
* `Marked`, `Noted`  what a new mark, a counted bar and a funding settlement do;
* `applied_again`, `replays_settle`  an event that was applied leaves every later state alone, or is
  refused because another mark was recorded under its id;
* `selections_cover`  a mark that does not select a stored trade leaves it alone, and a trade
  selected for a settlement is still followed.
-/

namespace Maais
open Lib

/-! ## transitions and their sources -/

def CounterfactualObservation.price? : CounterfactualObservation → Option ℚ
  | .mark _ price => some price
  | .closedBar _ price _ _ => some price
  | .funding _ _ _ => none

def CounterfactualObservation.SameSource (o o' : CounterfactualObservation) : Prop :=
  o.eventType = o'.eventType ∧ o.marketEventId = o'.marketEventId

theorem CounterfactualObservation.mark_ne_closedBar (id id' : String) (price price' : ℚ)
    (direction : Direction) (approved : Bool) : ¬ SameSource (.mark id price)
    (.closedBar id' price' direction approved) := by
  intro h
  have hne : "counterfactual.mark_observed" ≠ "counterfactual.closed_bar_observed" := by decide
  exact hne h.1

theorem CounterfactualObservation.funding_ne_closedBar (id id' : String) (rate price price' : ℚ)
    (direction : Direction) (approved : Bool) :
    ¬ SameSource (.funding id rate price) (.closedBar id' price' direction approved) := by
  intro h
  have hne : "counterfactual.funding_applied" ≠ "counterfactual.closed_bar_observed" := by decide
  exact hne h.1

def CounterfactualTransition.Of (e : CounterfactualTransition)
    (o : CounterfactualObservation) : Prop :=
  e.payload.eventType = o.eventType ∧ e.payload.observation.map (·.marketEventId) =
    some o.marketEventId

instance CounterfactualTransition.Of.decidable (e : CounterfactualTransition)
    (o : CounterfactualObservation) : Decidable (e.Of o) := by
  unfold CounterfactualTransition.Of
  infer_instance

theorem CounterfactualPayload.eventType_of_observation {p : CounterfactualPayload}
    {o : CounterfactualObservation} (h : p.observation = some o) : p.eventType = o.eventType := by
  cases p <;> simp only [CounterfactualPayload.observation] at h <;> cases h <;> rfl

namespace CounterfactualTransition

variable {e : CounterfactualTransition} {o o' : CounterfactualObservation}

theorem of_iff : e.Of o ↔ ∃ o', e.payload.observation = some o' ∧ o'.SameSource o := by
  constructor
  · rintro ⟨htype, hid⟩
    obtain ⟨o', ho', hid'⟩ := Option.map_eq_some_iff.mp hid
    exact ⟨o', ho', (CounterfactualPayload.eventType_of_observation ho').symm.trans htype, hid'⟩
  · rintro ⟨o', ho', htype, hid⟩
    refine ⟨(CounterfactualPayload.eventType_of_observation ho').trans htype, ?_⟩
    rw [ho', Option.map_some, hid]

theorem of_observation (h : e.payload.observation = some o) : e.Of o := of_iff.mpr ⟨o, h, rfl, rfl⟩

theorem not_of_none (h : e.payload.observation = none) : ¬ e.Of o := by
  intro hof
  obtain ⟨o', ho', _⟩ := of_iff.mp hof
  rw [h] at ho'
  cases ho'

end CounterfactualTransition

def SourcesOnce (events : List CounterfactualTransition) : Prop :=
  ∀ o, (events.filter (fun e => e.Of o)).length ≤ 1

theorem SourcesOnce.nil : SourcesOnce [] := fun _ => Nat.zero_le _

variable {events : List CounterfactualTransition}

theorem SourcesOnce.plain (h : SourcesOnce events)
    {e : CounterfactualTransition} (he : e.payload.observation = none) :
    SourcesOnce (events ++ [e]) := by
  intro o
  rw [List.filter_append, List.filter_singleton,
    decide_eq_false (CounterfactualTransition.not_of_none he)]
  simpa using h o

theorem SourcesOnce.source (h : SourcesOnce events)
    {e : CounterfactualTransition} {o : CounterfactualObservation}
    (he : e.payload.observation = some o) (hnew : events.filter (fun e => e.Of o) = []) :
    SourcesOnce (events ++ [e]) := by
  intro o'
  rw [List.filter_append]
  by_cases hof : e.Of o'
  · -- the same source as `o`
    have hsame : ∀ x : CounterfactualTransition, x.Of o' ↔ x.Of o := by
      obtain ⟨o'', ho'', hs⟩ := CounterfactualTransition.of_iff.mp hof
      obtain rfl : o = o'' := Option.mem_unique he ho''
      intro x
      unfold CounterfactualTransition.Of
      rw [hs.1, hs.2]
    have hnone : events.filter (fun e => e.Of o') = [] := by
      simp only [hsame]
      exact hnew
    rw [hnone, List.filter_singleton, decide_eq_true hof]
    exact le_refl 1
  · rw [List.filter_singleton, decide_eq_false hof]
    simpa using h o'

namespace CounterfactualState

variable {A : Arith} {s t : CounterfactualState}

theorem sourceEvents_eq (s : CounterfactualState) (o : CounterfactualObservation) :
    s.sourceEvents o = s.events.filter (fun e => e.Of o) := rfl

theorem sourceEventExists_spec {o : CounterfactualObservation} {at' : Time} {allow seen : Bool}
    (h : s.sourceEventExists o at' allow = .ok seen) :
    seen = false ∧ s.sourceEvents o = [] ∨
      seen = true ∧ ∃ e, s.sourceEvents o = [e] ∧ (allow = false → e.eventAt = at') ∧
        e.payload.observation = some o := by
  unfold sourceEventExists at h
  split at h
  · rename_i hnone
    cases h
    exact Or.inl ⟨rfl, hnone⟩
  · rename_i e hone
    simp only [bind_eq_ok, raiseIf_eq_ok, not_or, not_and, ne_eq, not_not, pure_ok_iff] at h
    obtain ⟨_, ⟨hat, hcontent⟩, rfl⟩ := h
    exact Or.inr ⟨rfl, e, hone, hat, hcontent⟩
  · cases h

/-! ## what a call does -/

/-- a call records the observation once, at most with a resolution after it -/
def Grows (o : CounterfactualObservation) (at' : Time) (s t : CounterfactualState) : Prop :=
  ∃ new, t.events = s.events ++ new ∧ t.version = s.version + new.length ∧
    (new = [] ∨ ∃ m, m.payload.observation = some o ∧ m.eventAt = at' ∧
      (new = [m] ∨ ∃ r, r.payload.observation = none ∧ new = [m, r]))

section
variable {o : CounterfactualObservation} {at' : Time}

theorem Grows.refl : Grows o at' s s := ⟨[], (List.append_nil _).symm, rfl, Or.inl rfl⟩

theorem Grows.prefix' (h : Grows o at' s t) : s.events <+: t.events := by
  obtain ⟨new, he, _⟩ := h
  exact ⟨new, he.symm⟩

theorem Grows.length (h : Grows o at' s t) (hs : s.events.length = s.version) :
    t.events.length = t.version := by
  obtain ⟨new, he, hv, _⟩ := h
  rw [he, hv, List.length_append, hs]

theorem Grows.mem (h : Grows o at' s t) {e : CounterfactualTransition} (he : e ∈ t.events) :
    e ∈ s.events ∨ e.payload.observation = none ∨ e.payload.observation = some o ∧
    e.eventAt = at' := by
  obtain ⟨new, hevents, _, hnew⟩ := h
  rw [hevents] at he
  rcases List.mem_append.mp he with he | he
  · exact Or.inl he
  · refine Or.inr ?_
    obtain rfl | ⟨m, hm, hat, rfl | ⟨r, hr, rfl⟩⟩ := hnew
    · cases he
    · rw [List.mem_singleton.mp he]
      exact Or.inr ⟨hm, hat⟩
    · rcases List.mem_pair.mp he with rfl | rfl
      · exact Or.inr ⟨hm, hat⟩
      · exact Or.inl hr

theorem Grows.once (h : Grows o at' s t) (hs : SourcesOnce s.events)
    (hnew : s.sourceEvents o = []) : SourcesOnce t.events := by
  obtain ⟨new, hevents, _, hcase⟩ := h
  rw [hevents]
  obtain rfl | ⟨m, hm, _, rfl | ⟨r, hr, rfl⟩⟩ := hcase
  · rwa [List.append_nil]
  · exact hs.source hm hnew
  · have htwo : s.events ++ [m, r] = (s.events ++ [m]) ++ [r] := by simp
    rw [htwo]
    exact (hs.source hm hnew).plain hr

theorem Grows.sources (h : Grows o at' s t) {o' : CounterfactualObservation}
    (hne : ¬ o.SameSource o') : t.sourceEvents o' = s.sourceEvents o' := by
  have hother : ∀ m : CounterfactualTransition, m.payload.observation = some o → ¬ m.Of o' := by
    intro m hm hof
    obtain ⟨o'', ho'', hs⟩ := CounterfactualTransition.of_iff.mp hof
    obtain rfl : o = o'' := Option.mem_unique hm ho''
    exact hne hs
  obtain ⟨new, hevents, _, hcase⟩ := h
  have hnone : new.filter (fun e => e.Of o') = [] := by
    refine List.filter_eq_nil_iff.mpr fun e he => ?_
    rw [decide_eq_true_eq]
    obtain rfl | ⟨m, hm, _, rfl | ⟨r, hr, rfl⟩⟩ := hcase
    · cases he
    · rw [List.mem_singleton.mp he]
      exact hother m hm
    · rcases List.mem_pair.mp he with rfl | rfl
      · exact hother _ hm
      · exact CounterfactualTransition.not_of_none hr
  rw [sourceEvents_eq, sourceEvents_eq, hevents, List.filter_append, hnone, List.append_nil]

end

structure SameTrade (s t : CounterfactualState) : Prop where
  symbol : t.symbol = s.symbol
  experimentId : t.experimentId = s.experimentId
  direction : t.direction = s.direction
  quantity : t.quantity = s.quantity
  entryFill : t.entryFill = s.entryFill

theorem SameTrade.refl : SameTrade s s := ⟨rfl, rfl, rfl, rfl, rfl⟩

theorem SameTrade.grossPnl (h : SameTrade s t) (fill : PaperFill) (price : ℚ) :
    t.grossPnl A fill price = s.grossPnl A fill price := by
  unfold CounterfactualState.grossPnl
  rw [h.direction, h.quantity]

structure SameResult (s t : CounterfactualState) : Prop where
  status : t.status = s.status
  hypotheticalPnl : t.hypotheticalPnl = s.hypotheticalPnl
  hypotheticalExitReason : t.hypotheticalExitReason = s.hypotheticalExitReason
  favorable : t.maximumFavorableExcursion = s.maximumFavorableExcursion
  adverse : t.maximumAdverseExcursion = s.maximumAdverseExcursion

theorem SameResult.refl : SameResult s s := ⟨rfl, rfl, rfl, rfl, rfl⟩

theorem SameResult.trans {u : CounterfactualState} (h : SameResult s t) (g : SameResult t u) :
    SameResult s u :=
  ⟨g.status.trans h.status, g.hypotheticalPnl.trans h.hypotheticalPnl,
    g.hypotheticalExitReason.trans h.hypotheticalExitReason, g.favorable.trans h.favorable,
    g.adverse.trans h.adverse⟩

structure Marked (A : Arith) (s : CounterfactualState) (fill : PaperFill) (price : ℚ) (at' : Time)
    (id : String) (t : CounterfactualState) : Prop where
  trade : SameTrade s t
  grows : Grows (.mark id price) at' s t
  outcomes : t.outcomes = s.withOutcomes A fill price at'
  excursions : (t.maximumFavorableExcursion, t.maximumAdverseExcursion) =
    s.excursions A (s.grossPnl A fill price)
  status : t.status = s.status ∨ t.status = .resolved
  /-- a trade that is still open kept its plan, and the mark did not fire it -/
  still : t.status = .open → t.exitPlan = s.exitPlan ∧
    ∀ plan ∈ s.exitPlan, plan.markReason price = none
  planned : t.exitPlan ≠ none
  result : s.status = .resolved → SameResult s t

section
variable {fill : PaperFill} {plan : ExitPlan} {price : ℚ} {at' : Time} {id : String}
  {evaluation : Option ExitEvaluation}

theorem evaluateMark_spec (h : s.evaluateMark plan price at' = .ok evaluation) :
    evaluation.bind (·.intent) = none ∧ (evaluation.map ExitEvaluation.plan).getD plan = plan ∧
        (s.status = .open → plan.markReason price = none) ∨
      s.status = .open ∧ ∃ intent, evaluation.bind (·.intent) = some intent := by
  unfold evaluateMark at h
  split at h
  · rename_i hopen
    simp only [bind_eq_ok, pure_ok_iff] at h
    obtain ⟨e, he, rfl⟩ := h
    obtain ⟨_, _, ⟨hnone, rfl⟩ | ⟨reason, _, rfl⟩⟩ := ExitPlan.evaluateMark_cases he
    · exact Or.inl ⟨rfl, rfl, fun _ => hnone⟩
    · exact Or.inr ⟨hopen, _, rfl⟩
  · rename_i hopen
    cases h
    exact Or.inl ⟨rfl, rfl, fun h => absurd h hopen⟩

theorem Marked.unchanged (hplan : s.exitPlan = some plan)
    (hout : s.withOutcomes A fill price at' = s.outcomes)
    (hexc :
    s.excursions A (s.grossPnl A fill price) =
    (s.maximumFavorableExcursion, s.maximumAdverseExcursion)) (hreason : s.status = .open →
    plan.markReason price = none) : Marked A s fill price at' id s := by
  refine ⟨.refl, .refl, hout.symm, hexc.symm, Or.inl rfl, fun hopen => ⟨rfl, fun p hp => ?_⟩, ?_,
    fun _ => .refl⟩
  · obtain rfl : plan = p := Option.mem_unique hplan hp
    exact hreason hopen
  · rw [hplan]
    exact Option.some_ne_none plan

theorem resolved_excursions (hs : s.status = .resolved) (gross : ℚ) :
    s.excursions A gross = (s.maximumFavorableExcursion, s.maximumAdverseExcursion) := by
  rw [excursions, if_neg (by rw [hs]; exact nofun)]

theorem applyMark_marked (hplan : s.exitPlan = some plan)
    (he : s.evaluateMark plan price at' = .ok evaluation) :
    Marked A s fill price at' id (s.applyMark A fill plan price at' id evaluation) := by
  have hspec := evaluateMark_spec he
  unfold applyMark
  simp only
  split
  · rename_i hsame
    obtain ⟨hexc, hout, hintent⟩ := hsame
    obtain ⟨_, _, hreason⟩ | ⟨_, intent, hsome⟩ := hspec
    · exact Marked.unchanged hplan hout hexc hreason
    · rw [hintent] at hsome
      cases hsome
  · obtain ⟨hnone, hkept, hreason⟩ | ⟨hopen, intent, hsome⟩ := hspec
    · -- recorded, and the plan stays
      rw [hnone, hkept]
      refine ⟨⟨rfl, rfl, rfl, rfl, rfl⟩, ⟨[_], rfl, rfl, Or.inr ⟨_, rfl, rfl, Or.inl rfl⟩⟩, rfl,
        rfl, Or.inl rfl, fun hopen => ⟨hplan.symm, fun p hp => ?_⟩, Option.some_ne_none plan,
        fun hr => ⟨rfl, rfl, rfl, ?_, ?_⟩⟩
      · obtain rfl : plan = p := Option.mem_unique hplan hp
        exact hreason hopen
      · exact congrArg Prod.fst (resolved_excursions hr _)
      · exact congrArg Prod.snd (resolved_excursions hr _)
    · -- recorded and resolved
      rw [hsome]
      have htwo : ∀ (l : List CounterfactualTransition) (m r : CounterfactualTransition),
          (l ++ [m]) ++ [r] = l ++ [m, r] := fun l m r => List.append_assoc l [m] [r]
      refine ⟨⟨rfl, rfl, rfl, rfl, rfl⟩,
        ⟨[_, _], htwo _ _ _, rfl, Or.inr ⟨_, rfl, rfl, Or.inr ⟨_, rfl, rfl⟩⟩⟩, rfl,
        rfl, Or.inr rfl, (fun h => nomatch h), Option.some_ne_none _, fun hr => ?_⟩
      rw [hopen] at hr
      cases hr

theorem observeMark_spec (h : s.observeMark A price at' id = .ok t) :
    (s.status = .open ∨ s.status = .resolved) ∧ id ≠ "" ∧ 0 < price ∧
      (t = s ∧ s.Observed (.mark id price) at' ∨
        s.sourceEvents (.mark id price) = [] ∧ ∃ fill, s.entryFill = some fill ∧
        Marked A s fill price at' id t) := by
  simp only [observeMark, bind_eq_ok, raiseIf_eq_ok, not_not, requirePositiveDecimal_eq_ok] at h
  obtain ⟨_, hs, _, hid, _, hpos, seen, hseen, h⟩ := h
  refine ⟨hs, hid, hpos, ?_⟩
  obtain ⟨rfl, hnone⟩ | ⟨rfl, e, hone, hat, hcontent⟩ := sourceEventExists_spec hseen
  · simp only [Bool.false_eq_true, if_false, bind_eq_ok, orRaise_eq_ok, pure_ok_iff] at h
    obtain ⟨fill, hfill, plan, hplan, evaluation, he, rfl⟩ := h
    exact Or.inr ⟨hnone, fill, hfill, applyMark_marked hplan he⟩
  · cases h
    exact Or.inl ⟨rfl, e, hone, hat rfl, hcontent⟩

/-- **a transition that is no mark**: it leaves the outcomes, the excursions and the levels of the
plan alone -/
structure Noted (o : CounterfactualObservation) (at' : Time)
    (s t : CounterfactualState) : Prop where
  trade : SameTrade s t
  grows : Grows o at' s t
  grew : t.events ≠ s.events
  outcomes : t.outcomes = s.outcomes
  favorable : t.maximumFavorableExcursion = s.maximumFavorableExcursion
  adverse : t.maximumAdverseExcursion = s.maximumAdverseExcursion
  status : t.status = s.status ∨ t.status = .resolved
  still : t.status = .open → ∀ p ∈ s.exitPlan, p.status = .active →
    ∃ q, t.exitPlan = some q ∧ q.status = .active ∧ ∀ x, q.markReason x = p.markReason x
  planned : s.exitPlan ≠ none → t.exitPlan ≠ none
  result : s.status = .resolved → SameResult s t

theorem append_ne {l : List CounterfactualTransition} {e : CounterfactualTransition} :
    l ++ [e] ≠ l := by
  intro h
  have hlen : (l ++ [e]).length = l.length := congrArg List.length h
  rw [List.length_append, List.length_singleton] at hlen
  omega

variable {direction : Direction}

theorem countBar_noted {approved : Bool} (hopen : s.status = .open)
    (h : s.countBar A price direction approved at' id = .ok t) :
    Noted (.closedBar id price direction approved) at' s t := by
  have hnot : s.status ≠ .resolved := by rw [hopen]; exact nofun
  simp only [countBar, bind_eq_ok, orRaise_eq_ok] at h
  obtain ⟨plan, hplan, evaluation, he, h⟩ := h
  split at h
  · simp only [bind_eq_ok, pure_ok_iff] at h
    obtain ⟨_, _, rfl⟩ := h
    have htwo : ∀ (l : List CounterfactualTransition) (m r : CounterfactualTransition),
        (l ++ [m]) ++ [r] = l ++ [m, r] := fun l m r => List.append_assoc l [m] [r]
    refine ⟨⟨rfl, rfl, rfl, rfl, rfl⟩,
      ⟨[_, _], htwo _ _ _, rfl, Or.inr ⟨_, rfl, rfl, Or.inr ⟨_, rfl, rfl⟩⟩⟩, ?_, rfl,
      rfl, rfl, Or.inr rfl, (fun h => nomatch h), fun _ => Option.some_ne_none _, fun hr =>
      absurd hr hnot⟩
    intro heq
    have hlen := congrArg List.length heq
    simp only [close, advance, List.length_append, List.length_singleton] at hlen
    omega
  · rename_i hintent
    cases h
    refine ⟨⟨rfl, rfl, rfl, rfl, rfl⟩, ⟨[_], rfl, rfl, Or.inr ⟨_, rfl, rfl, Or.inl rfl⟩⟩, append_ne,
      rfl, rfl, rfl, Or.inl rfl, fun _ p hp ha => ⟨_, rfl, ?_⟩, fun _ => Option.some_ne_none _,
      fun hr => absurd hr hnot⟩
    obtain rfl : plan = p := Option.mem_unique hplan hp
    exact ExitPlan.observeClosedBar_quiet he hintent ha

theorem applyFunding_spec {rate : ℚ} (h : s.applyFunding A rate price at' id = .ok t) :
    (s.status = .open ∨ s.status = .resolved) ∧ id ≠ "" ∧ 0 < price ∧
      (t = s ∧ (∃ e, s.sourceEvents (.funding id rate price) = [e] ∧
          e.payload.observation = some (.funding id rate price)) ∨
        s.sourceEvents (.funding id rate price) = [] ∧ Noted (.funding id rate price) at' s t) := by
  simp only [applyFunding, bind_eq_ok, raiseIf_eq_ok, not_not, requirePositiveDecimal_eq_ok] at h
  obtain ⟨_, hs, _, hid, _, hpos, fill, hfill, _, _, seen, hseen, h⟩ := h
  refine ⟨hs, hid, hpos, ?_⟩
  obtain ⟨rfl, hnone⟩ | ⟨rfl, e, hone, _, hcontent⟩ := sourceEventExists_spec hseen
  · cases h
    exact Or.inr ⟨hnone, ⟨rfl, rfl, rfl, rfl, rfl⟩,
      ⟨[_], rfl, rfl, Or.inr ⟨_, rfl, rfl, Or.inl rfl⟩⟩, append_ne, rfl,
      rfl, rfl, Or.inl rfl, fun _ p hp ha => ⟨p, hp, ha, fun _ => rfl⟩, fun h => h,
      fun _ => ⟨rfl, rfl, rfl, rfl, rfl⟩⟩
  · cases h
    exact Or.inl ⟨rfl, e, hone, hcontent⟩

/-- **what a closed bar does**: it is known, or its mark is applied and, if that leaves the trade
open, it is counted -/
theorem observeClosedBar_spec {approved : Bool}
    (h : s.observeClosedBar A price direction approved at' id = .ok t) :
    id ≠ "" ∧
      (t = s ∧ s.Observed (.closedBar id price direction approved) at' ∨
        s.sourceEvents (.closedBar id price direction approved) = [] ∧
        ∃ u, s.observeMark A price at' id = .ok u ∧
        (u.status ≠ .open ∧ t = u ∨ u.status = .open ∧
          Noted (.closedBar id price direction approved) at' u t)) := by
  simp only [observeClosedBar, bind_eq_ok, raiseIf_eq_ok] at h
  obtain ⟨_, hid, seen, hseen, h⟩ := h
  refine ⟨hid, ?_⟩
  obtain ⟨rfl, hnone⟩ | ⟨rfl, e, hone, hat, hcontent⟩ := sourceEventExists_spec hseen
  · simp only [Bool.false_eq_true, if_false, bind_eq_ok] at h
    obtain ⟨u, hu, h⟩ := h
    refine Or.inr ⟨hnone, u, hu, ?_⟩
    split at h
    · rename_i hopen
      cases h
      exact Or.inl ⟨hopen, rfl⟩
    · rename_i hopen
      exact Or.inr ⟨not_not.mp hopen, countBar_noted (not_not.mp hopen) h⟩
  · cases h
    exact Or.inl ⟨rfl, e, hone, hat rfl, hcontent⟩

end

end CounterfactualState

/-! ## a counterfactual and what it was shown -/

inductive CounterfactualCall
  | enter (fill : PaperFill) (planId : UUID)
  | mark (markPrice : ℚ) (observedAt : Time) (marketEventId : String)
  | closedBar (markPrice : ℚ) (decisionDirection : Direction) (decisionApproved : Bool)
    (closedAt : Time) (marketEventId : String)
  | funding (rate markPrice : ℚ) (observedAt : Time) (marketEventId : String)

def CounterfactualState.call (A : Arith) (s : CounterfactualState) : CounterfactualCall →
    Py CounterfactualState
  | .enter fill planId => s.enter A fill planId
  | .mark price at' id => s.observeMark A price at' id
  | .closedBar price direction approved at' id =>
    s.observeClosedBar A price direction approved at' id
  | .funding rate price at' id => s.applyFunding A rate price at' id

structure Sighting where
  before : CounterfactualState
  markPrice : ℚ
  observedAt : Time

/-- what a horizon that is reached by a mark is recorded with -/
def Sighting.outcome (A : Arith) (x : Sighting) (fill : PaperFill) (h : Horizon) : HorizonOutcome :=
  ⟨h, x.observedAt, x.markPrice, x.before.netPnl A fill x.markPrice⟩

def CounterfactualCall.sightings (s : CounterfactualState) : CounterfactualCall → List Sighting
  | .mark price at' _ => [⟨s, price, at'⟩]
  | .closedBar price _ _ at' _ => [⟨s, price, at'⟩]
  | _ => []

/-- a counterfactual and the marks and bars that were applied to it, first to last -/
structure Tracked where
  state : CounterfactualState
  sightings : List Sighting

namespace Tracked

variable (A : Arith)

def step (w : Tracked) (c : CounterfactualCall) : Tracked :=
  match w.state.call A c with
  | .ok t => ⟨t, w.sightings ++ c.sightings w.state⟩
  | .error _ => w

def whileOpen (w : Tracked) : List Sighting := w.sightings.filter (fun x => x.before.status = .open)

def grossPnls (w : Tracked) (fill : PaperFill) : List ℚ :=
  w.whileOpen.map (fun x => w.state.grossPnl A fill x.markPrice)

def firstFrom (w : Tracked) (at' : Time) : Option Sighting :=
  w.sightings.find? (fun x => at' ≤ x.observedAt)

structure Sound (w : Tracked) : Prop where
  version : w.state.events.length = w.state.version
  once : SourcesOnce w.state.events
  status : w.state.status = .pending ∨ w.state.status = .open ∨ w.state.status = .resolved
  pending : w.state.status = .pending → w.state.entryFill = none ∧ w.state.outcomes = [] ∧
    w.state.maximumFavorableExcursion = 0 ∧ w.state.maximumAdverseExcursion = 0 ∧ w.sightings = []
  filled : w.state.status ≠ .pending → w.state.entryFill ≠ none ∧ w.state.exitPlan ≠ none
  opened : w.state.status = .open → (∀ x ∈ w.sightings, x.before.status = .open) ∧
    ∃ plan, w.state.exitPlan = some plan ∧ plan.status = .active ∧
    ∀ x ∈ w.sightings, plan.markReason x.markPrice = none
  horizons : (w.state.outcomes.map HorizonOutcome.horizon).Nodup
  outcome : ∀ fill, w.state.entryFill = some fill →
    ∀ h, w.state.outcomes.find? (fun o => o.horizon = h) =
    (w.firstFrom (fill.fillAt + h.duration)).map (Sighting.outcome A · fill h)
  favorable : ∀ fill, w.state.entryFill = some fill →
    w.state.maximumFavorableExcursion = (w.grossPnls A fill).foldl max 0
  adverse : ∀ fill, w.state.entryFill = some fill →
    w.state.maximumAdverseExcursion = ((w.grossPnls A fill).map A.neg).foldl max 0
  recorded : ∀ e ∈ w.state.events, ∀ o, e.payload.observation = some o →
    ∀ price, o.price? = some price → ∃ x ∈ w.sightings, x.markPrice = price ∧
    x.observedAt = e.eventAt

/-! ## the maxima and the first marks -/

theorem base_le_foldl_max (l : List ℚ) (b : ℚ) : b ≤ l.foldl max b := by
  induction l generalizing b with
  | nil => exact le_refl b
  | cons x l ih => exact (le_max_left b x).trans (ih (max b x))

theorem le_foldl_max {l : List ℚ} {a : ℚ} (h : a ∈ l) (b : ℚ) : a ≤ l.foldl max b := by
  induction l generalizing b with
  | nil => cases h
  | cons x l ih =>
    rcases List.mem_cons.mp h with rfl | h
    · exact (le_max_right b a).trans (base_le_foldl_max l (max b a))
    · exact ih h (max b x)

theorem foldl_max_concat (l : List ℚ) (a : ℚ) : (l ++ [a]).foldl max 0 = max (l.foldl max 0)
    (max 0 a) := by
  rw [List.foldl_append, List.foldl_cons, List.foldl_nil, ← max_assoc,
    max_eq_left (base_le_foldl_max l 0)]

section
variable {A} {w : Tracked} {t : CounterfactualState} {fill : PaperFill} {price : ℚ}
  {at' : Time} {id : String}

theorem firstFrom_concat (t : CounterfactualState) (w : Tracked) (y : Sighting) (at' : Time) :
    firstFrom ⟨t, w.sightings ++ [y]⟩ at' = (w.firstFrom at').or
    (if at' ≤ y.observedAt then some y else none) := by
  unfold firstFrom
  rw [List.find?_append, List.find?_singleton]
  simp only [decide_eq_true_eq]

theorem whileOpen_concat (t : CounterfactualState) (w : Tracked) (y : Sighting) :
    whileOpen ⟨t, w.sightings ++ [y]⟩ = w.whileOpen ++ if y.before.status = .open then
    [y] else [] := by
  unfold whileOpen
  rw [List.filter_append, List.filter_singleton]
  congr 1
  by_cases hopen : y.before.status = .open
  · rw [decide_eq_true hopen, if_pos hopen]
    rfl
  · rw [decide_eq_false hopen, if_neg hopen]
    rfl

theorem grossPnls_concat (htrade : CounterfactualState.SameTrade w.state t) :
    grossPnls A ⟨t, w.sightings ++ [⟨w.state, price, at'⟩]⟩ fill =
      w.grossPnls A fill ++ if w.state.status = .open then
      [w.state.grossPnl A fill price] else [] := by
  unfold grossPnls
  have hsame : ∀ x : Sighting, t.grossPnl A fill x.markPrice =
      w.state.grossPnl A fill x.markPrice :=
    fun x => htrade.grossPnl fill x.markPrice
  rw [whileOpen_concat, List.map_append]
  simp only [hsame]
  congr 1
  split
  · rfl
  · rfl

theorem excursions_concat (price : ℚ) (at' : Time)
    (htrade : CounterfactualState.SameTrade w.state t)
    (hf : w.state.maximumFavorableExcursion = (w.grossPnls A fill).foldl max 0)
    (ha : w.state.maximumAdverseExcursion = ((w.grossPnls A fill).map A.neg).foldl max 0) :
    w.state.excursions A (w.state.grossPnl A fill price) =
      ((grossPnls A ⟨t, w.sightings ++ [⟨w.state, price, at'⟩]⟩ fill).foldl max 0,
        ((grossPnls A ⟨t, w.sightings ++ [⟨w.state, price, at'⟩]⟩ fill).map A.neg).foldl max
        0) := by
  rw [grossPnls_concat htrade, CounterfactualState.excursions]
  split
  · rw [hf, ha, List.map_append, List.map_singleton, foldl_max_concat, foldl_max_concat]
  · rw [hf, ha, List.append_nil]

theorem find?_due (s : CounterfactualState) (h : Horizon)
    (hnew : s.outcomes.find? (fun o => o.horizon = h) = none) :
    ((s.dueHorizons fill at').map
        (fun h => HorizonOutcome.mk h at' price (s.netPnl A fill price))).find?
      (fun o => o.horizon = h) =
      if fill.fillAt + h.duration ≤ at' then
      some ⟨h, at', price, s.netPnl A fill price⟩ else none := by
  have hmem : h ∈ s.dueHorizons fill at' ↔ fill.fillAt + h.duration ≤ at' := by
    have hall : h ∈ Horizon.all := by cases h <;> decide
    have hout : h ∉ s.outcomes.map HorizonOutcome.horizon := by
      intro hin
      obtain ⟨o, ho, hh⟩ := List.mem_map.mp hin
      exact List.find?_eq_none.mp hnew o ho (decide_eq_true hh)
    simp only [CounterfactualState.dueHorizons, List.mem_filter, decide_eq_true_eq, ge_iff_le]
    exact ⟨fun h => h.2.2, fun hle => ⟨hall, hout, hle⟩⟩
  rw [List.find?_map]
  split
  · rename_i hle
    have hfound : (s.dueHorizons fill at').find? (fun k => k = h) = some h := by
      cases hk : (s.dueHorizons fill at').find? (fun k => k = h) with
      | some k =>
        obtain ⟨hkh, _⟩ := List.find?_eq_some_iff_append.mp hk
        rw [of_decide_eq_true hkh]
      | none => exact absurd (decide_eq_true rfl) (List.find?_eq_none.mp hk h (hmem.mpr hle))
    exact congrArg (Option.map _) hfound
  · rename_i hle
    have hmissing : (s.dueHorizons fill at').find? (fun k => k = h) = none :=
      List.find?_eq_none.mpr fun k hk hkh => hle (hmem.mp (of_decide_eq_true hkh ▸ hk))
    exact congrArg (Option.map _) hmissing

theorem outcome_concat {h : Horizon} (ho : w.state.outcomes.find? (fun o => o.horizon = h) =
      (w.firstFrom (fill.fillAt + h.duration)).map (Sighting.outcome A · fill h)) :
    (w.state.withOutcomes A fill price at').find? (fun o => o.horizon = h) =
      (firstFrom ⟨t, w.sightings ++ [⟨w.state, price, at'⟩]⟩ (fill.fillAt + h.duration)).map
        (Sighting.outcome A · fill h) := by
  rw [CounterfactualState.withOutcomes, List.find?_append, firstFrom_concat]
  cases hfirst : w.firstFrom (fill.fillAt + h.duration) with
  | some x =>
    rw [hfirst] at ho
    rw [ho, Option.map_some, Option.some_or, Option.some_or, Option.map_some]
  | none =>
    rw [hfirst] at ho
    rw [find?_due w.state h ho, ho, Option.map_none, Option.none_or, Option.none_or,
      apply_ite (Option.map _)]
    rfl

theorem withOutcomes_nodup (s : CounterfactualState)
    (hs : (s.outcomes.map HorizonOutcome.horizon).Nodup) :
    ((s.withOutcomes A fill price at').map HorizonOutcome.horizon).Nodup := by
  have hdue : ∀ h ∈ s.dueHorizons fill at', h ∉ s.outcomes.map HorizonOutcome.horizon := by
    intro h hh
    exact (of_decide_eq_true (List.mem_filter.mp hh).2).1
  rw [CounterfactualState.withOutcomes, List.map_append, List.map_map]
  refine List.nodup_append.mpr ⟨hs, ?_, ?_⟩
  · have hall : (Horizon.all).Nodup := by decide
    exact List.Nodup.map (fun _ _ h => h) (hall.filter _)
  · intro a ha b hb hab
    obtain ⟨h, hh, rfl⟩ := List.mem_map.mp hb
    rw [hab] at ha
    exact hdue h hh ha

/-! ## one call -/

namespace Sound

variable {x : Sighting}

theorem excursions_seen (h : w.Sound A) (hx : x ∈ w.sightings)
    (hfill : w.state.entryFill = some fill) :
    w.state.excursions A (w.state.grossPnl A fill x.markPrice) =
      (w.state.maximumFavorableExcursion, w.state.maximumAdverseExcursion) := by
  unfold CounterfactualState.excursions
  split
  · rename_i hopen
    have hmem : w.state.grossPnl A fill x.markPrice ∈ w.grossPnls A fill := by
      refine List.mem_map.mpr ⟨x, List.mem_filter.mpr ⟨hx, ?_⟩, rfl⟩
      exact decide_eq_true ((h.opened hopen).1 x hx)
    have hle : max 0 (w.state.grossPnl A fill x.markPrice) ≤ w.state.maximumFavorableExcursion := by
      rw [h.favorable fill hfill]
      exact max_le (base_le_foldl_max _ 0) (le_foldl_max hmem 0)
    have hneg : max 0 (A.neg (w.state.grossPnl A fill x.markPrice)) ≤
        w.state.maximumAdverseExcursion := by
      rw [h.adverse fill hfill]
      exact max_le (base_le_foldl_max _ 0) (le_foldl_max (List.mem_map_of_mem hmem) 0)
    rw [max_eq_left hle, max_eq_left hneg]
  · rfl

theorem outcomes_seen (h : w.Sound A) (hx : x ∈ w.sightings) (hfill : w.state.entryFill = some fill)
    (price : ℚ) : w.state.withOutcomes A fill price x.observedAt = w.state.outcomes := by
  have hnone : w.state.dueHorizons fill x.observedAt = [] := by
    refine List.filter_eq_nil_iff.mpr fun k _ => ?_
    rw [decide_eq_true_eq, not_and]
    intro hk hle
    -- the mark itself reached the horizon, so one of the marks up to it is the first
    have hfound : w.firstFrom (fill.fillAt + k.duration) ≠ none := by
      intro hn
      exact List.find?_eq_none.mp hn x hx (decide_eq_true hle)
    obtain ⟨y, hy⟩ := Option.ne_none_iff_exists'.mp hfound
    have hout := h.outcome fill hfill k
    rw [hy, Option.map_some] at hout
    obtain ⟨hh, _⟩ := List.find?_eq_some_iff_append.mp hout
    exact hk (List.mem_map.mpr ⟨_, List.mem_of_find?_eq_some hout, of_decide_eq_true hh⟩)
  rw [CounterfactualState.withOutcomes, hnone, List.map_nil, List.append_nil]

/-- **a mark that was seen before leaves the counterfactual as it is** -/
theorem marked_seen (id : String) (h : w.Sound A) (hx : x ∈ w.sightings)
    (hfill : w.state.entryFill = some fill) :
    CounterfactualState.Marked A w.state fill x.markPrice x.observedAt id w.state := by
  have hfilled : w.state.status ≠ .pending :=
    fun hp => by rw [(h.pending hp).1] at hfill; cases hfill
  obtain ⟨plan, hplan⟩ := Option.ne_none_iff_exists'.mp (h.filled hfilled).2
  refine .unchanged hplan (h.outcomes_seen hx hfill _) (h.excursions_seen hx hfill) fun hopen => ?_
  obtain ⟨_, plan', hplan', _, hquiet⟩ := h.opened hopen
  obtain rfl : plan = plan' := Option.mem_unique hplan hplan'
  exact hquiet x hx

theorem marked (h : w.Sound A) (hs : w.state.status = .open ∨ w.state.status = .resolved)
    (hfill : w.state.entryFill = some fill)
    (hm : CounterfactualState.Marked A w.state fill price at' id t) (honce : SourcesOnce t.events) :
    Sound A ⟨t, w.sightings ++ [⟨w.state, price, at'⟩]⟩ := by
  have hfill' : ∀ f, t.entryFill = some f → f = fill := by
    intro f hf
    rw [hm.trade.entryFill, hfill] at hf
    exact (Option.some.inj hf).symm
  have hopen : t.status = .open → w.state.status = .open := by
    intro ht
    rcases hm.status with hst | hst
    · rw [← hst, ht]
    · rw [ht] at hst
      cases hst
  have hexc := hm.excursions.trans
    (excursions_concat price at' hm.trade (h.favorable fill hfill) (h.adverse fill hfill))
  have hstatus : t.status = .open ∨ t.status = .resolved := by
    rcases hm.status with hst | hst
    · rw [hst]
      exact hs
    · exact Or.inr hst
  refine ⟨hm.grows.length h.version, honce, Or.inr hstatus, ?_, ?_, ?_, ?_, ?_, ?_, ?_, ?_⟩
  · intro hp
    have hp : t.status = .pending := hp
    rw [hp] at hstatus
    rcases hstatus with h | h <;> cases h
  · intro _
    refine ⟨?_, hm.planned⟩
    show t.entryFill ≠ none
    rw [hm.trade.entryFill, hfill]
    exact Option.some_ne_none fill
  · intro ht
    obtain ⟨hall, plan, hplan, hactive, hquiet⟩ := h.opened (hopen ht)
    obtain ⟨hkept, hreason⟩ := hm.still ht
    refine ⟨fun x hx => ?_, plan, hkept.trans hplan, hactive, fun x hx => ?_⟩
    · rcases List.mem_append.mp hx with hx | hx
      · exact hall x hx
      · rw [List.mem_singleton.mp hx]
        exact hopen ht
    · rcases List.mem_append.mp hx with hx | hx
      · exact hquiet x hx
      · rw [List.mem_singleton.mp hx]
        exact hreason plan hplan
  · show (t.outcomes.map HorizonOutcome.horizon).Nodup
    rw [hm.outcomes]
    exact withOutcomes_nodup w.state h.horizons
  · intro f hf k
    obtain rfl := hfill' f hf
    show t.outcomes.find? _ = _
    rw [hm.outcomes]
    exact outcome_concat (h.outcome f hfill k)
  · intro f hf
    obtain rfl := hfill' f hf
    exact congrArg Prod.fst hexc
  · intro f hf
    obtain rfl := hfill' f hf
    exact congrArg Prod.snd hexc
  · intro e he o ho p hp
    rcases hm.grows.mem he with he | hnone | ⟨hsome, hat⟩
    · obtain ⟨x, hx, hxp⟩ := h.recorded e he o ho p hp
      exact ⟨x, List.mem_append_left _ hx, hxp⟩
    · rw [hnone] at ho
      cases ho
    · obtain rfl := Option.mem_unique hsome ho
      exact ⟨_, List.mem_append_right _ (List.mem_singleton_self _), Option.some.inj hp, hat.symm⟩

theorem noted {o : CounterfactualObservation} (h : w.Sound A)
    (hs : w.state.status = .open ∨ w.state.status = .resolved)
    (hn : CounterfactualState.Noted o at' w.state t) (hnew : w.state.sourceEvents o = [])
    (hseen : ∀ price, o.price? = some price → ∃ x ∈ w.sightings, x.markPrice = price ∧
    x.observedAt = at') : Sound A ⟨t, w.sightings⟩ := by
  have hfilled : w.state.status ≠ .pending := by
    rcases hs with hs | hs <;> rw [hs] <;> exact nofun
  have hopen : t.status = .open → w.state.status = .open := by
    intro ht
    rcases hn.status with hst | hst
    · rw [← hst, ht]
    · rw [ht] at hst
      cases hst
  have hstatus : t.status = .open ∨ t.status = .resolved := by
    rcases hn.status with hst | hst
    · rw [hst]
      exact hs
    · exact Or.inr hst
  have hgross : ∀ f, grossPnls A ⟨t, w.sightings⟩ f = w.grossPnls A f := by
    intro f
    exact List.map_congr_left fun x _ => hn.trade.grossPnl f x.markPrice
  refine ⟨hn.grows.length h.version, hn.grows.once h.once hnew, Or.inr hstatus, ?_, ?_, ?_, ?_,
    ?_, ?_, ?_, ?_⟩
  · intro hp
    have hp : t.status = .pending := hp
    rw [hp] at hstatus
    rcases hstatus with h | h <;> cases h
  · intro _
    refine ⟨?_, hn.planned (h.filled hfilled).2⟩
    show t.entryFill ≠ none
    rw [hn.trade.entryFill]
    exact (h.filled hfilled).1
  · intro ht
    obtain ⟨hall, plan, hplan, hactive, hquiet⟩ := h.opened (hopen ht)
    obtain ⟨q, hq, hqa, hlevels⟩ := hn.still ht plan hplan hactive
    exact ⟨hall, q, hq, hqa, fun x hx => (hlevels x.markPrice).trans (hquiet x hx)⟩
  · show (t.outcomes.map HorizonOutcome.horizon).Nodup
    rw [hn.outcomes]
    exact h.horizons
  · intro f hf k
    show t.outcomes.find? _ = _
    rw [hn.outcomes]
    exact h.outcome f (hn.trade.entryFill ▸ hf) k
  · intro f hf
    rw [hgross f]
    exact hn.favorable.trans (h.favorable f (hn.trade.entryFill ▸ hf))
  · intro f hf
    rw [hgross f]
    exact hn.adverse.trans (h.adverse f (hn.trade.entryFill ▸ hf))
  · intro e he o' ho p hp
    rcases hn.grows.mem he with he | hnone | ⟨hsome, hat⟩
    · exact h.recorded e he o' ho p hp
    · rw [hnone] at ho
      cases ho
    · obtain rfl := Option.mem_unique hsome ho
      obtain ⟨x, hx, hprice, htime⟩ := hseen p hp
      exact ⟨x, hx, hprice, htime.trans hat.symm⟩

theorem seen_of_observed (h : w.Sound A) {o : CounterfactualObservation}
    (ho : w.state.Observed o at') (hprice : o.price? = some price) :
    ∃ x ∈ w.sightings, x.markPrice = price ∧ x.observedAt = at' := by
  obtain ⟨e, he, hat, hcontent⟩ := ho
  have hmem : e ∈ w.state.events := by
    have hin : e ∈ w.state.sourceEvents o := by rw [he]; exact List.mem_singleton_self e
    exact (List.mem_filter.mp hin).1
  rw [← hat]
  exact h.recorded e hmem o hcontent price hprice

theorem again (h : w.Sound A)
    (hseen : ∃ x ∈ w.sightings, x.markPrice = price ∧ x.observedAt = at') :
    Sound A ⟨w.state, w.sightings ++ [⟨w.state, price, at'⟩]⟩ := by
  obtain ⟨x, hx, rfl, rfl⟩ := hseen
  have hfilled : w.state.status ≠ .pending := by
    intro hp
    rw [(h.pending hp).2.2.2.2] at hx
    cases hx
  obtain ⟨fill, hfill⟩ := Option.ne_none_iff_exists'.mp (h.filled hfilled).1
  exact h.marked (h.status.resolve_left hfilled) hfill (marked_seen "" h hx hfill) h.once

theorem observeMark (h : w.Sound A) (hc : w.state.observeMark A price at' id = .ok t) :
    Sound A ⟨t, w.sightings ++ [⟨w.state, price, at'⟩]⟩ := by
  obtain ⟨hs, _, _, ⟨rfl, hobs⟩ | ⟨hnew, fill, hfill, hm⟩⟩ :=
    CounterfactualState.observeMark_spec hc
  · exact h.again (h.seen_of_observed hobs rfl)
  · exact h.marked hs hfill hm (hm.grows.once h.once hnew)

theorem observeClosedBar {direction : Direction} {approved : Bool} (h : w.Sound A)
    (hc : w.state.observeClosedBar A price direction approved at' id = .ok t) :
    Sound A ⟨t, w.sightings ++ [⟨w.state, price, at'⟩]⟩ := by
  obtain ⟨_, ⟨rfl, hobs⟩ | ⟨hnew, u, hu, hcase⟩⟩ := CounterfactualState.observeClosedBar_spec hc
  · exact h.again (h.seen_of_observed hobs rfl)
  · have hmark := h.observeMark hu
    obtain ⟨_, rfl⟩ | ⟨hopen, hn⟩ := hcase
    · exact hmark
    · refine hmark.noted (Or.inl hopen) hn ?_ fun p hp => ?_
      · -- the mark of the bar is another source
        show u.sourceEvents _ = []
        obtain ⟨_, _, _, ⟨rfl, _⟩ | ⟨_, _, _, hm⟩⟩ := CounterfactualState.observeMark_spec hu
        · exact hnew
        · rw [hm.grows.sources (CounterfactualObservation.mark_ne_closedBar _ _ _ _ _ _)]
          exact hnew
      · exact ⟨_, List.mem_append_right _ (List.mem_singleton_self _), Option.some.inj hp, rfl⟩

theorem applyFunding {rate : ℚ} (h : w.Sound A)
    (hc : w.state.applyFunding A rate price at' id = .ok t) : Sound A ⟨t, w.sightings⟩ := by
  obtain ⟨hs, _, _, ⟨rfl, _⟩ | ⟨hnew, hn⟩⟩ := CounterfactualState.applyFunding_spec hc
  · exact h
  · exact h.noted hs hn hnew fun p hp => nomatch hp

theorem enter {planId : UUID} (h : w.Sound A) (hc : w.state.enter A fill planId = .ok t) :
    Sound A ⟨t, w.sightings⟩ := by
  simp only [CounterfactualState.enter, bind_eq_ok, raiseIf_eq_ok, ne_eq, not_not,
    pure_ok_iff] at hc
  obtain ⟨_, hs, _, _, _, _, plan, hplan, rfl⟩ := hc
  obtain ⟨_, _, _, _, _, hactive, _⟩ := ExitPlan.create_eq hplan
  obtain ⟨_, hout, hf, ha, hnone⟩ := h.pending hs
  have hseen : ∀ {P : Sighting → Prop}, ∀ x ∈ w.sightings, P x := by
    intro P x hx
    rw [hnone] at hx
    cases hx
  refine ⟨?_, h.once.plain rfl, Or.inr (Or.inl rfl), (fun hp => by cases hp),
    fun _ => ⟨Option.some_ne_none _, Option.some_ne_none _⟩,
    fun _ => ⟨hseen, plan, rfl, hactive, hseen⟩, h.horizons, fun f _ k => ?_, fun f _ => ?_,
    fun f _ => ?_, ?_⟩
  · show (w.state.events ++ [_]).length = w.state.version + 1
    rw [List.length_append, h.version, List.length_singleton]
  · show w.state.outcomes.find? _ = _
    rw [hout, firstFrom, hnone]
    rfl
  · show w.state.maximumFavorableExcursion = _
    rw [hf, grossPnls, whileOpen, hnone]
    rfl
  · show w.state.maximumAdverseExcursion = _
    rw [ha, grossPnls, whileOpen, hnone]
    rfl
  · intro e he o ho p hp
    rcases List.mem_append.mp he with he | he
    · exact h.recorded e he o ho p hp
    · rw [List.mem_singleton.mp he] at ho
      cases ho

theorem start {r : CounterfactualRequest} (hc : CounterfactualState.create r = .ok t) :
    Sound A ⟨t, []⟩ := by
  simp only [CounterfactualState.create, bind_eq_ok, pure_ok_iff] at hc
  obtain ⟨_, _, _, _, _, _, _, _, _, _, _, _, _, _, rfl⟩ := hc
  refine ⟨rfl, SourcesOnce.nil.plain rfl, Or.inl rfl, fun _ => ⟨rfl, rfl, rfl, rfl, rfl⟩,
    (fun hp => absurd rfl hp), (fun hp => by cases hp), List.nodup_nil, (fun _ hf => by cases hf),
    (fun _ hf => by cases hf), (fun _ hf => by cases hf), ?_⟩
  intro e he o ho
  rw [List.mem_singleton.mp he] at ho
  cases ho

end Sound

theorem step_cases (A : Arith) (w : Tracked) (c : CounterfactualCall) :
    w.step A c = w ∨ ∃ t, w.state.call A c = .ok t ∧
    w.step A c = ⟨t, w.sightings ++ c.sightings w.state⟩ := by
  unfold step
  cases w.state.call A c with
  | error _ => exact Or.inl rfl
  | ok t => exact Or.inr ⟨t, rfl, rfl⟩

theorem Sound.step (h : w.Sound A) (c : CounterfactualCall) : (w.step A c).Sound A := by
  obtain hstep | ⟨t, hc, hstep⟩ := step_cases A w c
  · rw [hstep]
    exact h
  · rw [hstep]
    cases c with
    | enter fill planId =>
      show Sound A ⟨t, w.sightings ++ []⟩
      rw [List.append_nil]
      exact h.enter hc
    | mark price at' id => exact h.observeMark hc
    | closedBar price direction approved at' id => exact h.observeClosedBar hc
    | funding rate price at' id =>
      show Sound A ⟨t, w.sightings ++ []⟩
      rw [List.append_nil]
      exact h.applyFunding hc

/-- **every counterfactual is told by what it was shown** -/
theorem Sound.run (h : w.Sound A) (calls : List CounterfactualCall) :
    (Lib.run (Tracked.step A) w calls).Sound A :=
  Lib.run_inv (Tracked.step A) (I := Tracked.Sound A) (fun _ c hw => hw.step c) h calls

end

end Tracked

/-! ## later states -/

namespace CounterfactualState

variable {A : Arith} {s t u : CounterfactualState}

structure Before (s t : CounterfactualState) : Prop where
  events : s.events <+: t.events
  filled : s.status ≠ .pending → t.status ≠ .pending
  result : s.status = .resolved → SameResult s t
  bars : s.status = .resolved → ∀ id price direction approved,
    t.sourceEvents (.closedBar id price direction approved) =
    s.sourceEvents (.closedBar id price direction approved)

theorem Before.refl : Before s s :=
  ⟨List.prefix_refl _, fun h => h, fun _ => .refl, fun _ _ _ _ _ => rfl⟩

theorem Before.trans (h : Before s t) (g : Before t u) : Before s u := by
  refine ⟨h.events.trans g.events, fun hs => g.filled (h.filled hs), fun hs => ?_,
    fun hs id price direction approved => ?_⟩
  · have ht : t.status = .resolved := (h.result hs).status.trans hs
    exact (h.result hs).trans (g.result ht)
  · have ht : t.status = .resolved := (h.result hs).status.trans hs
    exact (g.bars ht id price direction approved).trans (h.bars hs id price direction approved)

theorem ne_pending_of (h : s.status = .open ∨ s.status = .resolved) : s.status ≠ .pending := by
  rcases h with h | h <;> rw [h] <;> exact nofun

theorem observeMark_before {price : ℚ} {at' : Time} {id : String}
    (h : s.observeMark A price at' id = .ok t) : Before s t := by
  obtain ⟨hs, _, _, ⟨rfl, _⟩ | ⟨_, fill, _, hm⟩⟩ := observeMark_spec h
  · exact .refl
  · refine ⟨hm.grows.prefix', fun hp => ?_, hm.result, fun _ id' price' direction approved => ?_⟩
    · rcases hm.status with ht | ht <;> rw [ht]
      · exact hp
      · exact nofun
    · exact hm.grows.sources
        (CounterfactualObservation.mark_ne_closedBar id id' price price' direction approved)

theorem call_before {c : CounterfactualCall} (h : s.call A c = .ok t) : Before s t := by
  cases c with
  | enter fill planId =>
    simp only [call, enter, bind_eq_ok, raiseIf_eq_ok, ne_eq, not_not, pure_ok_iff] at h
    obtain ⟨_, hs, _, _, _, _, plan, _, rfl⟩ := h
    have hnot : s.status ≠ .resolved := by rw [hs]; decide
    exact ⟨List.prefix_append _ _, fun hp => absurd hs hp, fun hr => absurd hr hnot, fun hr =>
      absurd hr hnot⟩
  | mark price at' id => exact observeMark_before h
  | closedBar price direction approved at' id =>
    obtain ⟨_, ⟨rfl, _⟩ | ⟨_, u, hu, ⟨_, rfl⟩ | ⟨hopen, hn⟩⟩⟩ := observeClosedBar_spec h
    · exact .refl
    · exact observeMark_before hu
    · have hnot : u.status ≠ .resolved := by rw [hopen]; decide
      refine (observeMark_before hu).trans
        ⟨hn.grows.prefix', fun _ => ?_, fun hr => absurd hr hnot, fun hr => absurd hr hnot⟩
      rcases hn.status with ht | ht <;> rw [ht]
      · rw [hopen]
        decide
      · decide
  | funding rate price at' id =>
    obtain ⟨hs, _, _, ⟨rfl, _⟩ | ⟨_, hn⟩⟩ := applyFunding_spec h
    · exact .refl
    · refine ⟨hn.grows.prefix', fun hp => ?_, hn.result, fun _ id' price' direction approved => ?_⟩
      · rcases hn.status with ht | ht <;> rw [ht]
        · exact hp
        · decide
      · exact hn.grows.sources
          (CounterfactualObservation.funding_ne_closedBar id id' rate price price'
            direction approved)

theorem Before.source (h : Before s t) (honce : SourcesOnce t.events)
    {o : CounterfactualObservation} {e : CounterfactualTransition} (he : s.sourceEvents o = [e]) :
    t.sourceEvents o = [e] := by
  obtain ⟨new, hnew⟩ := h.events
  have hsplit : t.sourceEvents o = [e] ++ new.filter (fun e => e.Of o) := by
    rw [sourceEvents_eq, ← hnew, List.filter_append, ← sourceEvents_eq, he]
  have hlen : (t.sourceEvents o).length ≤ 1 := honce o
  rw [hsplit, List.length_append, List.length_singleton] at hlen
  have hnil : new.filter (fun e => e.Of o) = [] := List.length_eq_zero_iff.mp (by omega)
  rw [hsplit, hnil, List.append_nil]

end CounterfactualState

namespace Tracked

variable {A : Arith} {w v : Tracked}

structure Before (w v : Tracked) : Prop where
  state : CounterfactualState.Before w.state v.state
  sightings : w.sightings <+: v.sightings

theorem Before.step (h : Before w v) (c : CounterfactualCall) : Before w (v.step A c) := by
  obtain hstep | ⟨t, hc, hstep⟩ := step_cases A v c
  · rw [hstep]
    exact h
  · rw [hstep]
    exact ⟨h.state.trans (CounterfactualState.call_before hc),
      h.sightings.trans (List.prefix_append _ _)⟩

theorem run_before (w : Tracked) (calls : List CounterfactualCall) :
    Before w (Lib.run (step A) w calls) :=
  Lib.run_inv (step A) (I := Before w) (fun _ c hw => hw.step c) ⟨.refl, List.prefix_refl _⟩ calls

end Tracked

/-! ## an event that is applied again -/

namespace CounterfactualState

variable {A : Arith} {s t : CounterfactualState} {fill : PaperFill} {plan : ExitPlan} {price : ℚ}
  {at' : Time} {id : String}

def MarkConflicts (s : CounterfactualState) (price : ℚ) (at' : Time) (id : String) : Prop :=
  ∃ e ∈ s.sourceEvents (.mark id price), e.eventAt ≠ at' ∨
    e.payload.observation ≠ some (.mark id price)

instance MarkConflicts.decidable (s : CounterfactualState) (price : ℚ) (at' : Time) (id : String) :
    Decidable (s.MarkConflicts price at' id) := by
  unfold MarkConflicts
  infer_instance

/-- a bar is compared with the marks under its id only as long as no bar was counted under it -/
def Conflicts (s : CounterfactualState) : CounterfactualCall → Prop
  | .mark price at' id => s.MarkConflicts price at' id
  | .closedBar price direction approved at' id =>
      s.sourceEvents (.closedBar id price direction approved) = [] ∧ s.MarkConflicts price at' id
  | _ => False

instance Conflicts.decidable (s : CounterfactualState) (c : CounterfactualCall) : Decidable
    (s.Conflicts c) := by
  cases c <;> unfold Conflicts <;> infer_instance

structure Quiet (A : Arith) (s : CounterfactualState) (fill : PaperFill) (plan : ExitPlan)
    (price : ℚ) (at' : Time) : Prop where
  outcomes : s.withOutcomes A fill price at' = s.outcomes
  excursions : s.excursions A (s.grossPnl A fill price) =
    (s.maximumFavorableExcursion, s.maximumAdverseExcursion)
  reason : s.status = .open → plan.status = .active ∧ plan.markReason price = none

theorem Quiet.evaluateMark (h : s.Quiet A fill plan price at') (hpos : 0 < price) :
    ∃ evaluation, s.evaluateMark plan price at' = .ok evaluation ∧
    evaluation.bind (·.intent) = none := by
  unfold CounterfactualState.evaluateMark
  split
  · rename_i hopen
    obtain ⟨hactive, hnone⟩ := h.reason hopen
    have heval : plan.evaluateMark price at' none = .ok ⟨plan, none⟩ := by
      have hguard : ¬ ∃ x ∈ (none : Option ℚ), x ≤ 0 := fun ⟨_, hx, _⟩ => nomatch hx
      rw [ExitPlan.evaluateMark, ExitPlan.requireActive, raiseIf_not_bind hactive,
        requirePositiveDecimal_eq_ok (u := ()).mpr hpos, ok_bind, raiseIf_bind_neg hguard, hnone]
      rfl
    rw [heval]
    exact ⟨_, rfl, rfl⟩
  · exact ⟨none, rfl, rfl⟩

/-- **a mark that would change nothing leaves the state alone, or is refused for another one under
its id** -/
theorem Quiet.observeMark_eq (h : s.Quiet A fill plan price at')
    (hs : s.status = .open ∨ s.status = .resolved) (hid : id ≠ "") (hpos : 0 < price)
    (honce : SourcesOnce s.events) (hfill : s.entryFill = some fill)
    (hplan : s.exitPlan = some plan) :
    s.observeMark A price at' id = if s.MarkConflicts price at' id then
      .error (.valueError "counterfactual market event identity has different content")
          else .ok s := by
  rw [CounterfactualState.observeMark, raiseIf_not_bind hs, raiseIf_bind_neg hid,
    requirePositiveDecimal_eq_ok (u := ()).mpr hpos, ok_bind]
  have hlen : (s.sourceEvents (.mark id price)).length ≤ 1 := honce (.mark id price)
  rcases hsrc : s.sourceEvents (.mark id price) with _ | ⟨e, _ | ⟨_, _⟩⟩
  · obtain ⟨evaluation, heval, hintent⟩ := h.evaluateMark hpos
    have hfalse : s.sourceEventExists (.mark id price) at' false = .ok false := by
      unfold sourceEventExists
      rw [hsrc]
    have hnone : ¬ s.MarkConflicts price at' id := by
      rintro ⟨e, he, _⟩
      rw [hsrc] at he
      cases he
    rw [hfalse, ok_bind, if_neg Bool.false_ne_true, hfill, hplan, orRaise_some, ok_bind,
      orRaise_some, ok_bind, heval, ok_bind, applyMark, if_neg hnone]
    simp only [h.excursions, h.outcomes, hintent, and_self, if_true]
    rfl
  · have hexists : s.sourceEventExists (.mark id price) at' false = (do
        raiseIf ((false = false ∧ e.eventAt ≠ at') ∨ e.payload.observation ≠ some (.mark id price))
          (.valueError "counterfactual market event identity has different content")
        return true) := by
      unfold sourceEventExists
      rw [hsrc]
    have hconf : s.MarkConflicts price at' id ↔
        (false = false ∧ e.eventAt ≠ at') ∨ e.payload.observation ≠ some (.mark id price) := by
      unfold MarkConflicts
      rw [hsrc]
      simp only [List.mem_singleton, exists_eq_left, true_and]
    rw [hexists]
    by_cases hdiff : (false = false ∧ e.eventAt ≠ at') ∨
      e.payload.observation ≠ some (.mark id price)
    · rw [raiseIf_bind_pos hdiff, if_pos (hconf.mpr hdiff)]
      rfl
    · rw [raiseIf_bind_neg hdiff, if_neg (mt hconf.mp hdiff)]
      rfl
  · rw [hsrc] at hlen
    simp at hlen

theorem observeClosedBar_resolved {direction : Direction} {approved : Bool} (hid : id ≠ "")
    (hs : s.status = .resolved)
    (hnone : s.sourceEvents (.closedBar id price direction approved) = []) :
    s.observeClosedBar A price direction approved at' id = s.observeMark A price at' id := by
  have hfalse : s.sourceEventExists (.closedBar id price direction approved) at' false =
      .ok false := by
    unfold sourceEventExists
    rw [hnone]
  rw [observeClosedBar, raiseIf_bind_neg hid, hfalse, ok_bind, if_neg Bool.false_ne_true]
  cases hu : s.observeMark A price at' id with
  | error e => rfl
  | ok u =>
    have hne : u.status ≠ .open := by
      rw [((observeMark_before hu).result hs).status, hs]
      decide
    rw [ok_bind, if_pos hne]
    rfl

theorem applyFunding_again {rate : ℚ} {e : CounterfactualTransition}
    (hs : s.status = .open ∨ s.status = .resolved) (hid : id ≠ "") (hpos : 0 < price)
    (hfill : s.entryFill = some fill) (hat : at' ≤ fill.fillAt + researchWindow)
    (hone : s.sourceEvents (.funding id rate price) = [e])
    (hcontent : e.payload.observation = some (.funding id rate price)) :
    s.applyFunding A rate price at' id = .ok s := by
  have htrue : s.sourceEventExists (.funding id rate price) at' true = .ok true := by
    unfold sourceEventExists
    rw [hone]
    simp only
    rw [raiseIf_bind_neg]
    · rfl
    · rintro (⟨h, _⟩ | h)
      · cases h
      · exact h hcontent
  rw [applyFunding, raiseIf_not_bind hs, raiseIf_bind_neg hid,
    requirePositiveDecimal_eq_ok (u := ()).mpr hpos, ok_bind, hfill, orRaise_some, ok_bind,
    raiseIf_bind_neg (fun h => absurd hat (not_le.mpr h.2)), htrue]
  rfl

theorem Grows.observed {o : CounterfactualObservation} (h : Grows o at' s t)
    (hgrew : t.events ≠ s.events) (hnew : s.sourceEvents o = []) : t.Observed o at' := by
  obtain ⟨new, hevents, _, hcase⟩ := h
  have hof : ∀ m : CounterfactualTransition, m.payload.observation = some o →
      [m].filter (fun e => e.Of o) = [m] :=
    fun m hm => List.filter_eq_self.mpr fun e he => by
      rw [List.mem_singleton.mp he]
      exact decide_eq_true (CounterfactualTransition.of_observation hm)
  have hsplit : t.sourceEvents o = new.filter (fun e => e.Of o) := by
    rw [sourceEvents_eq, hevents, List.filter_append, ← sourceEvents_eq, hnew, List.nil_append]
  obtain rfl | ⟨m, hm, hat, rfl | ⟨r, hr, rfl⟩⟩ := hcase
  · rw [List.append_nil] at hevents
    exact absurd hevents hgrew
  · exact ⟨m, hsplit.trans (hof m hm), hat, hm⟩
  · refine ⟨m, hsplit.trans ?_, hat, hm⟩
    have hplain : [r].filter (fun e => e.Of o) = [] := List.filter_eq_nil_iff.mpr fun e he => by
      rw [List.mem_singleton.mp he, decide_eq_true_eq]
      exact CounterfactualTransition.not_of_none hr
    show ([m] ++ [r]).filter _ = _
    rw [List.filter_append, hof m hm, hplain, List.append_nil]

end CounterfactualState

/-- a market event; a funding settlement at most 24 hours after the fill -/
def CounterfactualCall.Replayable (s : CounterfactualState) : CounterfactualCall → Prop
  | .enter _ _ => False
  | .funding _ _ at' _ => ∀ fill, s.entryFill = some fill → at' ≤ fill.fillAt + researchWindow
  | _ => True

namespace Tracked

variable {A : Arith} {w v : Tracked} {t : CounterfactualState} {price : ℚ}
  {at' : Time} {id : String}

theorem Sound.mark_again (h : v.Sound A)
    (hseen : ∃ x ∈ v.sightings, x.markPrice = price ∧ x.observedAt = at') (hid : id ≠ "")
    (hpos : 0 < price) :
    v.state.observeMark A price at' id = if v.state.MarkConflicts price at' id then
      .error (.valueError "counterfactual market event identity has different content")
          else .ok v.state := by
  obtain ⟨x, hx, rfl, rfl⟩ := hseen
  have hfilled : v.state.status ≠ .pending := by
    intro hp
    rw [(h.pending hp).2.2.2.2] at hx
    cases hx
  obtain ⟨fill, hfill⟩ := Option.ne_none_iff_exists'.mp (h.filled hfilled).1
  obtain ⟨plan, hplan⟩ := Option.ne_none_iff_exists'.mp (h.filled hfilled).2
  have hquiet : v.state.Quiet A fill plan x.markPrice x.observedAt := by
    refine ⟨h.outcomes_seen hx hfill _, h.excursions_seen hx hfill, fun hopen => ?_⟩
    obtain ⟨_, plan', hplan', hactive, hnone⟩ := h.opened hopen
    obtain rfl : plan = plan' := Option.mem_unique hplan hplan'
    exact ⟨hactive, hnone x hx⟩
  exact hquiet.observeMark_eq (h.status.resolve_left hfilled) hid hpos h.once hfill hplan

/-- what a bar that was applied leaves: it is recorded, or the trade is resolved without it -/
theorem closedBar_applied {direction : Direction} {approved : Bool}
    (hc : w.state.observeClosedBar A price direction approved at' id = .ok t) :
    id ≠ "" ∧ (t.Observed (.closedBar id price direction approved) at' ∨
      t.status = .resolved ∧ 0 < price ∧
      t.sourceEvents (.closedBar id price direction approved) = []) := by
  obtain ⟨hid, hcase⟩ := CounterfactualState.observeClosedBar_spec hc
  refine ⟨hid, ?_⟩
  obtain ⟨rfl, hobs⟩ | ⟨hnew, u, hu, hcase⟩ := hcase
  · exact Or.inl hobs
  · obtain ⟨hs, _, hpos, hmark⟩ := CounterfactualState.observeMark_spec hu
    have hsources : u.sourceEvents (.closedBar id price direction approved) = [] := by
      obtain ⟨rfl, _⟩ | ⟨_, _, _, hm⟩ := hmark
      · exact hnew
      · rw [hm.grows.sources (CounterfactualObservation.mark_ne_closedBar _ _ _ _ _ _)]
        exact hnew
    have hstatus : u.status = w.state.status ∨ u.status = .resolved := by
      obtain ⟨rfl, _⟩ | ⟨_, _, _, hm⟩ := hmark
      · exact Or.inl rfl
      · exact hm.status
    obtain ⟨hnot, rfl⟩ | ⟨_, hn⟩ := hcase
    · refine Or.inr ⟨?_, hpos, hsources⟩
      rcases hstatus with heq | hr
      · rw [heq] at hnot ⊢
        exact hs.resolve_left hnot
      · exact hr
    · exact Or.inl (hn.grows.observed hn.grew hsources)

/-- **an event that was applied leaves every later state alone, or is refused for another mark under
its id** -/
theorem applied_again (h : w.Sound A) {c : CounterfactualCall} (hc : w.state.call A c = .ok t)
    (later : List CounterfactualCall) (hv : v = Lib.run (step A) (w.step A c) later)
    (hr : c.Replayable v.state) : v.state.call A c = if v.state.Conflicts c then
      .error (.valueError "counterfactual market event identity has different content")
          else .ok v.state := by
  have hstep : w.step A c = ⟨t, w.sightings ++ c.sightings w.state⟩ := by
    unfold step
    rw [hc]
  have hsound : v.Sound A := by
    rw [hv]
    exact (h.step c).run later
  have hbefore : Before ⟨t, w.sightings ++ c.sightings w.state⟩ v := by
    rw [hv, ← hstep]
    exact run_before _ later
  cases c with
  | enter fill planId => exact hr.elim
  | mark price at' id =>
    obtain ⟨_, hid, hpos, _⟩ := CounterfactualState.observeMark_spec hc
    refine hsound.mark_again ⟨⟨w.state, price, at'⟩, hbefore.sightings.subset ?_, rfl, rfl⟩ hid hpos
    exact List.mem_append_right _ (List.mem_singleton_self _)
  | closedBar price direction approved at' id =>
    obtain ⟨hid, ⟨e, he, hat, hcontent⟩ | ⟨hres, hpos, hnone⟩⟩ := closedBar_applied hc
    · have hone := hbefore.state.source hsound.once he
      have hnot : ¬ v.state.Conflicts (.closedBar price direction approved at' id) :=
        fun hconf => List.cons_ne_nil e [] (hone.symm.trans hconf.1)
      rw [if_neg hnot]
      exact CounterfactualState.observeClosedBar_observed hid ⟨e, hone, hat, hcontent⟩
    · have hvres : v.state.status = .resolved := (hbefore.state.result hres).status.trans hres
      have hvnone : v.state.sourceEvents (.closedBar id price direction approved) = [] :=
        (hbefore.state.bars hres id price direction approved).trans hnone
      have hseen : ∃ x ∈ v.sightings, x.markPrice = price ∧ x.observedAt = at' :=
        ⟨⟨w.state, price, at'⟩,
          hbefore.sightings.subset (List.mem_append_right _ (List.mem_singleton_self _)),
          rfl, rfl⟩
      show v.state.observeClosedBar A price direction approved at' id = _
      rw [CounterfactualState.observeClosedBar_resolved hid hvres hvnone,
        hsound.mark_again hseen hid hpos]
      exact if_congr (and_iff_right hvnone).symm rfl rfl
  | funding rate price at' id =>
    obtain ⟨hs, hid, hpos, hcase⟩ := CounterfactualState.applyFunding_spec hc
    have hsource : ∃ e, t.sourceEvents (.funding id rate price) = [e] ∧
        e.payload.observation = some (.funding id rate price) := by
      obtain ⟨rfl, e, he, hcontent⟩ | ⟨hnew, hn⟩ := hcase
      · exact ⟨e, he, hcontent⟩
      · obtain ⟨e, he, _, hcontent⟩ := hn.grows.observed hn.grew hnew
        exact ⟨e, he, hcontent⟩
    obtain ⟨e, he, hcontent⟩ := hsource
    have hfilled : v.state.status ≠ .pending :=
      hbefore.state.filled
        ((CounterfactualState.call_before hc).filled (CounterfactualState.ne_pending_of hs))
    obtain ⟨fill, hfill⟩ := Option.ne_none_iff_exists'.mp (hsound.filled hfilled).1
    rw [if_neg (show ¬ v.state.Conflicts (.funding rate price at' id) from fun hfalse => hfalse)]
    exact CounterfactualState.applyFunding_again (hsound.status.resolve_left hfilled) hid hpos hfill
      (hr fill hfill) (hbefore.state.source hsound.once he) hcontent

/-- **a counterfactual and its replays**: whatever it is shown from its creation on, an event that
was applied changes nothing again, or is refused because another mark was recorded under its id,
horizons are recorded once, and a result is final -/
theorem replays_settle (A : Arith) {r : CounterfactualRequest} {s₀ : CounterfactualState}
    (hs₀ : CounterfactualState.create r = .ok s₀) (calls later : List CounterfactualCall)
    (c : CounterfactualCall) (w v : Tracked) (hw : w = Lib.run (step A) ⟨s₀, []⟩ calls)
    (hv : v = Lib.run (step A) (w.step A c) later) :
    (∀ t, w.state.call A c = .ok t → c.Replayable v.state →
        v.state.call A c = if v.state.Conflicts c then
        .error (.valueError "counterfactual market event identity has different content")
        else .ok v.state) ∧
      (w.state.outcomes.map HorizonOutcome.horizon).Nodup ∧
      (w.state.entryFill = none → w.sightings = [] ∧ w.state.outcomes = [] ∧
        w.state.maximumFavorableExcursion = 0 ∧ w.state.maximumAdverseExcursion = 0) ∧
      (∀ fill, w.state.entryFill = some fill →
        (∀ h, w.state.outcomes.find? (fun o => o.horizon = h) =
          (w.firstFrom (fill.fillAt + h.duration)).map (Sighting.outcome A · fill h)) ∧
        w.state.maximumFavorableExcursion = (w.grossPnls A fill).foldl max 0 ∧
        w.state.maximumAdverseExcursion = ((w.grossPnls A fill).map A.neg).foldl max 0) ∧
      w.state.version = w.state.events.length ∧
      (w.state.status = .resolved → CounterfactualState.SameResult w.state v.state) := by
  have hsound : w.Sound A := by
    rw [hw]
    exact (Sound.start hs₀).run calls
  have hlater : Before w v := by
    rw [hv]
    exact run_before w (c :: later)
  refine ⟨fun t hc hr => applied_again hsound hc later hv hr, hsound.horizons, fun hnone => ?_,
    fun fill hfill =>
    ⟨hsound.outcome fill hfill, hsound.favorable fill hfill, hsound.adverse fill hfill⟩,
    hsound.version.symm, hlater.state.result⟩
  have hpending : w.state.status = .pending := by
    by_contra hp
    exact (hsound.filled hp).1 hnone
  obtain ⟨_, hout, hf, ha, hseen⟩ := hsound.pending hpending
  exact ⟨hseen, hout, hf, ha⟩

end Tracked

/-! ## the selections of the repository -/

namespace CounterfactualState

variable {s : CounterfactualState} {fill : PaperFill} {at' : Time}

theorem outcome_eq_none {h : Horizon} : s.outcome h = none ↔
    s.outcomes.find? (fun o => o.horizon = h) = none :=
  Option.map_eq_none_iff

theorem dueHorizons_nil (h : ∀ k, fill.fillAt + k.duration ≤ at' → s.outcome k ≠ none) :
    s.dueHorizons fill at' = [] := by
  refine List.filter_eq_nil_iff.mpr fun k _ => ?_
  rw [decide_eq_true_eq, not_and]
  intro hk hle
  refine h k hle (outcome_eq_none.mpr (List.find?_eq_none.mpr fun o ho hok => ?_))
  exact hk (List.mem_map.mpr ⟨o, ho, of_decide_eq_true hok⟩)

end CounterfactualState

namespace Tracked.Sound

variable {A : Arith} {w : Tracked} {fill : PaperFill}

/-- **a trade with the outcome of the last horizon has them all** -/
theorem outcomes_complete (h : w.Sound A) (hfill : w.state.entryFill = some fill)
    (hlast : w.state.outcome .hours24 ≠ none) (k : Horizon) : w.state.outcome k ≠ none := by
  intro hk
  rw [CounterfactualState.outcome_eq_none, h.outcome fill hfill k, Option.map_eq_none_iff] at hk
  refine hlast (CounterfactualState.outcome_eq_none.mpr ?_)
  rw [h.outcome fill hfill .hours24, Option.map_eq_none_iff]
  -- what reaches the last horizon reaches every other
  refine List.find?_eq_none.mpr fun x hx hle => List.find?_eq_none.mp hk x hx ?_
  have hdur : k.duration ≤ Horizon.hours24.duration := by cases k <;> decide
  exact decide_eq_true ((Int.add_le_add_left hdur fill.fillAt).trans (of_decide_eq_true hle))

end Tracked.Sound

namespace ResearchTables

variable {cfg : DeskConfig} {db : ResearchTables} {s : CounterfactualState}
  {states : List CounterfactualState}

theorem unselected_cases {at' : Time} (hstates : db.getMarkObservable cfg s.symbol at' = .ok states)
    (hmem : s ∈ db.counterfactuals.values) (hexp : s.experimentId = cfg.experimentId)
    (hnot : s ∉ states) : s.status ≠ .open ∧
    (s.status = .resolved → s.outcome .hours24 ≠ none ∨ ¬ horizonDue at' s) := by
  simp only [getMarkObservable, bind_eq_ok, raiseIf_eq_ok, pure_ok_iff] at hstates
  obtain ⟨_, _, rfl⟩ := hstates
  rw [mem_select, not_and, not_and] at hnot
  have hkeep := hnot hmem hexp
  simp only [decide_eq_true_eq, true_and, not_or, not_and] at hkeep
  refine ⟨hkeep.1, fun hres => ?_⟩
  by_cases hlast : s.outcome .hours24 = none
  · exact Or.inr (hkeep.2 hres hlast)
  · exact Or.inl hlast

/-- what `apply_funding` says to a trade that is not followed any more -/
def FundingRefused (e : PyError) : Prop :=
  e = .runtimeError "counterfactual research window has ended" ∨
    e = .runtimeError "counterfactual is not research-observable"

/-- **a selected trade is still followed at the settlement** -/
theorem selected_funding {symbol : String} {at' : Time}
    (hstates : db.getFundingObservable cfg symbol at' = .ok states) (hs : s ∈ states)
    (rate price : ℚ) (id : String) : RaisesOnly (¬ FundingRefused ·)
    (s.applyFunding cfg.arith rate price at' id) := by
  simp only [getFundingObservable, bind_eq_ok, raiseIf_eq_ok, pure_ok_iff] at hstates
  obtain ⟨_, _, rfl⟩ := hstates
  obtain ⟨_, _, hkeep⟩ := mem_select.mp hs
  obtain ⟨_, fill, hfill, _, hcase⟩ := of_decide_eq_true hkeep
  have hstatus : s.status = .open ∨ s.status = .resolved := hcase.imp_right And.left
  have hwindow : ¬ (s.status = .resolved ∧ at' > fill.fillAt + researchWindow) := by
    rintro ⟨hres, hlate⟩
    rcases hcase with hopen | ⟨_, _, hge⟩
    · rw [hopen] at hres
      cases hres
    · have hge : at' - researchWindow ≤ fill.fillAt := hge
      linarith
  unfold CounterfactualState.applyFunding
  rw [raiseIf_not_bind hstatus]
  refine RaisesOnly.guard (by rintro (h | h) <;> cases h) ?_
  refine RaisesOnly.bind (RaisesOnly.raiseIf (by rintro (h | h) <;> cases h)) fun _ => ?_
  rw [Option.mem_def.mp hfill, orRaise_some, ok_bind, raiseIf_bind_neg hwindow]
  refine RaisesOnly.bind ?_ fun seen => ?_
  · unfold CounterfactualState.sourceEventExists
    split
    · exact RaisesOnly.ok
    · exact RaisesOnly.guard (by rintro (h | h) <;> cases h) RaisesOnly.ok
    · exact RaisesOnly.error (by rintro (h | h) <;> exact absurd h (by decide))
  · split
    · exact RaisesOnly.ok
    · exact RaisesOnly.ok

/-- **the selections cover the trades that are followed**.  A filled trade whose row a mark does not
select is left alone by the mark, or refuses it because another mark was recorded under its id; and
a trade that is selected for a settlement is not refused the funding as one that is not followed any
more -/
theorem selections_cover (cfg : DeskConfig) (db : ResearchTables) {r : CounterfactualRequest}
    {s₀ : CounterfactualState} (hs₀ : CounterfactualState.create r = .ok s₀)
    (calls : List CounterfactualCall) (w : Tracked)
    (hw : w = Lib.run (Tracked.step cfg.arith) ⟨s₀, []⟩ calls)
    (hmem : w.state ∈ db.counterfactuals.values) (hexp : w.state.experimentId = cfg.experimentId) :
    (w.state.status = .open ∨ w.state.status = .resolved → ∀ (event : ObservedMarketEvent)
        (mark : MarkFundingPayload), event.payload = .markFunding mark →
        event.symbol = w.state.symbol →
        ∀ states, db.getMarkObservable cfg w.state.symbol event.observedAt = .ok states →
        w.state ∉ states →
        w.state.observeMark cfg.arith mark.markPrice event.observedAt event.eventId =
        if w.state.MarkConflicts mark.markPrice event.observedAt event.eventId then
        .error (.valueError "counterfactual market event identity has different content")
        else .ok w.state) ∧
      (∀ symbol at' states, db.getFundingObservable cfg symbol at' = .ok states →
        ∀ s ∈ states, ∀ rate price id, RaisesOnly (¬ FundingRefused ·)
        (s.applyFunding cfg.arith rate price at' id)) := by
  have hsound : w.Sound cfg.arith := by
    rw [hw]
    exact (Tracked.Sound.start hs₀).run calls
  refine ⟨fun hstatus event mark _ _ states hstates hnot => ?_,
      fun symbol at' states hstates s hs rate price id =>
    selected_funding hstates hs rate price id⟩
  obtain ⟨hclosed, hcase⟩ := unselected_cases hstates hmem hexp hnot
  have hres : w.state.status = .resolved := hstatus.resolve_left hclosed
  have hfilled : w.state.status ≠ .pending := CounterfactualState.ne_pending_of hstatus
  obtain ⟨fill, hfill⟩ := Option.ne_none_iff_exists'.mp (hsound.filled hfilled).1
  obtain ⟨plan, hplan⟩ := Option.ne_none_iff_exists'.mp (hsound.filled hfilled).2
  have hnil : w.state.dueHorizons fill event.observedAt = [] := by
    refine CounterfactualState.dueHorizons_nil fun k hle => ?_
    rcases hcase hres with hlast | hdue
    · exact hsound.outcomes_complete hfill hlast k
    · intro hk
      refine hdue ⟨k, by cases k <;> decide, hk, fill, hfill, ?_⟩
      linarith
  have hquiet : w.state.Quiet cfg.arith fill plan mark.markPrice event.observedAt := by
    refine ⟨?_, CounterfactualState.resolved_excursions hres _, fun hopen => absurd hopen hclosed⟩
    rw [CounterfactualState.withOutcomes, hnil, List.map_nil, List.append_nil]
  exact hquiet.observeMark_eq hstatus event.eventId_ne mark.markPrice_pos hsound.once hfill hplan

end ResearchTables

namespace Demo
open Tracked

def hypotheticalFill : PaperFill := enteredState.entryFill.get (by decide +kernel)

def hypotheticalPlan : UUID := ⟨"uuid:plan"⟩

def enteredTrack : Tracked :=
  Lib.run (step .exact) ⟨CounterfactualState.pendingState refusedEntry,
    []⟩ [.enter hypotheticalFill hypotheticalPlan]

def quietMark : CounterfactualCall := .mark 100 120600000 "m"

/-- the mark changes nothing and leaves nothing behind; with another mark recorded under its id it
is refused when it is shown again -/
theorem reused_id_refused :
    CounterfactualState.create refusedEntry = .ok (CounterfactualState.pendingState refusedEntry) ∧
      enteredTrack.state.call .exact quietMark = .ok enteredTrack.state ∧
      (Lib.run (step .exact) (enteredTrack.step .exact quietMark)
          [.mark 101 120700000 "m"]).state.call .exact quietMark =
        .error (.valueError "counterfactual market event identity has different content") := by
  decide +kernel

/-- the same mark, with the later ones under ids of their own -/
theorem marks_shown_again :
    let v := Lib.run (step .exact) (enteredTrack.step .exact quietMark)
      [.mark 101 120700000 "n", .mark 98 120800000 "o"]
    v.state.status = .resolved ∧ v.state.version = 5 ∧
        v.state.call .exact quietMark = .ok v.state := by
  refine ⟨by decide +kernel, by decide +kernel, ?_⟩
  have hagain := (replays_settle .exact (r := refusedEntry) (by decide +kernel)
    [.enter hypotheticalFill hypotheticalPlan] [.mark 101 120700000 "n", .mark 98 120800000 "o"]
    quietMark enteredTrack _ rfl rfl).1
  exact (hagain enteredTrack.state (by decide +kernel) trivial).trans (if_neg (by decide +kernel))

/-- the trade of `refusedEntry`, stopped out by a mark -/
def stoppedTrack : Tracked :=
  Lib.run (step .exact) ⟨CounterfactualState.pendingState refusedEntry, []⟩
    [.enter hypotheticalFill hypotheticalPlan, .mark 98 120800000 "o"]

def stoppedTables : ResearchTables := ⟨.empty, Dict.empty.set ⟨"uuid:refused"⟩ stoppedTrack.state⟩

theorem researchVenue_ne : "binance" ≠ "" := by decide

def nextMark (id : String) (h : id ≠ "") : ObservedMarketEvent :=
  { venue := "binance", stream := "markPrice", symbol := "BTCUSDT", eventId := id,
    venueEventAt := 121800000, observedAt := 121800000, sequence := none,
    payload := .markFunding ⟨98, by decide⟩, venue_ne := researchVenue_ne, stream_ne := by decide,
    symbol_ne := researchSymbol_ne, eventId_ne := h }

/-- the trade is not selected for the next mark; under the id of the mark that stopped it the mark
is refused -/
theorem unselected_mark_refused :
    CounterfactualState.create refusedEntry = .ok (CounterfactualState.pendingState refusedEntry) ∧
      stoppedTrack.state.status = .resolved ∧
      stoppedTables.getMarkObservable researchDesk "BTCUSDT"
        (nextMark "o" (by decide)).observedAt = .ok [] ∧
      stoppedTrack.state.observeMark .exact 98 (nextMark "o" (by decide)).observedAt
          (nextMark "o" (by decide)).eventId =
        .error (.valueError "counterfactual market event identity has different content") := by
  decide +kernel

/-- under an id of its own it is left alone -/
theorem unselected_mark_kept :
    stoppedTables.getMarkObservable researchDesk "BTCUSDT" 121800000 = .ok [] ∧
      stoppedTrack.state.observeMark .exact 98 121800000 "p" = .ok stoppedTrack.state := by
  have hselected : stoppedTables.getMarkObservable researchDesk "BTCUSDT" 121800000 =
    .ok [] := by decide +kernel
  refine ⟨hselected, ?_⟩
  have hcover :=
    (ResearchTables.selections_cover researchDesk stoppedTables (r := refusedEntry)
    (by decide +kernel) [.enter hypotheticalFill hypotheticalPlan, .mark 98 120800000 "o"]
    stoppedTrack rfl (by decide +kernel) (by decide +kernel)).1
  refine (hcover (by decide +kernel) (nextMark "p" (by decide)) ⟨98, by decide⟩ rfl
    (by decide +kernel) [] ?_ List.not_mem_nil).trans (if_neg (by decide +kernel))
  have hsymbol : stoppedTrack.state.symbol = "BTCUSDT" := by decide +kernel
  rw [hsymbol]
  exact hselected

end Demo

end Maais
