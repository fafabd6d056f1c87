import Maais.Lib.Run
import Maais.Market.Events
import Mathlib.Data.List.Sort

/-!
# Polling the funding history

Every poll asks for the settlements since the last poll's end, page by page, and moves the start of
the next request behind its own end.

* `Venue`  the settlements of a venue, each with the time it becomes visible;
* `pages_complete`  the pages of a window whose settlements are visible are the whole window;
* `polls_emit_once`  as long as every poll finds the settlements of its window visible, each
  settlement is emitted exactly once.
-/

namespace Maais
open Lib

/-- `int(value.timestamp() * 1000)` -/
def toMs (t : Time) : Int := t / 1000

inductive FeedError
  | valueError (message : String)
  | runtimeError (message : String)
  | contractError (message : String)
  | publicDataHalt (reasonCode detail : String)
deriving DecidableEq

@[ext] structure Settlement where
  fundingMs : Int
  fundingRate : ℚ
  markPrice : ℚ
  rateType : String
  visibleAt : Time
  markPrice_pos : 0 < markPrice
  rateType_known : rateType = "Regular" ∨ rateType = "Special"
  visible_after : 1000 * fundingMs ≤ visibleAt

instance : DecidableEq Settlement := fun _ _ => decidable_of_iff _ Settlement.ext_iff.symm

def Settlement.payload (s : Settlement) : FundingSettlementPayload :=
  { fundingAt := 1000 * s.fundingMs, fundingRate := s.fundingRate, markPrice := s.markPrice,
    rateType := s.rateType, markPrice_pos := s.markPrice_pos, rateType_known := s.rateType_known }

structure Venue where
  settlements : String → List Settlement
  ascending : ∀ symbol, (settlements symbol).Pairwise (fun s t => s.fundingMs < t.fundingMs)

def Venue.window (venue : Venue) (symbol : String) (startMs endMs : Int) : List Settlement :=
  (venue.settlements symbol).filter (fun s => startMs ≤ s.fundingMs ∧ s.fundingMs ≤ endMs)

/-- what the venue answers at time `t`: the first `limit` visible settlements of the window -/
def Venue.page (venue : Venue) (symbol : String) (startMs endMs : Int) (limit : Nat) (t : Time) :
    List Settlement :=
  ((venue.window symbol startMs endMs).filter (fun s => s.visibleAt ≤ t)).take limit

/-! ## one request -/

def fundingEvent (symbol : String) (h : symbol ≠ "") (observedAt : Time) (s : Settlement) :
    ObservedMarketEvent :=
  { venue := "binance_usdm", stream := "rest:/fapi/v1/fundingRate", symbol
    eventId := "binance_usdm:funding:" ++ symbol ++ ":" ++ toString s.fundingMs ++ ":" ++ s.rateType
    venueEventAt := 1000 * s.fundingMs, observedAt, sequence := none,
      payload := .fundingSettlement s.payload
    venue_ne := by decide, stream_ne := by decide, symbol_ne := h,
      eventId_ne := fun e => by simp at e }

def parseFundingEvents (symbol : String) (h : symbol ≠ "") (observedAt : Time)
    (rows : List Settlement) : Except FeedError (List ObservedMarketEvent) := do
  raiseIf (¬ (rows.map (·.fundingMs)).Pairwise (· < ·))
    (.contractError "funding history must be strictly ascending")
  raiseIf (∃ s ∈ rows, observedAt < 1000 * s.fundingMs)
    (.contractError "funding settlement was observed before venue time")
  return rows.map (fundingEvent symbol h observedAt)

/-- the loop of `get_funding_events`; `answeredAt k` is the time of its `k`-th answer -/
def pages (venue : Venue) (symbol : String) (h : symbol ≠ "") (endMs : Int) (limit : Nat)
    (answeredAt : Nat → Time) : Nat → Nat → Int → Except FeedError (List ObservedMarketEvent)
  | 0, _, _ => .ok []
  | fuel + 1, k, cursor =>
    if cursor ≤ endMs then do
      let page := venue.page symbol cursor endMs limit (answeredAt k)
      let events ← parseFundingEvents symbol h (answeredAt k) page
      match page.getLast? with
      | none => return []
      | some last =>
        raiseIf (∃ s ∈ page, s.fundingMs < cursor ∨ endMs < s.fundingMs)
          (.contractError "funding response returned an event outside the requested window")
        raiseIf (last.fundingMs + 1 ≤ cursor) (.runtimeError "funding pagination did not advance")
        if page.length < limit then return events
        else do
          let rest ← pages venue symbol h endMs limit answeredAt fuel (k + 1) (last.fundingMs + 1)
          return events ++ rest
    else .ok []

def fundingLimit : Nat := 1000

/-- `get_funding_events`: the cursor passes every millisecond of the window at most once -/
def getFundingEvents (venue : Venue) (symbol : String) (h : symbol ≠ "") (startMs endMs : Int)
    (answeredAt : Nat → Time) : Except FeedError (List ObservedMarketEvent) := do
  raiseIf (startMs < 0 ∨ endMs < startMs)
    (.valueError "funding range must be nonnegative and ascending")
  let events ← pages venue symbol h endMs fundingLimit answeredAt
    (endMs + 1 - startMs).toNat 0 startMs
  raiseIf (¬ (events.map (·.eventId)).Nodup)
    (.contractError "funding pagination returned duplicate settlements")
  return events

/-! ## polls -/

structure FeedConfig where
  symbols : List String
  symbols_ne : ∀ symbol ∈ symbols, symbol ≠ ""
  symbols_nodup : symbols.Nodup

/-- one poll: the clock at its start, and when the venue answers its requests -/
structure PollTimes where
  observedAt : Time
  answeredAt : String → Nat → Time
  observed_le : ∀ symbol, observedAt ≤ answeredAt symbol 0
  answered_mono : ∀ symbol k, answeredAt symbol k ≤ answeredAt symbol (k + 1)

/-- what the runtime keeps between polls, and everything it has put on its queue -/
structure FundingFeed where
  nextStartMs : Int
  lastObservedAt : Time
  emitted : List ObservedMarketEvent
deriving DecidableEq

def FundingFeed.create (fundingStartAt : Time) : FundingFeed :=
  ⟨toMs fundingStartAt, fundingStartAt, []⟩

def fundingBatches (venue : Venue) (startMs : Int) (i : PollTimes) :
    (symbols : List String) → (∀ symbol ∈ symbols, symbol ≠ "") →
    Except FeedError (List ObservedMarketEvent)
  | [], _ => .ok []
  | symbol :: rest, h => do
    let batch ← getFundingEvents venue symbol (h symbol List.mem_cons_self) startMs
      (toMs i.observedAt) (i.answeredAt symbol)
    let others ← fundingBatches venue startMs i rest fun s hs =>
      h s (List.mem_cons_of_mem symbol hs)
    return batch ++ others

def pollFundingOnce (cfg : FeedConfig) (venue : Venue) (feed : FundingFeed) (i : PollTimes) :
    Except FeedError FundingFeed := do
  raiseIf (i.observedAt < feed.lastObservedAt) (.publicDataHalt "public_funding_clock_regressed"
    "observed time precedes the last successful funding poll")
  if i.observedAt = feed.lastObservedAt then return feed
  else if toMs i.observedAt < feed.nextStartMs then
    return { feed with lastObservedAt := i.observedAt }
  else do
    let events ← fundingBatches venue feed.nextStartMs i cfg.symbols cfg.symbols_ne
    return ⟨toMs i.observedAt + 1, i.observedAt, feed.emitted ++ events⟩

/-! ## windows and pages -/

section
variable {venue : Venue} {symbol : String} {startMs endMs : Int} {s : Settlement}

theorem Venue.mem_window : s ∈ venue.window symbol startMs endMs ↔
    s ∈ venue.settlements symbol ∧ startMs ≤ s.fundingMs ∧ s.fundingMs ≤ endMs := by
  rw [Venue.window, List.mem_filter, decide_eq_true_eq]

theorem Venue.window_ascending :
    (venue.window symbol startMs endMs).Pairwise (fun s t => s.fundingMs < t.fundingMs) :=
  (venue.ascending symbol).filter _

theorem Venue.window_empty (h : endMs < startMs) : venue.window symbol startMs endMs = [] := by
  refine List.eq_nil_iff_forall_not_mem.mpr fun s hs => ?_
  have hw := Venue.mem_window.mp hs
  omega

theorem Venue.page_visible {limit : Nat} {t : Time}
    (h : ∀ s ∈ venue.window symbol startMs endMs, s.visibleAt ≤ t) :
    venue.page symbol startMs endMs limit t = (venue.window symbol startMs endMs).take limit := by
  rw [Venue.page, List.filter_eq_self.mpr fun s hs => decide_eq_true (h s hs)]

theorem Venue.window_rest {limit : Nat} {last : Settlement}
    (h : ((venue.window symbol startMs endMs).take limit).getLast? = some last) :
    venue.window symbol (last.fundingMs + 1) endMs =
        (venue.window symbol startMs endMs).drop limit := by
  set l := venue.window symbol startMs endMs with hl
  obtain ⟨front, hfront⟩ := List.getLast?_eq_some_iff.mp h
  have hsplit : l = front ++ [last] ++ l.drop limit := by rw [← hfront, List.take_append_drop]
  have hasc : (front ++ [last] ++ l.drop limit).Pairwise (fun s t => s.fundingMs < t.fundingMs) :=
    hsplit ▸ Venue.window_ascending
  obtain ⟨hfl, -, hcross⟩ := List.pairwise_append.mp hasc
  have hlast : last ∈ front ++ [last] := List.mem_append_right front List.mem_cons_self
  have hle : ∀ s ∈ front ++ [last], s.fundingMs ≤ last.fundingMs := by
    intro s hs
    rcases List.mem_append.mp hs with hs | hs
    · exact le_of_lt ((List.pairwise_append.mp hfl).2.2 s hs last List.mem_cons_self)
    · rw [List.mem_singleton.mp hs]
  have hstart : startMs ≤ last.fundingMs := by
    have : last ∈ l := hsplit ▸ List.mem_append_left _ hlast
    exact (Venue.mem_window.mp this).2.1
  have hfilter : venue.window symbol (last.fundingMs + 1) endMs =
      l.filter (fun s => last.fundingMs + 1 ≤ s.fundingMs) := by
    rw [hl, Venue.window, Venue.window, List.filter_filter]
    refine List.filter_congr fun s _ => ?_
    rw [← Bool.decide_and, decide_eq_decide]
    omega
  rw [hfilter, hsplit, List.filter_append, ← hsplit]
  rw [List.filter_eq_nil_iff.mpr fun s hs => by have := hle s hs; simp; omega, List.nil_append]
  exact List.filter_eq_self.mpr fun s hs => by have := hcross last hlast s hs; simp; omega

end

def ObservedMarketEvent.settlementKey (e : ObservedMarketEvent) : String × MarketPayload :=
  (e.symbol, e.payload)

def Settlement.key (symbol : String) (s : Settlement) : String × MarketPayload :=
  (symbol, .fundingSettlement s.payload)

theorem Settlement.key_eq {symbol symbol' : String} {s t : Settlement}
    (h : s.key symbol = t.key symbol') : symbol = symbol' ∧ s.fundingMs = t.fundingMs := by
  simp only [Settlement.key, Prod.mk.injEq, MarketPayload.fundingSettlement.injEq,
    Settlement.payload, FundingSettlementPayload.mk.injEq] at h
  exact ⟨h.1, Int.eq_of_mul_eq_mul_left (by decide) h.2.1⟩

variable {events : List ObservedMarketEvent}

theorem parseFundingEvents_keys {symbol : String} {h : symbol ≠ ""} {t : Time}
    {rows : List Settlement} (he : parseFundingEvents symbol h t rows = .ok events) :
    events.map (·.settlementKey) = rows.map (·.key symbol) := by
  simp only [parseFundingEvents, bind_eq_ok, raiseIf_eq_ok, pure_eq_ok] at he
  obtain ⟨-, -, -, -, he⟩ := he
  rw [← Except.ok.inj he, List.map_map]
  rfl

theorem pages_complete {venue : Venue} {symbol : String} {h : symbol ≠ ""} {endMs : Int}
    {limit : Nat} {answeredAt : Nat → Time} (hlimit : 0 < limit)
    (hmono : ∀ k, answeredAt k ≤ answeredAt (k + 1)) {fuel k : Nat} {cursor : Int}
    (hfuel : (endMs + 1 - cursor).toNat ≤ fuel)
    (hvis : ∀ s ∈ venue.window symbol cursor endMs, s.visibleAt ≤ answeredAt k)
    (he : pages venue symbol h endMs limit answeredAt fuel k cursor = .ok events) :
    events.map (·.settlementKey) = (venue.window symbol cursor endMs).map (·.key symbol) := by
  induction fuel generalizing k cursor events with
  | zero =>
    rw [Venue.window_empty (by omega)]
    rw [pages, Except.ok.injEq] at he
    rw [← he]
    rfl
  | succ fuel ih =>
    rw [pages] at he
    split at he
    next hcur =>
      obtain ⟨page, hpage, he⟩ := bind_eq_ok.mp he
      have hkeys := parseFundingEvents_keys hpage
      rw [Venue.page_visible hvis] at he hkeys
      split at he
      next hnone =>
        -- an empty page of a positive limit: nothing is left
        have hnil : venue.window symbol cursor endMs = [] := by
          rcases List.take_eq_nil_iff.mp (List.getLast?_eq_none_iff.mp hnone) with h0 | h0
          · omega
          · exact h0
        rw [hnil, ← Except.ok.inj he]
        rfl
      next last hlast =>
        simp only [bind_eq_ok, raiseIf_eq_ok] at he
        obtain ⟨-, -, -, hadv, he⟩ := he
        split at he
        next hshort =>
          rw [← Except.ok.inj he, hkeys, List.take_of_length_le]
          rw [List.length_take] at hshort
          omega
        next hfull =>
          obtain ⟨rest, hrest, he⟩ := bind_eq_ok.mp he
          have hwin := Venue.window_rest hlast
          have hrestKeys := ih (by omega) (fun s hs => ?_) hrest
          · rw [← Except.ok.inj he, List.map_append, hkeys, hrestKeys, hwin, ← List.map_append,
              List.take_append_drop]
          · rw [hwin] at hs
            exact (hvis s (List.mem_of_mem_drop hs)).trans (hmono k)
    next hcur =>
      rw [Venue.window_empty (by omega), ← Except.ok.inj he]
      rfl

/-! ## polls and the settlements they emit -/

def Venue.keys (venue : Venue) (symbols : List String) (startMs endMs : Int) :
    List (String × MarketPayload) :=
  symbols.flatMap fun symbol => (venue.window symbol startMs endMs).map (·.key symbol)

variable {symbols : List String}

theorem Venue.keys_nodup {venue : Venue} (h : symbols.Nodup) (startMs endMs : Int) :
    (venue.keys symbols startMs endMs).Nodup := by
  refine List.nodup_flatMap.mpr ⟨fun symbol _ => ?_, h.imp fun hne => ?_⟩
  · refine List.pairwise_map.mpr (Venue.window_ascending.imp fun hlt heq => ?_)
    exact absurd (Settlement.key_eq heq).2 (ne_of_lt hlt)
  · intro x hx hy
    obtain ⟨s, -, rfl⟩ := List.mem_map.mp hx
    obtain ⟨t, -, heq⟩ := List.mem_map.mp hy
    exact hne (Settlement.key_eq heq).1.symm

theorem Venue.mem_keys {venue : Venue} {startMs endMs : Int}
    {x : String × MarketPayload} : x ∈ venue.keys symbols startMs endMs ↔
      ∃ symbol ∈ symbols, ∃ s ∈ venue.window symbol startMs endMs, s.key symbol = x := by
  simp only [Venue.keys, List.mem_flatMap, List.mem_map]

/-- the venue shows every settlement of the poll's window when it answers the poll's first
request -/
def FundingFeed.Prompt (cfg : FeedConfig) (venue : Venue) (feed : FundingFeed)
    (i : PollTimes) : Prop :=
  ∀ symbol ∈ cfg.symbols, ∀ s ∈ venue.window symbol feed.nextStartMs (toMs i.observedAt),
    s.visibleAt ≤ i.answeredAt symbol 0

theorem fundingBatches_keys {venue : Venue} {startMs : Int} {i : PollTimes}
    {h : ∀ symbol ∈ symbols, symbol ≠ ""}
    (hvis : ∀ symbol ∈ symbols, ∀ s ∈ venue.window symbol startMs (toMs i.observedAt),
      s.visibleAt ≤ i.answeredAt symbol 0)
    (he : fundingBatches venue startMs i symbols h = .ok events) :
    events.map (·.settlementKey) = venue.keys symbols startMs (toMs i.observedAt) := by
  induction symbols generalizing events with
  | nil =>
    rw [← Except.ok.inj he]
    rfl
  | cons symbol rest ih =>
    simp only [fundingBatches, getFundingEvents, bind_eq_ok, raiseIf_eq_ok, pure_eq_ok] at he
    obtain ⟨batch, ⟨-, -, pages, hpages, -, -, hbatch⟩, others, hothers, he⟩ := he
    have hhead := pages_complete (by decide) (i.answered_mono symbol) le_rfl
      (hvis symbol List.mem_cons_self) hpages
    have htail := ih (fun s hs => hvis s (List.mem_cons_of_mem symbol hs)) hothers
    rw [← Except.ok.inj he, ← Except.ok.inj hbatch, List.map_append, hhead, htail]
    rfl

/-- what the runtime has emitted: each settlement before the next start once -/
structure FundingFeed.Emitted (cfg : FeedConfig) (venue : Venue) (fundingStartAt : Time)
    (feed : FundingFeed) : Prop where
  keys : (feed.emitted.map (·.settlementKey)).Perm
    (venue.keys cfg.symbols (toMs fundingStartAt) (feed.nextStartMs - 1))
  start : toMs fundingStartAt ≤ feed.nextStartMs
  covered : feed.lastObservedAt = fundingStartAt ∨ toMs feed.lastObservedAt < feed.nextStartMs

theorem Venue.keys_append {venue : Venue} (h : symbols.Nodup) {startMs midMs endMs : Int}
    (hstart : startMs ≤ midMs) (hend : midMs ≤ endMs) :
    (venue.keys symbols startMs (midMs - 1) ++ venue.keys symbols midMs endMs).Perm
      (venue.keys symbols startMs endMs) := by
  have hdisjoint :
      List.Disjoint (venue.keys symbols startMs (midMs - 1)) (venue.keys symbols midMs endMs) := by
    intro x hx hy
    obtain ⟨_, -, s, hs, rfl⟩ := Venue.mem_keys.mp hx
    obtain ⟨_, -, t, ht, heq⟩ := Venue.mem_keys.mp hy
    have hms := (Settlement.key_eq heq).2
    have hsw := Venue.mem_window.mp hs
    have htw := Venue.mem_window.mp ht
    omega
  refine (List.perm_ext_iff_of_nodup
    ((Venue.keys_nodup h _ _).append (Venue.keys_nodup h _ _) hdisjoint)
    (Venue.keys_nodup h _ _)).mpr fun x => ?_
  rw [List.mem_append, Venue.mem_keys, Venue.mem_keys, Venue.mem_keys]
  constructor
  · rintro (⟨symbol, hsym, s, hs, hx⟩ | ⟨symbol, hsym, s, hs, hx⟩)
    all_goals
      have hw := Venue.mem_window.mp hs
      exact ⟨symbol, hsym, s, Venue.mem_window.mpr ⟨hw.1, by omega, by omega⟩, hx⟩
  · rintro ⟨symbol, hsym, s, hs, hx⟩
    have hw := Venue.mem_window.mp hs
    by_cases hmid : s.fundingMs < midMs
    · exact .inl ⟨symbol, hsym, s, Venue.mem_window.mpr ⟨hw.1, by omega, by omega⟩, hx⟩
    · exact .inr ⟨symbol, hsym, s, Venue.mem_window.mpr ⟨hw.1, by omega, by omega⟩, hx⟩

section
variable {cfg : FeedConfig} {venue : Venue} {fundingStartAt : Time}

theorem FundingFeed.create_emitted :
    (FundingFeed.create fundingStartAt).Emitted cfg venue fundingStartAt where
  keys := by
    have hnil : venue.keys cfg.symbols (toMs fundingStartAt) (toMs fundingStartAt - 1) = [] := by
      refine List.flatMap_eq_nil_iff.mpr fun symbol _ => ?_
      rw [Venue.window_empty (by omega), List.map_nil]
    rw [FundingFeed.create, hnil]
    rfl
  start := le_rfl
  covered := .inl rfl

variable {feed : FundingFeed} {feed' : FundingFeed}

theorem FundingFeed.Emitted.poll {i : PollTimes} (h : feed.Emitted cfg venue fundingStartAt)
    (hp : feed.Prompt cfg venue i) (he : pollFundingOnce cfg venue feed i = .ok feed') :
    feed'.Emitted cfg venue fundingStartAt ∧ feed'.lastObservedAt = i.observedAt := by
  obtain ⟨-, -, he⟩ := bind_eq_ok.mp he
  split at he
  next hsame => exact ⟨Except.ok.inj he ▸ h, Except.ok.inj he ▸ hsame.symm⟩
  next hnew =>
    split at he
    next hbefore =>
      rw [← Except.ok.inj he]
      exact ⟨⟨h.keys, h.start, .inr hbefore⟩, rfl⟩
    next hwin =>
      obtain ⟨events, hevents, he⟩ := bind_eq_ok.mp he
      rw [← Except.ok.inj he]
      refine ⟨⟨?_, ?_, .inr (Int.lt_succ _)⟩, rfl⟩
      · show ((feed.emitted ++ events).map (·.settlementKey)).Perm
          (venue.keys cfg.symbols (toMs fundingStartAt) (toMs i.observedAt + 1 - 1))
        rw [List.map_append, fundingBatches_keys hp hevents, Int.add_sub_cancel]
        exact (h.keys.append_right _).trans
          (Venue.keys_append cfg.symbols_nodup h.start (not_lt.mp hwin))
      · have := h.start
        show toMs fundingStartAt ≤ toMs i.observedAt + 1
        omega

def AllPrompt (cfg : FeedConfig) (venue : Venue) : FundingFeed → List PollTimes → Prop
  | _, [] => True
  | feed, i :: polls => feed.Prompt cfg venue i ∧
      ∀ feed', pollFundingOnce cfg venue feed i = .ok feed' → AllPrompt cfg venue feed' polls

theorem FundingFeed.Emitted.polls {polls : List PollTimes}
    (h : feed.Emitted cfg venue fundingStartAt) (hp : AllPrompt cfg venue feed polls)
    (he : polls.foldlM (pollFundingOnce cfg venue) feed = .ok feed') :
    feed'.Emitted cfg venue fundingStartAt ∧ ∀ i ∈ polls.getLast?, feed'.lastObservedAt =
    i.observedAt := by
  induction polls generalizing feed with
  | nil => exact ⟨Except.ok.inj he ▸ h, fun i hi => nomatch hi⟩
  | cons i polls ih =>
    rw [List.foldlM_cons] at he
    obtain ⟨next, hnext, he⟩ := bind_eq_ok.mp he
    have hstep := h.poll hp.1 hnext
    have hrest := ih hstep.1 (hp.2 next hnext) he
    refine ⟨hrest.1, fun j hj => ?_⟩
    cases polls with
    | nil =>
      obtain rfl : i = j := Option.some.inj hj
      exact Except.ok.inj he ▸ hstep.2
    | cons k polls => exact hrest.2 j hj

def FundingFeed.emissions (feed : FundingFeed) (symbol : String) (s : Settlement) : Nat :=
  (feed.emitted.map (·.settlementKey)).count (s.key symbol)

theorem FundingFeed.Emitted.emissions_eq (h : feed.Emitted cfg venue fundingStartAt)
    {symbol : String} (hsym : symbol ∈ cfg.symbols) {s : Settlement}
    (hs : s ∈ venue.settlements symbol) (hF : fundingStartAt ≤ 1000 * s.fundingMs)
    (hV : s.visibleAt < feed.lastObservedAt) : feed.emissions symbol s = 1 := by
  have hvis := s.visible_after
  have hcov : toMs feed.lastObservedAt < feed.nextStartMs := by
    refine h.covered.resolve_left fun heq => ?_
    have : s.visibleAt < fundingStartAt := heq ▸ hV
    exact absurd this (not_lt.mpr (hF.trans hvis))
  have hstart : toMs fundingStartAt ≤ s.fundingMs :=
    Int.ediv_le_of_le_mul (by decide) (by rwa [mul_comm])
  have hend : s.fundingMs ≤ toMs feed.lastObservedAt :=
    (Int.le_ediv_iff_mul_le (by decide)).mpr (by rw [mul_comm]; exact hvis.trans hV.le)
  have hmem : s.key symbol ∈ venue.keys cfg.symbols (toMs fundingStartAt) (feed.nextStartMs - 1) :=
    Venue.mem_keys.mpr ⟨symbol, hsym, s, Venue.mem_window.mpr ⟨hs, hstart, by omega⟩, rfl⟩
  rw [FundingFeed.emissions, h.keys.count_eq]
  exact List.count_eq_one_of_mem (Venue.keys_nodup cfg.symbols_nodup _ _) hmem

theorem polls_emit_once {polls : List PollTimes} {feed : FundingFeed}
    (he : polls.foldlM (pollFundingOnce cfg venue) (.create fundingStartAt) = .ok feed)
    (hp : AllPrompt cfg venue (.create fundingStartAt) polls)
    {symbol : String} (hsym : symbol ∈ cfg.symbols) {s : Settlement}
    (hs : s ∈ venue.settlements symbol) (hF : fundingStartAt ≤ 1000 * s.fundingMs)
    (hV : ∃ i ∈ polls.getLast?, s.visibleAt < i.observedAt) : feed.emissions symbol s = 1 := by
  obtain ⟨i, hi, hV⟩ := hV
  have hrun := FundingFeed.create_emitted.polls hp he
  exact hrun.1.emissions_eq hsym hs hF (hrun.2 i hi ▸ hV)

end

namespace Demo

def singleVenue (s : Settlement) : Venue where
  settlements symbol := if symbol = "BTCUSDT" then [s] else []
  ascending symbol := by
    split
    · exact List.pairwise_singleton _ _
    · exact List.Pairwise.nil

def feedConfig : FeedConfig := ⟨["BTCUSDT"], by decide, by decide⟩

theorem settlementMark_pos : (0 : ℚ) < 1 := by decide

def settlementAfter (delay : Nat) : Settlement where
  fundingMs := 8000
  fundingRate := 1
  markPrice := 1
  rateType := "Regular"
  visibleAt := 8000000 + delay
  markPrice_pos := settlementMark_pos
  rateType_known := by decide
  visible_after := Int.le_add_of_nonneg_right (Int.natCast_nonneg delay)

def pollAt (t : Time) : PollTimes := ⟨t, fun _ _ => t, fun _ => le_rfl, fun _ _ => le_rfl⟩

def twoPolls : List PollTimes := [pollAt 9000000, pollAt 20000000]

/-- The history shows the settlement five seconds late: the first poll's window holds its time and
passes it, the second poll asks only for what came later, and the settlement is never emitted. -/
theorem twoPolls_miss :
    (twoPolls.map (·.observedAt)).Pairwise (· < ·) ∧
    ∃ feed, twoPolls.foldlM (pollFundingOnce feedConfig (singleVenue (settlementAfter 5000000)))
        (.create 0) = .ok feed ∧
      (settlementAfter 5000000).visibleAt < (pollAt 20000000).observedAt ∧
      feed.emissions "BTCUSDT" (settlementAfter 5000000) = 0 := by
  refine ⟨by decide, ⟨20001, 20000000, []⟩, ?_, by decide, rfl⟩
  decide +kernel

theorem polls_emit_once_prompt :
    ∃ feed, twoPolls.foldlM (pollFundingOnce feedConfig (singleVenue (settlementAfter 0)))
        (.create 0) = .ok feed ∧
      feed.emissions "BTCUSDT" (settlementAfter 0) = 1 := by
  have he := eq_ok_of_toOption (Option.some_get (by decide +kernel :
    (twoPolls.foldlM (pollFundingOnce feedConfig (singleVenue (settlementAfter 0)))
      (.create 0)).toOption.isSome )).symm
  refine ⟨_, he, polls_emit_once he ?_ List.mem_cons_self List.mem_cons_self (by decide)
    ⟨_, rfl, by decide⟩⟩
  refine ⟨fun symbol hsym s hs => ?_, fun feed' hfeed =>
    ⟨fun symbol hsym s hs => ?_, fun _ _ => trivial⟩⟩
  all_goals
    obtain rfl := List.mem_singleton.mp hsym
    obtain rfl : s = settlementAfter 0 := List.mem_singleton.mp (Venue.mem_window.mp hs).1
    decide

end Demo

end Maais
