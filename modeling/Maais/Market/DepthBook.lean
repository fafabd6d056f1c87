import Maais.Lib.Replay
import Maais.Lib.Run
import Maais.Market.Details

/-!
# The depth book

The venue publishes a chain of depth deltas and, on request, a snapshot of its book. A session
buffers the deltas until the snapshot is there, applies the buffered ones to it and then every delta
that arrives.

* `BinanceDepthBook.apply`  one delta: ignored, refused, or applied and published;
* `DepthVenue`  what the venue did under every update id, and the deltas that sum it up;
* `Tracks`  the book holds the book of the venue at its current id;
* `outcomes_true`  what every delta of every session leads to.
-/

namespace Maais
open Lib

def binanceUsdmVenue : String := "binance_usdm"

@[ext] structure DepthChange where
  price : ℚ
  quantity : ℚ
  price_pos : 0 < price
  quantity_nonneg : 0 ≤ quantity

instance : DecidableEq DepthChange := fun _ _ => decidable_of_iff _ DepthChange.ext_iff.symm

def DepthChange.change (c : DepthChange) : Change ℚ ℚ :=
  (c.price, if c.quantity = 0 then none else some c.quantity)

@[ext] structure BinanceDepthDelta where
  stream : String
  symbol : String
  eventAt : Time
  transactionAt : Time
  observedAt : Time
  firstUpdateId : Nat
  finalUpdateId : Nat
  previousFinalUpdateId : Nat
  bids : List DepthChange
  asks : List DepthChange
  stream_ne : stream ≠ ""
  symbol_ne : symbol ≠ ""
  first_le : firstUpdateId ≤ finalUpdateId

instance : DecidableEq BinanceDepthDelta :=
  fun _ _ => decidable_of_iff _ BinanceDepthDelta.ext_iff.symm

@[ext] structure BinanceDepthSnapshot where
  symbol : String
  lastUpdateId : Nat
  bids : List (ℚ × ℚ)
  asks : List (ℚ × ℚ)
  symbol_ne : symbol ≠ ""
  bids_ne : bids ≠ []
  asks_ne : asks ≠ []
  bids_pos : ∀ e ∈ bids, 0 < e.1 ∧ 0 < e.2
  asks_pos : ∀ e ∈ asks, 0 < e.1 ∧ 0 < e.2
  bids_nodup : (bids.map Prod.fst).Nodup
  asks_nodup : (asks.map Prod.fst).Nodup
  bids_desc : (bids.map Prod.fst).Pairwise (· ≥ ·)
  asks_asc : (asks.map Prod.fst).Pairwise (· ≤ ·)
  not_crossed : (bids.head bids_ne).1 < (asks.head asks_ne).1

instance : DecidableEq BinanceDepthSnapshot :=
  fun _ _ => decidable_of_iff _ BinanceDepthSnapshot.ext_iff.symm

/-! ## one side of the book -/

def BookLevel.entry (l : BookLevel) : ℚ × ℚ := (l.price, l.quantity)

/-- the levels of one side; prices and quantities are positive -/
structure BookSide where
  levels : Dict ℚ ℚ
  pos : ∀ price quantity, levels.get? price = some quantity → 0 < price ∧ 0 < quantity

namespace BookSide

/-- `dict(snapshot.bids)` -/
def ofSnapshot (l : List (ℚ × ℚ)) (hn : (l.map Prod.fst).Nodup)
    (hp : ∀ e ∈ l, 0 < e.1 ∧ 0 < e.2) : BookSide :=
  ⟨⟨l, hn⟩, fun price quantity h => hp (price, quantity) (Entries.mem_of_lookup h)⟩

theorem change_pos {levels : Dict ℚ ℚ} (hp : ∀ p q, levels.get? p = some q → 0 < p ∧ 0 < q)
    (c : DepthChange) : ∀ p q, (levels.change c.change).get? p = some q → 0 < p ∧ 0 < q := by
  intro p q h
  rw [Dict.get?_change_one, Function.update_apply] at h
  by_cases hk : p = c.change.1
  · rw [if_pos hk] at h
    by_cases hz : c.quantity = 0
    · simp only [DepthChange.change, if_pos hz, reduceCtorEq] at h
    · simp only [DepthChange.change, if_neg hz, Option.some.injEq] at h
      exact ⟨hk ▸ c.price_pos, h ▸ lt_of_le_of_ne c.quantity_nonneg (Ne.symm hz)⟩
  · rw [if_neg hk] at h
    exact hp p q h

/-- one turn of `_apply_changes` -/
def applyChange (side : BookSide) (c : DepthChange) : BookSide :=
  ⟨side.levels.change c.change, change_pos side.pos c⟩

def applyChanges (side : BookSide) (changes : List DepthChange) : BookSide :=
  changes.foldl applyChange side

theorem applyChanges_levels (side : BookSide) (changes : List DepthChange) :
    (side.applyChanges changes).levels = side.levels.changeAll
    (changes.map DepthChange.change) := by
  induction changes generalizing side with
  | nil => rfl
  | cons c changes ih =>
    show ((side.applyChange c).applyChanges changes).levels = _
    rw [ih]
    rfl

variable (r : ℚ → ℚ → Prop) [DecidableRel r] [Std.Total r] [IsTrans ℚ r]

/-- `_published_levels`: the first `depth` levels by price -/
def published (side : BookSide) (depth : Nat) : List BookLevel :=
  (side.levels.best r depth).attach.map fun e =>
    have h := side.pos e.1.1 e.1.2 (side.levels.mem_best r e.2)
    ⟨e.1.1, e.1.2, h.1, h.2⟩

theorem published_entries (side : BookSide) (depth : Nat) :
    (side.published r depth).map BookLevel.entry = side.levels.best r depth := by
  rw [published, List.map_map]
  exact List.attach_map_subtype_val _

theorem published_best (side : BookSide) (depth : Nat) :
    Best r depth side.levels.get? ((side.published r depth).map BookLevel.entry) := by
  rw [published_entries]
  exact side.levels.best_best r depth

end BookSide

/-! ## the book -/

/-- `OrderBookPayload.__post_init__` on the levels -/
def OrderBookPayload.make (bids asks : List BookLevel) : Py OrderBookPayload :=
  if hne : bids = [] ∨ asks = [] then .error (.valueError "order book requires bid and ask depth")
  else if hb : ¬ bids.IsChain (fun left right => left.price > right.price) then
    .error (.valueError "order book bids must be strictly descending")
  else if ha : ¬ asks.IsChain (fun left right => left.price < right.price) then
    .error (.valueError "order book asks must be strictly ascending")
  else if hc : (asks.head (not_or.mp hne).2).price ≤ (bids.head (not_or.mp hne).1).price then
    .error (.valueError "order book is crossed or locked")
  else .ok ⟨bids, asks, (not_or.mp hne).1, (not_or.mp hne).2, not_not.mp hb,
    not_not.mp ha, not_le.mp hc⟩

structure BinanceDepthBook where
  symbol : String
  snapshotSequence : Nat
  currentSequence : Nat
  bids : BookSide
  asks : BookSide
  depth : Nat
  started : Bool

namespace BinanceDepthBook

def fromSnapshot (snapshot : BinanceDepthSnapshot) (depth : Nat) : BinanceDepthBook :=
  { symbol := snapshot.symbol, snapshotSequence := snapshot.lastUpdateId,
    currentSequence := snapshot.lastUpdateId,
    bids := .ofSnapshot snapshot.bids snapshot.bids_nodup snapshot.bids_pos,
    asks := .ofSnapshot snapshot.asks snapshot.asks_nodup snapshot.asks_pos, depth,
    started := false }

variable (book : BinanceDepthBook) (delta : BinanceDepthDelta)

/-- `current=… pu=… U=… u=…` -/
def position (current : String) : String :=
  book.symbol ++ ": " ++ current ++ "=" ++ toString book.currentSequence ++ " pu=" ++
    toString delta.previousFinalUpdateId ++ " U=" ++ toString delta.firstUpdateId ++ " u=" ++
    toString delta.finalUpdateId

/-- `overlaps_current` -/
def overlaps : Prop :=
  delta.firstUpdateId ≤ book.currentSequence ∧ book.currentSequence ≤ delta.finalUpdateId

instance : Decidable (book.overlaps delta) := by
  unfold overlaps
  infer_instance

def advanced : BinanceDepthBook :=
  { book with
    bids := book.bids.applyChanges delta.bids, asks := book.asks.applyChanges delta.asks,
    currentSequence := delta.finalUpdateId, started := true }

def event (payload : OrderBookPayload) : MarketEvent :=
  { venue := binanceUsdmVenue, stream := delta.stream, symbol := delta.symbol,
    eventId := binanceUsdmVenue ++ ":" ++ delta.stream ++ ":" ++ delta.symbol ++ ":depth:" ++
      toString delta.finalUpdateId,
    venueEventAt := delta.transactionAt, observedAt := delta.observedAt,
    sequence := some delta.finalUpdateId, payload := .orderBook payload,
    venue_ne := by decide, stream_ne := delta.stream_ne, symbol_ne := delta.symbol_ne,
    eventId_ne := fun h => by simp [binanceUsdmVenue] at h
    sequenceNotApplicableReason := none
    rest := (⟨delta.eventAt, delta.firstUpdateId, some delta.previousFinalUpdateId,
      some book.snapshotSequence⟩ : BookRange)
    sequence_reason := rfl, reason_ne := by simp }

def publish : Py MarketEvent :=
  match OrderBookPayload.make (book.bids.published (· ≥ ·) book.depth)
      (book.asks.published (· ≤ ·) book.depth) with
  | .ok payload => .ok (book.event delta payload)
  | .error e =>
    match e with
    | .valueError message => .error (.binanceContractError message)
    | e => .error e

/-- `apply`; the book is changed also when nothing can be published of it -/
def apply : BinanceDepthBook × Py (Option MarketEvent) :=
  if delta.symbol ≠ book.symbol then
    (book, .error (.binanceContractError "depth delta and snapshot symbols differ"))
  else if delta.finalUpdateId ≤ book.currentSequence then (book, .ok none)
  else if book.started ∧ delta.previousFinalUpdateId ≠ book.currentSequence then
    (book, .error (.binanceSequenceGap
      ("depth previous final update gap for " ++ book.position delta "current")))
  else if ¬ book.started ∧ ¬ book.overlaps delta ∧
      delta.previousFinalUpdateId ≠ book.currentSequence then
    (book, .error (.binanceSequenceGap
      ("first depth update does not link to snapshot for " ++ book.position delta "snapshot")))
  else (book.advanced delta, some <$> (book.advanced delta).publish delta)

end BinanceDepthBook

/-! ## one session -/

/-- the depth of one symbol in one connection; `outcomes` lists what the book made of every delta it
got -/
structure DepthSession where
  depth : Nat
  bufferSize : Nat
  book : Option BinanceDepthBook
  buffer : List BinanceDepthDelta
  outcomes : List (BinanceDepthDelta × Py (Option MarketEvent))
  failure : Option PyError

inductive DepthInput
  | delta (delta : BinanceDepthDelta)
  | snapshot (snapshot : BinanceDepthSnapshot)

namespace DepthSession

/-- `_run_session` starts with nothing -/
def start (depth bufferSize : Nat) : DepthSession := ⟨depth, bufferSize, none, [], [], none⟩

def raised {α : Type} : Py α → Option PyError
  | .error e => some e
  | .ok _ => none

variable (s : DepthSession)

def feed (book : BinanceDepthBook) (delta : BinanceDepthDelta) : DepthSession :=
  let applied := book.apply delta
  { s with
    book := some applied.1, outcomes := s.outcomes ++ [(delta, applied.2)],
      failure := raised applied.2 }

/-- `_initialize_books` applies what was buffered until something raises -/
def drain : List BinanceDepthDelta → DepthSession → BinanceDepthBook → DepthSession
  | [], s, book => { s with book := some book, buffer := [] }
  | delta :: rest, s, book =>
    let fed := s.feed book delta
    match fed.failure, fed.book with
    | none, some book => drain rest fed book
    | _, _ => fed

/-- `_read_messages` on a delta -/
def read (delta : BinanceDepthDelta) : DepthSession :=
  match s.book with
  | some book => s.feed book delta
  | none =>
    if s.bufferSize ≤ s.buffer.length then
      { s with
        failure := some (.connectorHalt "depth_buffer_saturated"
          ("depth buffer saturated for " ++ delta.symbol)) }
    else { s with buffer := s.buffer ++ [delta] }

def step (s : DepthSession) (input : DepthInput) : DepthSession :=
  if s.failure.isSome then s
  else
    match input with
    | .delta delta => s.read delta
    | .snapshot snapshot =>
      if s.book.isSome then s else drain s.buffer s (.fromSnapshot snapshot s.depth)

end DepthSession

/-! ## the venue -/

structure DepthVenue where
  symbol : String
  bids : Log ℚ ℚ
  asks : Log ℚ ℚ
  deltas : List BinanceDepthDelta
  named : ∀ d ∈ deltas, d.symbol = symbol
  chained : deltas.IsChain (fun a b => b.previousFinalUpdateId = a.finalUpdateId)
  ascending : ∀ d ∈ deltas, d.previousFinalUpdateId < d.firstUpdateId
  bid_summary : ∀ d ∈ deltas,
    bids.Summary d.previousFinalUpdateId d.firstUpdateId d.finalUpdateId
      (d.bids.map DepthChange.change)
  ask_summary : ∀ d ∈ deltas,
    asks.Summary d.previousFinalUpdateId d.firstUpdateId d.finalUpdateId
      (d.asks.map DepthChange.change)

namespace DepthVenue

variable (venue : DepthVenue)

structure Shows (snapshot : BinanceDepthSnapshot) : Prop where
  symbol : snapshot.symbol = venue.symbol
  bids : ∀ price, Entries.lookup price snapshot.bids = venue.bids.after snapshot.lastUpdateId price
  asks : ∀ price, Entries.lookup price snapshot.asks = venue.asks.after snapshot.lastUpdateId price

def Sends : DepthInput → Prop
  | .delta delta => delta ∈ venue.deltas
  | .snapshot snapshot => venue.Shows snapshot

/-- both sides of the book hold a level, and every bid is below every ask -/
structure Quoted (n : Nat) : Prop where
  bid : ∃ price quantity, venue.bids.after n price = some quantity
  ask : ∃ price quantity, venue.asks.after n price = some quantity
  uncrossed : ∀ bid q ask q', venue.bids.after n bid = some q →
    venue.asks.after n ask = some q' → bid < ask

/-- the book of an event is the best `depth` levels of both sides at update `n` -/
structure Shown (depth n : Nat) (event : MarketEvent) : Prop where
  sequence : event.sequence = some n
  levels : ∃ payload, event.payload = .orderBook payload ∧
    Best (· ≥ ·) depth (venue.bids.after n) (payload.bids.map BookLevel.entry) ∧
    Best (· ≤ ·) depth (venue.asks.after n) (payload.asks.map BookLevel.entry)

def Allows (depth : Nat) (delta : BinanceDepthDelta) : Py (Option MarketEvent) → Prop
  | .ok (some event) => venue.Shown depth delta.finalUpdateId event
  | .ok none => True
  | .error (.binanceSequenceGap _) => True
  | .error (.binanceContractError _) => ¬ venue.Quoted delta.finalUpdateId
  | .error _ => False

end DepthVenue

/-! ## what is published -/

variable {asks bids : List BookLevel}

theorem OrderBookPayload.make_ok {payload : OrderBookPayload}
    (h : make bids asks = .ok payload) : payload.bids = bids ∧ payload.asks = asks := by
  unfold make at h
  split_ifs at h
  cases h
  exact ⟨rfl, rfl⟩

theorem OrderBookPayload.make_error {e : PyError}
    (hb : bids.IsChain (fun left right => left.price > right.price))
    (ha : asks.IsChain (fun left right => left.price < right.price))
    (h : make bids asks = .error e) : (∃ message, e = .valueError message) ∧
      (bids = [] ∨ asks = [] ∨ ∃ b ∈ bids, ∃ a ∈ asks, a.price ≤ b.price) := by
  unfold make at h
  split_ifs at h with hne hc
  · cases h
    exact ⟨⟨_, rfl⟩, hne.imp_right Or.inl⟩
  · cases h
    exact ⟨⟨_, rfl⟩, Or.inr (Or.inr ⟨_, List.head_mem _, _, List.head_mem _, hc⟩)⟩

variable {m : ℚ → Option ℚ}

theorem chain_of_best {r : ℚ → ℚ → Prop} {n : Nat} {l : List BookLevel}
    (h : Best r n m (l.map BookLevel.entry)) :
    l.IsChain (fun a b => r a.price b.price ∧ a.price ≠ b.price) := by
  have hs := h.sorted
  rw [List.map_map, List.pairwise_map] at hs
  exact hs.isChain

theorem get_of_best {r : ℚ → ℚ → Prop} {n : Nat} {l : List BookLevel}
    (h : Best r n m (l.map BookLevel.entry)) {level : BookLevel} (hl : level ∈ l) :
    m level.price = some level.quantity :=
  h.holds level.entry (List.mem_map_of_mem hl)

theorem empty_of_best {r : ℚ → ℚ → Prop} {n : Nat} (hn : 0 < n)
    (h : Best r n m ([] : List (ℚ × ℚ))) (price quantity : ℚ) : m price ≠ some quantity := by
  intro hm
  obtain hmem | ⟨hlen, -⟩ := h.leads price quantity hm
  · cases hmem
  · rw [List.length_nil] at hlen
    omega

namespace DepthVenue

variable {venue : DepthVenue} {book : BinanceDepthBook} {delta : BinanceDepthDelta}

structure Tracks (venue : DepthVenue) (book : BinanceDepthBook) : Prop where
  symbol : book.symbol = venue.symbol
  bids : book.bids.levels.get? = venue.bids.after book.currentSequence
  asks : book.asks.levels.get? = venue.asks.after book.currentSequence

theorem Shows.tracks {snapshot : BinanceDepthSnapshot} (h : venue.Shows snapshot) (depth : Nat) :
    venue.Tracks (.fromSnapshot snapshot depth) where
  symbol := h.symbol
  bids := funext h.bids
  asks := funext h.asks

theorem Tracks.advanced (h : venue.Tracks book) (hd : delta ∈ venue.deltas)
    (hlo : delta.previousFinalUpdateId ≤ book.currentSequence)
    (hhi : book.currentSequence ≤ delta.finalUpdateId) : venue.Tracks (book.advanced delta) where
  symbol := h.symbol
  bids := by
    show (book.bids.applyChanges delta.bids).levels.get? = venue.bids.after delta.finalUpdateId
    rw [BookSide.applyChanges_levels, Dict.get?_changeAll, h.bids]
    exact (venue.bid_summary delta hd).replay hlo hhi
  asks := by
    show (book.asks.applyChanges delta.asks).levels.get? = venue.asks.after delta.finalUpdateId
    rw [BookSide.applyChanges_levels, Dict.get?_changeAll, h.asks]
    exact (venue.ask_summary delta hd).replay hlo hhi

theorem Tracks.publish (h : venue.Tracks book) (hcur : book.currentSequence = delta.finalUpdateId)
    (hdepth : 0 < book.depth) : venue.Allows book.depth delta (some <$> book.publish delta) := by
  have hb := book.bids.published_best (· ≥ ·) book.depth
  have ha := book.asks.published_best (· ≤ ·) book.depth
  rw [h.bids, hcur] at hb
  rw [h.asks, hcur] at ha
  unfold BinanceDepthBook.publish
  cases hm : OrderBookPayload.make (book.bids.published (· ≥ ·) book.depth)
      (book.asks.published (· ≤ ·) book.depth) with
  | ok payload =>
    obtain ⟨hpb, hpa⟩ := OrderBookPayload.make_ok hm
    exact ⟨rfl, payload, rfl, hpb ▸ hb, hpa ▸ ha⟩
  | error e =>
    have hdesc := (chain_of_best hb).imp fun a b hab => lt_of_le_of_ne hab.1 (Ne.symm hab.2)
    have hasc := (chain_of_best ha).imp fun a b hab => lt_of_le_of_ne hab.1 hab.2
    obtain ⟨⟨message, rfl⟩, hwhy⟩ := OrderBookPayload.make_error hdesc hasc hm
    show ¬ venue.Quoted delta.finalUpdateId
    intro hq
    obtain he | he | ⟨b, hbm, a, ham, hle⟩ := hwhy
    · obtain ⟨p, q, hpq⟩ := hq.bid
      rw [he] at hb
      exact empty_of_best hdepth hb p q hpq
    · obtain ⟨p, q, hpq⟩ := hq.ask
      rw [he] at ha
      exact empty_of_best hdepth ha p q hpq
    · exact absurd (hq.uncrossed _ _ _ _ (get_of_best hb hbm) (get_of_best ha ham)) (not_lt.mpr hle)

/-- **one delta**: the book goes on to track the venue, and the delta leads to what is allowed -/
theorem Tracks.apply (h : venue.Tracks book) (hd : delta ∈ venue.deltas) (hdepth : 0 < book.depth) :
    venue.Tracks (book.apply delta).1 ∧ (book.apply delta).1.depth = book.depth ∧
      venue.Allows book.depth delta (book.apply delta).2 := by
  unfold BinanceDepthBook.apply
  split_ifs with hsym hold hgap hfirst
  · exact absurd ((venue.named delta hd).trans h.symbol.symm) hsym
  · exact ⟨h, rfl, trivial⟩
  · exact ⟨h, rfl, trivial⟩
  · exact ⟨h, rfl, trivial⟩
  · -- the delta links to the current id, or its range contains it
    have hasc := venue.ascending delta hd
    have hlo : delta.previousFinalUpdateId ≤ book.currentSequence := by
      by_cases hs : book.started
      · have := not_and.mp hgap hs
        omega
      · by_cases ho : book.overlaps delta
        · have := ho.1
          omega
        · have hlink := not_and.mp (not_and.mp hfirst (by simpa using hs)) ho
          omega
    have htracks := h.advanced hd hlo (by omega)
    exact ⟨htracks, rfl, htracks.publish rfl hdepth⟩

end DepthVenue

namespace DepthSession

variable {venue : DepthVenue} {depth : Nat} {s : DepthSession}

structure Follows (venue : DepthVenue) (depth : Nat) (s : DepthSession) : Prop where
  depth_eq : s.depth = depth
  book : ∀ book ∈ s.book, venue.Tracks book ∧ book.depth = depth
  buffer : ∀ d ∈ s.buffer, d ∈ venue.deltas
  outcomes : ∀ o ∈ s.outcomes, venue.Allows depth o.1 o.2

theorem Follows.feed (h : Follows venue depth s) (hpos : 0 < depth) {book : BinanceDepthBook}
    {delta : BinanceDepthDelta} (hbook : venue.Tracks book ∧ book.depth = depth)
    (hd : delta ∈ venue.deltas) : Follows venue depth (s.feed book delta) := by
  obtain ⟨htracks, hdepth, hallows⟩ := hbook.1.apply hd (hbook.2 ▸ hpos)
  refine ⟨h.depth_eq, ?_, h.buffer, ?_⟩
  · intro b hb
    obtain rfl : (book.apply delta).1 = b := by simpa [DepthSession.feed] using hb
    exact ⟨htracks, hdepth.trans hbook.2⟩
  · intro o ho
    obtain ho | ho := List.mem_append.mp ho
    · exact h.outcomes o ho
    · rw [List.mem_singleton.mp ho]
      exact hbook.2 ▸ hallows

theorem Follows.drain {rest : List BinanceDepthDelta} (hrest : ∀ d ∈ rest, d ∈ venue.deltas)
    (h : Follows venue depth s) (hpos : 0 < depth) {book : BinanceDepthBook}
    (hbook : venue.Tracks book ∧ book.depth = depth) :
    Follows venue depth (DepthSession.drain rest s book) := by
  induction rest generalizing s book with
  | nil =>
    refine ⟨h.depth_eq, ?_, by simp [DepthSession.drain], h.outcomes⟩
    intro b hb
    obtain rfl : book = b := by simpa [DepthSession.drain] using hb
    exact hbook
  | cons delta rest ih =>
    have hfed := h.feed hpos hbook (hrest delta List.mem_cons_self)
    simp only [DepthSession.drain]
    split
    · rename_i b _ hb
      exact ih (fun d hd => hrest d (List.mem_cons_of_mem delta hd)) hfed (hfed.book b hb)
    · exact hfed

theorem Follows.read (h : Follows venue depth s) (hpos : 0 < depth) {delta : BinanceDepthDelta}
    (hd : delta ∈ venue.deltas) : Follows venue depth (s.read delta) := by
  unfold DepthSession.read
  split
  · rename_i book hb
    exact h.feed hpos (h.book book hb) hd
  · split_ifs
    · exact ⟨h.depth_eq, h.book, h.buffer, h.outcomes⟩
    · refine ⟨h.depth_eq, h.book, ?_, h.outcomes⟩
      intro d hmem
      obtain hmem | hmem := List.mem_append.mp hmem
      · exact h.buffer d hmem
      · exact List.mem_singleton.mp hmem ▸ hd

theorem Follows.step (h : Follows venue depth s) (hpos : 0 < depth) {input : DepthInput}
    (hi : venue.Sends input) : Follows venue depth (s.step input) := by
  unfold DepthSession.step
  by_cases hf : s.failure.isSome
  · rw [if_pos hf]
    exact h
  · rw [if_neg hf]
    cases input with
    | delta delta => exact h.read hpos hi
    | snapshot snapshot =>
      show Follows venue depth (if s.book.isSome then s else _)
      by_cases hb : s.book.isSome
      · rw [if_pos hb]
        exact h
      · rw [if_neg hb]
        exact h.drain h.buffer hpos ⟨DepthVenue.Shows.tracks hi s.depth, h.depth_eq⟩

theorem Follows.start (venue : DepthVenue) (depth bufferSize : Nat) :
    Follows venue depth (DepthSession.start depth bufferSize) :=
  ⟨rfl, by simp [DepthSession.start], by simp [DepthSession.start], by simp [DepthSession.start]⟩

/-- **every delta of every session**: the event it leads to shows the book of the venue at its last
update id; else it is ignored, a gap is raised, or the venue has no two-sided book at that id -/
theorem outcomes_true (venue : DepthVenue) (depth bufferSize : Nat) (inputs : List DepthInput)
    (hdepth : 0 < depth) (hsent : ∀ input ∈ inputs, venue.Sends input) :
    ∀ o ∈ (run step (start depth bufferSize) inputs).outcomes, venue.Allows depth o.1 o.2 := by
  have hrun : Follows venue depth (run step (start depth bufferSize) inputs) :=
    List.foldlRecOn inputs step (Follows.start venue depth bufferSize)
      fun s hs input hi => hs.step hdepth (hsent input hi)
  exact hrun.outcomes

end DepthSession

/-! ## a book that loses its asks -/

namespace Demo

theorem depthSymbol_ne : "BTCUSDT" ≠ "" := by decide
theorem depthBid_pos : (0 : ℚ) < 99 := by decide

def depthBids : Log ℚ ℚ :=
  ⟨fun p => if p = 99 then some 1 else none, fun n => if n = 3 then [(99, some 2)] else []⟩

def depthAsks : Log ℚ ℚ :=
  ⟨fun p => if p = 101 then some 1 else none, fun n => if n = 4 then [(101, none)] else []⟩

def depthDelta (first final previous : Nat) (bids asks : List DepthChange) (h : first ≤ final) :
    BinanceDepthDelta :=
  ⟨"btcusdt@depth@500ms", "BTCUSDT", final, final, final, first, final, previous, bids,
    asks, by decide, depthSymbol_ne, h⟩

def grownBid : BinanceDepthDelta :=
  depthDelta 2 3 1 [⟨99, 2, depthBid_pos, by decide⟩] [] (by decide)

def lostAsk : BinanceDepthDelta := depthDelta 4 4 3 [] [⟨101, 0, by decide, by decide⟩] (by decide)

theorem depthBids_silent (n : Nat) (h : n ≠ 3) : depthBids.updates n = [] := if_neg h

theorem depthAsks_silent (n : Nat) (h : n ≠ 4) : depthAsks.updates n = [] := if_neg h

theorem grownBid_bids : depthBids.Summary 1 2 3 (grownBid.bids.map DepthChange.change) where
  silent := by intro n h h'; omega
  listed := by
    intro n h h' c hc
    by_cases hn : n = 3
    · subst hn
      revert c
      decide
    · rw [depthBids_silent n hn] at hc
      cases hc
  absolute := by decide +kernel

theorem grownBid_asks : depthAsks.Summary 1 2 3 (grownBid.asks.map DepthChange.change) where
  silent := by intro n h h'; omega
  listed := by
    intro n h h' c hc
    rw [depthAsks_silent n (by omega)] at hc
    cases hc
  absolute := by simp [grownBid, depthDelta]

theorem lostAsk_bids : depthBids.Summary 3 4 4 (lostAsk.bids.map DepthChange.change) where
  silent := by intro n h h'; omega
  listed := by
    intro n h h' c hc
    rw [depthBids_silent n (by omega)] at hc
    cases hc
  absolute := by simp [lostAsk, depthDelta]

theorem lostAsk_asks : depthAsks.Summary 3 4 4 (lostAsk.asks.map DepthChange.change) where
  silent := by intro n h h'; omega
  listed := by
    intro n h h' c hc
    obtain rfl : n = 4 := by omega
    revert c
    decide
  absolute := by decide +kernel

def depthVenue : DepthVenue where
  symbol := "BTCUSDT"
  bids := depthBids
  asks := depthAsks
  deltas := [grownBid, lostAsk]
  named := by decide
  chained := by decide
  ascending := by decide
  bid_summary := by
    intro d hd
    obtain rfl | hd := List.mem_cons.mp hd
    · exact grownBid_bids
    · exact List.mem_singleton.mp hd ▸ lostAsk_bids
  ask_summary := by
    intro d hd
    obtain rfl | hd := List.mem_cons.mp hd
    · exact grownBid_asks
    · exact List.mem_singleton.mp hd ▸ lostAsk_asks

def depthSnapshot : BinanceDepthSnapshot where
  symbol := "BTCUSDT"
  lastUpdateId := 1
  bids := [(99, 1)]
  asks := [(101, 1)]
  symbol_ne := by decide
  bids_ne := by decide
  asks_ne := by decide
  bids_pos := by decide +kernel
  asks_pos := by decide +kernel
  bids_nodup := by decide
  asks_nodup := by decide
  bids_desc := by decide
  asks_asc := by decide
  not_crossed := by decide +kernel

theorem depthSnapshot_shown : depthVenue.Shows depthSnapshot where
  symbol := rfl
  bids := by
    intro price
    show (if (99 : ℚ) = price then some 1 else none) = if price = 99 then some 1 else none
    simp only [eq_comm]
  asks := by
    intro price
    show (if (101 : ℚ) = price then some 1 else none) = if price = 101 then some 1 else none
    simp only [eq_comm]

/-- the first delta is buffered, the snapshot comes, the second delta is live -/
def depthInputs : List DepthInput := [.delta grownBid, .snapshot depthSnapshot, .delta lostAsk]

theorem depthInputs_sent : ∀ input ∈ depthInputs, depthVenue.Sends input := by
  intro input hi
  simp only [depthInputs, List.mem_cons, List.not_mem_nil, or_false] at hi
  obtain rfl | rfl | rfl := hi
  · exact List.mem_cons_self
  · exact depthSnapshot_shown
  · exact List.mem_cons_of_mem _ List.mem_cons_self

/-- the delta that takes the last ask away is neither published nor ignored nor a gap -/
theorem lostAsk_raises :
    (∀ input ∈ depthInputs, depthVenue.Sends input) ∧
      (lostAsk, .error (.binanceContractError "order book requires bid and ask depth")) ∈
        (run DepthSession.step (.start 20 1000) depthInputs).outcomes :=
  ⟨depthInputs_sent, by decide +kernel⟩

theorem outcomes_true_depthInputs :
    ((run DepthSession.step (.start 20 1000) depthInputs).outcomes.map
        (fun o => (o.1.finalUpdateId, o.2.toOption.map Option.isSome))) =
        [(3, some true), (4, none)] ∧
      ∀ o ∈ (run DepthSession.step (.start 20 1000) depthInputs).outcomes,
          depthVenue.Allows 20 o.1 o.2 :=
  ⟨by decide +kernel,
    DepthSession.outcomes_true depthVenue 20 1000 depthInputs (by decide) depthInputs_sent⟩

end Demo

end Maais
