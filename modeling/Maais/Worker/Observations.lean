import Maais.Worker.Config

/-!
# The observation buffer

The latest mark of every symbol and the books observed since, in the order in which they arrived.
-/

namespace Maais
open Lib

structure ObservationBuffer where
  marks : Dict String (ObservedMarketEvent × MarkFundingPayload)
  books : Dict String (List BookSnapshot)
  /-- `_book_hashes` -/
  bookEvents : List ObservedMarketEvent
deriving DecidableEq

namespace ObservationBuffer

def empty : ObservationBuffer := ⟨.empty, .empty, []⟩

variable (buffer : ObservationBuffer)

def booksOf (symbol : String) : List BookSnapshot := (buffer.books.get? symbol).getD []

/-- `_replace_latest` on the marks -/
def replaceMark (event : ObservedMarketEvent) (mark : MarkFundingPayload) : Py ObservationBuffer :=
  match buffer.marks.get? event.symbol with
  | none => .ok { buffer with marks := buffer.marks.set event.symbol (event, mark) }
  | some previous =>
    if previous.1.identity = event.identity then do
      raiseIf (previous.1 ≠ event)
        (.runtimeObservationConflict "observation identity has different content")
      return buffer
    else do
      raiseIf (event.observedAt < previous.1.observedAt)
        (.runtimeObservationConflict "latest market observation regressed")
      return { buffer with marks := buffer.marks.set event.symbol (event, mark) }

def snapshot (event : ObservedMarketEvent) (sequence : Nat) (book : OrderBookPayload)
    (mark : MarkFundingPayload) : Py BookSnapshot :=
  if h : event.venueEventAt ≤ event.observedAt then
    .ok
      { eventId := event.eventId, symbol := event.symbol, venueEventAt := event.venueEventAt,
        observedAt := event.observedAt, sequence, bids := book.bids, asks := book.asks,
        markPrice := mark.markPrice, eventId_ne := event.eventId_ne, symbol_ne := event.symbol_ne,
        venue_le := h, bids_ne := book.bids_ne, asks_ne := book.asks_ne,
        bids_desc := book.bids_desc, asks_asc := book.asks_asc, not_crossed := book.not_crossed,
        markPrice_pos := mark.markPrice_pos }
  else .error (.valueError "venue_event_at cannot follow observed_at")

def evict (capacity : Nat) (books : List BookSnapshot) (events : List ObservedMarketEvent) :
    List BookSnapshot × List ObservedMarketEvent :=
  match books with
  | [] => ([], events)
  | oldest :: rest =>
    if capacity < books.length then (rest, events.eraseP (fun e => e.eventId = oldest.eventId))
    else (books, events)

def appendBook (capacity : Nat) (event : ObservedMarketEvent) (sequence : Nat)
    (book : OrderBookPayload) : Py ObservationBuffer :=
  match (buffer.marks.get? event.symbol).filter (fun m => m.1.observedAt ≤ event.observedAt) with
  | none => .ok buffer
  | some mark => do
    let added ← snapshot event sequence book mark.2
    let kept :=
      evict capacity (buffer.booksOf event.symbol ++ [added]) (buffer.bookEvents ++ [event])
    return { buffer with books := buffer.books.set event.symbol kept.1, bookEvents := kept.2 }

def observeBook (capacity : Nat) (event : ObservedMarketEvent) (book : OrderBookPayload) :
    Py ObservationBuffer := do
  let sequence ← orRaise event.sequence
    (.runtimeObservationConflict "paper execution book requires a source sequence")
  match buffer.bookEvents.find? (fun e => e.identity = event.identity) with
  | some existing => do
    raiseIf (existing ≠ event) (.runtimeObservationConflict "book identity has different content")
    return buffer
  | none => buffer.appendBook capacity event sequence book

def observe (cfg : WorkerConfig) (event : ObservedMarketEvent) : Py ObservationBuffer := do
  raiseIf (event.symbol ∉ cfg.manifest.symbols)
    (.valueError ("observation symbol is not configured: " ++ event.symbol))
  match event.payload with
  | .markFunding mark => buffer.replaceMark event mark
  | .orderBook book => buffer.observeBook cfg.observationCapacity event book
  | _ => return buffer

def observeAll (cfg : WorkerConfig) (events : List ObservedMarketEvent) : Py ObservationBuffer :=
  events.foldlM (fun buffer event => buffer.observe cfg event) buffer

def eligibleBooks (symbol : String) (eligibleAfter : Time) : List BookSnapshot :=
  (buffer.booksOf symbol).filter (fun book => book.observedAt > eligibleAfter)

/-- `books_after`, on the buffer at the end of the wait -/
def booksAfter (symbol : String) (eligibleAfter : Time) : Py (List BookSnapshot) := do
  raiseIf (buffer.eligibleBooks symbol eligibleAfter = [])
    (.eligibleBookTimeout ("no eligible " ++ symbol ++ " book observed after " ++
    toString eligibleAfter))
  return buffer.eligibleBooks symbol eligibleAfter

def booksAtOrBefore (symbol : String) (observedAt : Time) : List BookSnapshot :=
  (buffer.booksOf symbol).filter (fun book => book.observedAt ≤ observedAt)

def latestMark (symbol : String) (atOrBefore : Time) : Option (ℚ × ObservedMarketEvent) :=
  ((buffer.marks.get? symbol).filter (fun m => m.1.observedAt ≤ atOrBefore)).map
    (fun m => (m.2.markPrice, m.1))

end ObservationBuffer

end Maais
