import Maais.Paper.Fills

/-!
# Observed market events

A public event with the time it was received. The payloads keep what the modelled functions read:
trades, reference prices, venue clocks and symbol states are `other`.
-/

namespace Maais
open Lib

@[ext] structure ClosedBarPayload where
  timeframe : String
  barOpenAt : Time
  barCloseAt : Time
  closed : Bool
  timeframe_ne : timeframe ≠ ""
  open_lt : barOpenAt < barCloseAt

instance : DecidableEq ClosedBarPayload :=
  fun _ _ => decidable_of_iff _ ClosedBarPayload.ext_iff.symm

@[ext] structure OrderBookPayload where
  bids : List BookLevel
  asks : List BookLevel
  bids_ne : bids ≠ []
  asks_ne : asks ≠ []
  bids_desc : bids.IsChain (fun left right => left.price > right.price)
  asks_asc : asks.IsChain (fun left right => left.price < right.price)
  not_crossed : (bids.head bids_ne).price < (asks.head asks_ne).price

instance : DecidableEq OrderBookPayload :=
  fun _ _ => decidable_of_iff _ OrderBookPayload.ext_iff.symm

@[ext] structure MarkFundingPayload where
  markPrice : ℚ
  markPrice_pos : 0 < markPrice

instance : DecidableEq MarkFundingPayload :=
  fun _ _ => decidable_of_iff _ MarkFundingPayload.ext_iff.symm

@[ext] structure FundingSettlementPayload where
  fundingAt : Time
  fundingRate : ℚ
  markPrice : ℚ
  rateType : String
  markPrice_pos : 0 < markPrice
  rateType_known : rateType = "Regular" ∨ rateType = "Special"

instance : DecidableEq FundingSettlementPayload :=
  fun _ _ => decidable_of_iff _ FundingSettlementPayload.ext_iff.symm

inductive MarketPayload
  | closedBar (payload : ClosedBarPayload)
  | orderBook (payload : OrderBookPayload)
  | markFunding (payload : MarkFundingPayload)
  | fundingSettlement (payload : FundingSettlementPayload)
  | other
deriving DecidableEq

@[ext] structure ObservedMarketEvent where
  venue : String
  stream : String
  symbol : String
  eventId : String
  venueEventAt : Time
  observedAt : Time
  sequence : Option Nat
  payload : MarketPayload
  venue_ne : venue ≠ ""
  stream_ne : stream ≠ ""
  symbol_ne : symbol ≠ ""
  eventId_ne : eventId ≠ ""

instance : DecidableEq ObservedMarketEvent :=
  fun _ _ => decidable_of_iff _ ObservedMarketEvent.ext_iff.symm

def ObservedMarketEvent.identity (e : ObservedMarketEvent) : String × String × String × String :=
  (e.venue, e.stream, e.symbol, e.eventId)

end Maais
