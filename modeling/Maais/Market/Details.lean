import Maais.Market.Events

/-!
# Whole market events

`ObservedMarketEvent` keeps of a payload what the worker reads. A `MarketEvent` is such an event
together with the rest of its payload, as the public connectors parse it.

* `MarketPayload.Rest`  what is left of a payload, by its kind;
* `MarketEvent.kind`  the kind of the payload, `MarketEventKind` in the source.
-/

namespace Maais
open Lib

inductive ReferenceKind
  | primarySpot | secondaryVenue
deriving DecidableEq

inductive AggressorSide
  | buy | sell
deriving DecidableEq

/-- `ClosedBarPayload` without its times -/
structure BarValues where
  open_ : ℚ
  high : ℚ
  low : ℚ
  close : ℚ
  volume : ℚ
  quoteVolume : ℚ
  tradeCount : Nat
  takerBuyVolume : ℚ
  takerBuyQuoteVolume : ℚ
  prices_pos : 0 < open_ ∧ 0 < high ∧ 0 < low ∧ 0 < close
  volumes_nonneg : 0 ≤ volume ∧ 0 ≤ quoteVolume ∧ 0 ≤ takerBuyVolume ∧ 0 ≤ takerBuyQuoteVolume
  low_le : low ≤ min open_ close
  le_high : max open_ close ≤ high
  takerBuy_le : takerBuyVolume ≤ volume
  takerBuyQuote_le : takerBuyQuoteVolume ≤ quoteVolume
deriving DecidableEq

/-- `OrderBookPayload` without its levels -/
structure BookRange where
  publishedAt : Time
  sequenceStart : Nat
  previousSequence : Option Nat
  snapshotSequence : Option Nat
deriving DecidableEq

/-- `MarkFundingPayload` without its mark -/
@[ext] structure MarkValues where
  indexPrice : ℚ
  fundingRate : ℚ
  nextFundingAt : Time
  estimatedSettlePrice : Option ℚ
  indexPrice_pos : 0 < indexPrice
  estimated_nonneg : ∀ p ∈ estimatedSettlePrice, 0 ≤ p

instance : DecidableEq MarkValues := fun _ _ => decidable_of_iff _ MarkValues.ext_iff.symm

@[ext] structure TradePayload where
  price : ℚ
  quantity : ℚ
  aggressorSide : AggressorSide
  price_pos : 0 < price
  quantity_pos : 0 < quantity

instance : DecidableEq TradePayload := fun _ _ => decidable_of_iff _ TradePayload.ext_iff.symm

@[ext] structure ReferencePricePayload where
  referenceKind : ReferenceKind
  instrument : String
  price : ℚ
  sourceEventId : String
  sourceQuantity : Option ℚ
  sourceSide : Option AggressorSide
  /-- `source_bid` and `source_ask`, present together -/
  sourceQuote : Option (ℚ × ℚ)
  sourcePublishedAt : Option Time
  sourceEngineAt : Option Time
  instrument_ne : instrument ≠ ""
  sourceEventId_ne : sourceEventId ≠ ""
  price_pos : 0 < price
  sourceQuantity_pos : ∀ q ∈ sourceQuantity, 0 < q
  sourceQuote_pos : ∀ q ∈ sourceQuote, 0 < q.1 ∧ q.1 < q.2

instance : DecidableEq ReferencePricePayload :=
  fun _ _ => decidable_of_iff _ ReferencePricePayload.ext_iff.symm

structure VenueClockPayload where
  serverTime : Time
deriving DecidableEq

@[ext] structure SymbolStatePayload where
  status : String
  status_ne : status ≠ ""

instance : DecidableEq SymbolStatePayload :=
  fun _ _ => decidable_of_iff _ SymbolStatePayload.ext_iff.symm

inductive OtherPayload
  | trade (payload : TradePayload)
  | referencePrice (payload : ReferencePricePayload)
  | venueClock (payload : VenueClockPayload)
  | symbolState (payload : SymbolStatePayload)
deriving DecidableEq

def MarketPayload.Rest : MarketPayload → Type
  | .closedBar _ => BarValues
  | .orderBook _ => BookRange
  | .markFunding _ => MarkValues
  | .fundingSettlement _ => Unit
  | .other => OtherPayload

instance (p : MarketPayload) : DecidableEq p.Rest :=
  match p with
  | .closedBar _ => inferInstanceAs (DecidableEq BarValues)
  | .orderBook _ => inferInstanceAs (DecidableEq BookRange)
  | .markFunding _ => inferInstanceAs (DecidableEq MarkValues)
  | .fundingSettlement _ => inferInstanceAs (DecidableEq Unit)
  | .other => inferInstanceAs (DecidableEq OtherPayload)

structure MarketEvent extends ObservedMarketEvent where
  sequenceNotApplicableReason : Option String
  rest : payload.Rest
  /-- a missing sequence has a reason, a sequence has none -/
  sequence_reason : sequence.isSome = sequenceNotApplicableReason.isNone
  reason_ne : ∀ r ∈ sequenceNotApplicableReason, r ≠ ""
deriving DecidableEq

end Maais
