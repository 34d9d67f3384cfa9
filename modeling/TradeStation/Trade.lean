import TradeStation.Errors
import TradeStation.Models.Snapshots

/-!
# Trades

`TradeStationTrade` is what an order write leaves in the caller's hands: the request and its
payload, and the broker's acknowledgement or the ambiguous error that came in its place.
-/

namespace TradeStation

open Python

/-- `OrderWriteRequest`. -/
inductive OrderWriteRequest
  | order (order : OrderRequest)
  | group (group : GroupOrderRequest)
  | replacement (replacement : OrderReplaceRequest)

/-- `TradeStationTrade`. -/
structure TradeStationTrade where
  request : OrderWriteRequest
  payload : Json.Dict
  payloadHash : PyStr
  ack : Option OrderAck := none
  latestOrder : Option OrderSnapshot := none
  events : List Json.Dict := []
  ambiguousError : Option Exc := none

namespace TradeStationTrade

/-- `order_id`. -/
def orderId (trade : TradeStationTrade) : Option PyStr :=
  match trade.latestOrder with
  | some order => some order.orderId
  | none => trade.ack.bind OrderAck.firstOrderId

/-- `is_ambiguous`. -/
def isAmbiguous (trade : TradeStationTrade) : Bool := trade.ambiguousError.isSome

/-- `reconcile_required`. -/
def reconcileRequired (trade : TradeStationTrade) : Bool :=
  trade.isAmbiguous ||
    match trade.ack with
    | some ack => trade.orderId.isNone || !ack.errors.isEmpty
    | none => false

end TradeStationTrade

end TradeStation
