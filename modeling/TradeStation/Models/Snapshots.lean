import TradeStation.Models.Orders

/-!
# What the broker answers

`OrderSnapshot` and `OrderAck`, with the fields that the modelled code reads, and the fingerprint of
an order whose answer was lost. Envelopes keep the fields they do not declare, in `extra`.

`OrderAck.validate` is `OrderAck.model_validate` on a decoded object: a `str` field takes a string
and nothing else, a tuple of `dict` a list of objects, and each field may come under its alias or
under its own name. The fields that are not declared are kept by their keys, which pydantic reads as
UTF-8: it rejects a key with a surrogate.
-/

namespace TradeStation

open Python

/-! ## Snapshots -/

/-- `OrderLegSnapshot`. -/
structure OrderLegSnapshot where
  symbol : Option PyStr := none
  buyOrSell : Option PyStr := none
  quantityOrdered : Option Decimal := none
  extra : Json.Dict := []

/-- `OrderSnapshot`. -/
structure OrderSnapshot where
  accountId : Option PyStr := none
  orderId : PyStr
  status : Option PyStr := none
  symbol : Option PyStr := none
  orderType : Option OrderType := none
  limitPrice : Option Decimal := none
  stopPrice : Option Decimal := none
  openedAt : Option Datetime := none
  legs : List OrderLegSnapshot := []

namespace OrderSnapshot

/-- `primary_symbol`. -/
def primarySymbol (snapshot : OrderSnapshot) : Option PyStr :=
  match snapshot.symbol with
  | some (c :: cs) => some (c :: cs)
  | _ => snapshot.legs.head?.bind OrderLegSnapshot.symbol

/-- `primary_quantity`. -/
def primaryQuantity (snapshot : OrderSnapshot) : Option Decimal :=
  snapshot.legs.head?.bind OrderLegSnapshot.quantityOrdered

/-- `primary_action`. -/
def primaryAction (snapshot : OrderSnapshot) : Option PyStr :=
  snapshot.legs.head?.bind OrderLegSnapshot.buyOrSell

end OrderSnapshot

/-- `UnknownOrderFingerprint`. -/
structure UnknownOrderFingerprint where
  accountId : PyStr
  symbol : PyStr
  tradeAction : TradeAction
  orderType : OrderType
  quantity : Decimal
  submittedAt : Datetime
  limitPrice : Option Decimal := none
  stopPrice : Option Decimal := none
  payloadHash : PyStr
  /-- `require_timezone_aware_submission_time` -/
  submittedAt_aware : submittedAt.aware = true

/-! ## Acknowledgements -/

/-- `OrderAck`. -/
structure OrderAck where
  orderId : Option PyStr := none
  orders : List Json.Dict := []
  errors : List Json.Dict := []

namespace OrderAck

/-- `bool(value)` of a looked-up key. -/
def truthy : Option Json → Bool
  | some value => value.truthy
  | none => false

/-- `order.get("OrderID") or order.get("OrderId") or order.get("order_id")`. -/
def elementId (order : Json.Dict) : Option Json :=
  if truthy (Json.get order (str "OrderID")) then Json.get order (str "OrderID")
  else if truthy (Json.get order (str "OrderId")) then Json.get order (str "OrderId")
  else Json.get order (str "order_id")

/-- The order ID of an element of `Orders`, trimmed, where it is a string that is not blank. -/
def usableId (order : Json.Dict) : Option PyStr :=
  match elementId order with
  | some (.str value) => if strip value = [] then none else some (strip value)
  | _ => none

/-- `first_order_id`. -/
def firstOrderId (ack : OrderAck) : Option PyStr :=
  match ack.orderId with
  | some (c :: cs) => some (c :: cs)
  | _ => ack.orders.findSome? usableId

/-- The value of a field that may come under its alias or under its name. -/
def lookup (body : Json.Dict) (aliasName name : PyStr) : Option Json :=
  (Json.get body aliasName).or (Json.get body name)

/-- `str | None = None`; `none` where the validator raises. -/
def optionalStr : Option Json → Option (Option PyStr)
  | none | some .null => some none
  | some (.str value) => some (some value)
  | _ => none

/-- `tuple[dict[str, Any], ...] = ()`; `none` where the validator raises. -/
def dicts : Option Json → Option (List Json.Dict)
  | none => some []
  | some (.arr items) => items.mapM Json.asDict
  | _ => none

/-- `OrderAck.model_validate(body)`; `none` where it raises `ValidationError`. -/
def validate (body : Json.Dict) : Option OrderAck := do
  guard (∀ entry ∈ body, NoSurrogate entry.1)
  let orderId ← optionalStr (lookup body (str "OrderID") (str "order_id"))
  let orders ← dicts (lookup body (str "Orders") (str "orders"))
  let errors ← dicts (lookup body (str "Errors") (str "errors"))
  return { orderId, orders, errors }

end OrderAck

end TradeStation
