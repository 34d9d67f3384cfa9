import TradeStation.Models.Decoding
import TradeStation.Python.Urls
import TradeStation.Trade
import TradeStation.Validation

/-!
# The client

The orders of `TradeStationClient`: confirming an order or a group, placing one, replacing an order
and cancelling one. Placing and replacing validate what they are given, send it, and make a trade of
the answer; replacing and cancelling first look the order up in the account. The response models are
pydantic's to validate, and parameters.
-/

namespace TradeStation

open Python Foundations

/-- `TradeStationCapabilities`, as far as the client asks for them. -/
structure TradeStationCapabilities where
  supportsSingleOrders : Bool := true
  supportsOrderConfirm : Bool := true
  supportsGroupOrders : Bool := true
  supportsGroupConfirm : Bool := true
  supportsOco : Bool := true
  supportsBracket : Bool := true
  supportsReplace : Bool := true
  supportsStreamOrders : Bool := true
  supportsStreamPositions : Bool := true
  supportsQuoteStream : Bool := true
  supportsBarStream : Bool := true
  supportsMarketDepthStream : Bool := true
  supportsOptionStreams : Bool := true

/-- `MAX_ACCOUNT_IDS_PER_REQUEST`. -/
def maxAccountIdsPerRequest : ℕ := 25

/-- `MAX_ORDER_IDS_PER_REQUEST`. -/
def maxOrderIdsPerRequest : ℕ := 50

/-- `OrderReplaceRequest | OrderRequest`. -/
inductive Replacement
  | request (replacement : OrderReplaceRequest)
  | order (order : OrderRequest)

/-- The response models that the client hands on without looking into them. -/
inductive ResponseModel
  | accountSnapshot
  | balanceSnapshot
  | bodBalanceSnapshot
  | positionSnapshot
  | quoteSnapshot
  | symbolDetail
  | optionExpiration
  | optionSpreadType
  | optionStrikes
  | optionRiskReward
  | barSnapshot
  | orderConfirmation
  deriving DecidableEq

/-- `TradeStationClient`. Its REST client retries as the default policy says. -/
structure TradeStationClient where
  lib : Library
  config : TradeStationConfig
  capabilities : TradeStationCapabilities := {}
  /-- what pydantic makes of the scalars of an `OrderSnapshot` -/
  py : Pydantic
  /-- `model_validate` of the other models returns. -/
  accepts : ResponseModel → Json → Bool := fun _ _ => true
  /-- `AccountSnapshot.model_validate(item).account_id`. -/
  snapshotAccountId : Json → PyStr := fun _ => []
  maxOrderPages : ℕ := 1000
  /-- `__init__` -/
  maxOrderPages_pos : 0 < maxOrderPages := by decide

/-! ## Replacements -/

/-- `ActivationRulesReplace(Rules=rules)` where there are any. -/
def coerceActivationRules (rules : List Json.Dict) : Option (Option ActivationRulesReplace) :=
  if rules.isEmpty then some none else (ActivationRulesReplace.validate rules).map some

/-- `_coerce_replace_advanced_options`; `none` where a validator raises. -/
def coerceReplaceAdvancedOptions (advancedOptions : Option AdvancedOptions) :
    Option (Option AdvancedOptionsReplace) :=
  match advancedOptions with
  | none => some none
  | some options => do
    let marketRules ← coerceActivationRules options.marketActivationRules
    let timeRules ← coerceActivationRules options.timeActivationRules
    let replaced ← AdvancedOptionsReplace.validate marketRules options.showOnlyQuantity timeRules
      options.trailingStop
    return some replaced

/-- `_coerce_replace_request`; `none` where a validator raises. -/
def coerceReplaceRequest (replacement : Replacement) : Option OrderReplaceRequest :=
  match replacement with
  | .request replacement => some replacement
  | .order order => do
    let advancedOptions ← coerceReplaceAdvancedOptions order.fields.advancedOptions
    OrderReplaceRequest.validate advancedOptions order.fields.limitPrice
      (if order.fields.orderType = .market then some .market else none)
      (some order.fields.quantity) order.fields.stopPrice

/-! ## Checks and paths -/

namespace TradeStationClient

variable (client : TradeStationClient)

/-- The REST client that the client builds. -/
def rest : RestClient where
  lib := client.lib
  config := client.config

/-- `_require_scope`. -/
def requireScope (scope : PyStr) : Except Exc Unit := client.config.assertScopeRequested scope

/-- `_require_capability`. -/
def requireCapability (capability : Bool) (name : String) : Except Exc Unit :=
  if capability then .ok ()
  else .error (.capability (str "TradeStation capability unavailable: " ++ str name))

/-- `_require_group_capabilities`. -/
def requireGroupCapabilities (group : GroupOrderRequest) : Except Exc Unit := do
  requireCapability client.capabilities.supportsGroupOrders "supports_group_orders"
  if group.type = .oco then requireCapability client.capabilities.supportsOco "supports_oco"
  if group.type = .bracket then
    requireCapability client.capabilities.supportsBracket "supports_bracket"

/-- `quote(text, safe="")`. -/
def quoted (text : PyStr) : Except Exc PyStr :=
  match quote text with
  | some quoted => .ok quoted
  | none => .error (.value (str "surrogates not allowed"))

/-- `_account_path`. -/
def accountPath (accountIds : List PyStr) : Except Exc PyStr := do
  if accountIds = [] then throw (.value (str "at least one account ID is required"))
  if maxAccountIdsPerRequest < accountIds.length then
    throw (.value (str "at most 25 account IDs are allowed"))
  for accountId in accountIds do
    client.config.assertAccountAllowed client.lib accountId
  return join (str ",") (← accountIds.mapM quoted)

/-- `_order_ids_path`. -/
def orderIdsPath (orderIds : List PyStr) : Except Exc PyStr := do
  let cleaned := (orderIds.map strip).filter (· ≠ [])
  if cleaned = [] then throw (.value (str "at least one order ID is required"))
  if maxOrderIdsPerRequest < cleaned.length then
    throw (.value (str "at most 50 order IDs are allowed"))
  return join (str ",") (← cleaned.mapM quoted)

/-- `_order_id_value`. -/
def orderIdValue (orderId : PyStr) : Except Exc PyStr :=
  if strip orderId = [] then .error (.value (str "order ID must not be blank"))
  else .ok (strip orderId)

/-! ## The preflight -/

/-- `for item in value`; `none` where the value is not iterable. -/
def iterate : Json → Option (List Json)
  | .arr items => some items
  | .obj fields => some (fields.map fun p => .str p.1)
  | .str s => some (s.map fun c => .str [c])
  | _ => none

/-- `tuple(OrderSnapshot.model_validate(item) for item in payload.get("Orders", ()))`. -/
def orderSnapshots (payload : Json.Dict) : Except Exc (List OrderSnapshot) :=
  match iterate ((Json.get payload (str "Orders")).getD (.arr [])) with
  | none => .error (.library (.other (str "object is not iterable")))
  | some items =>
    match items.mapM client.py.orderSnapshot with
    | none => .error .validation
    | some snapshots => .ok snapshots

/-- `get_orders_by_id`. -/
def getOrdersById (accountIds orderIds : List PyStr) : Program (List OrderSnapshot) := do
  Coro.ofExcept (client.requireScope readAccountScope)
  let accounts ← Coro.ofExcept (client.accountPath accountIds)
  let orders ← Coro.ofExcept (orderIdsPath orderIds)
  let payload ← client.rest.get
    (str "/brokerage/accounts/" ++ accounts ++ str "/orders/" ++ orders)
  Coro.ofExcept (client.orderSnapshots payload)

/-- `_assert_order_belongs_to_account`. -/
def assertOrderBelongsToAccount (accountId orderId : PyStr) : Program Unit := do
  let found ← client.getOrdersById [accountId] [orderId]
  if found.any fun snapshot => snapshot.orderId = orderId &&
      (snapshot.accountId = none || snapshot.accountId = some accountId) then
    return ()
  else throw (.requestValidation (str "order was not found for the requested account"))

/-! ## Confirmations -/

/-- `Model.model_validate(item)` of a model that is handed on: the item itself. -/
def validated (model : ResponseModel) (item : Json) : Except Exc Json :=
  if client.accepts model item then .ok item else .error .validation

/-- `confirm_order`. -/
def confirmOrder (order : OrderRequest) : Program Json := do
  Coro.ofExcept (client.requireScope tradeScope)
  Coro.ofExcept
    (requireCapability client.capabilities.supportsOrderConfirm "supports_order_confirm")
  validateOrderForConfig client.lib client.config order
  let response ← client.rest.postConfirm (str "/orderexecution/orderconfirm")
    (orderPayload client.lib order)
  Coro.ofExcept (client.validated .orderConfirmation (.obj response))

/-- `confirm_order_group`. -/
def confirmOrderGroup (group : GroupOrderRequest) : Program Json := do
  Coro.ofExcept (client.requireScope tradeScope)
  Coro.ofExcept (client.requireGroupCapabilities group)
  Coro.ofExcept
    (requireCapability client.capabilities.supportsGroupConfirm "supports_group_confirm")
  validateGroupForConfig client.lib client.config group
  let response ← client.rest.postConfirm (str "/orderexecution/ordergroupconfirm")
    (groupOrderPayload client.lib group)
  Coro.ofExcept (client.validated .orderConfirmation (.obj response))

/-! ## Writes -/

/-- `try` an order write, `except AmbiguousOrderState`. -/
def catchAmbiguous (write : Program Json.Dict) : Program (Except Exc Json.Dict) :=
  tryCatch (do return .ok (← write)) fun exc =>
    if exc.isAmbiguous then return .error exc else throw exc

/-- How the three writes make a trade: of the ambiguous error, or of the acknowledgement. -/
def settle (request : OrderWriteRequest) (payload : Json.Dict) (write : Program Json.Dict) :
    Program TradeStationTrade := do
  let payloadHash := canonicalPayloadHash client.lib payload
  match ← catchAmbiguous write with
  | .error exc => return { request, payload, payloadHash, ambiguousError := some exc }
  | .ok response =>
    match OrderAck.validate response with
    | none => throw .validation
    | some ack => return { request, payload, payloadHash, ack := some ack }

/-- `place_order`. -/
def placeOrder (order : OrderRequest) : Program TradeStationTrade := do
  Coro.ofExcept (client.requireScope tradeScope)
  Coro.ofExcept
    (requireCapability client.capabilities.supportsSingleOrders "supports_single_orders")
  validateOrderForConfig client.lib client.config order
  let payload := orderPayload client.lib order
  client.settle (.order order) payload
    (client.rest.postOrderWrite (str "/orderexecution/orders") payload
      (some order.fields.requestId))

/-- `place_order_group`. -/
def placeOrderGroup (group : GroupOrderRequest) : Program TradeStationTrade := do
  Coro.ofExcept (client.requireScope tradeScope)
  Coro.ofExcept (client.requireGroupCapabilities group)
  validateGroupForConfig client.lib client.config group
  let payload := groupOrderPayload client.lib group
  client.settle (.group group) payload
    (client.rest.postOrderWrite (str "/orderexecution/ordergroups") payload
      (some group.requestId))

/-- `replace_order`. -/
def replaceOrder (accountId orderId : PyStr) (replacement : Replacement) :
    Program TradeStationTrade := do
  Coro.ofExcept (client.requireScope tradeScope)
  Coro.ofExcept (client.requireScope readAccountScope)
  Coro.ofExcept (requireCapability client.capabilities.supportsReplace "supports_replace")
  client.config.assertCanReplaceOrders client.lib accountId
  let cleanedOrderId ← Coro.ofExcept (orderIdValue orderId)
  client.assertOrderBelongsToAccount accountId cleanedOrderId
  match coerceReplaceRequest replacement with
  | none => throw .validation
  | some replacementRequest =>
    Coro.ofExcept (validateReplaceForConfig replacementRequest client.config)
    let localRequestId := match replacement with
      | .order order => order.fields.requestId
      | .request _ => cleanedOrderId
    let payload := replaceOrderPayload client.lib replacementRequest
    let path ← Coro.ofExcept (quoted cleanedOrderId)
    client.settle (.replacement replacementRequest) payload
      (client.rest.putOrderWrite (str "/orderexecution/orders/" ++ path) payload
        (some localRequestId))

/-- `cancel_order`. -/
def cancelOrder (accountId orderId : PyStr) : Program Json.Dict := do
  Coro.ofExcept (client.requireScope tradeScope)
  Coro.ofExcept (client.requireScope readAccountScope)
  Coro.ofExcept (client.config.assertAccountAllowed client.lib accountId)
  let cleanedOrderId ← Coro.ofExcept (orderIdValue orderId)
  client.assertOrderBelongsToAccount accountId cleanedOrderId
  let path ← Coro.ofExcept (quoted cleanedOrderId)
  client.rest.deleteOrderWrite (str "/orderexecution/orders/" ++ path) (some cleanedOrderId)

end TradeStationClient

end TradeStation
