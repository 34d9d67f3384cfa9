import TradeStation.Models.Orders
import TradeStation.Rest.Client

/-!
# Local validation and payloads

What is checked of an order before it is sent, and what is then sent. Validation looks for the kill
switch at every node of an order, so it is a coroutine; its walk over the tree is a recursion over an
order and its children.
-/

namespace TradeStation

open Python Foundations

/-! ## The configuration's checks -/

namespace TradeStationConfig

variable (config : TradeStationConfig) (lib : Library)

/-- `assert_account_allowed`. -/
def assertAccountAllowed (accountId : PyStr) : Except Exc Unit :=
  if accountId ∈ config.accountAllowlist then .ok ()
  else .error (.configuration
    (str "account " ++ lib.repr (.str accountId) ++ str " is not allowlisted"))

/-- `assert_can_submit_orders`. -/
def assertCanSubmitOrders (accountId : PyStr) : Program Unit := do
  Coro.ofExcept (config.assertAccountAllowed lib accountId)
  match config.killSwitchFile with
  | none => return ()
  | some path =>
    let active : Bool ← Coro.ask (Op.exists path)
    if active then throw (.configuration (str "kill switch is active: " ++ path))

/-- `assert_can_replace_orders`. -/
def assertCanReplaceOrders (accountId : PyStr) : Program Unit :=
  config.assertCanSubmitOrders lib accountId

/-- `assert_scope_requested`. -/
def assertScopeRequested (scope : PyStr) : Except Exc Unit :=
  if scope ∈ config.requestedScopes then .ok ()
  else .error (.configuration (str "requested_scopes missing required scope: " ++ scope))

end TradeStationConfig

/-! ## Validation -/

/-- `left or right` of two optional decimals. -/
def decimalOr : Option Decimal → Option Decimal → Option Decimal
  | some left, right => if left.truthy then some left else right
  | none, right => right

/-- `quantity * price`, where it is needed: `some none` where there is no price, `none` where the
product raises `decimal.Overflow`. -/
def notional (quantity : Option Decimal) (price : Option Decimal) : Option (Option Decimal) :=
  match quantity, price with
  | some quantity, some price => (quantity.mul price).map some
  | _, _ => some none

/-- `_estimated_notional`. -/
def estimatedNotional (order : OrderFields) : Option (Option Decimal) :=
  notional (some order.quantity)
    (decimalOr (decimalOr order.estimatedPrice order.limitPrice) order.stopPrice)

/-- `_estimated_replace_notional`. -/
def estimatedReplaceNotional (replacement : OrderReplaceRequest) : Option (Option Decimal) :=
  notional replacement.quantity (decimalOr replacement.limitPrice replacement.stopPrice)

/-- The check of a notional against the cap. -/
def checkNotional (config : TradeStationConfig) (subject : PyStr)
    (value : Option (Option Decimal)) : Except Exc Unit :=
  match value with
  | none => .error .overflow
  | some none => .ok ()
  | some (some value) =>
    if value.gt config.maxOrderNotional then
      .error (.requestValidation (subject ++ str " notional " ++ value.text ++
        str " exceeds max_order_notional " ++ config.maxOrderNotional.text))
    else .ok ()

/-- `if condition: raise RequestValidationError(message)`. -/
def rejectIf (condition : Bool) (message : String) : Except Exc Unit :=
  if condition then .error (.requestValidation (str message)) else .ok ()

/-- `EXTENDED_HOURS_DURATIONS`. -/
def extendedHoursDurations : List Duration := [.dayPlus, .gtcPlus, .gtdPlus]

/-- `_validate_single_order_for_config`. -/
def validateSingleOrderForConfig (order : OrderFields) (config : TradeStationConfig) :
    Except Exc Unit := do
  rejectIf (order.assetClass = .unknown)
    "order asset_class must be set explicitly for risk checks"
  rejectIf (order.orderType = .market && !config.allowMarketOrders)
    "market orders are disabled by configuration"
  rejectIf (order.assetClass = .option && !config.allowOptions)
    "option orders are disabled by configuration"
  rejectIf (order.assetClass = .future && !config.allowFutures)
    "futures orders are disabled by configuration"
  rejectIf (decide (order.timeInForce.duration ∈ extendedHoursDurations) &&
      !config.allowExtendedHours)
    "extended-hours orders are disabled by configuration"
  checkNotional config (str "order") (estimatedNotional order)
  rejectIf (order.orderType = .market && order.estimatedPrice.isNone)
    "market orders require estimated_price for risk validation"

mutual

/-- `validate_order_for_config`. -/
def validateOrderForConfig (lib : Library) (config : TradeStationConfig) :
    OrderRequest → Program Unit
  | .mk fields osos => do
    config.assertCanSubmitOrders lib fields.accountId
    Coro.ofExcept (validateSingleOrderForConfig fields config)
    validateOrdersForConfig lib config osos

/-- `validate_order_for_config` on one order after the other. -/
def validateOrdersForConfig (lib : Library) (config : TradeStationConfig) :
    List OrderRequest → Program Unit
  | [] => return ()
  | order :: orders => do
    validateOrderForConfig lib config order
    validateOrdersForConfig lib config orders

end

/-- `validate_group_for_config`. -/
def validateGroupForConfig (lib : Library) (config : TradeStationConfig)
    (group : GroupOrderRequest) : Program Unit :=
  validateOrdersForConfig lib config group.orders

/-- `validate_replace_for_config`. -/
def validateReplaceForConfig (replacement : OrderReplaceRequest) (config : TradeStationConfig) :
    Except Exc Unit := do
  rejectIf (replacement.orderType = some .market && !config.allowMarketOrders)
    "market order replacements are disabled by configuration"
  checkNotional config (str "replacement") (estimatedReplaceNotional replacement)

/-! ## Payloads -/

/-- A field of a dump, left out where it is `None`. -/
def field (name : String) (value : Option Json) : Json.Dict :=
  (value.map fun value => (str name, value)).toList

@[simp] theorem get_field (name key : String) (value : Option Json) :
    Json.get (field name value) (str key) = if name = key then value else none := by
  cases value with
  | none => simp [field, Json.get]
  | some value => by_cases h : name = key <;> simp [field, Json.get, str_inj, h]

/-- A decimal in a dump. -/
def wireDecimal (value : Decimal) : Json := .str value.fixedPoint

/-- A tuple of `dict`s in a dump, left out where it is the default. -/
def rules (lib : Library) (value : List Json.Dict) : Option Json :=
  if value.isEmpty then none else some (.arr (value.map fun rule => .obj (lib.dumpDict rule)))

/-- `TimeInForce` in a dump. -/
def timeInForcePayload (lib : Library) (value : TimeInForce) : Json :=
  .obj (field "Duration" (some (.str value.duration.value)) ++
    field "Expiration" (value.expiration.map fun time => .str (lib.isoformat time)))

/-- `TrailingStop` in a dump. -/
def trailingStopPayload (value : TrailingStop) : Json :=
  .obj (field "Amount" (value.amount.map wireDecimal) ++
    field "Percent" (value.percent.map wireDecimal))

/-- `AdvancedOptions` in a dump. -/
def advancedOptionsPayload (lib : Library) (value : AdvancedOptions) : Json :=
  .obj (field "AddLiquidity" (value.addLiquidity.map .bool) ++
    field "AllOrNone" (value.allOrNone.map .bool) ++
    field "BookOnly" (value.bookOnly.map .bool) ++
    field "DiscretionaryPrice" (value.discretionaryPrice.map wireDecimal) ++
    field "MarketActivationRules" (rules lib value.marketActivationRules) ++
    field "NonDisplay" (value.nonDisplay.map .bool) ++
    field "PegValue" (value.pegValue.map .str) ++
    field "ShowOnlyQuantity" (value.showOnlyQuantity.map wireDecimal) ++
    field "TimeActivationRules" (rules lib value.timeActivationRules) ++
    field "TrailingStop" (value.trailingStop.map trailingStopPayload))

/-- The fields of an order in a dump, but for the children. -/
def orderFieldsPayload (lib : Library) (order : OrderFields) : Json.Dict :=
  field "AccountID" (some (.str order.accountId)) ++
    field "Symbol" (some (.str order.symbol)) ++
    field "Quantity" (some (wireDecimal order.quantity)) ++
    field "OrderType" (some (.str order.orderType.value)) ++
    field "TradeAction" (some (.str order.tradeAction.value)) ++
    field "TimeInForce" (some (timeInForcePayload lib order.timeInForce)) ++
    field "LimitPrice" (order.limitPrice.map wireDecimal) ++
    field "StopPrice" (order.stopPrice.map wireDecimal) ++
    field "Route" (order.route.map .str) ++
    field "AdvancedOptions" (order.advancedOptions.map (advancedOptionsPayload lib)) ++
    field "OrderConfirmID" (order.orderConfirmId.map .str)

mutual

/-- `order_payload`. -/
def orderPayload (lib : Library) : OrderRequest → Json.Dict
  | .mk fields osos =>
    orderFieldsPayload lib fields ++
      field "OSOs" (match osos with
        | [] => none
        | oso :: osos => some (.arr (orderPayloads lib (oso :: osos))))

/-- `order_payload` of each of some orders. -/
def orderPayloads (lib : Library) : List OrderRequest → List Json
  | [] => []
  | order :: orders => .obj (orderPayload lib order) :: orderPayloads lib orders

end

/-- `group_order_payload`. -/
def groupOrderPayload (lib : Library) (group : GroupOrderRequest) : Json.Dict :=
  field "Type" (some (.str group.type.value)) ++
    field "Orders" (some (.arr (orderPayloads lib group.orders)))

/-- `ActivationRulesReplace` in a dump. -/
def activationRulesPayload (lib : Library) (value : ActivationRulesReplace) : Json :=
  .obj (field "ClearAll" (value.clearAll.map .bool) ++ field "Rules" (rules lib value.rules))

/-- `AdvancedOptionsReplace` in a dump. -/
def advancedOptionsReplacePayload (lib : Library) (value : AdvancedOptionsReplace) : Json :=
  .obj (field "MarketActivationRules" (value.marketActivationRules.map (activationRulesPayload lib)) ++
    field "ShowOnlyQuantity" (value.showOnlyQuantity.map wireDecimal) ++
    field "TimeActivationRules" (value.timeActivationRules.map (activationRulesPayload lib)) ++
    field "TrailingStop" (value.trailingStop.map trailingStopPayload))

/-- `replace_order_payload`. -/
def replaceOrderPayload (lib : Library) (replacement : OrderReplaceRequest) : Json.Dict :=
  field "AdvancedOptions" (replacement.advancedOptions.map (advancedOptionsReplacePayload lib)) ++
    field "LimitPrice" (replacement.limitPrice.map wireDecimal) ++
    field "OrderType" (replacement.orderType.map fun type => .str type.value) ++
    field "Quantity" (replacement.quantity.map wireDecimal) ++
    field "StopPrice" (replacement.stopPrice.map wireDecimal)

/-- `canonical_payload_hash`. -/
def canonicalPayloadHash (lib : Library) (payload : Json.Dict) : PyStr :=
  lib.sha256 (lib.canonicalDumps payload)

end TradeStation
