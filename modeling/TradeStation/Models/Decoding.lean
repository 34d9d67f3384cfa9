import TradeStation.Models.Snapshots
import TradeStation.Python.IsoFormat

/-!
# Validating requests and snapshots

`model_validate` of the request models, and of `OrderSnapshot`, on a decoded object. Each field is read
under its alias or under its name. A key that no field was read under is refused by a request and kept by
an envelope, and what the validators ask is what the structures carry. Scalars are pydantic's to convert,
and parameters; so is the `UUID` that is drawn for each order, by its place in the tree.
-/

namespace TradeStation

open Python

/-- pydantic's conversions of scalars; `none` where they raise. -/
structure Pydantic where
  decimal : Json → Option Decimal
  bool : Json → Option Bool
  datetime : Json → Option Datetime
  uuid : Json → Option PyStr

/-! ## Fields -/

/-- `extra="forbid"`, for fields given by alias and name. -/
def forbidExtra (names : List (String × String)) (body : Json.Dict) : Bool :=
  body.all fun p => names.any fun n =>
    p.1 = str n.1 || (p.1 = str n.2 && (Json.get body (str n.1)).isNone)

/-- `extra="allow"`: what no field was read under is kept, by keys that pydantic reads as UTF-8; `none`
where it raises for a key. -/
def keepExtra (names : List (String × String)) (body : Json.Dict) : Option Json.Dict :=
  let extra := body.filter fun p => !names.any fun n =>
    p.1 = str n.1 || (p.1 = str n.2 && (Json.get body (str n.1)).isNone)
  if ∀ p ∈ extra, NoSurrogate p.1 then some extra else none

/-- A field without a default. -/
def requiredField {α : Type} (body : Json.Dict) (aliasName name : String)
    (parse : Json → Option α) : Option α :=
  (OrderAck.lookup body (str aliasName) (str name)).bind parse

/-- A field that may be `None`, which is its default. -/
def optionalField {α : Type} (body : Json.Dict) (aliasName name : String)
    (parse : Json → Option α) : Option (Option α) :=
  match OrderAck.lookup body (str aliasName) (str name) with
  | none | some .null => some none
  | some value => (parse value).map some

/-- A field with another default. -/
def defaultField {α : Type} (body : Json.Dict) (aliasName name : String)
    (parse : Json → Option α) (default : α) : Option α :=
  match OrderAck.lookup body (str aliasName) (str name) with
  | none => some default
  | some value => parse value

/-- `tuple[dict[str, Any], ...] = ()`. -/
def rulesField (body : Json.Dict) (aliasName name : String) : Option (List Json.Dict) :=
  OrderAck.dicts (OrderAck.lookup body (str aliasName) (str name))

/-- `str`. -/
def strValue : Json → Option PyStr
  | .str s => some s
  | _ => none

/-- A `tuple`, less the conversion of its items. -/
def tupleValue : Json → Option (List Json)
  | .arr items => some items
  | _ => none

/-- An enumeration, by the values of its members. -/
def enumValue {α : Type} (value : α → PyStr) (members : List α) : Json → Option α
  | .str s => members.find? fun a => value a = s
  | _ => none

/-- `AssetClass.value`. -/
def AssetClass.value : AssetClass → PyStr
  | .equity => str "EQUITY"
  | .etf => str "ETF"
  | .option => str "OPTION"
  | .future => str "FUTURE"
  | .index => str "INDEX"
  | .unknown => str "UNKNOWN"

/-- `list(AssetClass)`. -/
def AssetClass.members : List AssetClass := [.equity, .etf, .option, .future, .index, .unknown]

/-- `list(TradeAction)`. -/
def TradeAction.members : List TradeAction :=
  [.buy, .sell, .buyToCover, .sellShort, .buyToOpen, .buyToClose, .sellToOpen, .sellToClose]

/-- `list(OrderType)`. -/
def OrderType.members : List OrderType := [.limit, .stopMarket, .market, .stopLimit]

/-- `list(Duration)`. -/
def Duration.members : List Duration :=
  [.day, .dayPlus, .gtc, .gtcPlus, .gtd, .gtdPlus, .open, .close, .ioc, .fok, .minute1, .minute3,
    .minute5]

/-- `list(GroupType)`. -/
def GroupType.members : List GroupType := [.normal, .oco, .bracket]

/-! ## Parts of an order -/

namespace Pydantic

variable (py : Pydantic)

/-- `TimeInForce.model_validate`. -/
def timeInForce : Json → Option TimeInForce
  | .obj body => do
    if forbidExtra [("Duration", "duration"), ("Expiration", "expiration")] body = false then none
    let duration ← requiredField body "Duration" "duration"
      (enumValue Duration.value Duration.members)
    let expiration ← optionalField body "Expiration" "expiration" py.datetime
    if h : duration = .gtd ∨ duration = .gtdPlus → expiration ≠ none then
      some { duration, expiration, dated := h }
    else none
  | _ => none

/-- `TrailingStop.model_validate`. -/
def trailingStop : Json → Option TrailingStop
  | .obj body => do
    if forbidExtra [("Amount", "amount"), ("Percent", "percent")] body = false then none
    let amount ← optionalField body "Amount" "amount" py.decimal
    let percent ← optionalField body "Percent" "percent" py.decimal
    if h : amount.isSome ≠ percent.isSome ∧ Positive amount ∧ Positive percent then
      some { amount, percent, one_offset := h.1, amount_pos := h.2.1, percent_pos := h.2.2 }
    else none
  | _ => none

/-- `AdvancedOptions.model_validate`. -/
def advancedOptions : Json → Option AdvancedOptions
  | .obj body => do
    if forbidExtra [("AddLiquidity", "add_liquidity"), ("AllOrNone", "all_or_none"),
        ("BookOnly", "book_only"), ("DiscretionaryPrice", "discretionary_price"),
        ("MarketActivationRules", "market_activation_rules"), ("NonDisplay", "non_display"),
        ("PegValue", "peg_value"), ("ShowOnlyQuantity", "show_only_quantity"),
        ("TimeActivationRules", "time_activation_rules"), ("TrailingStop", "trailing_stop")]
        body = false then none
    let addLiquidity ← optionalField body "AddLiquidity" "add_liquidity" py.bool
    let allOrNone ← optionalField body "AllOrNone" "all_or_none" py.bool
    let bookOnly ← optionalField body "BookOnly" "book_only" py.bool
    let discretionaryPrice ←
      optionalField body "DiscretionaryPrice" "discretionary_price" py.decimal
    let marketActivationRules ← rulesField body "MarketActivationRules" "market_activation_rules"
    let nonDisplay ← optionalField body "NonDisplay" "non_display" py.bool
    let pegValue ← optionalField body "PegValue" "peg_value" strValue
    let showOnlyQuantity ← optionalField body "ShowOnlyQuantity" "show_only_quantity" py.decimal
    let timeActivationRules ← rulesField body "TimeActivationRules" "time_activation_rules"
    let trailingStop ← optionalField body "TrailingStop" "trailing_stop" py.trailingStop
    if h : Positive discretionaryPrice ∧ Positive showOnlyQuantity then
      some
        { addLiquidity, allOrNone, bookOnly, discretionaryPrice, marketActivationRules, nonDisplay,
          pegValue, showOnlyQuantity, timeActivationRules, trailingStop,
          discretionaryPrice_pos := h.1, showOnlyQuantity_pos := h.2 }
    else none
  | _ => none

/-! ## Orders -/

/-- The fields of an order, by alias and name. -/
def orderNames : List (String × String) :=
  [("AccountID", "account_id"), ("Symbol", "symbol"), ("Quantity", "quantity"),
    ("OrderType", "order_type"), ("TradeAction", "trade_action"), ("TimeInForce", "time_in_force"),
    ("LimitPrice", "limit_price"), ("StopPrice", "stop_price"), ("Route", "route"),
    ("AdvancedOptions", "advanced_options"), ("OrderConfirmID", "order_confirm_id"),
    ("OSOs", "osos"), ("request_id", "request_id"), ("asset_class", "asset_class"),
    ("client_order_id", "client_order_id"), ("estimated_price", "estimated_price")]

/-- `OrderRequest.model_validate`, but for `OSOs`; `fresh` is the `UUID` that is drawn. -/
def orderFields (fresh : PyStr) (body : Json.Dict) : Option OrderFields := do
  if forbidExtra orderNames body = false then none
  let accountId ← requiredField body "AccountID" "account_id" strValue
  let symbol ← requiredField body "Symbol" "symbol" strValue
  let quantity ← requiredField body "Quantity" "quantity" py.decimal
  let orderType ← requiredField body "OrderType" "order_type"
    (enumValue OrderType.value OrderType.members)
  let tradeAction ← requiredField body "TradeAction" "trade_action"
    (enumValue TradeAction.value TradeAction.members)
  let timeInForce ← requiredField body "TimeInForce" "time_in_force" py.timeInForce
  let limitPrice ← optionalField body "LimitPrice" "limit_price" py.decimal
  let stopPrice ← optionalField body "StopPrice" "stop_price" py.decimal
  let route ← optionalField body "Route" "route" strValue
  let advancedOptions ← optionalField body "AdvancedOptions" "advanced_options" py.advancedOptions
  let orderConfirmId ← optionalField body "OrderConfirmID" "order_confirm_id" strValue
  let requestId ← defaultField body "request_id" "request_id" py.uuid fresh
  let assetClass ← defaultField body "asset_class" "asset_class"
    (enumValue AssetClass.value AssetClass.members) .equity
  let clientOrderId ← optionalField body "client_order_id" "client_order_id" strValue
  let estimatedPrice ← optionalField body "estimated_price" "estimated_price" py.decimal
  if h : (strip accountId ≠ [] ∧ strip symbol ≠ []) ∧
      (quantity.nonpos = false ∧ Positive limitPrice ∧ Positive stopPrice ∧
        Positive estimatedPrice) ∧
      (orderType = .limit → limitPrice ≠ none) ∧ (orderType = .stopMarket → stopPrice ≠ none) ∧
      (orderType = .stopLimit → limitPrice ≠ none ∧ stopPrice ≠ none) then
    some
      { accountId := strip accountId, symbol := strip symbol, quantity, orderType, tradeAction,
        timeInForce, limitPrice, stopPrice, route, advancedOptions, orderConfirmId, requestId,
        assetClass, clientOrderId, estimatedPrice,
        accountId_clean := ⟨h.1.1, strip_strip accountId⟩,
        symbol_clean := ⟨h.1.2, strip_strip symbol⟩,
        quantity_pos := h.2.1.1, limitPrice_pos := h.2.1.2.1, stopPrice_pos := h.2.1.2.2.1,
        estimatedPrice_pos := h.2.1.2.2.2, limit_price := h.2.2.1, stop_price := h.2.2.2.1,
        both_prices := h.2.2.2.2 }
  else none

theorem sizeOf_of_get {body : Json.Dict} {key : PyStr} {value : Json}
    (h : Json.get body key = some value) : sizeOf value < sizeOf (Json.obj body) := by
  obtain ⟨⟨k, v⟩, hfind, rfl⟩ := Option.map_eq_some_iff.1 h
  have hmem := List.sizeOf_lt_of_mem (List.mem_of_find?_eq_some hfind)
  simp only [Prod.mk.sizeOf_spec, Json.obj.sizeOf_spec] at hmem ⊢
  omega

theorem sizeOf_of_lookup {body : Json.Dict} {aliasName name : PyStr} {value : Json}
    (h : OrderAck.lookup body aliasName name = some value) :
    sizeOf value < sizeOf (Json.obj body) := by
  rcases Option.or_eq_some_iff.1 h with h | ⟨-, h⟩
  · exact sizeOf_of_get h
  · exact sizeOf_of_get h

mutual

/-- `OrderRequest.model_validate` of an order at a place of a tree. -/
def order (uuid4 : List ℕ → PyStr) (place : List ℕ) : Json → Option OrderRequest
  | .obj body => do
    let fields ← py.orderFields (uuid4 place) body
    match h : OrderAck.lookup body (str "OSOs") (str "osos") with
    | none => some (.mk fields [])
    | some (.arr items) =>
      have : sizeOf items < 1 + sizeOf body := by
        have hsize := sizeOf_of_lookup h
        simp only [Json.arr.sizeOf_spec, Json.obj.sizeOf_spec] at hsize
        omega
      let osos ← orders uuid4 place 0 items
      some (.mk fields osos)
    | _ => none
  | _ => none
termination_by body => sizeOf body

/-- `OrderRequest.model_validate` of the children of a place, from the `index`-th on. -/
def orders (uuid4 : List ℕ → PyStr) (place : List ℕ) (index : ℕ) :
    List Json → Option (List OrderRequest)
  | [] => some []
  | item :: items => do
    let child ← order uuid4 (index :: place) item
    let rest ← orders uuid4 place (index + 1) items
    some (child :: rest)
termination_by items => sizeOf items

end

theorem order_obj (uuid4 : List ℕ → PyStr) (place : List ℕ) (body : Json.Dict) :
    py.order uuid4 place (.obj body) = (py.orderFields (uuid4 place) body).bind fun fields =>
      match OrderAck.lookup body (str "OSOs") (str "osos") with
      | none => some (.mk fields [])
      | some (.arr items) => (py.orders uuid4 place 0 items).map (.mk fields)
      | _ => none := by
  rw [order]
  cases hfields : py.orderFields (uuid4 place) body with
  | none => rfl
  | some fields =>
    simp only [Option.bind_some, Option.bind_eq_bind]
    split
    · next h => rw [h]
    · next items h =>
      rw [h]
      exact (Option.map_eq_bind ..).symm
    · next hnone harr =>
      split
      · next h => exact absurd h hnone
      · next items h => exact absurd h (harr items)
      · rfl

/-! ## Groups -/

/-- `GroupOrderRequest.model_validate`; `fresh` is the `UUID` that is drawn for the group. -/
def groupOrder (uuid4 : List ℕ → PyStr) (fresh : PyStr) : Json → Option GroupOrderRequest
  | .obj body => do
    if forbidExtra [("Type", "type_"), ("Orders", "orders"), ("request_id", "request_id")] body =
        false then none
    let type ← requiredField body "Type" "type_" (enumValue GroupType.value GroupType.members)
    let items ← requiredField body "Orders" "orders" tupleValue
    let orders ← py.orders uuid4 [] 0 items
    let requestId ← defaultField body "request_id" "request_id" py.uuid fresh
    if h : orders ≠ [] ∧ (type = .oco → 2 ≤ orders.length) ∧
        (type = .bracket → 3 ≤ orders.length) ∧
        (∀ o ∈ orders, ∀ o' ∈ orders, o.fields.accountId = o'.fields.accountId) ∧
        (∀ o ∈ orders, ∀ o' ∈ orders, o.fields.symbol = o'.fields.symbol) then
      some
        { type, orders, requestId, nonempty := h.1, oco := h.2.1, bracket := h.2.2.1,
          one_account := h.2.2.2.1, one_symbol := h.2.2.2.2 }
    else none
  | _ => none

/-! ## Replacements -/

/-- `ActivationRulesReplace.model_validate`. -/
def activationRulesReplace : Json → Option ActivationRulesReplace
  | .obj body => do
    if forbidExtra [("ClearAll", "clear_all"), ("Rules", "rules")] body = false then none
    let clearAll ← optionalField body "ClearAll" "clear_all" py.bool
    let rules ← rulesField body "Rules" "rules"
    if h : clearAll = some true ∨ rules ≠ [] then some { clearAll, rules, some_rule := h } else none
  | _ => none

/-- `AdvancedOptionsReplace.model_validate`. -/
def advancedOptionsReplace : Json → Option AdvancedOptionsReplace
  | .obj body => do
    if forbidExtra [("MarketActivationRules", "market_activation_rules"),
        ("ShowOnlyQuantity", "show_only_quantity"),
        ("TimeActivationRules", "time_activation_rules"), ("TrailingStop", "trailing_stop")]
        body = false then none
    let marketActivationRules ← optionalField body "MarketActivationRules"
      "market_activation_rules" py.activationRulesReplace
    let showOnlyQuantity ← optionalField body "ShowOnlyQuantity" "show_only_quantity" py.decimal
    let timeActivationRules ← optionalField body "TimeActivationRules" "time_activation_rules"
      py.activationRulesReplace
    let trailingStop ← optionalField body "TrailingStop" "trailing_stop" py.trailingStop
    AdvancedOptionsReplace.validate marketActivationRules showOnlyQuantity timeActivationRules
      trailingStop
  | _ => none

/-- `OrderReplaceRequest.model_validate`. -/
def orderReplaceRequest : Json → Option OrderReplaceRequest
  | .obj body => do
    if forbidExtra [("AdvancedOptions", "advanced_options"), ("LimitPrice", "limit_price"),
        ("OrderType", "order_type"), ("Quantity", "quantity"), ("StopPrice", "stop_price")]
        body = false then none
    let advancedOptions ← optionalField body "AdvancedOptions" "advanced_options"
      py.advancedOptionsReplace
    let limitPrice ← optionalField body "LimitPrice" "limit_price" py.decimal
    let orderType ← optionalField body "OrderType" "order_type"
      (enumValue OrderType.value OrderType.members)
    let quantity ← optionalField body "Quantity" "quantity" py.decimal
    let stopPrice ← optionalField body "StopPrice" "stop_price" py.decimal
    OrderReplaceRequest.validate advancedOptions limitPrice orderType quantity stopPrice
  | _ => none

/-! ## Snapshots -/

/-- `OrderLegSnapshot.model_validate`. Fields that are not kept are validated all the same. -/
def orderLegSnapshot : Json → Option OrderLegSnapshot
  | .obj body => do
    let extra ← keepExtra [("Symbol", "symbol"), ("BuyOrSell", "buy_or_sell"),
      ("QuantityOrdered", "quantity_ordered"), ("QuantityRemaining", "quantity_remaining"),
      ("ExecQuantity", "exec_quantity"), ("ExecutionPrice", "execution_price")] body
    let symbol ← optionalField body "Symbol" "symbol" strValue
    let buyOrSell ← optionalField body "BuyOrSell" "buy_or_sell" strValue
    let quantityOrdered ← optionalField body "QuantityOrdered" "quantity_ordered" py.decimal
    let _ ← optionalField body "QuantityRemaining" "quantity_remaining" py.decimal
    let _ ← optionalField body "ExecQuantity" "exec_quantity" py.decimal
    let _ ← optionalField body "ExecutionPrice" "execution_price" py.decimal
    return { symbol, buyOrSell, quantityOrdered, extra }
  | _ => none

/-- `OrderSnapshot.model_validate`. -/
def orderSnapshot : Json → Option OrderSnapshot
  | .obj body => do
    let _ ← keepExtra [("AccountID", "account_id"), ("OrderID", "order_id"), ("Status", "status"),
      ("Symbol", "symbol"), ("OrderType", "order_type"), ("LimitPrice", "limit_price"),
      ("StopPrice", "stop_price"), ("OpenedDateTime", "opened_at"), ("ClosedDateTime", "closed_at"),
      ("FilledPrice", "filled_price"), ("StatusDescription", "status_description"),
      ("RejectReason", "reject_reason"), ("GroupName", "group_name"), ("Legs", "legs")] body
    let accountId ← optionalField body "AccountID" "account_id" strValue
    let orderId ← requiredField body "OrderID" "order_id" strValue
    let status ← optionalField body "Status" "status" strValue
    let symbol ← optionalField body "Symbol" "symbol" strValue
    let orderType ← optionalField body "OrderType" "order_type"
      (enumValue OrderType.value OrderType.members)
    let limitPrice ← optionalField body "LimitPrice" "limit_price" py.decimal
    let stopPrice ← optionalField body "StopPrice" "stop_price" py.decimal
    let openedAt ← optionalField body "OpenedDateTime" "opened_at" py.datetime
    let _ ← optionalField body "ClosedDateTime" "closed_at" py.datetime
    let _ ← optionalField body "FilledPrice" "filled_price" py.decimal
    let _ ← optionalField body "StatusDescription" "status_description" strValue
    let _ ← optionalField body "RejectReason" "reject_reason" strValue
    let _ ← optionalField body "GroupName" "group_name" strValue
    let items ← defaultField body "Legs" "legs" tupleValue []
    let legs ← items.mapM py.orderLegSnapshot
    return { accountId, orderId, status, symbol, orderType, limitPrice, stopPrice, openedAt, legs }
  | _ => none

end Pydantic

/-- pydantic, as far as plain digits, booleans and texts of times go. -/
def plainPydantic : Pydantic where
  decimal
    | .str text => Decimal.ofPlain text
    | _ => none
  bool
    | .bool b => some b
    | _ => none
  datetime
    | .str text => some (IsoFields.read text).datetime
    | _ => none
  uuid := strValue

end TradeStation
