import TradeStation.Python.Datetime
import TradeStation.Python.Decimal
import TradeStation.Python.Json

/-!
# Order requests

The request models, as their validators leave them: what a validator checks is a field of the
structure, so that no request can be built that the validators reject. A validator that is run on
values of the program, and not on a caller's, is a function as well (`OrderReplaceRequest.validate`
and its parts).

An order carries its OSO children, so it is a tree: `OrderFields` is one node of it.
-/

namespace TradeStation

open Python

/-! ## Enumerations -/

/-- `AssetClass`. -/
inductive AssetClass
  | equity
  | etf
  | option
  | future
  | index
  | unknown
  deriving DecidableEq

/-- `TradeAction`. -/
inductive TradeAction
  | buy
  | sell
  | buyToCover
  | sellShort
  | buyToOpen
  | buyToClose
  | sellToOpen
  | sellToClose
  deriving DecidableEq

/-- `TradeAction.value`. -/
def TradeAction.value : TradeAction → PyStr
  | .buy => str "BUY"
  | .sell => str "SELL"
  | .buyToCover => str "BUYTOCOVER"
  | .sellShort => str "SELLSHORT"
  | .buyToOpen => str "BUYTOOPEN"
  | .buyToClose => str "BUYTOCLOSE"
  | .sellToOpen => str "SELLTOOPEN"
  | .sellToClose => str "SELLTOCLOSE"

/-- `OrderType`. -/
inductive OrderType
  | limit
  | stopMarket
  | market
  | stopLimit
  deriving DecidableEq

/-- `OrderType.value`. -/
def OrderType.value : OrderType → PyStr
  | .limit => str "Limit"
  | .stopMarket => str "StopMarket"
  | .market => str "Market"
  | .stopLimit => str "StopLimit"

/-- `Duration`. -/
inductive Duration
  | day
  | dayPlus
  | gtc
  | gtcPlus
  | gtd
  | gtdPlus
  | open
  | close
  | ioc
  | fok
  | minute1
  | minute3
  | minute5
  deriving DecidableEq

/-- `Duration.value`. -/
def Duration.value : Duration → PyStr
  | .day => str "DAY"
  | .dayPlus => str "DYP"
  | .gtc => str "GTC"
  | .gtcPlus => str "GCP"
  | .gtd => str "GTD"
  | .gtdPlus => str "GDP"
  | .open => str "OPG"
  | .close => str "CLO"
  | .ioc => str "IOC"
  | .fok => str "FOK"
  | .minute1 => str "1"
  | .minute3 => str "3"
  | .minute5 => str "5"

/-- `GroupType`. -/
inductive GroupType
  | normal
  | oco
  | bracket
  deriving DecidableEq

/-- `GroupType.value`. -/
def GroupType.value : GroupType → PyStr
  | .normal => str "NORMAL"
  | .oco => str "OCO"
  | .bracket => str "BRK"

/-! ## Parts of an order -/

/-- `value is None or value > 0`, the check of every optional amount. -/
def Positive (value : Option Decimal) : Prop := ∀ d ∈ value, d.nonpos = false

instance (value : Option Decimal) : Decidable (Positive value) :=
  inferInstanceAs (Decidable (∀ d ∈ value, d.nonpos = false))

theorem positive_none : Positive none := by
  simp [Positive]

/-- `TimeInForce`. -/
structure TimeInForce where
  duration : Duration
  expiration : Option Datetime := none
  /-- `require_expiration_for_dated_duration` -/
  dated : duration = .gtd ∨ duration = .gtdPlus → expiration ≠ none

/-- `TrailingStop`. -/
structure TrailingStop where
  amount : Option Decimal
  percent : Option Decimal
  /-- `require_one_offset` -/
  one_offset : amount.isSome ≠ percent.isSome
  amount_pos : Positive amount
  percent_pos : Positive percent

/-- `AdvancedOptions`. -/
structure AdvancedOptions where
  addLiquidity : Option Bool := none
  allOrNone : Option Bool := none
  bookOnly : Option Bool := none
  discretionaryPrice : Option Decimal := none
  marketActivationRules : List Json.Dict := []
  nonDisplay : Option Bool := none
  pegValue : Option PyStr := none
  showOnlyQuantity : Option Decimal := none
  timeActivationRules : List Json.Dict := []
  trailingStop : Option TrailingStop := none
  /-- `require_positive_decimal` -/
  discretionaryPrice_pos : Positive discretionaryPrice
  showOnlyQuantity_pos : Positive showOnlyQuantity

/-! ## Orders -/

/-- An `OrderRequest` less its `OSOs`. -/
structure OrderFields where
  accountId : PyStr
  symbol : PyStr
  quantity : Decimal
  orderType : OrderType
  tradeAction : TradeAction
  timeInForce : TimeInForce
  limitPrice : Option Decimal := none
  stopPrice : Option Decimal := none
  route : Option PyStr := none
  advancedOptions : Option AdvancedOptions := none
  orderConfirmId : Option PyStr := none
  requestId : PyStr
  assetClass : AssetClass := .equity
  clientOrderId : Option PyStr := none
  estimatedPrice : Option Decimal := none
  /-- `require_non_blank` -/
  accountId_clean : accountId ≠ [] ∧ strip accountId = accountId
  symbol_clean : symbol ≠ [] ∧ strip symbol = symbol
  /-- `require_positive_quantity` -/
  quantity_pos : quantity.nonpos = false
  /-- `require_positive_price` -/
  limitPrice_pos : Positive limitPrice
  stopPrice_pos : Positive stopPrice
  estimatedPrice_pos : Positive estimatedPrice
  /-- `validate_price_requirements` -/
  limit_price : orderType = .limit → limitPrice ≠ none
  stop_price : orderType = .stopMarket → stopPrice ≠ none
  both_prices : orderType = .stopLimit → limitPrice ≠ none ∧ stopPrice ≠ none

/-- `OrderRequest`. -/
inductive OrderRequest
  | mk (fields : OrderFields) (osos : List OrderRequest)

namespace OrderRequest

/-- The fields of an order. -/
def fields : OrderRequest → OrderFields
  | .mk fields _ => fields

/-- The children of an order. -/
def osos : OrderRequest → List OrderRequest
  | .mk _ osos => osos

end OrderRequest

/-- `GroupOrderRequest`. -/
structure GroupOrderRequest where
  type : GroupType
  orders : List OrderRequest
  requestId : PyStr
  /-- `validate_group_shape` -/
  nonempty : orders ≠ []
  oco : type = .oco → 2 ≤ orders.length
  bracket : type = .bracket → 3 ≤ orders.length
  one_account : ∀ o ∈ orders, ∀ o' ∈ orders, o.fields.accountId = o'.fields.accountId
  one_symbol : ∀ o ∈ orders, ∀ o' ∈ orders, o.fields.symbol = o'.fields.symbol

/-! ## Replacements -/

/-- `ActivationRulesReplace`. -/
structure ActivationRulesReplace where
  clearAll : Option Bool := none
  rules : List Json.Dict := []
  /-- `require_clear_all_or_rules` -/
  some_rule : clearAll = some true ∨ rules ≠ []

/-- `AdvancedOptionsReplace`. -/
structure AdvancedOptionsReplace where
  marketActivationRules : Option ActivationRulesReplace := none
  showOnlyQuantity : Option Decimal := none
  timeActivationRules : Option ActivationRulesReplace := none
  trailingStop : Option TrailingStop := none
  /-- `require_positive_show_only_quantity` -/
  showOnlyQuantity_pos : Positive showOnlyQuantity
  /-- `require_one_replace_option` -/
  some_option : marketActivationRules.isSome ∨ showOnlyQuantity.isSome ∨
    timeActivationRules.isSome ∨ trailingStop.isSome

/-- `OrderReplaceRequest`. -/
structure OrderReplaceRequest where
  advancedOptions : Option AdvancedOptionsReplace := none
  limitPrice : Option Decimal := none
  orderType : Option OrderType := none
  quantity : Option Decimal := none
  stopPrice : Option Decimal := none
  /-- `require_positive_quantity` -/
  quantity_pos : Positive quantity
  /-- `require_positive_price` -/
  limitPrice_pos : Positive limitPrice
  stopPrice_pos : Positive stopPrice
  /-- `validate_replace_shape` -/
  some_update : advancedOptions.isSome ∨ limitPrice.isSome ∨ orderType.isSome ∨
    quantity.isSome ∨ stopPrice.isSome
  only_market : ∀ type ∈ orderType, type = .market

/-- `ActivationRulesReplace(Rules=rules)`; `none` where a validator raises. -/
def ActivationRulesReplace.validate (rules : List Json.Dict) : Option ActivationRulesReplace :=
  match rules with
  | [] => none
  | rule :: rules => some { rules := rule :: rules, some_rule := .inr (List.cons_ne_nil _ _) }

/-- `AdvancedOptionsReplace(...)`; `none` where a validator raises. -/
def AdvancedOptionsReplace.validate (marketActivationRules : Option ActivationRulesReplace)
    (showOnlyQuantity : Option Decimal) (timeActivationRules : Option ActivationRulesReplace)
    (trailingStop : Option TrailingStop) : Option AdvancedOptionsReplace :=
  if h : Positive showOnlyQuantity ∧ (marketActivationRules.isSome ∨ showOnlyQuantity.isSome ∨
      timeActivationRules.isSome ∨ trailingStop.isSome) then
    some
      { marketActivationRules, showOnlyQuantity, timeActivationRules, trailingStop,
        showOnlyQuantity_pos := h.1, some_option := h.2 }
  else none

/-- `OrderReplaceRequest(...)`; `none` where a validator raises. -/
def OrderReplaceRequest.validate (advancedOptions : Option AdvancedOptionsReplace)
    (limitPrice : Option Decimal) (orderType : Option OrderType) (quantity stopPrice : Option Decimal) :
    Option OrderReplaceRequest :=
  if h : (Positive quantity ∧ Positive limitPrice ∧ Positive stopPrice) ∧
      (advancedOptions.isSome ∨ limitPrice.isSome ∨ orderType.isSome ∨ quantity.isSome ∨
        stopPrice.isSome) ∧ (∀ type ∈ orderType, type = .market) then
    some
      { advancedOptions, limitPrice, orderType, quantity, stopPrice, quantity_pos := h.1.1,
        limitPrice_pos := h.1.2.1, stopPrice_pos := h.1.2.2, some_update := h.2.1,
        only_market := h.2.2 }
  else none

end TradeStation
