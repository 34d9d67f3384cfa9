import TradeStation.Foundations.Gather
import TradeStation.Pages
import TradeStation.Rest.Streams

/-!
# The other methods of the client

What `TradeStationClient` reads of accounts, orders and the market, and the streams it opens. Each
method checks what it needs, forms a path, and reads it. A stream is opened by iterating over what the
method returns. The parameters of a bar chart or an option chain are given by their dump.
-/

namespace TradeStation

open Python Foundations TradeStation.Stream

/-- `MAX_ORDER_PAGE_SIZE`. -/
def maxOrderPageSize : ℤ := 600

/-- `BROKERAGE_STREAM_ACCEPT`. -/
def brokerageStreamAccept : PyStr := str "application/vnd.tradestation.streams.v3+json"

/-- `MARKET_DATA_STREAM_ACCEPT`. -/
def marketDataStreamAccept : PyStr := str "application/vnd.tradestation.streams.v2+json"

/-! ## Option requests -/

/-- `OptionRiskRewardLeg`. -/
structure OptionRiskRewardLeg where
  symbol : PyStr
  quantity : Decimal
  tradeAction : TradeAction
  /-- `require_non_blank_symbol` -/
  symbol_clean : symbol ≠ [] ∧ strip symbol = symbol
  /-- `require_positive_quantity` -/
  quantity_pos : quantity.nonpos = false
  quantity_whole : quantity.toRat.den = 1

/-- `OptionRiskRewardRequest`. -/
structure OptionRiskRewardRequest where
  legs : List OptionRiskRewardLeg
  spreadPrice : Decimal
  /-- `require_at_least_one_leg` -/
  legs_ne : legs ≠ []

/-- `OptionQuoteLeg`. -/
structure OptionQuoteLeg where
  symbol : PyStr
  ratio : Decimal
  /-- `require_non_blank_symbol` -/
  symbol_clean : symbol ≠ [] ∧ strip symbol = symbol
  /-- `require_non_zero_ratio` -/
  ratio_ne : ratio.toRat ≠ 0

/-- `_numeric_decimals` of a `Decimal`. -/
def numericDecimal (value : Decimal) : Json :=
  if value.toRat.den = 1 then .int value.toRat.num
  else .float (.decimal value.neg value.coeff value.exp)

/-- `OptionRiskRewardLeg` in the payload. -/
def optionRiskRewardLegPayload (leg : OptionRiskRewardLeg) : Json :=
  .obj (field "Symbol" (some (.str leg.symbol)) ++
    field "Quantity" (some (numericDecimal leg.quantity)) ++
    field "TradeAction" (some (.str leg.tradeAction.value)))

/-- `option_risk_reward_payload`. -/
def optionRiskRewardPayload (request : OptionRiskRewardRequest) : Json.Dict :=
  field "Legs" (some (.arr (request.legs.map optionRiskRewardLegPayload))) ++
    field "SpreadPrice" (some (numericDecimal request.spreadPrice))

/-- `AccountStateSnapshot`. -/
structure AccountStateSnapshot where
  accounts : List Json
  balances : List Json
  positions : List Json
  orders : List OrderSnapshot

/-- What `stream_events` returns: an iterator, as what it does with the connections it opens. -/
abbrev EventIterator := List StreamWorld → List (Action StreamEffect) × Outcome

/-! ## Paths and parameters -/

/-- `_clean_symbols`. -/
def cleanSymbols (symbols : List PyStr) : Except Exc (List PyStr) :=
  let cleaned := (symbols.map strip).filter (· ≠ [])
  if cleaned = [] then .error (.value (str "at least one symbol is required")) else .ok cleaned

/-- `_joined_symbols`. -/
def joinedSymbols (symbols : List PyStr) : Except Exc PyStr := do
  return join (str ",") (← cleanSymbols symbols)

/-- `_symbol_path`. -/
def symbolPath (symbols : List PyStr) : Except Exc PyStr := do
  return join (str ",") (← (← cleanSymbols symbols).mapM TradeStationClient.quoted)

/-- `_single_symbol_path`. -/
def singleSymbolPath (symbol : PyStr) : Except Exc PyStr :=
  if strip symbol = [] then .error (.value (str "symbol must not be blank"))
  else TradeStationClient.quoted (strip symbol)

/-- `_bounded_page_size`. -/
def boundedPageSize (value : Option ℤ) : Except Exc (Option ℤ) :=
  match value with
  | none => .ok none
  | some size =>
    if 1 ≤ size ∧ size ≤ maxOrderPageSize then .ok (some size)
    else .error (.value (str "page_size must be between 1 and 600"))

/-- `_positive_int(value, "max_levels")`. -/
def positiveMaxLevels (value : Option ℤ) : Except Exc (Option ℤ) :=
  match value with
  | none => .ok none
  | some levels =>
    if levels ≤ 0 then .error (.value (str "max_levels must be positive")) else .ok (some levels)

/-- The parameters of `stream_option_quotes` that come from its legs. -/
def legParams (legs : List OptionQuoteLeg) : QueryParams :=
  legs.zipIdx.flatMap fun (leg, index) =>
    [(str "legs[" ++ str (toString index) ++ str "].Symbol", some (.text leg.symbol)),
      (str "legs[" ++ str (toString index) ++ str "].Ratio", some (.decimal leg.ratio))]

namespace TradeStationClient

variable (client : TradeStationClient)

/-- `tuple(Model.model_validate(item) for item in payload.get(key, ()))`. -/
def validatedItems (model : ResponseModel) (key : String) (payload : Json.Dict) :
    Except Exc (List Json) :=
  match iterate ((Json.get payload (str key)).getD (.arr [])) with
  | none => .error (.library (.other (str "object is not iterable")))
  | some items => items.mapM (client.validated model)

/-- Read a path, and validate the items under a key. -/
def readItems (model : ResponseModel) (key : String) (path : PyStr) : Program (List Json) := do
  let payload ← client.rest.get path
  Coro.ofExcept (client.validatedItems model key payload)

/-! ## Accounts -/

/-- `get_accounts`. -/
def getAccounts : Program (List Json) := do
  Coro.ofExcept (client.requireScope readAccountScope)
  client.readItems .accountSnapshot "Accounts" (str "/brokerage/accounts")

/-- `get_balances`. -/
def getBalances (accountIds : List PyStr) : Program (List Json) := do
  Coro.ofExcept (client.requireScope readAccountScope)
  let accounts ← Coro.ofExcept (client.accountPath accountIds)
  client.readItems .balanceSnapshot "Balances"
    (str "/brokerage/accounts/" ++ accounts ++ str "/balances")

/-- `get_bod_balances`. -/
def getBodBalances (accountIds : List PyStr) : Program (List Json) := do
  Coro.ofExcept (client.requireScope readAccountScope)
  let accounts ← Coro.ofExcept (client.accountPath accountIds)
  client.readItems .bodBalanceSnapshot "BODBalances"
    (str "/brokerage/accounts/" ++ accounts ++ str "/bodbalances")

/-- `get_positions`. -/
def getPositions (accountIds symbols : List PyStr) : Program (List Json) := do
  Coro.ofExcept (client.requireScope readAccountScope)
  let accounts ← Coro.ofExcept (client.accountPath accountIds)
  let symbol ← Coro.ofExcept
    (if symbols = [] then .ok none else (joinedSymbols symbols).map (some ∘ QueryValue.text))
  let query ← Coro.ofExcept (queryString client.lib [(str "symbol", symbol)])
  client.readItems .positionSnapshot "Positions"
    (str "/brokerage/accounts/" ++ accounts ++ (str "/positions" ++ query))

/-- `get_orders`. -/
def getOrders (accountIds : List PyStr) (pageSize : Option ℤ) : Program (List OrderSnapshot) := do
  Coro.ofExcept (client.requireScope readAccountScope)
  let accounts ← Coro.ofExcept (client.accountPath accountIds)
  let validated ← Coro.ofExcept (boundedPageSize pageSize)
  let orders ← client.getOrderPages client.rest.get
    (str "/brokerage/accounts/" ++ accounts ++ str "/orders")
    (validated.map fun size => (str "pageSize", some (.int size))).toList
  Coro.ofExcept orders

/-- `get_historical_orders`. -/
def getHistoricalOrders (accountIds : List PyStr) (since : Datetime) (pageSize : Option ℤ) :
    Program (List OrderSnapshot) := do
  Coro.ofExcept (client.requireScope readAccountScope)
  let accounts ← Coro.ofExcept (client.accountPath accountIds)
  let validated ← Coro.ofExcept (boundedPageSize pageSize)
  let orders ← client.getOrderPages client.rest.get
    (str "/brokerage/accounts/" ++ accounts ++ str "/historicalorders")
    ((str "since", some (.text (client.lib.datetimeIsoformat since))) ::
      (validated.map fun size => (str "pageSize", some (.int size))).toList)
  Coro.ofExcept orders

/-- `get_historical_orders_by_id`. -/
def getHistoricalOrdersById (accountIds orderIds : List PyStr) (since : Datetime) :
    Program (List OrderSnapshot) := do
  Coro.ofExcept (client.requireScope readAccountScope)
  let accounts ← Coro.ofExcept (client.accountPath accountIds)
  let orders ← Coro.ofExcept (orderIdsPath orderIds)
  let query ← Coro.ofExcept (queryString client.lib [(str "since", some (.datetime since))])
  let payload ← client.rest.get
    (str "/brokerage/accounts/" ++ accounts ++ (str "/historicalorders/" ++ orders ++ query))
  Coro.ofExcept (client.orderSnapshots payload)

/-- What may come of `fetch_state_snapshot`, which gathers four reads. -/
def FetchesStateSnapshot (accountIds : List PyStr) (tr : Trace Op Op.Answer)
    (r : Except Exc AccountStateSnapshot) : Prop :=
  match client.accountPath accountIds with
  | .error exc => tr = [] ∧ r = .error exc
  | .ok _ => ∃ r', Gather client.getAccounts.Runs
      (Gather (client.getBalances accountIds).Runs
        (Gather (client.getPositions accountIds []).Runs (client.getOrders accountIds none).Runs))
      tr r' ∧
    r = r'.map fun (accounts, balances, positions, orders) =>
      { accounts := accounts.filter fun account => client.snapshotAccountId account ∈ accountIds
        balances, positions, orders }

/-! ## Orders and the market -/

/-- `what_if_order`. -/
def whatIfOrder (order : OrderRequest) : Program Json := client.confirmOrder order

/-- `what_if_order_group`. -/
def whatIfOrderGroup (group : GroupOrderRequest) : Program Json := client.confirmOrderGroup group

/-- `get_routes`. -/
def getRoutes : Program Json.Dict := do
  Coro.ofExcept (client.requireScope tradeScope)
  client.rest.get (str "/orderexecution/routes")

/-- `get_activation_triggers`. -/
def getActivationTriggers : Program Json.Dict := do
  Coro.ofExcept (client.requireScope tradeScope)
  client.rest.get (str "/orderexecution/activationtriggers")

/-- `get_crypto_symbol_names`. -/
def getCryptoSymbolNames : Program (List PyStr) := do
  Coro.ofExcept (client.requireScope marketDataScope)
  let payload ← client.rest.get (str "/marketdata/symbollists/cryptopairs/symbolnames")
  match iterate ((Json.get payload (str "SymbolNames")).getD (.arr [])) with
  | none => throw (.library (.other (str "object is not iterable")))
  | some symbols => return symbols.map client.lib.str

/-- `get_quotes`. -/
def getQuotes (symbols : List PyStr) : Program (List Json) := do
  Coro.ofExcept (client.requireScope marketDataScope)
  let path ← Coro.ofExcept (symbolPath symbols)
  client.readItems .quoteSnapshot "Quotes" (str "/marketdata/quotes/" ++ path)

/-- `get_symbols`. -/
def getSymbols (symbols : List PyStr) : Program (List Json) := do
  Coro.ofExcept (client.requireScope marketDataScope)
  let path ← Coro.ofExcept (symbolPath symbols)
  client.readItems .symbolDetail "Symbols" (str "/marketdata/symbols/" ++ path)

/-- `get_option_expirations`. -/
def getOptionExpirations (underlying : PyStr) (strikePrice : Option Decimal) :
    Program (List Json) := do
  Coro.ofExcept (client.requireScope marketDataScope)
  let query ← Coro.ofExcept
    (queryString client.lib [(str "strikePrice", strikePrice.map .decimal)])
  let path ← Coro.ofExcept (singleSymbolPath underlying)
  client.readItems .optionExpiration "Expirations"
    (str "/marketdata/options/expirations/" ++ (path ++ query))

/-- `get_option_spread_types`. -/
def getOptionSpreadTypes : Program (List Json) := do
  Coro.ofExcept (client.requireScope marketDataScope)
  client.readItems .optionSpreadType "SpreadTypes" (str "/marketdata/options/spreadtypes")

/-- `get_option_strikes`. -/
def getOptionStrikes (underlying : PyStr) (spreadType : Option PyStr) (strikeInterval : Option ℤ)
    (expiration expiration2 : Option QueryValue) : Program Json := do
  Coro.ofExcept (client.requireScope marketDataScope)
  let query ← Coro.ofExcept (queryString client.lib
    [(str "spreadType", spreadType.map .text), (str "strikeInterval", strikeInterval.map .int),
      (str "expiration", expiration), (str "expiration2", expiration2)])
  let path ← Coro.ofExcept (singleSymbolPath underlying)
  let payload ← client.rest.get (str "/marketdata/options/strikes/" ++ (path ++ query))
  Coro.ofExcept (client.validated .optionStrikes (.obj payload))

/-- `get_option_risk_reward`. -/
def getOptionRiskReward (request : OptionRiskRewardRequest) : Program Json := do
  Coro.ofExcept (client.requireScope optionSpreadsScope)
  let payload ← client.rest.postRead (str "/marketdata/options/riskreward")
    (optionRiskRewardPayload request)
  Coro.ofExcept (client.validated .optionRiskReward (.obj payload))

/-- `get_bars`. -/
def getBars (symbol : PyStr) (params : QueryParams) : Program (List Json) := do
  Coro.ofExcept (client.requireScope marketDataScope)
  let query ← Coro.ofExcept (queryString client.lib params)
  let path ← Coro.ofExcept (singleSymbolPath symbol)
  client.readItems .barSnapshot "Bars" (str "/marketdata/barcharts/" ++ (path ++ query))

/-! ## Streams -/

/-- `stream_orders`. -/
def streamOrders (accountIds : List PyStr) (raiseOnError : Bool) : Except Exc EventIterator := do
  client.requireScope readAccountScope
  requireCapability client.capabilities.supportsStreamOrders "supports_stream_orders"
  let accounts ← client.accountPath accountIds
  return client.rest.streamEvents (str "/brokerage/stream/accounts/" ++ accounts ++ str "/orders")
    brokerageStreamAccept raiseOnError

/-- `stream_orders_by_id`. -/
def streamOrdersById (accountIds orderIds : List PyStr) (raiseOnError : Bool) :
    Except Exc EventIterator := do
  client.requireScope readAccountScope
  requireCapability client.capabilities.supportsStreamOrders "supports_stream_orders"
  let accounts ← client.accountPath accountIds
  let orders ← orderIdsPath orderIds
  return client.rest.streamEvents
    (str "/brokerage/stream/accounts/" ++ accounts ++ (str "/orders/" ++ orders))
    brokerageStreamAccept raiseOnError

/-- `stream_positions`. -/
def streamPositions (accountIds : List PyStr) (raiseOnError : Bool) :
    Except Exc EventIterator := do
  client.requireScope readAccountScope
  requireCapability client.capabilities.supportsStreamPositions "supports_stream_positions"
  let accounts ← client.accountPath accountIds
  return client.rest.streamEvents
    (str "/brokerage/stream/accounts/" ++ accounts ++ str "/positions")
    brokerageStreamAccept raiseOnError

/-- `stream_quotes`. -/
def streamQuotes (symbols : List PyStr) (raiseOnError : Bool) : Except Exc EventIterator := do
  client.requireScope marketDataScope
  requireCapability client.capabilities.supportsQuoteStream "supports_quote_stream"
  let path ← symbolPath symbols
  return client.rest.streamEvents (str "/marketdata/stream/quotes/" ++ path)
    marketDataStreamAccept raiseOnError

/-- `stream_bars`. -/
def streamBars (symbol : PyStr) (params : QueryParams) (raiseOnError : Bool) :
    Except Exc EventIterator := do
  client.requireScope marketDataScope
  requireCapability client.capabilities.supportsBarStream "supports_bar_stream"
  let query ← queryString client.lib params
  let path ← singleSymbolPath symbol
  return client.rest.streamEvents (str "/marketdata/stream/barcharts/" ++ (path ++ query))
    marketDataStreamAccept raiseOnError

/-- `stream_market_depth_aggregates`. -/
def streamMarketDepthAggregates (symbol : PyStr) (maxLevels : Option ℤ) (raiseOnError : Bool) :
    Except Exc EventIterator := do
  client.requireScope matrixScope
  requireCapability client.capabilities.supportsMarketDepthStream "supports_market_depth_stream"
  let levels ← positiveMaxLevels maxLevels
  let query ← queryString client.lib [(str "maxlevels", levels.map .int)]
  let path ← singleSymbolPath symbol
  return client.rest.streamEvents
    (str "/marketdata/stream/marketdepth/aggregates/" ++ (path ++ query))
    marketDataStreamAccept raiseOnError

/-- `stream_market_depth_quotes`. -/
def streamMarketDepthQuotes (symbol : PyStr) (maxLevels : Option ℤ) (raiseOnError : Bool) :
    Except Exc EventIterator := do
  client.requireScope matrixScope
  requireCapability client.capabilities.supportsMarketDepthStream "supports_market_depth_stream"
  let levels ← positiveMaxLevels maxLevels
  let query ← queryString client.lib [(str "maxlevels", levels.map .int)]
  let path ← singleSymbolPath symbol
  return client.rest.streamEvents
    (str "/marketdata/stream/marketdepth/quotes/" ++ (path ++ query))
    marketDataStreamAccept raiseOnError

/-- `stream_option_chain`. -/
def streamOptionChain (underlying : PyStr) (params : QueryParams) (raiseOnError : Bool) :
    Except Exc EventIterator := do
  client.requireScope marketDataScope
  requireCapability client.capabilities.supportsOptionStreams "supports_option_streams"
  let query ← queryString client.lib params
  let path ← singleSymbolPath underlying
  return client.rest.streamEvents (str "/marketdata/stream/options/chains/" ++ (path ++ query))
    marketDataStreamAccept raiseOnError

/-- `stream_option_quotes`. -/
def streamOptionQuotes (legs : List OptionQuoteLeg) (riskFreeRate : Option Decimal)
    (enableGreeks : Option Bool) (raiseOnError : Bool) : Except Exc EventIterator := do
  client.requireScope marketDataScope
  requireCapability client.capabilities.supportsOptionStreams "supports_option_streams"
  if legs = [] then throw (.value (str "at least one option quote leg is required"))
  let query ← queryString client.lib
    ((str "riskFreeRate", riskFreeRate.map .decimal) ::
      (str "enableGreeks", enableGreeks.map .bool) :: legParams legs)
  return client.rest.streamEvents (str "/marketdata/stream/options/quotes" ++ query)
    marketDataStreamAccept raiseOnError

/-- `order_payload_hash`. -/
def orderPayloadHash (order : OrderRequest) : PyStr :=
  canonicalPayloadHash client.lib (orderPayload client.lib order)

end TradeStationClient

end TradeStation
