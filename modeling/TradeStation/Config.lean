import TradeStation.Errors
import TradeStation.Python.Decimal

/-!
# The configuration

`TradeStationConfig` as its validators leave it: what they check of the fields modelled here is
kept in the structure, so that no invalid configuration can be built.
-/

namespace TradeStation

open Python

/-- `SIM_BASE_URL`. -/
def simBaseUrl : PyStr := str "https://sim-api.tradestation.com/v3"

/-- `LIVE_BASE_URL`. -/
def liveBaseUrl : PyStr := str "https://api.tradestation.com/v3"

/-- `LIVE_ACKNOWLEDGEMENT`. -/
def liveAcknowledgementText : PyStr := str "I_ACKNOWLEDGE_LIVE_TRADESTATION_TRADING"

/-- `TRADE_SCOPE`. -/
def tradeScope : PyStr := str "Trade"

/-- `READ_ACCOUNT_SCOPE`. -/
def readAccountScope : PyStr := str "ReadAccount"

/-- `MARKET_DATA_SCOPE`. -/
def marketDataScope : PyStr := str "MarketData"

/-- `OPTION_SPREADS_SCOPE`. -/
def optionSpreadsScope : PyStr := str "OptionSpreads"

/-- `MATRIX_SCOPE`. -/
def matrixScope : PyStr := str "Matrix"

/-- `Environment`. -/
inductive Environment
  | sim
  | live
  deriving DecidableEq

/-- `TradeStationConfig`. -/
structure TradeStationConfig where
  environment : Environment
  baseUrl : PyStr
  requestedScopes : List PyStr
  accountAllowlist : List PyStr
  liveTradingEnabled : Bool := false
  liveAcknowledgement : Option PyStr := none
  maxOrderNotional : Decimal := .ofNat 1000
  allowMarketOrders : Bool := false
  allowOptions : Bool := false
  allowFutures : Bool := false
  allowExtendedHours : Bool := false
  killSwitchFile : Option PyStr := none
  /-- `require_unique_account_allowlist` -/
  allowlist_ne : accountAllowlist ≠ []
  allowlist_clean : ∀ account ∈ accountAllowlist, account ≠ [] ∧ strip account = account
  allowlist_nodup : accountAllowlist.Nodup
  /-- `require_refresh_scopes` -/
  scopes_required : str "openid" ∈ requestedScopes ∧ str "offline_access" ∈ requestedScopes
  /-- `validate_environment_contract` -/
  sim_url : environment = .sim → baseUrl = simBaseUrl
  live_url : environment = .live → baseUrl = liveBaseUrl
  live_enabled : environment = .live →
    liveTradingEnabled = true ∧ liveAcknowledgement = some liveAcknowledgementText
  trade_scope : (allowMarketOrders || allowOptions || allowFutures) = true →
    tradeScope ∈ requestedScopes

/-- A configuration for the simulator that may trade one account. -/
def simConfig : TradeStationConfig where
  environment := .sim
  baseUrl := simBaseUrl
  requestedScopes := [readAccountScope, tradeScope, str "offline_access", str "openid"]
  accountAllowlist := [str "SIM1"]
  allowlist_ne := by decide
  allowlist_clean := by decide
  allowlist_nodup := by decide
  scopes_required := by decide
  sim_url _ := rfl
  live_url := by simp
  live_enabled := by simp
  trade_scope := by simp

end TradeStation
