import TradeStation.Pages

/-!
# Parameters of charts and option chains

`BarChartParams`, `StreamBarChartParams` and `OptionChainStreamParams`, as their validators leave them,
and the queries that `_model_query_params` makes of them: what is at its default is left out.
-/

namespace TradeStation

open Python

/-! ## Enumerations -/

/-- `BarUnit`. -/
inductive BarUnit
  | minute
  | daily
  | weekly
  | monthly
  deriving DecidableEq

/-- `BarUnit.value`. -/
def BarUnit.value : BarUnit → PyStr
  | .minute => str "Minute"
  | .daily => str "Daily"
  | .weekly => str "Weekly"
  | .monthly => str "Monthly"

/-- `BarSessionTemplate`. -/
inductive BarSessionTemplate
  | useqPre
  | useqPost
  | useqPreAndPost
  | useq24Hour
  | default
  deriving DecidableEq

/-- `BarSessionTemplate.value`. -/
def BarSessionTemplate.value : BarSessionTemplate → PyStr
  | .useqPre => str "USEQPre"
  | .useqPost => str "USEQPost"
  | .useqPreAndPost => str "USEQPreAndPost"
  | .useq24Hour => str "USEQ24Hour"
  | .default => str "Default"

/-- `OptionSpreadTypeName`. -/
inductive OptionSpreadTypeName
  | single
  | straddle
  | vertical
  | strangle
  | ratioBack1x2
  | ratioBack1x3
  | ratioBack2x3
  | butterfly
  | ironButterfly
  | condor
  | ironCondor
  | covered
  | collar
  | combo
  | calendar
  | diagonal
  deriving DecidableEq

/-- `OptionSpreadTypeName.value`. -/
def OptionSpreadTypeName.value : OptionSpreadTypeName → PyStr
  | .single => str "Single"
  | .straddle => str "Straddle"
  | .vertical => str "Vertical"
  | .strangle => str "Strangle"
  | .ratioBack1x2 => str "RatioBack1x2"
  | .ratioBack1x3 => str "RatioBack1x3"
  | .ratioBack2x3 => str "RatioBack2x3"
  | .butterfly => str "Butterfly"
  | .ironButterfly => str "IronButterfly"
  | .condor => str "Condor"
  | .ironCondor => str "IronCondor"
  | .covered => str "Covered"
  | .collar => str "Collar"
  | .combo => str "Combo"
  | .calendar => str "Calendar"
  | .diagonal => str "Diagonal"

/-- `OptionType`. -/
inductive OptionType
  | all
  | call
  | put
  deriving DecidableEq

/-- `OptionType.value`. -/
def OptionType.value : OptionType → PyStr
  | .all => str "All"
  | .call => str "Call"
  | .put => str "Put"

/-- `StrikeRange`. -/
inductive StrikeRange
  | all
  | itm
  | otm
  deriving DecidableEq

/-- `StrikeRange.value`. -/
def StrikeRange.value : StrikeRange → PyStr
  | .all => str "All"
  | .itm => str "ITM"
  | .otm => str "OTM"

/-! ## Parameters -/

/-- `date | datetime`. -/
inductive DateValue
  | date (day : ℤ)
  | datetime (t : Datetime)

/-- As it is dumped in JSON mode. -/
def DateValue.text (lib : Library) : DateValue → PyStr
  | .date day => lib.dateIsoformat day
  | .datetime t => lib.isoformat t

/-- `_BaseBarChartParams`, which is also `StreamBarChartParams`. -/
structure StreamBarChartParams where
  interval : ℤ := 1
  unit : BarUnit := .daily
  barsBack : Option ℤ := none
  sessionTemplate : Option BarSessionTemplate := none
  /-- `require_positive_interval` -/
  interval_pos : 0 < interval
  /-- `require_positive_bars_back` -/
  barsBack_pos : ∀ n ∈ barsBack, 0 < n

/-- `BarChartParams`. -/
structure BarChartParams extends StreamBarChartParams where
  firstDate : Option DateValue := none
  lastDate : Option DateValue := none
  startDate : Option DateValue := none
  /-- `reject_conflicting_date_ranges` -/
  firstDate_barsBack : ¬(firstDate.isSome ∧ barsBack.isSome)
  lastDate_startDate : ¬(lastDate.isSome ∧ startDate.isSome)

/-- `date | datetime | str`. -/
inductive Expiration
  | date (value : DateValue)
  | text (value : PyStr)

def Expiration.dumped (lib : Library) : Expiration → PyStr
  | .date value => value.text lib
  | .text value => value

/-- `OptionChainStreamParams`. -/
structure OptionChainStreamParams where
  expiration : Option Expiration := none
  expiration2 : Option Expiration := none
  strikeProximity : Option ℤ := none
  spreadType : Option OptionSpreadTypeName := none
  riskFreeRate : Option Decimal := none
  priceCenter : Option Decimal := none
  strikeInterval : Option ℤ := none
  enableGreeks : Option Bool := none
  strikeRange : Option StrikeRange := none
  optionType : Option OptionType := none
  /-- `require_positive_integer` -/
  strikeProximity_pos : ∀ n ∈ strikeProximity, 0 < n
  strikeInterval_pos : ∀ n ∈ strikeInterval, 0 < n
  /-- `require_positive_price_center` -/
  priceCenter_pos : ∀ d ∈ priceCenter, 0 < d.toRat

/-- `BarChartParams()`. -/
def BarChartParams.default : BarChartParams where
  interval_pos := by decide
  barsBack_pos := by simp
  firstDate_barsBack := by simp
  lastDate_startDate := by simp

/-- `StreamBarChartParams()`. -/
def StreamBarChartParams.default : StreamBarChartParams := BarChartParams.default.toStreamBarChartParams

/-- `OptionChainStreamParams()`. -/
def OptionChainStreamParams.default : OptionChainStreamParams where
  strikeProximity_pos := by simp
  strikeInterval_pos := by simp
  priceCenter_pos := by simp

/-! ## Queries -/

/-- `model_dump(by_alias=True, exclude_defaults=True, exclude_none=True, mode="json")`: `none` is what
it leaves out. -/
def StreamBarChartParams.dump (params : StreamBarChartParams) : QueryParams :=
  [(str "interval", if params.interval = 1 then none else some (.int params.interval)),
    (str "unit", if params.unit = .daily then none else some (.text params.unit.value)),
    (str "barsback", params.barsBack.map .int),
    (str "sessiontemplate", params.sessionTemplate.map (.text ·.value))]

def BarChartParams.dump (lib : Library) (params : BarChartParams) : QueryParams :=
  params.toStreamBarChartParams.dump ++
    [(str "firstdate", params.firstDate.map fun date => .text (date.text lib)),
      (str "lastdate", params.lastDate.map fun date => .text (date.text lib)),
      (str "startdate", params.startDate.map fun date => .text (date.text lib))]

/-- A `WireDecimal` is dumped as its plain digits. -/
def OptionChainStreamParams.dump (lib : Library) (params : OptionChainStreamParams) : QueryParams :=
  [(str "expiration", params.expiration.map fun date => .text (date.dumped lib)),
    (str "expiration2", params.expiration2.map fun date => .text (date.dumped lib)),
    (str "strikeProximity", params.strikeProximity.map .int),
    (str "spreadType", params.spreadType.map (.text ·.value)),
    (str "riskFreeRate", params.riskFreeRate.map (.text ·.fixedPoint)),
    (str "priceCenter", params.priceCenter.map (.text ·.fixedPoint)),
    (str "strikeInterval", params.strikeInterval.map .int),
    (str "enableGreeks", params.enableGreeks.map .bool),
    (str "strikeRange", params.strikeRange.map (.text ·.value)),
    (str "optionType", params.optionType.map (.text ·.value))]

/-- `_model_query_params`, on what the parameters are dumped as, if there are any. -/
def modelQueryParams (dumped : Option QueryParams) : QueryParams := dumped.getD []

/-- `_bar_query_params`, of `get_bars`. -/
def barQueryParams (lib : Library) (params : Option BarChartParams) : QueryParams :=
  modelQueryParams (params.map (BarChartParams.dump lib))

/-- `_bar_query_params`, of `stream_bars`. -/
def streamBarQueryParams (params : Option StreamBarChartParams) : QueryParams :=
  modelQueryParams (params.map StreamBarChartParams.dump)

/-- The parameters of `stream_option_chain`. -/
def optionChainQueryParams (lib : Library) (params : Option OptionChainStreamParams) : QueryParams :=
  modelQueryParams (params.map (OptionChainStreamParams.dump lib))

end TradeStation
