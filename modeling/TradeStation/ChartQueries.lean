import TradeStation.Models.Charts
import TradeStation.Python.FixedPoint
import TradeStation.Python.Forms
import TradeStation.Reads

/-!
# Reading the queries of charts and option chains

Charts and option chains are asked for with a query that leaves out what is at its default. A service
that reads it, and fills in the defaults of the pinned specification, has the parameters again:
`BarChartParams.understood` and its kin, and `legs_understood` for the legs of option quotes.
-/

namespace TradeStation

open Python

/-! ## Reading a query -/

/-- The parameters that `_query_string` writes. -/
def present (lib : Library) (params : QueryParams) : List (PyStr × PyStr) :=
  params.filterMap fun p => p.2.map fun value => (p.1, queryValue lib value)

@[simp] theorem present_nil (lib : Library) : present lib [] = [] := rfl

/-- The value of a parameter, if it is written and not blank. -/
def written (lib : Library) (value : Option QueryValue) : Option PyStr :=
  (value.map (queryValue lib)).filter (· ≠ [])

theorem fieldOf_present (lib : Library) (name key : String) (value : Option QueryValue)
    (rest : QueryParams) :
    fieldOf (kept (present lib ((str name, value) :: rest))) key =
      if name = key then (written lib value).or (fieldOf (kept (present lib rest)) key)
      else fieldOf (kept (present lib rest)) key := by
  cases value with
  | none => simp [present, written]
  | some value =>
    have hcons : present lib ((str name, some value) :: rest) =
        (str name, queryValue lib value) :: present lib rest := rfl
    rw [hcons, fieldOf_kept_cons]
    by_cases hname : name = key <;> by_cases hnil : queryValue lib value = [] <;>
      simp [written, Option.filter, hname, hnil]

/-- A parameter with a default, as a service reads it: `none` where it cannot. -/
def readField {α : Type} (query : List (PyStr × PyStr)) (key : String) (default : α)
    (read : PyStr → Option α) : Option α :=
  match fieldOf query key with
  | none => some default
  | some text => read text

/-- A parameter that may be left out. -/
def readOptional {α : Type} (query : List (PyStr × PyStr)) (key : String) (read : PyStr → Option α) :
    Option (Option α) :=
  readField query key none fun text => (read text).map some

/-- An integer. -/
def readInt (text : PyStr) : Option ℤ :=
  (Decimal.ofPlain text).bind fun d =>
    if d.exp = 0 then some (if d.neg then -d.coeff else d.coeff) else none

/-- A number. -/
def readNumber (text : PyStr) : Option ℚ := (Decimal.ofPlain text).map Decimal.toRat

def readBool (text : PyStr) : Option Bool :=
  if text = str "true" then some true else if text = str "false" then some false else none

/-- One of some values. -/
def readEnum {α : Type} (values : List α) (value : α → PyStr) (text : PyStr) : Option α :=
  values.find? fun a => value a = text

/-! ## What is written is read -/

theorem str_toString_int {n : ℤ} (h : 0 < n) : str (toString n) = str (toString n.toNat) := by
  lift n to ℕ using h.le
  rfl

theorem readInt_toString {n : ℤ} (h : 0 < n) : readInt (str (toString n)) = some n := by
  have hplain := Decimal.PlainDecimal.whole false (Nat.toDigits 10 n.toNat) (by simp)
    (Decimal.isDigit_toDigits n.toNat)
  rw [Decimal.signText, if_neg (by decide), List.nil_append, ← Decimal.str_toString] at hplain
  rw [str_toString_int h, readInt, Decimal.ofPlain_plain hplain]
  simp [h.le]

/-- A number comes back, if not the digits. -/
theorem readNumber_fixedPoint (d : Decimal) : readNumber d.fixedPoint = some d.toRat := by
  obtain ⟨d', hplain, hnumber⟩ := Decimal.fixedPoint_plain d
  rw [readNumber, Decimal.ofPlain_plain hplain, Option.map_some, hnumber]

theorem fixedPoint_ne_nil (d : Decimal) : d.fixedPoint ≠ [] := by
  intro h
  have hread := readNumber_fixedPoint d
  rw [h] at hread
  cases hread

theorem toString_int_ne_nil {n : ℤ} (h : 0 < n) : str (toString n) ≠ [] := by
  intro hnil
  have hread := readInt_toString h
  rw [hnil] at hread
  cases hread

def BarUnit.values : List BarUnit := [.minute, .daily, .weekly, .monthly]

def BarSessionTemplate.values : List BarSessionTemplate :=
  [.useqPre, .useqPost, .useqPreAndPost, .useq24Hour, .default]

def OptionSpreadTypeName.values : List OptionSpreadTypeName :=
  [.single, .straddle, .vertical, .strangle, .ratioBack1x2, .ratioBack1x3, .ratioBack2x3, .butterfly,
    .ironButterfly, .condor, .ironCondor, .covered, .collar, .combo, .calendar, .diagonal]

def OptionType.values : List OptionType := [.all, .call, .put]

def StrikeRange.values : List StrikeRange := [.all, .itm, .otm]

theorem BarUnit.reads (unit : BarUnit) :
    readEnum values value unit.value = some unit ∧ unit.value ≠ [] := by
  cases unit <;> decide

theorem BarSessionTemplate.reads (template : BarSessionTemplate) :
    readEnum values value template.value = some template ∧ template.value ≠ [] := by
  cases template <;> decide

theorem OptionSpreadTypeName.reads (name : OptionSpreadTypeName) :
    readEnum values value name.value = some name ∧ name.value ≠ [] := by
  cases name <;> decide

theorem OptionType.reads (type : OptionType) :
    readEnum values value type.value = some type ∧ type.value ≠ [] := by
  cases type <;> decide

theorem StrikeRange.reads (range : StrikeRange) :
    readEnum values value range.value = some range ∧ range.value ≠ [] := by
  cases range <;> decide

/-! ## What is understood -/

/-- The query says what the parameters say. -/
structure StreamBarChartParams.UnderstoodIn (params : StreamBarChartParams)
    (query : List (PyStr × PyStr)) : Prop where
  interval : readField query "interval" 1 readInt = some params.interval
  unit : readField query "unit" .daily (readEnum BarUnit.values BarUnit.value) = some params.unit
  barsBack : readOptional query "barsback" readInt = some params.barsBack
  sessionTemplate : readOptional query "sessiontemplate"
    (readEnum BarSessionTemplate.values BarSessionTemplate.value) = some params.sessionTemplate

/-- A date is left as it is written. -/
structure BarChartParams.UnderstoodIn (lib : Library) (params : BarChartParams)
    (query : List (PyStr × PyStr)) : Prop extends
    params.toStreamBarChartParams.UnderstoodIn query where
  firstDate : fieldOf query "firstdate" = params.firstDate.map (DateValue.text lib)
  lastDate : fieldOf query "lastdate" = params.lastDate.map (DateValue.text lib)
  startDate : fieldOf query "startdate" = params.startDate.map (DateValue.text lib)

/-- A blank text is not kept. -/
structure OptionChainStreamParams.UnderstoodIn (lib : Library) (params : OptionChainStreamParams)
    (query : List (PyStr × PyStr)) : Prop where
  expiration : fieldOf query "expiration" =
    (params.expiration.map (Expiration.dumped lib)).filter (· ≠ [])
  expiration2 : fieldOf query "expiration2" =
    (params.expiration2.map (Expiration.dumped lib)).filter (· ≠ [])
  strikeProximity : readOptional query "strikeProximity" readInt = some params.strikeProximity
  spreadType : readOptional query "spreadType"
    (readEnum OptionSpreadTypeName.values OptionSpreadTypeName.value) = some params.spreadType
  riskFreeRate : readOptional query "riskFreeRate" readNumber =
    some (params.riskFreeRate.map Decimal.toRat)
  priceCenter : readOptional query "priceCenter" readNumber =
    some (params.priceCenter.map Decimal.toRat)
  strikeInterval : readOptional query "strikeInterval" readInt = some params.strikeInterval
  enableGreeks : readOptional query "enableGreeks" readBool = some params.enableGreeks
  strikeRange : readOptional query "strikeRange" (readEnum StrikeRange.values StrikeRange.value) =
    some params.strikeRange
  optionType : readOptional query "optionType" (readEnum OptionType.values OptionType.value) =
    some params.optionType

section
variable (lib : Library)

/-- What is written of a value whose text is not blank. -/
theorem written_map {α : Type} {value : Option α} {toValue : α → QueryValue}
    (hne : ∀ a ∈ value, queryValue lib (toValue a) ≠ []) :
    written lib (value.map toValue) = value.map fun a => queryValue lib (toValue a) := by
  cases value with
  | none => rfl
  | some a => simp [written, Option.filter, hne a rfl]

variable {query : List (PyStr × PyStr)} {key : String}

/-- **A field at its default is read as its default**, and any other as what is written. -/
theorem readField_written {α : Type} [DecidableEq α] {read : PyStr → Option α} {default value : α}
    (toValue : α → QueryValue)
    (hfield : fieldOf query key =
      written lib (if value = default then none else some (toValue value)))
    (hread : read (queryValue lib (toValue value)) = some value ∧ queryValue lib (toValue value) ≠ []) :
    readField query key default read = some value := by
  rw [readField, hfield]
  by_cases hvalue : value = default
  · simp [hvalue, written]
  · simp [hvalue, written, Option.filter, hread]

/-- **An optional field is read as what is written.** -/
theorem readOptional_written {α β : Type} {read : PyStr → Option β} {value : Option α}
    (toValue : α → QueryValue) (meaning : α → β)
    (hfield : fieldOf query key = written lib (value.map toValue))
    (hread : ∀ a ∈ value, read (queryValue lib (toValue a)) = some (meaning a) ∧
      queryValue lib (toValue a) ≠ []) :
    readOptional query key read = some (value.map meaning) := by
  rw [readOptional, readField, hfield, written_map lib fun a ha => (hread a ha).2]
  cases value with
  | none => rfl
  | some a => simp [(hread a rfl).1]

theorem readOptional_same {α : Type} {read : PyStr → Option α} {value : Option α}
    (toValue : α → QueryValue) (hfield : fieldOf query key = written lib (value.map toValue))
    (hread : ∀ a ∈ value, read (queryValue lib (toValue a)) = some a ∧
      queryValue lib (toValue a) ≠ []) :
    readOptional query key read = some value := by
  rw [readOptional_written lib toValue id hfield hread, Option.map_id_fun, id]

theorem reads_int {n : ℤ} (h : 0 < n) :
    readInt (queryValue lib (.int n)) = some n ∧ queryValue lib (.int n) ≠ [] :=
  ⟨readInt_toString h, toString_int_ne_nil h⟩

theorem StreamBarChartParams.understood_append (params : StreamBarChartParams) (more : QueryParams)
    (hmore : ∀ key ∈ ["interval", "unit", "barsback", "sessiontemplate"],
      fieldOf (kept (present lib more)) key = none) :
    params.UnderstoodIn (kept (present lib (params.dump ++ more))) := by
  simp only [List.forall_mem_cons, List.not_mem_nil, false_imp_iff, implies_true, and_true] at hmore
  obtain ⟨hinterval, hunit, hbarsBack, htemplate⟩ := hmore
  constructor
  · refine readField_written lib .int ?_ (reads_int lib params.interval_pos)
    simp [dump, fieldOf_present, hinterval]
  · refine readField_written lib (fun unit => .text unit.value) ?_ params.unit.reads
    simp [dump, fieldOf_present, hunit]
  · refine readOptional_same lib .int ?_ fun n hn => reads_int lib (params.barsBack_pos n hn)
    simp [dump, fieldOf_present, hbarsBack]
  · refine readOptional_same lib (fun template => .text template.value) ?_ fun template _ => template.reads
    simp [dump, fieldOf_present, htemplate]

theorem StreamBarChartParams.understood (params : StreamBarChartParams) :
    params.UnderstoodIn (kept (present lib params.dump)) := by
  have h := params.understood_append lib [] fun _ _ => rfl
  rwa [List.append_nil] at h

variable {lib : Library}

/-- A library writes dates as texts that are not blank. -/
structure Python.Library.WritesDates (lib : Library) : Prop where
  text : ∀ date : DateValue, IsText (date.text lib) ∧ date.text lib ≠ []

theorem written_date (hlib : lib.WritesDates) (date : Option DateValue) :
    written lib (date.map fun date => .text (date.text lib)) = date.map (DateValue.text lib) :=
  written_map lib fun date _ => (hlib.text date).2

theorem BarChartParams.understood (hlib : lib.WritesDates) (params : BarChartParams) :
    params.UnderstoodIn lib (kept (present lib (params.dump lib))) := by
  have hbase := params.toStreamBarChartParams.understood_append lib
    [(str "firstdate", params.firstDate.map fun date => .text (date.text lib)),
      (str "lastdate", params.lastDate.map fun date => .text (date.text lib)),
      (str "startdate", params.startDate.map fun date => .text (date.text lib))]
    (by simp [fieldOf_present])
  refine ⟨hbase, ?_, ?_, ?_⟩
  · simp [dump, StreamBarChartParams.dump, fieldOf_present, written_date hlib]
  · simp [dump, StreamBarChartParams.dump, fieldOf_present, written_date hlib]
  · simp [dump, StreamBarChartParams.dump, fieldOf_present, written_date hlib]

variable (lib) in
theorem reads_number (d : Decimal) :
    readNumber (queryValue lib (.text d.fixedPoint)) = some d.toRat ∧
      queryValue lib (.text d.fixedPoint) ≠ [] :=
  ⟨readNumber_fixedPoint d, fixedPoint_ne_nil d⟩

variable (lib) in
theorem reads_bool (b : Bool) :
    readBool (queryValue lib (.bool b)) = some b ∧ queryValue lib (.bool b) ≠ [] := by
  cases b <;> exact ⟨rfl, List.cons_ne_nil _ _⟩

theorem OptionChainStreamParams.understood (params : OptionChainStreamParams) :
    params.UnderstoodIn lib (kept (present lib (params.dump lib))) := by
  constructor
  · simp [dump, fieldOf_present, written, queryValue, Function.comp_def]
  · simp [dump, fieldOf_present, written, queryValue, Function.comp_def]
  · refine readOptional_same lib .int ?_ fun n hn => reads_int lib (params.strikeProximity_pos n hn)
    simp [dump, fieldOf_present]
  · refine readOptional_same lib (fun name => .text name.value) ?_ fun name _ => name.reads
    simp [dump, fieldOf_present]
  · refine readOptional_written lib (fun d => .text d.fixedPoint) Decimal.toRat ?_ fun d _ => reads_number lib d
    simp [dump, fieldOf_present]
  · refine readOptional_written lib (fun d => .text d.fixedPoint) Decimal.toRat ?_ fun d _ => reads_number lib d
    simp [dump, fieldOf_present]
  · refine readOptional_same lib .int ?_ fun n hn => reads_int lib (params.strikeInterval_pos n hn)
    simp [dump, fieldOf_present]
  · refine readOptional_same lib .bool ?_ fun b _ => reads_bool lib b
    simp [dump, fieldOf_present]
  · refine readOptional_same lib (fun range => .text range.value) ?_ fun range _ => range.reads
    simp [dump, fieldOf_present]
  · refine readOptional_same lib (fun type => .text type.value) ?_ fun type _ => type.reads
    simp [dump, fieldOf_present]

/-! ## Legs -/

/-- The name of a parameter of a leg. -/
def legName (i : ℕ) (field : String) : String := "legs[" ++ toString i ++ field

theorem toList_legName (i : ℕ) (field : String) :
    (legName i field).toList = "legs[".toList ++ (Nat.toDigits 10 i ++ field.toList) := by
  rw [legName, String.toList_append, String.toList_append, List.append_assoc, Nat.toString_eq_repr,
    Nat.toList_repr]

theorem str_legName (i : ℕ) (field : String) :
    str (legName i field) = str "legs[" ++ str (toString i) ++ str field := by
  simp [str, legName]

theorem legName_inj {i j : ℕ} {field : String} : legName i field = legName j field ↔ i = j := by
  refine ⟨fun h => ?_, fun h => h ▸ rfl⟩
  have hdigits : Nat.toDigits 10 i = Nat.toDigits 10 j := by
    have hlists := congrArg String.toList h
    rw [toList_legName, toList_legName] at hlists
    exact List.append_cancel_right (List.append_cancel_left hlists)
  rw [← Nat.ofDigitChars_ten_toDigits (n := i), hdigits, Nat.ofDigitChars_ten_toDigits]

/-- The two parameters of legs have two names. -/
theorem legName_symbol_ne {i j : ℕ} : legName i "].Symbol" ≠ legName j "].Ratio" := by
  intro h
  have hlast : ∀ n {field : String}, field.toList ≠ [] →
      (legName n field).toList.getLast? = field.toList.getLast? := by
    intro n field hne
    rw [toList_legName, ← List.append_assoc, List.getLast?_append_of_ne_nil _ hne]
  have hboth := @hlast i "].Symbol" (by decide)
  rw [h, hlast j (by decide)] at hboth
  exact absurd hboth (by decide)

theorem legName_head {i : ℕ} {field name : String} (h : name.toList.head? ≠ some 'l') :
    legName i field ≠ name := by
  rintro rfl
  rw [toList_legName] at h
  exact h rfl

theorem legParams_cons (leg : OptionQuoteLeg) (legs : List OptionQuoteLeg) (k : ℕ) :
    ((leg :: legs).zipIdx k).flatMap (fun (leg, index) =>
        [(str "legs[" ++ str (toString index) ++ str "].Symbol", some (.text leg.symbol)),
          (str "legs[" ++ str (toString index) ++ str "].Ratio", some (.decimal leg.ratio))]) =
      (str (legName k "].Symbol"), some (QueryValue.text leg.symbol)) ::
        (str (legName k "].Ratio"), some (.decimal leg.ratio)) ::
          (legs.zipIdx (k + 1)).flatMap fun (leg, index) =>
            [(str "legs[" ++ str (toString index) ++ str "].Symbol", some (.text leg.symbol)),
              (str "legs[" ++ str (toString index) ++ str "].Ratio", some (.decimal leg.ratio))] := by
  rw [List.zipIdx_cons, List.flatMap_cons, str_legName, str_legName]
  rfl

/-- The legs from an index on. -/
theorem fieldOf_legs (legs : List OptionQuoteLeg) (k n : ℕ) :
    let params := (legs.zipIdx k).flatMap fun (leg, index) =>
      [(str "legs[" ++ str (toString index) ++ str "].Symbol", some (QueryValue.text leg.symbol)),
        (str "legs[" ++ str (toString index) ++ str "].Ratio", some (.decimal leg.ratio))]
    fieldOf (kept (present lib params)) (legName n "].Symbol") =
        (if n < k then none else legs[n - k]?).map OptionQuoteLeg.symbol ∧
      fieldOf (kept (present lib params)) (legName n "].Ratio") =
        (if n < k then none else legs[n - k]?).map fun leg => leg.ratio.fixedPoint := by
  induction legs generalizing k with
  | nil => simp
  | cons leg legs ih =>
    obtain ⟨hsymbol, hratio⟩ := ih (k + 1)
    dsimp only
    rw [legParams_cons]
    simp only [fieldOf_present, legName_inj, legName_symbol_ne, legName_symbol_ne.symm, if_false, hsymbol,
      hratio, written, Option.map_some, queryValue, Option.filter]
    have hsymbol_ne := leg.symbol_clean.1
    have hratio_ne := fixedPoint_ne_nil leg.ratio
    rcases Nat.lt_trichotomy n k with hlt | rfl | hgt
    · simp [hlt, hlt.ne', Nat.lt_succ_of_lt hlt]
    · simp [hsymbol_ne, hratio_ne]
    · obtain ⟨m, rfl⟩ := Nat.exists_eq_add_of_lt hgt
      have hpast : ¬k + m + 1 < k + 1 := by omega
      have hbehind : k + m + 1 - k = m + 1 := by omega
      have hnext : k + m + 1 - (k + 1) = m := by omega
      simp [hgt.ne, hgt.not_gt, hpast, hbehind, hnext]

/-- What `stream_option_quotes` asks for is understood. -/
structure LegsUnderstoodIn (legs : List OptionQuoteLeg) (riskFreeRate : Option Decimal)
    (enableGreeks : Option Bool) (query : List (PyStr × PyStr)) : Prop where
  riskFreeRate : readOptional query "riskFreeRate" readNumber = some (riskFreeRate.map Decimal.toRat)
  enableGreeks : readOptional query "enableGreeks" readBool = some enableGreeks
  /-- Each leg in its place, and none behind them. -/
  symbol : ∀ i, fieldOf query (legName i "].Symbol") = legs[i]?.map OptionQuoteLeg.symbol
  ratio : ∀ i, readOptional query (legName i "].Ratio") readNumber =
    some (legs[i]?.map fun leg => leg.ratio.toRat)

/-- A parameter that is none of a leg. -/
theorem fieldOf_legs_other (legs : List OptionQuoteLeg) (k : ℕ) {key : String}
    (hkey : key.toList.head? ≠ some 'l') :
    fieldOf (kept (present lib ((legs.zipIdx k).flatMap fun (leg, index) =>
      [(str "legs[" ++ str (toString index) ++ str "].Symbol", some (QueryValue.text leg.symbol)),
        (str "legs[" ++ str (toString index) ++ str "].Ratio", some (.decimal leg.ratio))]))) key =
      none := by
  induction legs generalizing k with
  | nil => rfl
  | cons leg legs ih =>
    rw [legParams_cons, fieldOf_present, fieldOf_present, if_neg (legName_head hkey),
      if_neg (legName_head hkey)]
    exact ih (k + 1)

theorem legs_understood (legs : List OptionQuoteLeg) (riskFreeRate : Option Decimal)
    (enableGreeks : Option Bool) :
    LegsUnderstoodIn legs riskFreeRate enableGreeks (kept (present lib
      ((str "riskFreeRate", riskFreeRate.map .decimal) ::
        (str "enableGreeks", enableGreeks.map .bool) :: legParams legs))) := by
  have hrate : fieldOf (kept (present lib (legParams legs))) "riskFreeRate" = none :=
    fieldOf_legs_other legs 0 (by decide)
  have hgreeks : fieldOf (kept (present lib (legParams legs))) "enableGreeks" = none :=
    fieldOf_legs_other legs 0 (by decide)
  have hother : ∀ {i : ℕ} {field name : String}, name.toList.head? ≠ some 'l' →
      name ≠ legName i field := fun h => (legName_head h).symm
  constructor
  · refine readOptional_written lib .decimal Decimal.toRat ?_ fun d _ => reads_number lib d
    simp [fieldOf_present, hrate]
  · refine readOptional_same lib .bool ?_ fun b _ => reads_bool lib b
    simp [fieldOf_present, hgreeks]
  · intro i
    rw [fieldOf_present, if_neg (hother (by decide)), fieldOf_present, if_neg (hother (by decide))]
    exact (fieldOf_legs legs 0 i).1
  · intro i
    refine readOptional_written lib (fun leg : OptionQuoteLeg => .decimal leg.ratio)
      (fun leg => leg.ratio.toRat) ?_ fun leg _ => reads_number lib leg.ratio
    have hratios : written lib (legs[i]?.map fun leg => .decimal leg.ratio) =
        legs[i]?.map fun leg => leg.ratio.fixedPoint :=
      written_map lib fun leg _ => fixedPoint_ne_nil leg.ratio
    rw [fieldOf_present, if_neg (hother (by decide)), fieldOf_present, if_neg (hother (by decide)),
      hratios]
    exact (fieldOf_legs legs 0 i).2

end

/-! ## What is written are texts -/

/-- Names and values that are texts. -/
def QueryParams.AreTexts (lib : Library) (params : QueryParams) : Prop :=
  ∀ p ∈ params, IsText p.1 ∧ ∀ value ∈ p.2, IsText (queryValue lib value)

section
variable {lib : Library}

theorem QueryParams.AreTexts.present {params : QueryParams} (h : params.AreTexts lib) :
    ∀ p ∈ TradeStation.present lib params, IsText p.1 ∧ IsText p.2 := by
  intro p hp
  obtain ⟨⟨name, value⟩, hparam, hvalue⟩ := List.mem_filterMap.1 hp
  obtain ⟨v, rfl, rfl⟩ := Option.map_eq_some_iff.1 hvalue
  exact ⟨(h _ hparam).1, (h _ hparam).2 v rfl⟩

theorem isText_str (s : String) : IsText (str s) := (encodable_str s).1

theorem isText_fixedPoint (d : Decimal) : IsText d.fixedPoint := by
  intro c hc
  obtain ⟨d', hplain, -⟩ := Decimal.fixedPoint_plain d
  have hcode := hplain.not_exponent c hc
  omega

theorem isText_bool (b : Bool) : IsText (queryValue lib (.bool b)) := by
  cases b <;> exact isText_str _

theorem areTexts_append {params more : QueryParams} (h : params.AreTexts lib) (h' : more.AreTexts lib) :
    (params ++ more).AreTexts lib :=
  List.forall_mem_append.2 ⟨h, h'⟩

/-- An optional value under a name. -/
theorem areTexts_cons {α : Type} {name : String} {value : Option α} {toValue : α → QueryValue}
    {rest : QueryParams} (h : ∀ a ∈ value, IsText (queryValue lib (toValue a)))
    (hrest : rest.AreTexts lib) : QueryParams.AreTexts lib ((str name, value.map toValue) :: rest) := by
  refine List.forall_mem_cons.2 ⟨⟨isText_str name, fun v hv => ?_⟩, hrest⟩
  obtain ⟨a, ha, rfl⟩ := Option.map_eq_some_iff.1 hv
  exact h a ha

theorem areTexts_nil : QueryParams.AreTexts lib [] := by simp [QueryParams.AreTexts]

theorem StreamBarChartParams.areTexts (params : StreamBarChartParams) : params.dump.AreTexts lib := by
  have hinterval : ∀ value ∈ (if params.interval = 1 then none else some (QueryValue.int params.interval)),
      IsText (queryValue lib value) := by
    intro value hvalue
    split_ifs at hvalue
    · cases hvalue
    · cases hvalue
      exact isText_str _
  have hunit : ∀ value ∈ (if params.unit = .daily then none else some (QueryValue.text params.unit.value)),
      IsText (queryValue lib value) := by
    intro value hvalue
    split_ifs at hvalue
    · cases hvalue
    · cases hvalue
      change IsText params.unit.value
      cases params.unit <;> exact isText_str _
  refine List.forall_mem_cons.2 ⟨⟨isText_str _, hinterval⟩, List.forall_mem_cons.2
    ⟨⟨isText_str _, hunit⟩, areTexts_cons (fun n _ => isText_str _) (areTexts_cons ?_ areTexts_nil)⟩⟩
  intro template _
  cases template <;> exact isText_str _

theorem BarChartParams.areTexts (hlib : lib.WritesDates) (params : BarChartParams) :
    (params.dump lib).AreTexts lib :=
  areTexts_append params.toStreamBarChartParams.areTexts <|
    areTexts_cons (fun date _ => (hlib.text date).1) <|
    areTexts_cons (fun date _ => (hlib.text date).1) <|
    areTexts_cons (fun date _ => (hlib.text date).1) areTexts_nil

theorem OptionChainStreamParams.areTexts (params : OptionChainStreamParams)
    (htexts : ∀ date ∈ params.expiration.toList ++ params.expiration2.toList,
      IsText (date.dumped lib)) : (params.dump lib).AreTexts lib := by
  have hname : ∀ name : OptionSpreadTypeName, IsText name.value := by
    intro name
    cases name <;> exact isText_str _
  have hrange : ∀ range : StrikeRange, IsText range.value := by
    intro range
    cases range <;> exact isText_str _
  have htype : ∀ type : OptionType, IsText type.value := by
    intro type
    cases type <;> exact isText_str _
  refine areTexts_cons (fun date hdate => htexts date ?_) <|
    areTexts_cons (fun date hdate => htexts date ?_) <| areTexts_cons (fun n _ => isText_str _) <|
    areTexts_cons (fun name _ => hname name) <| areTexts_cons (fun d _ => isText_fixedPoint d) <|
    areTexts_cons (fun d _ => isText_fixedPoint d) <| areTexts_cons (fun n _ => isText_str _) <|
    areTexts_cons (fun b _ => isText_bool b) <| areTexts_cons (fun range _ => hrange range) <|
    areTexts_cons (fun type _ => htype type) areTexts_nil
  · exact List.mem_append_left _ (Option.mem_toList.2 hdate)
  · exact List.mem_append_right _ (Option.mem_toList.2 hdate)

theorem legs_areTexts {legs : List OptionQuoteLeg} (htexts : ∀ leg ∈ legs, IsText leg.symbol)
    (riskFreeRate : Option Decimal) (enableGreeks : Option Bool) :
    QueryParams.AreTexts lib ((str "riskFreeRate", riskFreeRate.map .decimal) ::
      (str "enableGreeks", enableGreeks.map .bool) :: legParams legs) := by
  refine areTexts_cons (fun d _ => isText_fixedPoint d) (areTexts_cons (fun b _ => isText_bool b) ?_)
  intro p hp
  obtain ⟨⟨leg, i⟩, hleg, hmem⟩ := List.mem_flatMap.1 hp
  have hname : ∀ field, IsText (str "legs[" ++ str (toString i) ++ str field) := by
    intro field
    rw [← str_legName]
    exact isText_str _
  have hsymbol := htexts leg (List.fst_mem_of_mem_zipIdx hleg)
  simp only [List.mem_cons, List.not_mem_nil, or_false] at hmem
  rcases hmem with rfl | rfl
  · exact ⟨hname _, fun v hv => by cases hv; exact hsymbol⟩
  · exact ⟨hname _, fun v hv => by cases hv; exact isText_fixedPoint _⟩

end

end TradeStation
