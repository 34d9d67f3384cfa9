import Mathlib.Data.Option.Basic
import TradeStation.Models.Decoding
import TradeStation.Payloads
import TradeStation.Python.IsoFormat
import TradeStation.RiskChecks

/-!
# Orders come back from their payloads

`order_payload` leaves out what is at its default, and writes decimals in plain digits and times as
text. Validating what it wrote gives an order back that is the same in every wire field at every
depth: `WireRel D T` relates two orders whose decimals are related by `D`, whose times by `T`, and
whose other wire fields are equal. With equality for both, it says that two orders differ in nothing
but what is kept off the wire, and then they have one payload.
-/

namespace TradeStation

open Python

/-! ## The same on the wire -/

/-- Numerically equal decimals. -/
def SameNumber (d e : Decimal) : Prop := d.toRat = e.toRat

/-- Times of one instant, both with a zone or both without. -/
def SameInstant (t u : Datetime) : Prop := t.instant = u.instant ∧ t.aware = u.aware

section
variable (D : Decimal → Decimal → Prop) (T : Datetime → Datetime → Prop)

/-- Two durations that are the same on the wire. -/
structure TimeInForce.WireRel (a b : TimeInForce) : Prop where
  duration : a.duration = b.duration
  expiration : Option.Rel T a.expiration b.expiration

/-- Two trailing stops that are the same on the wire. -/
structure TrailingStop.WireRel (a b : TrailingStop) : Prop where
  amount : Option.Rel D a.amount b.amount
  percent : Option.Rel D a.percent b.percent

/-- Two sets of options that are the same on the wire. -/
structure AdvancedOptions.WireRel (a b : AdvancedOptions) : Prop where
  addLiquidity : a.addLiquidity = b.addLiquidity
  allOrNone : a.allOrNone = b.allOrNone
  bookOnly : a.bookOnly = b.bookOnly
  discretionaryPrice : Option.Rel D a.discretionaryPrice b.discretionaryPrice
  marketActivationRules : a.marketActivationRules = b.marketActivationRules
  nonDisplay : a.nonDisplay = b.nonDisplay
  pegValue : a.pegValue = b.pegValue
  showOnlyQuantity : Option.Rel D a.showOnlyQuantity b.showOnlyQuantity
  timeActivationRules : a.timeActivationRules = b.timeActivationRules
  trailingStop : Option.Rel (TrailingStop.WireRel D) a.trailingStop b.trailingStop

/-- Two nodes that are the same on the wire. What an order keeps off the wire is not compared. -/
structure OrderFields.WireRel (a b : OrderFields) : Prop where
  accountId : a.accountId = b.accountId
  symbol : a.symbol = b.symbol
  quantity : D a.quantity b.quantity
  orderType : a.orderType = b.orderType
  tradeAction : a.tradeAction = b.tradeAction
  timeInForce : TimeInForce.WireRel T a.timeInForce b.timeInForce
  limitPrice : Option.Rel D a.limitPrice b.limitPrice
  stopPrice : Option.Rel D a.stopPrice b.stopPrice
  route : a.route = b.route
  advancedOptions : Option.Rel (AdvancedOptions.WireRel D) a.advancedOptions b.advancedOptions
  orderConfirmId : a.orderConfirmId = b.orderConfirmId

mutual

/-- Two orders that are the same on the wire, at every depth. -/
def OrderRequest.WireRel : OrderRequest → OrderRequest → Prop
  | .mk fields osos, .mk fields' osos' =>
    OrderFields.WireRel D T fields fields' ∧ OrderRequest.WireRels osos osos'

/-- Two rows of orders that are the same on the wire, in order. -/
def OrderRequest.WireRels : List OrderRequest → List OrderRequest → Prop
  | [], [] => True
  | order :: orders, order' :: orders' =>
    OrderRequest.WireRel order order' ∧ OrderRequest.WireRels orders orders'
  | _, _ => False

end

/-- Two sets of replaced options that are the same on the wire. -/
structure AdvancedOptionsReplace.WireRel (a b : AdvancedOptionsReplace) : Prop where
  marketActivationRules : a.marketActivationRules = b.marketActivationRules
  showOnlyQuantity : Option.Rel D a.showOnlyQuantity b.showOnlyQuantity
  timeActivationRules : a.timeActivationRules = b.timeActivationRules
  trailingStop : Option.Rel (TrailingStop.WireRel D) a.trailingStop b.trailingStop

/-- Two replacements that are the same on the wire. -/
structure OrderReplaceRequest.WireRel (a b : OrderReplaceRequest) : Prop where
  advancedOptions :
    Option.Rel (AdvancedOptionsReplace.WireRel D) a.advancedOptions b.advancedOptions
  limitPrice : Option.Rel D a.limitPrice b.limitPrice
  orderType : a.orderType = b.orderType
  quantity : Option.Rel D a.quantity b.quantity
  stopPrice : Option.Rel D a.stopPrice b.stopPrice

end

/-! ## What can be written as it is -/

/-- A `float` that is a number: a literal of `2 ^ 1024 - 2 ^ 970` and more is read as an infinity. -/
def Python.PyFloat.Finite : PyFloat → Prop
  | .decimal _ coeff exp => coeff * 10 ^ exp.toNat < (2 ^ 54 - 1) * 2 ^ 970 * 10 ^ (-exp).toNat
  | _ => False

/-- A value that can be written in JSON as it is: its numbers are finite, and its keys have encodings. -/
inductive Python.Json.Representable : Json → Prop
  | null : Representable .null
  | bool (b : Bool) : Representable (.bool b)
  | int (n : ℤ) : Representable (.int n)
  | float {x : PyFloat} (h : x.Finite) : Representable (.float x)
  | str (s : PyStr) : Representable (.str s)
  | arr {items : List Json} (h : ∀ item ∈ items, Representable item) : Representable (.arr items)
  | obj {fields : Json.Dict} (keys : ∀ entry ∈ fields, NoSurrogate entry.1)
    (values : ∀ entry ∈ fields, Representable entry.2) : Representable (.obj fields)

/-- Rules that can be written as they are. -/
def RulesRepresentable (rules : List Json.Dict) : Prop :=
  ∀ rule ∈ rules, (Json.obj rule).Representable

/-- A node that can be written as it is: its rules can, and the offset of its expiration is in whole
minutes. -/
structure OrderFields.Representable (fields : OrderFields) : Prop where
  expiration : ∀ t ∈ fields.timeInForce.expiration, t.WholeMinutes
  marketActivationRules : ∀ options ∈ fields.advancedOptions,
    RulesRepresentable options.marketActivationRules
  timeActivationRules : ∀ options ∈ fields.advancedOptions,
    RulesRepresentable options.timeActivationRules

theorem OrderFields.representable_of_none {fields : OrderFields}
    (hexpiration : fields.timeInForce.expiration = none) (hoptions : fields.advancedOptions = none) :
    fields.Representable :=
  ⟨by simp [hexpiration], by simp [hoptions], by simp [hoptions]⟩

/-- A replacement that can. -/
structure OrderReplaceRequest.Representable (replacement : OrderReplaceRequest) : Prop where
  marketActivationRules : ∀ options ∈ replacement.advancedOptions,
    ∀ activation ∈ options.marketActivationRules, RulesRepresentable activation.rules
  timeActivationRules : ∀ options ∈ replacement.advancedOptions,
    ∀ activation ∈ options.timeActivationRules, RulesRepresentable activation.rules

/-- pydantic writes times in ISO 8601, and leaves alone what JSON has. -/
structure Python.Library.Writes (lib : Library) : Prop where
  isoformat : ∀ t : Datetime, t.WholeMinutes → lib.isoformat t = (IsoFields.ofDatetime t).text
  dumpDict : ∀ d : Json.Dict, (Json.obj d).Representable → lib.dumpDict d = d

/-! ## Reading a field back -/

section
variable {α β : Type} {body : Json.Dict} {aliasName name : String}

theorem requiredField_eq (value : Json) {parse : Json → Option β}
    (hget : OrderAck.lookup body (str aliasName) (str name) = some value) :
    requiredField body aliasName name parse = parse value := by
  rw [requiredField, hget]
  rfl

theorem defaultField_eq {parse : Json → Option β} {default : β}
    (hget : OrderAck.lookup body (str aliasName) (str name) = none) :
    defaultField body aliasName name parse default = some default := by
  rw [defaultField, hget]

/-- A field that is left out where it is `None` is read back. -/
theorem optionalField_reads {R : α → β → Prop} (value : Option α) (write : α → Json)
    {parse : Json → Option β}
    (hget : OrderAck.lookup body (str aliasName) (str name) = value.map write)
    (hnull : ∀ a, write a ≠ .null)
    (hparse : ∀ a ∈ value, ∃ b, parse (write a) = some b ∧ R a b) :
    ∃ value', optionalField body aliasName name parse = some value' ∧
      Option.Rel R value value' := by
  cases value with
  | none =>
    refine ⟨none, ?_, .none⟩
    rw [optionalField, hget]
    rfl
  | some a =>
    obtain ⟨b, hb, hrel⟩ := hparse a rfl
    refine ⟨some b, ?_, .some hrel⟩
    rw [optionalField, hget]
    have hne := hnull a
    simp only [Option.map_some]
    cases hwrite : write a with
    | null => exact absurd hwrite hne
    | _ => simp [← hwrite, hb]

/-- The same for a field that is read back as it was. -/
theorem optionalField_same_of (value : Option α) (write : α → Json) {parse : Json → Option α}
    (hget : OrderAck.lookup body (str aliasName) (str name) = value.map write)
    (hnull : ∀ a, write a ≠ .null) (hparse : ∀ a ∈ value, parse (write a) = some a) :
    optionalField body aliasName name parse = some value := by
  obtain ⟨value', hread, hrel⟩ := optionalField_reads (R := Eq) value write hget hnull
    fun a ha => ⟨a, hparse a ha, rfl⟩
  rw [hread]
  cases hrel with
  | none => rfl
  | some h => rw [h]

theorem optionalField_same (value : Option α) (write : α → Json) {parse : Json → Option α}
    (hget : OrderAck.lookup body (str aliasName) (str name) = value.map write)
    (hnull : ∀ a, write a ≠ .null) (hparse : ∀ a, parse (write a) = some a) :
    optionalField body aliasName name parse = some value :=
  optionalField_same_of value write hget hnull fun a _ => hparse a

end

theorem rulesField_eq {lib : Library} (hlib : lib.Writes) {body : Json.Dict} {aliasName name : String}
    {value : List Json.Dict} (hvalue : RulesRepresentable value)
    (hget : OrderAck.lookup body (str aliasName) (str name) = rules lib value) :
    rulesField body aliasName name = some value := by
  have hdump : (value.map fun rule => Json.obj (lib.dumpDict rule)) = value.map .obj :=
    List.map_congr_left fun rule hrule => congrArg Json.obj (hlib.dumpDict rule (hvalue rule hrule))
  have hmap : ∀ ds : List Json.Dict, (ds.map Json.obj).mapM Json.asDict = some ds := by
    intro ds
    induction ds with
    | nil => rfl
    | cons d ds ih => simp [ih, Json.asDict]
  rw [rulesField, hget, rules, hdump]
  cases value with
  | nil => rfl
  | cons d ds => exact hmap (d :: ds)

/-- Every key of the object is the alias of a field. -/
def AliasKeys (names : List (String × String)) (body : Json.Dict) : Prop :=
  ∀ p ∈ body, ∃ n ∈ names, p.1 = str n.1

theorem forbidExtra_of_aliasKeys {names : List (String × String)} {body : Json.Dict}
    (h : AliasKeys names body) : forbidExtra names body = true := by
  rw [forbidExtra, List.all_eq_true]
  intro p hp
  obtain ⟨n, hn, heq⟩ := h p hp
  exact List.any_eq_true.2 ⟨n, hn, by simp [heq]⟩

@[simp] theorem aliasKeys_append {names : List (String × String)} {d d' : Json.Dict} :
    AliasKeys names (d ++ d') ↔ AliasKeys names d ∧ AliasKeys names d' :=
  List.forall_mem_append

theorem aliasKeys_field {names : List (String × String)} {key : String} {value : Option Json}
    (h : key ∈ names.map Prod.fst) : AliasKeys names (field key value) := by
  intro p hp
  obtain ⟨n, hn, rfl⟩ := List.mem_map.1 h
  simp only [field, Option.mem_toList, Option.map_eq_some_iff] at hp
  obtain ⟨v, -, rfl⟩ := hp
  exact ⟨n, hn, rfl⟩

/-! ## Reading the parts of an order back -/

/-- pydantic reads a decimal text exactly, a boolean as it is, and a text in ISO 8601 as what its fields
say. -/
structure Pydantic.Reads (py : Pydantic) : Prop where
  decimal : ∀ text d, Decimal.PlainDecimal text d → py.decimal (.str text) = some d
  bool : ∀ b, py.bool (.bool b) = some b
  datetime : ∀ f : IsoFields, f.Valid → py.datetime (.str f.text) = some f.datetime

theorem enumValue_duration (d : Duration) :
    enumValue Duration.value Duration.members (.str d.value) = some d := by
  cases d <;> decide

theorem enumValue_orderType (type : OrderType) :
    enumValue OrderType.value OrderType.members (.str type.value) = some type := by
  cases type <;> decide

theorem enumValue_tradeAction (action : TradeAction) :
    enumValue TradeAction.value TradeAction.members (.str action.value) = some action := by
  cases action <;> decide

theorem nonpos_congr {d d' : Decimal} (h : SameNumber d d') : d.nonpos = d'.nonpos := by
  have hiff : d.nonpos = true ↔ d'.nonpos = true := by
    rw [Decimal.nonpos_iff, Decimal.nonpos_iff, h]
  exact Bool.eq_iff_iff.2 hiff

theorem positive_of_rel {value value' : Option Decimal} (hrel : Option.Rel SameNumber value value')
    (hpos : Positive value) : Positive value' := by
  intro d' hd'
  cases hrel with
  | none => cases hd'
  | some h =>
    cases hd'
    rw [← nonpos_congr h]
    exact hpos _ rfl

theorem isSome_of_rel {α : Type} {R : α → α → Prop} {value value' : Option α}
    (hrel : Option.Rel R value value') : value.isSome = value'.isSome := by
  cases hrel <;> rfl

theorem eq_none_of_rel {α : Type} {R : α → α → Prop} {value value' : Option α}
    (hrel : Option.Rel R value value') : value = none ↔ value' = none := by
  cases hrel <;> simp

/-- **A time comes back** as the same instant. -/
theorem datetime_reads {py : Pydantic} (hpy : py.Reads) {lib : Library} (hlib : lib.Writes) {t : Datetime}
    (ht : t.WholeMinutes) :
    ∃ t', py.datetime (.str (lib.isoformat t)) = some t' ∧ SameInstant t t' := by
  obtain ⟨hinstant, haware⟩ := IsoFields.instant_ofDatetime ht
  rw [hlib.isoformat t ht]
  exact ⟨_, hpy.datetime _ (IsoFields.ofDatetime_valid ht), hinstant.symm, haware.symm⟩

section
variable {py : Pydantic} (hpy : py.Reads)
include hpy

/-- **A decimal comes back** as the same number. -/
theorem decimal_reads (d : Decimal) :
    ∃ d', py.decimal (wireDecimal d) = some d' ∧ SameNumber d d' := by
  obtain ⟨d', hplain, hvalue⟩ := Decimal.fixedPoint_plain d
  exact ⟨d', hpy.decimal _ _ hplain, hvalue.symm⟩

theorem optionalDecimal_reads {body : Json.Dict} {aliasName name : String}
    (value : Option Decimal)
    (hget : OrderAck.lookup body (str aliasName) (str name) = value.map wireDecimal) :
    ∃ value', optionalField body aliasName name py.decimal = some value' ∧
      Option.Rel SameNumber value value' :=
  optionalField_reads value wireDecimal hget (by simp [wireDecimal]) fun d _ => decimal_reads hpy d

theorem optionalBool_same {body : Json.Dict} {aliasName name : String} (value : Option Bool)
    (hget : OrderAck.lookup body (str aliasName) (str name) = value.map .bool) :
    optionalField body aliasName name py.bool = some value :=
  optionalField_same value Json.bool hget (by simp) hpy.bool

theorem trailingStop_reads (value : TrailingStop) :
    ∃ value', py.trailingStop (trailingStopPayload value) = some value' ∧
      TrailingStop.WireRel SameNumber value value' := by
  obtain ⟨body, hpayload⟩ : ∃ body, trailingStopPayload value = .obj body := ⟨_, rfl⟩
  have hbody := (Json.obj.inj hpayload).symm
  obtain ⟨amount, hamount, hamountRel⟩ :
      ∃ amount, optionalField body "Amount" "amount" py.decimal = some amount ∧
        Option.Rel SameNumber value.amount amount :=
    optionalDecimal_reads hpy value.amount (by simp [OrderAck.lookup, hbody])
  obtain ⟨percent, hpercent, hpercentRel⟩ :
      ∃ percent, optionalField body "Percent" "percent" py.decimal = some percent ∧
        Option.Rel SameNumber value.percent percent :=
    optionalDecimal_reads hpy value.percent (by simp [OrderAck.lookup, hbody])
  have hkeys : AliasKeys [("Amount", "amount"), ("Percent", "percent")] body := by
    rw [hbody]
    simp [aliasKeys_field]
  have hvalid : amount.isSome ≠ percent.isSome ∧ Positive amount ∧ Positive percent := by
    rw [← isSome_of_rel hamountRel, ← isSome_of_rel hpercentRel]
    exact ⟨value.one_offset, positive_of_rel hamountRel value.amount_pos,
      positive_of_rel hpercentRel value.percent_pos⟩
  rw [hpayload]
  refine ⟨⟨amount, percent, hvalid.1, hvalid.2.1, hvalid.2.2⟩, ?_, hamountRel, hpercentRel⟩
  rw [Pydantic.trailingStop, forbidExtra_of_aliasKeys hkeys, hamount, hpercent]
  exact dif_pos hvalid

theorem advancedOptions_reads {lib : Library} (hlib : lib.Writes) (value : AdvancedOptions)
    (hmarket : RulesRepresentable value.marketActivationRules)
    (htime : RulesRepresentable value.timeActivationRules) :
    ∃ value', py.advancedOptions (advancedOptionsPayload lib value) = some value' ∧
      AdvancedOptions.WireRel SameNumber value value' := by
  obtain ⟨body, hpayload⟩ : ∃ body, advancedOptionsPayload lib value = .obj body := ⟨_, rfl⟩
  have hbody := (Json.obj.inj hpayload).symm
  have haddLiquidity : optionalField body "AddLiquidity" "add_liquidity" py.bool =
      some value.addLiquidity :=
    optionalBool_same hpy value.addLiquidity (by simp [OrderAck.lookup, hbody])
  have hallOrNone : optionalField body "AllOrNone" "all_or_none" py.bool =
      some value.allOrNone :=
    optionalBool_same hpy value.allOrNone (by simp [OrderAck.lookup, hbody])
  have hbookOnly : optionalField body "BookOnly" "book_only" py.bool = some value.bookOnly :=
    optionalBool_same hpy value.bookOnly (by simp [OrderAck.lookup, hbody])
  have hnonDisplay : optionalField body "NonDisplay" "non_display" py.bool =
      some value.nonDisplay :=
    optionalBool_same hpy value.nonDisplay (by simp [OrderAck.lookup, hbody])
  have hpegValue : optionalField body "PegValue" "peg_value" strValue = some value.pegValue :=
    optionalField_same value.pegValue Json.str (by simp [OrderAck.lookup, hbody]) (by simp)
      fun _ => rfl
  have hmarketRules : rulesField body "MarketActivationRules" "market_activation_rules" =
      some value.marketActivationRules :=
    rulesField_eq hlib hmarket (by simp [OrderAck.lookup, hbody])
  have htimeRules : rulesField body "TimeActivationRules" "time_activation_rules" =
      some value.timeActivationRules :=
    rulesField_eq hlib htime (by simp [OrderAck.lookup, hbody])
  obtain ⟨price, hprice, hpriceRel⟩ : ∃ price,
      optionalField body "DiscretionaryPrice" "discretionary_price" py.decimal = some price ∧
        Option.Rel SameNumber value.discretionaryPrice price :=
    optionalDecimal_reads hpy value.discretionaryPrice (by simp [OrderAck.lookup, hbody])
  obtain ⟨shown, hshown, hshownRel⟩ : ∃ shown,
      optionalField body "ShowOnlyQuantity" "show_only_quantity" py.decimal = some shown ∧
        Option.Rel SameNumber value.showOnlyQuantity shown :=
    optionalDecimal_reads hpy value.showOnlyQuantity (by simp [OrderAck.lookup, hbody])
  obtain ⟨trailing, htrailing, htrailingRel⟩ : ∃ trailing,
      optionalField body "TrailingStop" "trailing_stop" py.trailingStop = some trailing ∧
        Option.Rel (TrailingStop.WireRel SameNumber) value.trailingStop trailing :=
    optionalField_reads value.trailingStop trailingStopPayload
      (by simp [OrderAck.lookup, hbody]) (by simp [trailingStopPayload])
      fun stop _ => trailingStop_reads hpy stop
  have hkeys : AliasKeys [("AddLiquidity", "add_liquidity"), ("AllOrNone", "all_or_none"),
      ("BookOnly", "book_only"), ("DiscretionaryPrice", "discretionary_price"),
      ("MarketActivationRules", "market_activation_rules"), ("NonDisplay", "non_display"),
      ("PegValue", "peg_value"), ("ShowOnlyQuantity", "show_only_quantity"),
      ("TimeActivationRules", "time_activation_rules"), ("TrailingStop", "trailing_stop")]
      body := by
    rw [hbody]
    simp [aliasKeys_field]
  have hvalid : Positive price ∧ Positive shown :=
    ⟨positive_of_rel hpriceRel value.discretionaryPrice_pos,
      positive_of_rel hshownRel value.showOnlyQuantity_pos⟩
  rw [hpayload, Pydantic.advancedOptions, forbidExtra_of_aliasKeys hkeys, haddLiquidity,
    hallOrNone, hbookOnly, hprice, hmarketRules, hnonDisplay, hpegValue, hshown, htimeRules,
    htrailing]
  exact ⟨_, dif_pos hvalid, rfl, rfl, rfl, hpriceRel, rfl, rfl, rfl, hshownRel, rfl, htrailingRel⟩

end

theorem timeInForce_reads {py : Pydantic} (hpy : py.Reads) {lib : Library} (hlib : lib.Writes)
    (value : TimeInForce) (htimes : ∀ t ∈ value.expiration, t.WholeMinutes) :
    ∃ value', py.timeInForce (timeInForcePayload lib value) = some value' ∧
      TimeInForce.WireRel SameInstant value value' := by
  obtain ⟨body, hpayload⟩ : ∃ body, timeInForcePayload lib value = .obj body := ⟨_, rfl⟩
  have hbody := (Json.obj.inj hpayload).symm
  have hduration : requiredField body "Duration" "duration"
      (enumValue Duration.value Duration.members) = some value.duration := by
    rw [requiredField_eq (.str value.duration.value) (by simp [OrderAck.lookup, hbody])]
    exact enumValue_duration value.duration
  obtain ⟨expiration, hexpiration, hrel⟩ : ∃ expiration,
      optionalField body "Expiration" "expiration" py.datetime = some expiration ∧
        Option.Rel SameInstant value.expiration expiration :=
    optionalField_reads value.expiration (fun time => .str (lib.isoformat time))
      (by simp [OrderAck.lookup, hbody]) (by simp)
      fun t ht => datetime_reads hpy hlib (htimes t ht)
  have hkeys : AliasKeys [("Duration", "duration"), ("Expiration", "expiration")] body := by
    rw [hbody]
    simp [aliasKeys_field]
  have hdated : value.duration = .gtd ∨ value.duration = .gtdPlus → expiration ≠ none := by
    intro hdated
    rw [Ne, ← eq_none_of_rel hrel]
    exact value.dated hdated
  rw [hpayload, Pydantic.timeInForce, forbidExtra_of_aliasKeys hkeys, hduration, hexpiration]
  exact ⟨_, dif_pos hdated, rfl, hrel⟩

/-! ## Orders -/

theorem aliasKeys_orderPayload (lib : Library) (fields : OrderFields) (osos : List OrderRequest) :
    AliasKeys Pydantic.orderNames (orderPayload lib (.mk fields osos)) := by
  cases osos <;> simp [orderPayload, orderFieldsPayload, aliasKeys_field, Pydantic.orderNames]

/-- **One node.** Its fields come back from its payload, whatever its children are. -/
theorem orderFields_reads {py : Pydantic} (hpy : py.Reads) {lib : Library} (hlib : lib.Writes)
    (fields : OrderFields) (osos : List OrderRequest) (fresh : PyStr) (hfields : fields.Representable) :
    ∃ fields', py.orderFields fresh (orderPayload lib (.mk fields osos)) = some fields' ∧
      OrderFields.WireRel SameNumber SameInstant fields fields' := by
  have hkeys := aliasKeys_orderPayload lib fields osos
  have hget : ∀ aliasName name : String, aliasName ≠ "OSOs" → name ≠ "OSOs" →
      OrderAck.lookup (orderPayload lib (.mk fields osos)) (str aliasName) (str name) =
        (Json.get (orderFieldsPayload lib fields) (str aliasName)).or
          (Json.get (orderFieldsPayload lib fields) (str name)) := by
    intro aliasName name haliasName hname
    simp [OrderAck.lookup, get_orderPayload, haliasName.symm, hname.symm]
  generalize orderPayload lib (.mk fields osos) = body at hkeys hget ⊢
  have haccountId : requiredField body "AccountID" "account_id" strValue =
      some fields.accountId :=
    requiredField_eq (.str fields.accountId) (by simp [hget, orderFieldsPayload])
  have hsymbol : requiredField body "Symbol" "symbol" strValue = some fields.symbol :=
    requiredField_eq (.str fields.symbol) (by simp [hget, orderFieldsPayload])
  obtain ⟨quantity, hquantityRead, hquantityRel⟩ := decimal_reads hpy fields.quantity
  have hquantity : requiredField body "Quantity" "quantity" py.decimal = some quantity := by
    rw [requiredField_eq (wireDecimal fields.quantity) (by simp [hget, orderFieldsPayload])]
    exact hquantityRead
  have horderType : requiredField body "OrderType" "order_type"
      (enumValue OrderType.value OrderType.members) = some fields.orderType := by
    rw [requiredField_eq (.str fields.orderType.value) (by simp [hget, orderFieldsPayload])]
    exact enumValue_orderType fields.orderType
  have htradeAction : requiredField body "TradeAction" "trade_action"
      (enumValue TradeAction.value TradeAction.members) = some fields.tradeAction := by
    rw [requiredField_eq (.str fields.tradeAction.value) (by simp [hget, orderFieldsPayload])]
    exact enumValue_tradeAction fields.tradeAction
  obtain ⟨timeInForce, htimeRead, htimeRel⟩ := timeInForce_reads hpy hlib fields.timeInForce hfields.expiration
  have htimeInForce : requiredField body "TimeInForce" "time_in_force" py.timeInForce =
      some timeInForce := by
    rw [requiredField_eq (timeInForcePayload lib fields.timeInForce)
      (by simp [hget, orderFieldsPayload])]
    exact htimeRead
  obtain ⟨limitPrice, hlimitPrice, hlimitRel⟩ : ∃ limitPrice,
      optionalField body "LimitPrice" "limit_price" py.decimal = some limitPrice ∧
        Option.Rel SameNumber fields.limitPrice limitPrice :=
    optionalDecimal_reads hpy fields.limitPrice (by simp [hget, orderFieldsPayload])
  obtain ⟨stopPrice, hstopPrice, hstopRel⟩ : ∃ stopPrice,
      optionalField body "StopPrice" "stop_price" py.decimal = some stopPrice ∧
        Option.Rel SameNumber fields.stopPrice stopPrice :=
    optionalDecimal_reads hpy fields.stopPrice (by simp [hget, orderFieldsPayload])
  have hroute : optionalField body "Route" "route" strValue = some fields.route :=
    optionalField_same fields.route Json.str (by simp [hget, orderFieldsPayload]) (by simp)
      fun _ => rfl
  obtain ⟨advancedOptions, hadvanced, hadvancedRel⟩ : ∃ advancedOptions,
      optionalField body "AdvancedOptions" "advanced_options" py.advancedOptions =
          some advancedOptions ∧
        Option.Rel (AdvancedOptions.WireRel SameNumber) fields.advancedOptions advancedOptions :=
    optionalField_reads fields.advancedOptions (advancedOptionsPayload lib)
      (by simp [hget, orderFieldsPayload]) (by simp [advancedOptionsPayload])
      fun options hoptions => advancedOptions_reads hpy hlib options
        (hfields.marketActivationRules options hoptions) (hfields.timeActivationRules options hoptions)
  have hconfirmId : optionalField body "OrderConfirmID" "order_confirm_id" strValue =
      some fields.orderConfirmId :=
    optionalField_same fields.orderConfirmId Json.str (by simp [hget, orderFieldsPayload])
      (by simp) fun _ => rfl
  have hrequestId : defaultField body "request_id" "request_id" py.uuid fresh = some fresh :=
    defaultField_eq (by simp [hget, orderFieldsPayload])
  have hassetClass : defaultField body "asset_class" "asset_class"
      (enumValue AssetClass.value AssetClass.members) .equity = some .equity :=
    defaultField_eq (by simp [hget, orderFieldsPayload])
  have hclientOrderId : optionalField body "client_order_id" "client_order_id" strValue =
      some none :=
    optionalField_same none Json.str (by simp [hget, orderFieldsPayload]) (by simp) fun _ => rfl
  have hestimated : optionalField body "estimated_price" "estimated_price" py.decimal =
      some none := by
    have hnone : OrderAck.lookup body (str "estimated_price") (str "estimated_price") = none := by
      simp [hget, orderFieldsPayload]
    rw [optionalField, hnone]
  have hprices : (fields.orderType = .limit → limitPrice ≠ none) ∧
      (fields.orderType = .stopMarket → stopPrice ≠ none) ∧
      (fields.orderType = .stopLimit → limitPrice ≠ none ∧ stopPrice ≠ none) := by
    rw [Ne, Ne, ← eq_none_of_rel hlimitRel, ← eq_none_of_rel hstopRel]
    exact ⟨fields.limit_price, fields.stop_price, fields.both_prices⟩
  have hpositive : quantity.nonpos = false ∧ Positive limitPrice ∧ Positive stopPrice ∧
      Positive none :=
    ⟨nonpos_congr hquantityRel ▸ fields.quantity_pos,
      positive_of_rel hlimitRel fields.limitPrice_pos,
      positive_of_rel hstopRel fields.stopPrice_pos, by simp [Positive]⟩
  have hclean : strip fields.accountId ≠ [] ∧ strip fields.symbol ≠ [] := by
    rw [fields.accountId_clean.2, fields.symbol_clean.2]
    exact ⟨fields.accountId_clean.1, fields.symbol_clean.1⟩
  rw [Pydantic.orderFields, forbidExtra_of_aliasKeys hkeys, haccountId, hsymbol, hquantity,
    horderType, htradeAction, htimeInForce, hlimitPrice, hstopPrice, hroute, hadvanced, hconfirmId,
    hrequestId, hassetClass, hclientOrderId, hestimated]
  exact ⟨_, dif_pos ⟨hclean, hpositive, hprices⟩, fields.accountId_clean.2.symm,
    fields.symbol_clean.2.symm, hquantityRel, rfl, rfl, htimeRel, hlimitRel, hstopRel, rfl,
    hadvancedRel, rfl⟩

mutual

/-- **A tree comes back** from its payload. -/
theorem order_reads {py : Pydantic} (hpy : py.Reads) {lib : Library} (hlib : lib.Writes)
    (uuid4 : List ℕ → PyStr) :
    ∀ (order : OrderRequest) (place : List ℕ), (∀ node ∈ order.nodes, node.Representable) →
      ∃ order', py.order uuid4 place (.obj (orderPayload lib order)) = some order' ∧
        OrderRequest.WireRel SameNumber SameInstant order order'
  | .mk fields osos, place, hnodes => by
    have hnode := hnodes fields (by simp [OrderRequest.nodes])
    have hosos : ∀ node ∈ OrderRequest.nodesOf osos, node.Representable := by
      intro node hmem
      exact hnodes node (by simp [OrderRequest.nodes, hmem])
    obtain ⟨fields', hfields, hrel⟩ := orderFields_reads hpy hlib fields osos (uuid4 place) hnode
    obtain ⟨osos', horders, hrels⟩ := orders_reads hpy hlib uuid4 osos place 0 hosos
    have hlookup : OrderAck.lookup (orderPayload lib (.mk fields osos)) (str "OSOs") (str "osos") =
        if osos ≠ [] then some (.arr (orderPayloads lib osos)) else none := by
      simp [OrderAck.lookup, get_orderPayload, orderFieldsPayload]
    rw [Pydantic.order_obj, hfields, hlookup]
    cases osos with
    | nil =>
      refine ⟨.mk fields' [], by simp, ?_⟩
      rw [OrderRequest.WireRel]
      exact ⟨hrel, trivial⟩
    | cons oso osos =>
      refine ⟨.mk fields' osos', by simp [horders], ?_⟩
      rw [OrderRequest.WireRel]
      exact ⟨hrel, hrels⟩

theorem orders_reads {py : Pydantic} (hpy : py.Reads) {lib : Library} (hlib : lib.Writes)
    (uuid4 : List ℕ → PyStr) :
    ∀ (orders : List OrderRequest) (place : List ℕ) (index : ℕ),
      (∀ node ∈ OrderRequest.nodesOf orders, node.Representable) →
      ∃ orders', py.orders uuid4 place index (orderPayloads lib orders) = some orders' ∧
        OrderRequest.WireRels SameNumber SameInstant orders orders'
  | [], place, index, _ => by
    rw [orderPayloads, Pydantic.orders]
    exact ⟨[], rfl, by simp [OrderRequest.WireRels]⟩
  | order :: orders, place, index, hnodes => by
    have horder : ∀ node ∈ order.nodes, node.Representable := by
      intro node hmem
      exact hnodes node (by simp [OrderRequest.nodesOf, hmem])
    have horders : ∀ node ∈ OrderRequest.nodesOf orders, node.Representable := by
      intro node hmem
      exact hnodes node (by simp [OrderRequest.nodesOf, hmem])
    obtain ⟨order', hread, hrel⟩ := order_reads hpy hlib uuid4 order (index :: place) horder
    obtain ⟨orders', hreads, hrels⟩ := orders_reads hpy hlib uuid4 orders place (index + 1) horders
    rw [orderPayloads, Pydantic.orders, hread]
    refine ⟨order' :: orders', by simp [hreads], ?_⟩
    rw [OrderRequest.WireRels]
    exact ⟨hrel, hrels⟩

end

/-! ## What a payload depends on -/

/-- A part that is written the same wherever it is the same on the wire. -/
theorem map_congr_rel {α : Type} {R : α → α → Prop} {write : α → Json} {value value' : Option α}
    (hrel : Option.Rel R value value') (h : ∀ a a', R a a' → write a = write a') :
    value.map write = value'.map write := by
  cases hrel with
  | none => rfl
  | some hR => exact congrArg some (h _ _ hR)

theorem map_congr_eq {α : Type} {write : α → Json} {value value' : Option α}
    (hrel : Option.Rel Eq value value') : value.map write = value'.map write :=
  map_congr_rel hrel fun _ _ => congrArg write

theorem trailingStopPayload_congr {a b : TrailingStop} (h : TrailingStop.WireRel Eq a b) :
    trailingStopPayload a = trailingStopPayload b := by
  rw [trailingStopPayload, trailingStopPayload, map_congr_eq h.amount, map_congr_eq h.percent]

theorem advancedOptionsPayload_congr (lib : Library) {a b : AdvancedOptions}
    (h : AdvancedOptions.WireRel Eq a b) :
    advancedOptionsPayload lib a = advancedOptionsPayload lib b := by
  rw [advancedOptionsPayload, advancedOptionsPayload, h.addLiquidity, h.allOrNone, h.bookOnly,
    map_congr_eq h.discretionaryPrice, h.marketActivationRules, h.nonDisplay, h.pegValue,
    map_congr_eq h.showOnlyQuantity, h.timeActivationRules,
    map_congr_rel h.trailingStop fun _ _ => trailingStopPayload_congr]

theorem orderFieldsPayload_congr {lib : Library} {a b : OrderFields}
    (h : OrderFields.WireRel Eq Eq a b) : orderFieldsPayload lib a = orderFieldsPayload lib b := by
  have htime : timeInForcePayload lib a.timeInForce = timeInForcePayload lib b.timeInForce := by
    rw [timeInForcePayload, timeInForcePayload, h.timeInForce.duration,
      map_congr_eq h.timeInForce.expiration]
  rw [orderFieldsPayload, orderFieldsPayload, h.accountId, h.symbol, h.quantity, h.orderType,
    h.tradeAction, htime, map_congr_eq h.limitPrice, map_congr_eq h.stopPrice, h.route,
    map_congr_rel h.advancedOptions fun _ _ => advancedOptionsPayload_congr lib, h.orderConfirmId]

mutual

/-- **A payload depends on the wire fields only.** -/
theorem orderPayload_congr (lib : Library) :
    ∀ {order order' : OrderRequest}, OrderRequest.WireRel Eq Eq order order' →
      orderPayload lib order = orderPayload lib order'
  | .mk fields osos, .mk fields' osos', h => by
    rw [OrderRequest.WireRel] at h
    obtain ⟨hfields, hosos⟩ := h
    have horders := orderPayloads_congr lib hosos
    cases osos with
    | nil =>
      cases osos' with
      | nil => simp [orderPayload, orderFieldsPayload_congr hfields]
      | cons oso' osos' => simp [OrderRequest.WireRels] at hosos
    | cons oso osos =>
      cases osos' with
      | nil => simp [OrderRequest.WireRels] at hosos
      | cons oso' osos' => simp [orderPayload, orderFieldsPayload_congr hfields, horders]

theorem orderPayloads_congr (lib : Library) :
    ∀ {orders orders' : List OrderRequest}, OrderRequest.WireRels Eq Eq orders orders' →
      orderPayloads lib orders = orderPayloads lib orders'
  | [], [], _ => rfl
  | order :: orders, order' :: orders', h => by
    rw [OrderRequest.WireRels] at h
    rw [orderPayloads, orderPayloads, orderPayload_congr lib h.1, orderPayloads_congr lib h.2]
  | [], _ :: _, h => by simp [OrderRequest.WireRels] at h
  | _ :: _, [], h => by simp [OrderRequest.WireRels] at h

end

/-! ## Replacements -/

section
variable {py : Pydantic} (hpy : py.Reads) {lib : Library} (hlib : lib.Writes)
include hpy hlib

theorem activationRules_reads (value : ActivationRulesReplace)
    (hvalue : RulesRepresentable value.rules) :
    py.activationRulesReplace (activationRulesPayload lib value) = some value := by
  obtain ⟨body, hpayload⟩ : ∃ body, activationRulesPayload lib value = .obj body := ⟨_, rfl⟩
  have hbody := (Json.obj.inj hpayload).symm
  have hclearAll : optionalField body "ClearAll" "clear_all" py.bool = some value.clearAll :=
    optionalBool_same hpy value.clearAll (by simp [OrderAck.lookup, hbody])
  have hrules : rulesField body "Rules" "rules" = some value.rules :=
    rulesField_eq hlib hvalue (by simp [OrderAck.lookup, hbody])
  have hkeys : AliasKeys [("ClearAll", "clear_all"), ("Rules", "rules")] body := by
    rw [hbody]
    simp [aliasKeys_field]
  rw [hpayload, Pydantic.activationRulesReplace, forbidExtra_of_aliasKeys hkeys, hclearAll, hrules]
  exact dif_pos value.some_rule

theorem advancedOptionsReplace_reads (value : AdvancedOptionsReplace)
    (hmarket : ∀ activation ∈ value.marketActivationRules, RulesRepresentable activation.rules)
    (htime : ∀ activation ∈ value.timeActivationRules, RulesRepresentable activation.rules) :
    ∃ value', py.advancedOptionsReplace (advancedOptionsReplacePayload lib value) = some value' ∧
      AdvancedOptionsReplace.WireRel SameNumber value value' := by
  obtain ⟨body, hpayload⟩ : ∃ body, advancedOptionsReplacePayload lib value = .obj body := ⟨_, rfl⟩
  have hbody := (Json.obj.inj hpayload).symm
  have hnull : ∀ rules, activationRulesPayload lib rules ≠ .null := by
    simp [activationRulesPayload]
  have hmarketRules : optionalField body "MarketActivationRules" "market_activation_rules"
      py.activationRulesReplace = some value.marketActivationRules :=
    optionalField_same_of value.marketActivationRules (activationRulesPayload lib)
      (by simp [OrderAck.lookup, hbody]) hnull
      fun rules hrules => activationRules_reads hpy hlib rules (hmarket rules hrules)
  have htimeRules : optionalField body "TimeActivationRules" "time_activation_rules"
      py.activationRulesReplace = some value.timeActivationRules :=
    optionalField_same_of value.timeActivationRules (activationRulesPayload lib)
      (by simp [OrderAck.lookup, hbody]) hnull
      fun rules hrules => activationRules_reads hpy hlib rules (htime rules hrules)
  obtain ⟨shown, hshown, hshownRel⟩ : ∃ shown,
      optionalField body "ShowOnlyQuantity" "show_only_quantity" py.decimal = some shown ∧
        Option.Rel SameNumber value.showOnlyQuantity shown :=
    optionalDecimal_reads hpy value.showOnlyQuantity (by simp [OrderAck.lookup, hbody])
  obtain ⟨trailing, htrailing, htrailingRel⟩ : ∃ trailing,
      optionalField body "TrailingStop" "trailing_stop" py.trailingStop = some trailing ∧
        Option.Rel (TrailingStop.WireRel SameNumber) value.trailingStop trailing :=
    optionalField_reads value.trailingStop trailingStopPayload
      (by simp [OrderAck.lookup, hbody]) (by simp [trailingStopPayload])
      fun stop _ => trailingStop_reads hpy stop
  have hkeys : AliasKeys [("MarketActivationRules", "market_activation_rules"),
      ("ShowOnlyQuantity", "show_only_quantity"),
      ("TimeActivationRules", "time_activation_rules"), ("TrailingStop", "trailing_stop")]
      body := by
    rw [hbody]
    simp [aliasKeys_field]
  have hvalid : Positive shown ∧ (value.marketActivationRules.isSome ∨ shown.isSome ∨
      value.timeActivationRules.isSome ∨ trailing.isSome) := by
    rw [← isSome_of_rel hshownRel, ← isSome_of_rel htrailingRel]
    exact ⟨positive_of_rel hshownRel value.showOnlyQuantity_pos, value.some_option⟩
  rw [hpayload, Pydantic.advancedOptionsReplace, forbidExtra_of_aliasKeys hkeys, hmarketRules,
    hshown, htimeRules, htrailing]
  exact ⟨_, dif_pos hvalid, rfl, hshownRel, rfl, htrailingRel⟩

/-- **A replacement comes back** from its payload. -/
theorem replacement_reads (value : OrderReplaceRequest) (hvalue : value.Representable) :
    ∃ value', py.orderReplaceRequest (.obj (replaceOrderPayload lib value)) = some value' ∧
      OrderReplaceRequest.WireRel SameNumber value value' := by
  obtain ⟨body, hbody⟩ : ∃ body, body = replaceOrderPayload lib value := ⟨_, rfl⟩
  obtain ⟨advanced, hadvanced, hadvancedRel⟩ : ∃ advanced,
      optionalField body "AdvancedOptions" "advanced_options" py.advancedOptionsReplace =
          some advanced ∧
        Option.Rel (AdvancedOptionsReplace.WireRel SameNumber) value.advancedOptions advanced :=
    optionalField_reads value.advancedOptions (advancedOptionsReplacePayload lib)
      (by simp [OrderAck.lookup, hbody, replaceOrderPayload])
      (by simp [advancedOptionsReplacePayload])
      fun options hoptions => advancedOptionsReplace_reads hpy hlib options
        (hvalue.marketActivationRules options hoptions) (hvalue.timeActivationRules options hoptions)
  obtain ⟨limitPrice, hlimitPrice, hlimitRel⟩ : ∃ limitPrice,
      optionalField body "LimitPrice" "limit_price" py.decimal = some limitPrice ∧
        Option.Rel SameNumber value.limitPrice limitPrice :=
    optionalDecimal_reads hpy value.limitPrice
      (by simp [OrderAck.lookup, hbody, replaceOrderPayload])
  have horderType : optionalField body "OrderType" "order_type"
      (enumValue OrderType.value OrderType.members) = some value.orderType :=
    optionalField_same value.orderType (fun type => .str type.value)
      (by simp [OrderAck.lookup, hbody, replaceOrderPayload]) (by simp) enumValue_orderType
  obtain ⟨quantity, hquantity, hquantityRel⟩ : ∃ quantity,
      optionalField body "Quantity" "quantity" py.decimal = some quantity ∧
        Option.Rel SameNumber value.quantity quantity :=
    optionalDecimal_reads hpy value.quantity
      (by simp [OrderAck.lookup, hbody, replaceOrderPayload])
  obtain ⟨stopPrice, hstopPrice, hstopRel⟩ : ∃ stopPrice,
      optionalField body "StopPrice" "stop_price" py.decimal = some stopPrice ∧
        Option.Rel SameNumber value.stopPrice stopPrice :=
    optionalDecimal_reads hpy value.stopPrice
      (by simp [OrderAck.lookup, hbody, replaceOrderPayload])
  have hkeys : AliasKeys [("AdvancedOptions", "advanced_options"), ("LimitPrice", "limit_price"),
      ("OrderType", "order_type"), ("Quantity", "quantity"), ("StopPrice", "stop_price")]
      body := by
    rw [hbody]
    simp [replaceOrderPayload, aliasKeys_field]
  have hpositive : Positive quantity ∧ Positive limitPrice ∧ Positive stopPrice :=
    ⟨positive_of_rel hquantityRel value.quantity_pos,
      positive_of_rel hlimitRel value.limitPrice_pos, positive_of_rel hstopRel value.stopPrice_pos⟩
  have hupdate : advanced.isSome ∨ limitPrice.isSome ∨ value.orderType.isSome ∨
      quantity.isSome ∨ stopPrice.isSome := by
    rw [← isSome_of_rel hadvancedRel, ← isSome_of_rel hlimitRel, ← isSome_of_rel hquantityRel,
      ← isSome_of_rel hstopRel]
    exact value.some_update
  rw [← hbody, Pydantic.orderReplaceRequest, forbidExtra_of_aliasKeys hkeys, hadvanced, hlimitPrice,
    horderType, hquantity, hstopPrice]
  exact ⟨_, dif_pos ⟨hpositive, hupdate, value.only_market⟩, hadvancedRel, hlimitRel, rfl,
    hquantityRel, hstopRel⟩

end

/-- **Decoding undoes encoding.** An order tree that can be written as it is comes back from its payload,
the same in every wire field at every depth, and so does a replacement; the payload depends on the wire
fields only; and every decimal in it is in plain digits. -/
theorem orders_roundTrip (lib : Library) (hlib : lib.Writes) (py : Pydantic) (hpy : py.Reads) :
    (∀ (uuid4 : List ℕ → PyStr) (order : OrderRequest), (∀ node ∈ order.nodes, node.Representable) →
      ∃ order', py.order uuid4 [] (.obj (orderPayload lib order)) = some order' ∧
        OrderRequest.WireRel SameNumber SameInstant order order') ∧
    (∀ order order' : OrderRequest, OrderRequest.WireRel Eq Eq order order' →
      orderPayload lib order = orderPayload lib order') ∧
    (∀ d : Decimal, ∃ text d', wireDecimal d = .str text ∧ Decimal.PlainDecimal text d' ∧
      SameNumber d d') ∧
    ∀ replacement : OrderReplaceRequest, replacement.Representable → ∃ replacement',
      py.orderReplaceRequest (.obj (replaceOrderPayload lib replacement)) = some replacement' ∧
        OrderReplaceRequest.WireRel SameNumber replacement replacement' := by
  refine ⟨?_, ?_, ?_, replacement_reads hpy hlib⟩
  · intro uuid4 order hnodes
    exact order_reads hpy hlib uuid4 order [] hnodes
  · intro order order' h
    exact orderPayload_congr lib h
  · intro d
    obtain ⟨d', hplain, hvalue⟩ := Decimal.fixedPoint_plain d
    exact ⟨d.fixedPoint, d', rfl, hplain, hvalue.symm⟩

/-- A key in UTF-8, with each byte of a surrogate replaced. -/
def lossyKey (key : PyStr) : PyStr :=
  key.flatMap fun c => if 0xd800 ≤ c ∧ c ≤ 0xdfff then [0xfffd, 0xfffd, 0xfffd] else [c]

theorem lossyKey_eq {key : PyStr} (h : NoSurrogate key) : lossyKey key = key := by
  have hkeep : ∀ c ∈ key, (if 0xd800 ≤ c ∧ c ≤ 0xdfff then [0xfffd, 0xfffd, 0xfffd] else [c]) = [c] :=
    fun c hc => if_neg (h c hc)
  rw [lossyKey, List.flatMap_congr hkeep]
  exact List.flatMap_singleton' key

/-- A library that writes times in ISO 8601, and the keys of a `dict` in UTF-8. -/
def isoLibrary : Library :=
  { simTradeClient.lib with
    isoformat := fun t => (IsoFields.ofDatetime t).text
    dumpDict := fun d => d.map fun entry => (lossyKey entry.1, entry.2) }

theorem isoLibrary_writes : isoLibrary.Writes where
  isoformat _ _ := rfl
  dumpDict d hd := by
    cases hd with
    | obj hkeys _ =>
      have hkeep : ∀ entry ∈ d, (lossyKey entry.1, entry.2) = entry := fun entry hentry => by
        rw [lossyKey_eq (hkeys entry hentry)]
      exact (List.map_congr_left hkeep).trans (List.map_id d)

theorem plainPydantic_reads : plainPydantic.Reads where
  decimal _ _ := Decimal.ofPlain_plain
  bool _ := rfl
  datetime f hf := by
    change some (IsoFields.read f.text).datetime = _
    rw [IsoFields.read_text hf]

/-- The rule for a price. -/
def priceRule : Json.Dict := [(str "Price", .float (.decimal false 105 (-1)))]

theorem representable_priceRule : (Json.obj priceRule).Representable := by
  have hfinite : (PyFloat.decimal false 105 (-1)).Finite := by
    have hpower : 0 < 2 ^ 970 := by positivity
    have hwhole : (-1 : ℤ).toNat = 0 := rfl
    have hplaces : (-(-1) : ℤ).toNat = 1 := rfl
    rw [PyFloat.Finite, hwhole, hplaces]
    generalize 2 ^ 970 = power at hpower ⊢
    omega
  refine .obj ?_ ?_ <;> intro entry hentry <;> obtain rfl := List.mem_singleton.1 hentry
  · decide
  · exact .float hfinite

/-- Nine in the evening on the second of January 2030, by a clock with that offset from UTC. -/
def expiry (offset : ℤ) : Datetime := ⟨1893618000000000, some (some offset)⟩

/-- The order for one share, good till then, with a rule. -/
def expiringFields (offset : ℤ) (rule : Json.Dict) : OrderFields :=
  { buyFields with
    timeInForce := { duration := .gtd, expiration := some (expiry offset), dated := by simp }
    advancedOptions := some
      { marketActivationRules := [rule]
        discretionaryPrice_pos := positive_none
        showOnlyQuantity_pos := positive_none } }

theorem representable_expiringFields {offset : ℤ} (h : (expiry offset).WholeMinutes) :
    (expiringFields offset priceRule).Representable := by
  refine ⟨?_, ?_, ?_⟩
  · rintro _ ⟨⟩
    exact h
  · rintro _ ⟨⟩ rule hrule
    rw [List.mem_singleton.1 hrule]
    exact representable_priceRule
  · rintro _ ⟨⟩ rule hrule
    cases hrule

/-- By a clock five hours behind, with a child that is good for the day. -/
def expiringOrder : OrderRequest := .mk (expiringFields (-18000000000) priceRule) [.mk buyFields []]

theorem representable_expiringOrder : ∀ node ∈ expiringOrder.nodes, node.Representable := by
  have hnodes : expiringOrder.nodes = [expiringFields (-18000000000) priceRule, buyFields] := by
    simp [expiringOrder, OrderRequest.nodes, OrderRequest.nodesOf]
  rw [hnodes]
  intro node hnode
  rcases List.mem_pair.1 hnode with rfl | rfl
  · refine representable_expiringFields ⟨by decide, ?_⟩
    rintro _ ⟨⟩
    decide
  · exact OrderFields.representable_of_none rfl rfl

theorem orders_roundTrip_expiring :
    ∃ order', plainPydantic.order (fun _ => str "u") []
        (.obj (orderPayload isoLibrary expiringOrder)) = some order' ∧
      OrderRequest.WireRel SameNumber SameInstant expiringOrder order' :=
  (orders_roundTrip isoLibrary isoLibrary_writes plainPydantic plainPydantic_reads).1 _ _
    representable_expiringOrder

/-- Thirty seconds of an offset are lost, and so is a key that is half of a character. -/
theorem orders_roundTrip_lossy : isoLibrary.Writes ∧ plainPydantic.Reads ∧
    ∀ order ∈ [OrderRequest.mk (expiringFields 30000000 priceRule) [],
        OrderRequest.mk (expiringFields 0 [([0xd800], .int 1)]) []],
      ∃ order', plainPydantic.order (fun _ => str "u") [] (.obj (orderPayload isoLibrary order)) =
          some order' ∧
        ¬OrderRequest.WireRel SameNumber SameInstant order order' := by
  refine ⟨isoLibrary_writes, plainPydantic_reads, ?_⟩
  simp only [List.forall_mem_cons]
  refine ⟨?_, ?_, nofun⟩
  · rw [Pydantic.order_obj]
    refine ⟨_, rfl, fun h => ?_⟩
    rw [OrderRequest.WireRel] at h
    cases h.1.timeInForce.expiration with
    | some hsame => exact absurd hsame.1 (by decide)
  · rw [Pydantic.order_obj]
    refine ⟨_, rfl, fun h => ?_⟩
    rw [OrderRequest.WireRel] at h
    cases h.1.advancedOptions with
    | some hsame => exact absurd (congrArg (fun rules => rules.map (·.map Prod.fst))
        hsame.marketActivationRules) (by decide)

end TradeStation
