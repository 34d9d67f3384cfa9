import TradeStation.Payloads
import TradeStation.Python.JsonDumps
import TradeStation.Reads

/-!
# What the payload hash identifies

`canonical_payload_hash` hashes the JSON text of a payload with its keys sorted. An order payload is
a tree of objects, arrays, strings, booleans and integers as long as its texts are characters and its
activation rules are such trees (`isTree_orderPayload`).

`payloadHash_identifies`: two payload trees are hashed as the same text exactly if they differ in the
order of keys only, and two orders have the same hash exactly if their payloads do. A string with two
surrogates that make one character is the exception: it is written as that character is.
-/

namespace TradeStation

open Python

/-! ## Fields of a payload -/

theorem written_of_ascii {s : PyStr} (h : ∀ c ∈ s, c < 0x80) : Json.Written s := by
  refine ⟨fun c hc => by have := h c hc; omega, List.Pairwise.isChain ?_⟩
  apply List.pairwise_of_forall_mem_list
  intro c hc d _ hpair
  have := h c hc
  omega

/-- Fields that have some of the names, and trees under them. -/
structure FieldsAre (names : List String) (d : Json.Dict) : Prop where
  keys : (Json.keys d).Sublist (names.map str)
  trees : ∀ entry ∈ d, Json.IsTree Json.Written entry.2

theorem fieldsAre_field (name : String) {value : Option Json}
    (h : ∀ v ∈ value, Json.IsTree Json.Written v) : FieldsAre [name] (field name value) := by
  cases value with
  | none => exact ⟨List.nil_sublist _, fun entry hentry => by simp [field] at hentry⟩
  | some v =>
    refine ⟨List.Sublist.refl _, fun entry hentry => ?_⟩
    rw [List.mem_singleton.1 hentry]
    exact h v rfl

theorem FieldsAre.append {names names' : List String} {d d' : Json.Dict} (h : FieldsAre names d)
    (h' : FieldsAre names' d') : FieldsAre (names ++ names') (d ++ d') where
  keys := by
    rw [Json.keys, List.map_append, List.map_append]
    exact h.keys.append h'.keys
  trees entry hentry := (List.mem_append.1 hentry).elim (h.trees entry) (h'.trees entry)

/-- Under distinct names in ASCII the fields are an object of the tree. -/
theorem FieldsAre.isTree {names : List String} {d : Json.Dict} (h : FieldsAre names d)
    (hnodup : names.Nodup) (hascii : ∀ name ∈ names, ∀ c ∈ str name, c < 0x80) :
    Json.IsTree Json.Written (.obj d) := by
  have hnames : (names.map str).Nodup := hnodup.map fun _ _ => str_inj.1
  refine .obj (h.keys.nodup hnames) (fun entry hentry => ?_) h.trees
  have hmem : entry.1 ∈ names.map str := h.keys.subset (List.mem_map_of_mem hentry)
  obtain ⟨name, hname, hkey⟩ := List.mem_map.1 hmem
  rw [← hkey]
  exact written_of_ascii (hascii name hname)

/-! ## Values in a payload -/

theorem isTree_wireDecimal (d : Decimal) : Json.IsTree Json.Written (wireDecimal d) := by
  obtain ⟨d', hplain, -⟩ := Decimal.fixedPoint_plain d
  refine .str (written_of_ascii fun c hc => ?_)
  have := hplain.not_exponent c hc
  omega

/-- A value of an optional field, where each value it may have is a tree. -/
theorem isTree_map {α : Type} {f : α → Json} (value : Option α)
    (h : ∀ a ∈ value, Json.IsTree Json.Written (f a)) :
    ∀ v ∈ value.map f, Json.IsTree Json.Written v := by
  intro v hv
  obtain ⟨a, ha, rfl⟩ := Option.map_eq_some_iff.1 hv
  exact h a ha

/-- An optional decimal in a dump. -/
theorem fieldsAre_wireDecimal (name : String) (value : Option Decimal) :
    FieldsAre [name] (field name (value.map wireDecimal)) :=
  fieldsAre_field name (isTree_map value fun d _ => isTree_wireDecimal d)

theorem isTree_some {v : Json} (h : Json.IsTree Json.Written v) :
    ∀ v' ∈ some v, Json.IsTree Json.Written v' := by
  rintro v' ⟨⟩
  exact h

theorem isTree_rules {lib : Library} {value : List Json.Dict}
    (h : ∀ rule ∈ value, Json.IsTree Json.Written (.obj (lib.dumpDict rule))) :
    ∀ v ∈ rules lib value, Json.IsTree Json.Written v := by
  intro v hv
  rw [rules] at hv
  split_ifs at hv
  · simp at hv
  · cases hv
    refine .arr fun item hitem => ?_
    obtain ⟨rule, hrule, rfl⟩ := List.mem_map.1 hitem
    exact h rule hrule

theorem ascii_duration (value : Duration) : ∀ c ∈ value.value, c < 0x80 := by
  cases value <;> decide

theorem ascii_orderType (value : OrderType) : ∀ c ∈ value.value, c < 0x80 := by
  cases value <;> decide

theorem ascii_tradeAction (value : TradeAction) : ∀ c ∈ value.value, c < 0x80 := by
  cases value <;> decide

/-! ## Orders -/

/-- The texts of the advanced options are characters, and the rules are dumped as trees of such. -/
structure AdvancedOptions.Written (lib : Library) (options : AdvancedOptions) : Prop where
  pegValue : ∀ value ∈ options.pegValue, Json.Written value
  marketActivationRules : ∀ rule ∈ options.marketActivationRules,
    Json.IsTree Json.Written (.obj (lib.dumpDict rule))
  timeActivationRules : ∀ rule ∈ options.timeActivationRules,
    Json.IsTree Json.Written (.obj (lib.dumpDict rule))

/-- The same of one order, less its children. -/
structure OrderFields.Written (lib : Library) (order : OrderFields) : Prop where
  accountId : Json.Written order.accountId
  symbol : Json.Written order.symbol
  expiration : ∀ time ∈ order.timeInForce.expiration, Json.Written (lib.isoformat time)
  route : ∀ route ∈ order.route, Json.Written route
  advancedOptions : ∀ options ∈ order.advancedOptions, options.Written lib
  orderConfirmId : ∀ id ∈ order.orderConfirmId, Json.Written id

/-- And of an order with its children. -/
inductive OrderRequest.Written (lib : Library) : OrderRequest → Prop
  | mk {fields : OrderFields} {osos : List OrderRequest} (hfields : fields.Written lib)
    (hosos : ∀ oso ∈ osos, OrderRequest.Written lib oso) : OrderRequest.Written lib (.mk fields osos)

variable {lib : Library}

theorem isTree_timeInForce {value : TimeInForce}
    (h : ∀ time ∈ value.expiration, Json.Written (lib.isoformat time)) :
    Json.IsTree Json.Written (timeInForcePayload lib value) := by
  have hduration := fieldsAre_field "Duration"
    (isTree_some (.str (written_of_ascii (ascii_duration value.duration))))
  have hexpiration := fieldsAre_field "Expiration"
    (isTree_map value.expiration fun time htime => .str (h time htime))
  exact (hduration.append hexpiration).isTree (by decide) (by decide)

theorem isTree_trailingStop (value : TrailingStop) :
    Json.IsTree Json.Written (trailingStopPayload value) := by
  have hamount := fieldsAre_wireDecimal "Amount" value.amount
  have hpercent := fieldsAre_wireDecimal "Percent" value.percent
  exact (hamount.append hpercent).isTree (by decide) (by decide)

theorem isTree_advancedOptions {value : AdvancedOptions} (h : value.Written lib) :
    Json.IsTree Json.Written (advancedOptionsPayload lib value) := by
  have hbool : ∀ name (value : Option Bool), FieldsAre [name] (field name (value.map .bool)) :=
    fun name value => fieldsAre_field name (isTree_map value fun b _ => .bool b)
  have hpeg := fieldsAre_field "PegValue"
    (isTree_map value.pegValue fun text htext => .str (h.pegValue text htext))
  have htrailing := fieldsAre_field "TrailingStop"
    (isTree_map value.trailingStop fun stop _ => isTree_trailingStop stop)
  have hall := ((((((((((hbool "AddLiquidity" value.addLiquidity).append
    (hbool "AllOrNone" value.allOrNone)).append (hbool "BookOnly" value.bookOnly)).append
    (fieldsAre_wireDecimal "DiscretionaryPrice" value.discretionaryPrice)).append
    (fieldsAre_field "MarketActivationRules" (isTree_rules h.marketActivationRules))).append
    (hbool "NonDisplay" value.nonDisplay)).append hpeg).append
    (fieldsAre_wireDecimal "ShowOnlyQuantity" value.showOnlyQuantity)).append
    (fieldsAre_field "TimeActivationRules" (isTree_rules h.timeActivationRules))).append
    htrailing)
  exact hall.isTree (by decide) (by decide)

theorem fieldsAre_order {order : OrderFields} (h : order.Written lib) :
    FieldsAre ["AccountID", "Symbol", "Quantity", "OrderType", "TradeAction", "TimeInForce",
      "LimitPrice", "StopPrice", "Route", "AdvancedOptions", "OrderConfirmID"]
      (orderFieldsPayload lib order) := by
  have htext : ∀ name {s : PyStr}, Json.Written s → FieldsAre [name] (field name (some (.str s))) :=
    fun name _ hs => fieldsAre_field name (isTree_some (.str hs))
  have hroute := fieldsAre_field "Route"
    (isTree_map order.route fun text htext => .str (h.route text htext))
  have hoptions := fieldsAre_field "AdvancedOptions"
    (isTree_map order.advancedOptions fun options hoptions =>
      isTree_advancedOptions (h.advancedOptions options hoptions))
  have hid := fieldsAre_field "OrderConfirmID"
    (isTree_map order.orderConfirmId fun text htext => .str (h.orderConfirmId text htext))
  exact ((((((((((htext "AccountID" h.accountId).append (htext "Symbol" h.symbol)).append
    (fieldsAre_wireDecimal "Quantity" (some order.quantity))).append
    (htext "OrderType" (written_of_ascii (ascii_orderType order.orderType)))).append
    (htext "TradeAction" (written_of_ascii (ascii_tradeAction order.tradeAction)))).append
    (fieldsAre_field "TimeInForce" (isTree_some (isTree_timeInForce h.expiration)))).append
    (fieldsAre_wireDecimal "LimitPrice" order.limitPrice)).append (fieldsAre_wireDecimal "StopPrice" order.stopPrice)).append
    hroute).append hoptions).append hid

/-- **An order payload is a payload tree.** -/
theorem isTree_orderPayload {order : OrderRequest} (h : order.Written lib) :
    Json.IsTree Json.Written (.obj (orderPayload lib order)) := by
  induction h with
  | @mk fields osos hfields _ ih =>
    obtain ⟨value, hpayload, hvalue⟩ : ∃ value,
        orderPayload lib (.mk fields osos) = orderFieldsPayload lib fields ++ field "OSOs" value ∧
        ∀ v ∈ value, Json.IsTree Json.Written v := by
      cases osos with
      | nil => exact ⟨none, by rw [orderPayload], fun _ hv => by cases hv⟩
      | cons oso osos =>
        refine ⟨some (.arr (orderPayloads lib (oso :: osos))), by rw [orderPayload], ?_⟩
        refine isTree_some (.arr fun item hitem => ?_)
        obtain ⟨order, horder, rfl⟩ := (mem_orderPayloads lib).1 hitem
        exact ih order horder
    rw [hpayload]
    exact ((fieldsAre_order hfields).append (fieldsAre_field "OSOs" hvalue)).isTree (by decide)
      (by decide)

/-! ## Hashes -/

/-- Two texts that have the same SHA-256 digest. -/
def Python.Library.Collision (lib : Library) (data data' : List UInt8) : Prop :=
  lib.sha256 data = lib.sha256 data' ∧ data ≠ data'

/-- The library writes JSON as documented. -/
def Python.Library.WritesJson (lib : Library) (floatRepr : Python.PyFloat → List Char) : Prop :=
  ∀ payload, lib.canonicalDumps payload = utf8Encode (Json.dumps floatRepr (.obj payload))

theorem utf8Encode_inj {cs cs' : List Char} (h : utf8Encode cs = utf8Encode cs') : cs = cs' := by
  have hdecode := utf8Decode_encode cs
  rw [h, utf8Decode_encode] at hdecode
  cases hdecode
  rfl

section
variable {floatRepr : Python.PyFloat → List Char} (hlib : lib.WritesJson floatRepr)

include hlib

/-- The hashed texts are the same exactly if the payloads differ in the order of keys only. -/
theorem canonicalDumps_eq_iff {payload payload' : Json.Dict}
    (h : Json.IsTree Json.Written (.obj payload)) (h' : Json.IsTree Json.Written (.obj payload')) :
    lib.canonicalDumps payload = lib.canonicalDumps payload' ↔
      Json.Reordered (.obj payload) (.obj payload') := by
  rw [hlib, hlib, ← Json.dumps_eq_iff h h']
  exact ⟨utf8Encode_inj, fun htext => congrArg utf8Encode htext⟩

/-- The order of keys never shows, whatever the strings are. -/
theorem canonicalDumps_reordered {ok : PyStr → Prop} {payload payload' : Json.Dict}
    (h : Json.IsTree ok (.obj payload)) (hsame : Json.Reordered (.obj payload) (.obj payload')) :
    lib.canonicalDumps payload = lib.canonicalDumps payload' := by
  rw [hlib, hlib, (Json.reordered_same hsame h).2.2 floatRepr]

end

/-- **The payload hash identifies the payload.** Two payload trees give the same hashed text exactly
if they differ in the order of keys only, at any depth. And two orders whose texts do not collide have
the same hash exactly if their payloads differ in the order of keys only. -/
theorem payloadHash_identifies (client : TradeStationClient) (floatRepr : Python.PyFloat → List Char)
    (hlib : client.lib.WritesJson floatRepr) :
    (∀ payload payload', Json.IsTree Json.Written (.obj payload) →
      Json.IsTree Json.Written (.obj payload') →
      (client.lib.canonicalDumps payload = client.lib.canonicalDumps payload' ↔
        Json.Reordered (.obj payload) (.obj payload'))) ∧
    (∀ payload payload', Json.IsTree IsText (.obj payload) →
      Json.Reordered (.obj payload) (.obj payload') →
      client.lib.canonicalDumps payload = client.lib.canonicalDumps payload') ∧
    ∀ order order' : OrderRequest, order.Written client.lib → order'.Written client.lib →
      ¬client.lib.Collision (client.lib.canonicalDumps (orderPayload client.lib order))
        (client.lib.canonicalDumps (orderPayload client.lib order')) →
      (client.orderPayloadHash order = client.orderPayloadHash order' ↔
        Json.Reordered (.obj (orderPayload client.lib order))
          (.obj (orderPayload client.lib order'))) := by
  refine ⟨fun _ _ h h' => canonicalDumps_eq_iff hlib h h',
    fun _ _ h hsame => canonicalDumps_reordered hlib h hsame, ?_⟩
  intro order order' horder horder' hcollision
  rw [← canonicalDumps_eq_iff hlib (isTree_orderPayload horder) (isTree_orderPayload horder')]
  constructor
  · intro hhash
    by_contra htext
    exact hcollision ⟨hhash, htext⟩
  · intro htext
    exact congrArg client.lib.sha256 htext

/-- The sale of one share at ten dollars. -/
def sellFields : OrderFields := { buyFields with tradeAction := .sell }

/-- A library that writes JSON as documented and knows the digest of two texts. -/
def jsonLib : Library :=
  { simTradeClient.lib with
    canonicalDumps := fun payload => utf8Encode (Json.dumps (fun _ => []) (.obj payload))
    sha256 := fun data =>
      if data = ascii ("\x7b\"AccountID\":\"SIM1\",\"LimitPrice\":\"10\",\"OrderType\":\"Limit\"," ++
          "\"Quantity\":\"1\",\"Symbol\":\"MSFT\",\"TimeInForce\":\x7b\"Duration\":\"DAY\"\x7d," ++
          "\"TradeAction\":\"BUY\"\x7d") then
        str "d9651beca7ad0603941eb3023a0b8ed44ab80c9fc4679afb6518c289e46e3055"
      else str "7a525ef05942b750d9d80c9c6c0210b3c730888d1764e3882a350a8e1018c015" }

/-- A purchase and a sale have different hashes. -/
theorem payloadHash_identifies_sides :
    { simTradeClient with lib := jsonLib }.orderPayloadHash (.mk buyFields []) =
        { simTradeClient with lib := jsonLib }.orderPayloadHash (.mk sellFields []) ↔
      Json.Reordered (.obj (orderPayload jsonLib (.mk buyFields [])))
        (.obj (orderPayload jsonLib (.mk sellFields []))) := by
  have hbuy : OrderRequest.Written jsonLib (.mk buyFields []) :=
    .mk ⟨written_of_ascii (by decide), written_of_ascii (by decide), by simp [buyFields, dayOrder],
      by simp [buyFields], by simp [buyFields], by simp [buyFields]⟩ (by simp)
  have hsell : OrderRequest.Written jsonLib (.mk sellFields []) :=
    .mk ⟨written_of_ascii (by decide), written_of_ascii (by decide),
      by simp [sellFields, buyFields, dayOrder], by simp [sellFields, buyFields],
      by simp [sellFields, buyFields], by simp [sellFields, buyFields]⟩ (by simp)
  refine (payloadHash_identifies { simTradeClient with lib := jsonLib } (fun _ => [])
    fun _ => rfl).2.2 _ _ hbuy hsell ?_
  rintro ⟨hhash, -⟩
  revert hhash
  decide +kernel

/-- Two surrogates are written as the character that they make. -/
theorem payloadHash_surrogates :
    ¬∀ (lib : Library) (floatRepr : Python.PyFloat → List Char), lib.WritesJson floatRepr →
      ∀ payload payload', Json.IsTree IsText (.obj payload) → Json.IsTree IsText (.obj payload') →
        (lib.canonicalDumps payload = lib.canonicalDumps payload' ↔
          Json.Reordered (.obj payload) (.obj payload')) := by
  intro h
  have htree : ∀ s, IsText s → Json.IsTree IsText (.obj [(str "Symbol", .str s)]) := by
    intro s hs
    refine .obj (by simp [Json.keys]) (fun field hfield => ?_) (fun field hfield => ?_)
    · rw [List.mem_singleton.1 hfield]
      show IsText (str "Symbol")
      decide
    · rw [List.mem_singleton.1 hfield]
      exact .str hs
  have hpair := htree [0xd83d, 0xde00] (by decide)
  have hcharacter := htree [0x1f600] (by decide)
  have hreordered := (h jsonLib (fun _ => []) (fun _ => rfl) _ _ hpair hcharacter).1 (by decide +kernel)
  obtain ⟨-, hcanonical, -⟩ := Json.reordered_same hreordered hpair
  simp [Json.canonical, Json.canonicalFields_eq, Json.withValue, Json.sortItems] at hcanonical

end TradeStation
