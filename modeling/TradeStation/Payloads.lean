import TradeStation.Submissions

/-!
# The shape of an order payload

`ConformsOrder` is what the pinned schema asks of an `OrderRequest`, as far as required members,
decimal strings, the length of `OrderConfirmID` and the shape of `OSOs` go. An element of `OSOs` is
there an `OrderRequestOSO`, an object with a `Type` and its own `Orders`; `order_payload` writes
the children themselves in its place, and it does not bound `OrderConfirmID`.
`orderPayload_conforms_iff` says which payloads conform all the same.
-/

namespace TradeStation

open Python

/-- The members of an order payload, by name. -/
theorem get_orderPayload (lib : Library) (fields : OrderFields) (osos : List OrderRequest)
    (key : String) :
    Json.get (orderPayload lib (.mk fields osos)) (str key) =
      (Json.get (orderFieldsPayload lib fields) (str key)).or
        (if "OSOs" = key ∧ osos ≠ [] then some (.arr (orderPayloads lib osos)) else none) := by
  cases osos with
  | nil => simp [orderPayload]
  | cons oso osos => simp [orderPayload]

/-! ## The pinned schema -/

/-- A member that is a string wherever it is there. -/
def StringMember (d : Json.Dict) (key : String) : Prop :=
  ∀ value ∈ Json.get d (str key), ∃ s, value = .str s

/-- A member that is an object of some kind wherever it is there. -/
def ObjectMember (d : Json.Dict) (key : String) (P : Json.Dict → Prop) : Prop :=
  ∀ value ∈ Json.get d (str key), ∃ fields, value = .obj fields ∧ P fields

/-- The members that the schema requires are there. -/
def HasMembers (d : Json.Dict) (keys : List String) : Prop :=
  ∀ key ∈ keys, (Json.get d (str key)).isSome

/-- `TrailingStop` of the schema. -/
structure ConformsTrailingStop (d : Json.Dict) : Prop where
  amount : StringMember d "Amount"
  percent : StringMember d "Percent"

/-- `AdvancedOptions` of the schema. -/
structure ConformsAdvancedOptions (d : Json.Dict) : Prop where
  discretionaryPrice : StringMember d "DiscretionaryPrice"
  showOnlyQuantity : StringMember d "ShowOnlyQuantity"
  trailingStop : ObjectMember d "TrailingStop" ConformsTrailingStop

/-- `OrderRequest` of the schema, but for `OSOs`. -/
structure ConformsFields (d : Json.Dict) : Prop where
  required : HasMembers d
    ["AccountID", "TimeInForce", "OrderType", "Quantity", "Symbol", "TradeAction"]
  quantity : StringMember d "Quantity"
  limitPrice : StringMember d "LimitPrice"
  stopPrice : StringMember d "StopPrice"
  timeInForce : ObjectMember d "TimeInForce" (HasMembers · ["Duration"])
  advancedOptions : ObjectMember d "AdvancedOptions" ConformsAdvancedOptions
  orderConfirmId : ∀ value ∈ Json.get d (str "OrderConfirmID"),
    ∃ s, value = .str s ∧ 1 ≤ s.length ∧ s.length ≤ 22

mutual

/-- `OrderRequest` of the schema. -/
inductive ConformsOrder : Json → Prop
  | mk (d : Json.Dict) (fields : ConformsFields d)
    (osos : ∀ value ∈ Json.get d (str "OSOs"), ConformsOsos value) : ConformsOrder (.obj d)

/-- An array of `OrderRequestOSO`. -/
inductive ConformsOsos : Json → Prop
  | mk (items : List Json) (all : ∀ item ∈ items, ConformsOso item) : ConformsOsos (.arr items)

/-- `OrderRequestOSO` of the schema. -/
inductive ConformsOso : Json → Prop
  | mk (d : Json.Dict) (orders : List Json) (required : HasMembers d ["Type", "Orders"])
    (isOrders : Json.get d (str "Orders") = some (.arr orders))
    (all : ∀ order ∈ orders, ConformsOrder order) : ConformsOso (.obj d)

end

/-! ## What `order_payload` writes -/

/-- A decimal is written as a string. -/
theorem stringMember_wireDecimal {d : Json.Dict} {key : String} (value : Option Decimal)
    (h : Json.get d (str key) = value.map wireDecimal) : StringMember d key := by
  intro member hmember
  rw [h, Option.mem_def, Option.map_eq_some_iff] at hmember
  obtain ⟨decimal, -, rfl⟩ := hmember
  exact ⟨decimal.fixedPoint, rfl⟩

theorem conforms_trailingStop (value : TrailingStop) :
    ConformsTrailingStop (field "Amount" (value.amount.map wireDecimal) ++
      field "Percent" (value.percent.map wireDecimal)) where
  amount := stringMember_wireDecimal value.amount (by simp)
  percent := stringMember_wireDecimal value.percent (by simp)

/-- Advanced options always conform. -/
theorem conforms_advancedOptions (lib : Library) (value : AdvancedOptions) :
    ∃ d, advancedOptionsPayload lib value = .obj d ∧ ConformsAdvancedOptions d := by
  refine ⟨_, rfl, ?_, ?_, ?_⟩
  · exact stringMember_wireDecimal value.discretionaryPrice (by simp)
  · exact stringMember_wireDecimal value.showOnlyQuantity (by simp)
  · intro member hmember
    have htrailing : member ∈ value.trailingStop.map trailingStopPayload := by
      simpa using hmember
    obtain ⟨trailing, -, rfl⟩ := Option.map_eq_some_iff.1 htrailing
    exact ⟨_, rfl, conforms_trailingStop trailing⟩

/-- The schema's bounds on `OrderConfirmID`. -/
def OrderFields.ConfirmIdFits (fields : OrderFields) : Prop :=
  ∀ id ∈ fields.orderConfirmId, 1 ≤ id.length ∧ id.length ≤ 22

section
variable (lib : Library) (fields : OrderFields) (osos : List OrderRequest)

/-- A node's own members conform exactly if the confirmation ID fits. -/
theorem conformsFields_iff :
    ConformsFields (orderPayload lib (.mk fields osos)) ↔ fields.ConfirmIdFits := by
  have hget := get_orderPayload lib fields osos
  have hid : Json.get (orderPayload lib (.mk fields osos)) (str "OrderConfirmID") =
      fields.orderConfirmId.map .str := by
    rw [hget]
    simp [orderFieldsPayload]
  constructor
  · intro h id hmem
    obtain ⟨s, hs, hlength⟩ := h.orderConfirmId (.str id) (by simpa [hid] using hmem)
    cases hs
    exact hlength
  · intro hfits
    constructor
    · intro key hkey
      rw [hget]
      simp only [List.mem_cons, List.not_mem_nil, or_false] at hkey
      rcases hkey with rfl | rfl | rfl | rfl | rfl | rfl <;> simp [orderFieldsPayload]
    · exact stringMember_wireDecimal (some fields.quantity)
        (by rw [hget]; simp [orderFieldsPayload])
    · exact stringMember_wireDecimal fields.limitPrice (by rw [hget]; simp [orderFieldsPayload])
    · exact stringMember_wireDecimal fields.stopPrice (by rw [hget]; simp [orderFieldsPayload])
    · intro member hmember
      have hpayload : timeInForcePayload lib fields.timeInForce = member := by
        rw [hget] at hmember
        simpa [orderFieldsPayload] using hmember
      refine ⟨_, hpayload.symm, ?_⟩
      intro key hkey
      rw [List.mem_singleton.1 hkey]
      simp
    · intro member hmember
      have hpayload : member ∈ fields.advancedOptions.map (advancedOptionsPayload lib) := by
        rw [hget] at hmember
        simpa [orderFieldsPayload] using hmember
      obtain ⟨options, -, rfl⟩ := Option.map_eq_some_iff.1 hpayload
      exact conforms_advancedOptions lib options
    · intro member hmember
      rw [hid] at hmember
      obtain ⟨id, hmem, rfl⟩ := Option.map_eq_some_iff.1 hmember
      exact ⟨id, rfl, hfits id hmem⟩

/-- A child is no `OrderRequestOSO`: it has no `Type`. -/
theorem not_conformsOso_child (order : OrderRequest) :
    ¬ConformsOso (.obj (orderPayload lib order)) := by
  intro h
  cases order with
  | mk fields osos =>
    cases h with
    | mk d orders required isOrders all =>
      have htype := required "Type" (by simp)
      rw [get_orderPayload] at htype
      simp [orderFieldsPayload] at htype

/-- **Which order payloads conform**: those of an order without children whose confirmation ID
fits. -/
theorem conformsOrder_iff (order : OrderRequest) :
    ConformsOrder (.obj (orderPayload lib order)) ↔
      order.osos = [] ∧ order.fields.ConfirmIdFits := by
  cases order with
  | mk fields osos =>
    have hosos : Json.get (orderPayload lib (.mk fields osos)) (str "OSOs") =
        if osos ≠ [] then some (.arr (orderPayloads lib osos)) else none := by
      rw [get_orderPayload]
      simp [orderFieldsPayload]
    constructor
    · intro h
      cases h with
      | mk d hfields hall =>
        refine ⟨?_, (conformsFields_iff lib fields osos).1 hfields⟩
        cases osos with
        | nil => rfl
        | cons oso osos =>
          have harray := hall _ (by rw [hosos]; rfl)
          cases harray with
          | mk items hitems =>
            have hchild := hitems (.obj (orderPayload lib oso)) (by simp [orderPayloads])
            exact absurd hchild (not_conformsOso_child lib oso)
    · rintro ⟨rfl, hid⟩
      refine .mk _ ((conformsFields_iff lib fields []).2 hid) ?_
      intro value hvalue
      rw [hosos] at hvalue
      simp at hvalue

theorem mem_orderPayloads {orders : List OrderRequest} {item : Json} :
    item ∈ orderPayloads lib orders ↔
      ∃ order ∈ orders, item = .obj (orderPayload lib order) := by
  induction orders with
  | nil => simp [orderPayloads]
  | cons order orders ih => simp [orderPayloads, ih]

end

/-- The members of a group payload, each of which conforms. -/
def ConformsGroup (d : Json.Dict) : Prop :=
  ∃ members, Json.get d (str "Orders") = some (.arr members) ∧
    ∀ member ∈ members, ConformsOrder member

/-- **Which payloads conform.** An order's does exactly if the order has no children and its
confirmation ID, where there is one, has from 1 to 22 characters; the members of a group's do
exactly if this holds of every member. -/
theorem orderPayload_conforms_iff (lib : Library) :
    (∀ order, ConformsOrder (.obj (orderPayload lib order)) ↔
      order.osos = [] ∧ order.fields.ConfirmIdFits) ∧
    ∀ group, ConformsGroup (groupOrderPayload lib group) ↔
      ∀ order ∈ group.orders, order.osos = [] ∧ order.fields.ConfirmIdFits := by
  refine ⟨conformsOrder_iff lib, fun group => ?_⟩
  have hget : Json.get (groupOrderPayload lib group) (str "Orders") =
      some (.arr (orderPayloads lib group.orders)) := by
    simp [groupOrderPayload]
  constructor
  · rintro ⟨members, hmembers, hall⟩ order horder
    rw [hget] at hmembers
    cases hmembers
    have hmem := (mem_orderPayloads lib).2 ⟨order, horder, rfl⟩
    exact (conformsOrder_iff lib order).1 (hall _ hmem)
  · intro h
    refine ⟨_, hget, ?_⟩
    intro member hmember
    obtain ⟨order, horder, rfl⟩ := (mem_orderPayloads lib).1 hmember
    exact (conformsOrder_iff lib order).2 (h order horder)

/-- An order with one child, which is no `OrderRequestOSO`. -/
theorem oso_not_conforms :
    ¬∀ (lib : Library) (order : OrderRequest), ConformsOrder (.obj (orderPayload lib order)) := by
  intro h
  have hparent := h simTradeClient.lib (.mk buyFields [.mk buyFields []])
  obtain ⟨hosos, -⟩ := (conformsOrder_iff _ _).1 hparent
  cases hosos

end TradeStation
