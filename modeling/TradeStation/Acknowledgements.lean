import TradeStation.Trade

/-!
# Acknowledgements

Which answers of the broker are an `OrderAck`, and which orders an acknowledgement names.

* `validate_iff`: the objects that `OrderAck` accepts, field by field.
* `firstOrderId_eq_none_iff`: an ID is found unless nothing is named and the top-level ID is absent
  or empty; a blank one is found, though it names nothing.
* `reconcileRequired_acknowledged`: what that makes of the trade.
-/

namespace TradeStation

open Python

/-! ## The objects that `OrderAck` accepts -/

/-- A field of type `str | None` takes the value: it is absent, `null` or a string. -/
def StrOrNull : Option Json → Prop
  | none | some .null | some (.str _) => True
  | _ => False

/-- A field that is a tuple of `dict`s takes the value: it is absent, or a list of objects. -/
def ObjectList : Option Json → Prop
  | none => True
  | some (.arr items) => ∀ item ∈ items, ∃ order, item = .obj order
  | _ => False

/-- An object is shaped like an acknowledgement; all other fields are free, but for their keys. -/
structure AckShaped (body : Json.Dict) : Prop where
  keys : ∀ entry ∈ body, NoSurrogate entry.1
  orderId : StrOrNull (OrderAck.lookup body (str "OrderID") (str "order_id"))
  orders : ObjectList (OrderAck.lookup body (str "Orders") (str "orders"))
  errors : ObjectList (OrderAck.lookup body (str "Errors") (str "errors"))

namespace OrderAck

theorem optionalStr_iff {value : Option Json} :
    (∃ text, optionalStr value = some text) ↔ StrOrNull value := by
  rcases value with _ | value
  · simp [optionalStr, StrOrNull]
  · cases value <;> simp [optionalStr, StrOrNull]

theorem mapM_asDict_iff {items : List Json} :
    (∃ orders, items.mapM Json.asDict = some orders) ↔
      ∀ item ∈ items, ∃ order, item = .obj order := by
  induction items with
  | nil => simp
  | cons item items ih =>
    rw [List.mapM_cons, List.forall_mem_cons, ← ih]
    cases item <;> simp [Json.asDict, Option.bind_eq_some_iff]

theorem dicts_iff {value : Option Json} :
    (∃ orders, dicts value = some orders) ↔ ObjectList value := by
  rcases value with _ | value
  · simp [dicts, ObjectList]
  · cases value with
    | arr items => exact mapM_asDict_iff
    | _ => simp [dicts, ObjectList]

/-- **The objects that `OrderAck` accepts.** -/
theorem validate_iff {body : Json.Dict} : (∃ ack, validate body = some ack) ↔ AckShaped body := by
  have hsplit : AckShaped body ↔
      (∀ entry ∈ body, NoSurrogate entry.1) ∧ StrOrNull (lookup body (str "OrderID") (str "order_id")) ∧
        ObjectList (lookup body (str "Orders") (str "orders")) ∧
        ObjectList (lookup body (str "Errors") (str "errors")) :=
    ⟨fun h => ⟨h.1, h.2, h.3, h.4⟩, fun h => ⟨h.1, h.2.1, h.2.2.1, h.2.2.2⟩⟩
  rw [hsplit, ← optionalStr_iff, ← dicts_iff, ← dicts_iff]
  constructor
  · rintro ⟨ack, h⟩
    simp only [validate, Option.bind_eq_bind, Option.bind_eq_some_iff] at h
    obtain ⟨⟨⟩, hkeys, orderId, horderId, orders, horders, errors, herrors, -⟩ := h
    exact ⟨(Option.guard_eq_some' ()).1 hkeys, ⟨orderId, horderId⟩, ⟨orders, horders⟩, ⟨errors, herrors⟩⟩
  · rintro ⟨hkeys, ⟨orderId, horderId⟩, ⟨orders, horders⟩, ⟨errors, herrors⟩⟩
    have hguard : guard (∀ entry ∈ body, NoSurrogate entry.1) = some () := if_pos hkeys
    exact ⟨{ orderId, orders, errors }, by simp [validate, hguard, horderId, horders, herrors]⟩

/-! ## The orders that an acknowledgement names -/

/-- A text that is a usable order ID, trimmed. -/
def usable (value : PyStr) : Option PyStr := if strip value = [] then none else some (strip value)

/-- The usable order IDs of the legs, which are the elements of `Orders`. -/
def legIds (ack : OrderAck) : List PyStr := ack.orders.filterMap usableId

/-- The usable order IDs of an acknowledgement, at the top level and in the legs. -/
def namedIds (ack : OrderAck) : List PyStr := (ack.orderId.bind usable).toList ++ ack.legIds

/-- An acknowledgement names every order of a group of so many: each leg has an ID, and there are as
many legs with different IDs as orders. The ID of a group of one may stand at the top level. -/
def NamesLegs (ack : OrderAck) (count : ℕ) : Prop :=
  (∀ leg ∈ ack.orders, (usableId leg).isSome) ∧
    (count ≤ ack.legIds.dedup.length ∨ count ≤ 1 ∧ (ack.orderId.bind usable).isSome)

/-- The top-level order ID is there and not empty, but blank, and no usable order ID is named. -/
def NamesOnlyBlank (ack : OrderAck) : Prop :=
  ack.namedIds = [] ∧ ack.orderId ≠ none ∧ ack.orderId ≠ some []

theorem usable_nil : usable [] = none := rfl

/-- `first_order_id` finds nothing exactly if nothing is named and no blank ID is there. -/
theorem firstOrderId_eq_none_iff {ack : OrderAck} :
    ack.firstOrderId = none ↔ ack.namedIds = [] ∧ ¬ack.NamesOnlyBlank := by
  obtain ⟨orderId, orders, errors⟩ := ack
  unfold firstOrderId NamesOnlyBlank namedIds legIds
  match orderId with
  | none => simp
  | some [] => simp [usable_nil]
  | some (c :: cs) => simp

end OrderAck

/-- The trade that a write leaves when it was acknowledged. -/
theorem reconcileRequired_acknowledged (request : OrderWriteRequest) (payload : Json.Dict)
    (payloadHash : PyStr) (ack : OrderAck) :
    ({ request, payload, payloadHash, ack := some ack : TradeStationTrade }).reconcileRequired = true ↔
      ack.errors ≠ [] ∨ (ack.namedIds = [] ∧ ¬ack.NamesOnlyBlank) := by
  rw [← OrderAck.firstOrderId_eq_none_iff, or_comm]
  simp [TradeStationTrade.reconcileRequired, TradeStationTrade.isAmbiguous,
    TradeStationTrade.orderId]

end TradeStation
