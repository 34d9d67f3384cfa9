import TradeStation.Redaction.Text

/-!
# Redaction of values

`redact` on what callers hand it: mappings with keys of any kind, lists and tuples, strings, and
values of other types, among them exceptions. On decoded JSON it is the `redact` of the answers.

* `redactValue_agree`: what stands under a sensitive key does not show in the result.
* `redactValue_shape`: all else keeps its shape.
* `redactValue_idem`: redacting twice is redacting once.
-/

namespace TradeStation

open Python

/-- A Python value. `K` are the keys of mappings, and `S` the values that `redact` hands back. -/
inductive Value (K S : Type)
  | mapping (fields : List (K × Value K S))
  | list (items : List (Value K S))
  | tuple (items : List (Value K S))
  | text (s : PyStr)
  | scalar (s : S)

section
variable {K S : Type} (lib : Library) (keyText : K → PyStr)

mutual

/-- `redact`. `keyText` is `str` of a key. -/
def redactValue : Value K S → Value K S
  | .mapping fields => .mapping (redactMapping fields)
  | .text s => .text (redactText lib s)
  | .list items | .tuple items => .list (redactSequence items)
  | .scalar s => .scalar s

/-- `redact` of the items of a mapping. -/
def redactMapping : List (K × Value K S) → List (K × Value K S)
  | [] => []
  | (key, item) :: fields =>
    (key, if isSensitive (keyText key) then .text redaction else redactValue item) ::
      redactMapping fields

/-- `redact` of the items of a sequence. -/
def redactSequence : List (Value K S) → List (Value K S)
  | [] => []
  | item :: items => redactValue item :: redactSequence items

end

/-! ## Sensitive keys -/

mutual

/-- The values differ in nothing but what stands under sensitive keys. -/
inductive Agree : Value K S → Value K S → Prop
  | mapping {fields fields' : List (K × Value K S)} (h : AgreeMapping fields fields') :
    Agree (.mapping fields) (.mapping fields')
  | list {items items' : List (Value K S)} (h : AgreeSequence items items') :
    Agree (.list items) (.list items')
  | tuple {items items' : List (Value K S)} (h : AgreeSequence items items') :
    Agree (.tuple items) (.tuple items')
  | text (s : PyStr) : Agree (.text s) (.text s)
  | scalar (s : S) : Agree (.scalar s) (.scalar s)

inductive AgreeMapping : List (K × Value K S) → List (K × Value K S) → Prop
  | nil : AgreeMapping [] []
  | secret {key : K} (hkey : isSensitive (keyText key) = true) (item item' : Value K S)
    {fields fields' : List (K × Value K S)} (h : AgreeMapping fields fields') :
    AgreeMapping ((key, item) :: fields) ((key, item') :: fields')
  | shown (key : K) {item item' : Value K S} (hitem : Agree item item')
    {fields fields' : List (K × Value K S)} (h : AgreeMapping fields fields') :
    AgreeMapping ((key, item) :: fields) ((key, item') :: fields')

inductive AgreeSequence : List (Value K S) → List (Value K S) → Prop
  | nil : AgreeSequence [] []
  | cons {item item' : Value K S} (hitem : Agree item item') {items items' : List (Value K S)}
    (h : AgreeSequence items items') : AgreeSequence (item :: items) (item' :: items')

end

mutual

/-- **What stands under a sensitive key does not show.** -/
theorem redactValue_agree {v v' : Value K S} (h : Agree keyText v v') :
    redactValue lib keyText v = redactValue lib keyText v' := by
  cases h with
  | mapping h => rw [redactValue, redactValue, redactMapping_agree h]
  | list h => rw [redactValue, redactValue, redactSequence_agree h]
  | tuple h => rw [redactValue, redactValue, redactSequence_agree h]
  | text s => rfl
  | scalar s => rfl

theorem redactMapping_agree {fields fields' : List (K × Value K S)}
    (h : AgreeMapping keyText fields fields') :
    redactMapping lib keyText fields = redactMapping lib keyText fields' := by
  cases h with
  | nil => rfl
  | secret hkey item item' h =>
    rw [redactMapping, redactMapping, if_pos hkey, if_pos hkey, redactMapping_agree h]
  | shown key hitem h =>
    rw [redactMapping, redactMapping, redactValue_agree hitem, redactMapping_agree h]

theorem redactSequence_agree {items items' : List (Value K S)}
    (h : AgreeSequence keyText items items') :
    redactSequence lib keyText items = redactSequence lib keyText items' := by
  cases h with
  | nil => rfl
  | cons hitem h =>
    rw [redactSequence, redactSequence, redactValue_agree hitem, redactSequence_agree h]

end

/-! ## Shapes -/

mutual

/-- The second value has the keys and the lengths of the first, down to the sensitive keys, where it
has the mark. Tuples have become lists. -/
inductive Shape : Value K S → Value K S → Prop
  | mapping {fields fields' : List (K × Value K S)} (h : ShapeMapping fields fields') :
    Shape (.mapping fields) (.mapping fields')
  | list {items items' : List (Value K S)} (h : ShapeSequence items items') :
    Shape (.list items) (.list items')
  | tuple {items items' : List (Value K S)} (h : ShapeSequence items items') :
    Shape (.tuple items) (.list items')
  | text (s s' : PyStr) : Shape (.text s) (.text s')
  | scalar (s : S) : Shape (.scalar s) (.scalar s)

inductive ShapeMapping : List (K × Value K S) → List (K × Value K S) → Prop
  | nil : ShapeMapping [] []
  | secret {key : K} (hkey : isSensitive (keyText key) = true) (item : Value K S)
    {fields fields' : List (K × Value K S)} (h : ShapeMapping fields fields') :
    ShapeMapping ((key, item) :: fields) ((key, .text redaction) :: fields')
  | shown {key : K} (hkey : isSensitive (keyText key) = false) {item item' : Value K S}
    (hitem : Shape item item') {fields fields' : List (K × Value K S)}
    (h : ShapeMapping fields fields') :
    ShapeMapping ((key, item) :: fields) ((key, item') :: fields')

inductive ShapeSequence : List (Value K S) → List (Value K S) → Prop
  | nil : ShapeSequence [] []
  | cons {item item' : Value K S} (hitem : Shape item item') {items items' : List (Value K S)}
    (h : ShapeSequence items items') : ShapeSequence (item :: items) (item' :: items')

end

/-- A mapping of the same shape has the same keys in the same order. -/
theorem ShapeMapping.keys_eq {fields fields' : List (K × Value K S)}
    (h : ShapeMapping keyText fields fields') : fields.map Prod.fst = fields'.map Prod.fst := by
  induction fields generalizing fields' with
  | nil =>
    cases h
    rfl
  | cons field fields ih =>
    cases h with
    | secret hkey item h => rw [List.map_cons, List.map_cons, ih h]
    | shown hkey hitem h => rw [List.map_cons, List.map_cons, ih h]

mutual

/-- **All but what stands under sensitive keys keeps its shape.** -/
theorem redactValue_shape : ∀ v : Value K S, Shape keyText v (redactValue lib keyText v)
  | .mapping fields => by
    rw [redactValue]
    exact .mapping (redactMapping_shape fields)
  | .list items => by
    rw [redactValue]
    exact .list (redactSequence_shape items)
  | .tuple items => by
    rw [redactValue]
    exact .tuple (redactSequence_shape items)
  | .text s => .text s _
  | .scalar s => .scalar s

theorem redactMapping_shape :
    ∀ fields : List (K × Value K S), ShapeMapping keyText fields (redactMapping lib keyText fields)
  | [] => .nil
  | (key, item) :: fields => by
    rw [redactMapping]
    cases hkey : isSensitive (keyText key) with
    | true => exact .secret hkey item (redactMapping_shape fields)
    | false => exact .shown hkey (redactValue_shape item) (redactMapping_shape fields)

theorem redactSequence_shape :
    ∀ items : List (Value K S), ShapeSequence keyText items (redactSequence lib keyText items)
  | [] => .nil
  | item :: items => by
    rw [redactSequence]
    exact .cons (redactValue_shape item) (redactSequence_shape items)

end

/-! ## Redacting twice -/

mutual

/-- **Redacting twice is redacting once.** -/
theorem redactValue_idem : ∀ v : Value K S,
    redactValue lib keyText (redactValue lib keyText v) = redactValue lib keyText v
  | .mapping fields => by rw [redactValue, redactValue, redactMapping_idem fields]
  | .list items => by rw [redactValue, redactValue, redactSequence_idem items]
  | .tuple items => by rw [redactValue, redactValue, redactSequence_idem items]
  | .text s => by rw [redactValue, redactValue, redactText_redactText]
  | .scalar s => rfl

theorem redactMapping_idem : ∀ fields : List (K × Value K S),
    redactMapping lib keyText (redactMapping lib keyText fields) = redactMapping lib keyText fields
  | [] => rfl
  | (key, item) :: fields => by
    rw [redactMapping, redactMapping, redactMapping_idem fields]
    cases hkey : isSensitive (keyText key) with
    | true => rfl
    | false => rw [if_neg (by simp), if_neg (by simp), redactValue_idem item]

theorem redactSequence_idem : ∀ items : List (Value K S),
    redactSequence lib keyText (redactSequence lib keyText items) =
      redactSequence lib keyText items
  | [] => rfl
  | item :: items => by
    rw [redactSequence, redactSequence, redactValue_idem item, redactSequence_idem items]

end

/-- **Noninterference.** Values that differ only under sensitive keys are redacted to one result; it
has the shape of either; and redacting it again changes nothing. -/
theorem redactValue_noninterference :
    (∀ v v' : Value K S, Agree keyText v v' →
      redactValue lib keyText v = redactValue lib keyText v') ∧
    (∀ v : Value K S, Shape keyText v (redactValue lib keyText v)) ∧
    ∀ v : Value K S,
      redactValue lib keyText (redactValue lib keyText v) = redactValue lib keyText v :=
  ⟨fun _ _ => redactValue_agree lib keyText, redactValue_shape lib keyText,
    redactValue_idem lib keyText⟩

end

/-! ## Decoded JSON -/

mutual

/-- A decoded JSON value among the Python values. -/
def Value.ofJson : Json → Value PyStr Json
  | .obj fields => .mapping (Value.ofFields fields)
  | .arr items => .list (Value.ofItems items)
  | .str s => .text s
  | value => .scalar value

/-- The items of an object. -/
def Value.ofFields : List (PyStr × Json) → List (PyStr × Value PyStr Json)
  | [] => []
  | (key, item) :: fields => (key, Value.ofJson item) :: Value.ofFields fields

/-- The items of an array. -/
def Value.ofItems : List Json → List (Value PyStr Json)
  | [] => []
  | item :: items => Value.ofJson item :: Value.ofItems items

end

section
variable (lib : Library)

mutual

/-- **On decoded JSON** it is the `redact` of the answers. -/
theorem redactValue_ofJson : ∀ v : Json,
    redactValue lib id (Value.ofJson v) = Value.ofJson (redact (redactText lib) v)
  | .obj fields => by
    rw [Value.ofJson, redactValue, redact, Value.ofJson, redactMapping_ofFields fields]
  | .arr items => by
    rw [Value.ofJson, redactValue, redact, Value.ofJson, redactSequence_ofItems items]
  | .str s => rfl
  | .null => rfl
  | .bool b => rfl
  | .int n => rfl
  | .float x => rfl

theorem redactMapping_ofFields : ∀ fields : List (PyStr × Json),
    redactMapping lib id (Value.ofFields fields) =
      Value.ofFields (redactFields (redactText lib) fields)
  | [] => rfl
  | (key, item) :: fields => by
    rw [Value.ofFields, redactMapping, redactFields, Value.ofFields, redactMapping_ofFields fields,
      redactValue_ofJson item]
    cases hkey : isSensitive key with
    | true => simp [hkey, Value.ofJson]
    | false => simp [hkey]

theorem redactSequence_ofItems : ∀ items : List Json,
    redactSequence lib id (Value.ofItems items) =
      Value.ofItems (redactItems (redactText lib) items)
  | [] => rfl
  | item :: items => by
    rw [Value.ofItems, redactSequence, redactItems, Value.ofItems, redactValue_ofJson item,
      redactSequence_ofItems items]

end

end

end TradeStation
