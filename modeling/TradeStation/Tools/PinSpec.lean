import TradeStation.Errors
import TradeStation.Foundations.Worklist
import TradeStation.Python.Dicts

/-!
# Pinning the specification

`filter_v3_only` of the tool that pins the OpenAPI document. The document is a decoded JSON object;
Python changes it in place and returns it, and here the changed one is returned. A set is a list
without repetition, and where Python runs through one, the order is a parameter.
-/

namespace TradeStation.PinSpec

open Python Foundations

/-- `"#/components/schemas/"`. -/
def schemasPrefix : PyStr := str "#/components/schemas/"

/-- `ref.rsplit("/", 1)[-1]`. -/
def lastSegment (ref : PyStr) : PyStr := (ref.reverse.takeWhile (· ≠ 0x2f)).reverse

/-- What a `"$ref"` entry of an object adds to its references. -/
def ownReference (fields : Json.Dict) : List PyStr :=
  match Json.get fields (str "$ref") with
  | some (.str ref) => if startsWith ref schemasPrefix then [lastSegment ref] else []
  | _ => []

mutual

/-- `schema_references`. -/
def schemaReferences : Json → List PyStr
  | .obj fields => ownReference fields ∪ fieldReferences fields
  | .arr items => itemReferences items
  | _ => []

/-- The references of the values of an object. -/
def fieldReferences : List (PyStr × Json) → List PyStr
  | [] => []
  | (_, child) :: fields => schemaReferences child ∪ fieldReferences fields

/-- The references of the items of a list. -/
def itemReferences : List Json → List PyStr
  | [] => []
  | child :: items => schemaReferences child ∪ itemReferences items

end

/-- The references of the schema of that name. -/
def referencesOf (schemas : Json.Dict) (name : PyStr) : List PyStr :=
  match Json.get schemas name with
  | none | some .null => []
  | some schema => schemaReferences schema

/-- The schemas as a graph, with an edge for every reference. -/
def schemaGraph (schemas : Json.Dict) : Graph PyStr where
  nodes := Json.keys schemas
  next := referencesOf schemas
  next_eq_nil name h := by rw [referencesOf, Json.get_eq_none_iff.2 h]

/-- `resolved` at the end of the loop. -/
def resolvedNames (order : SetOrder PyStr) (paths schemas : Json.Dict) : List PyStr :=
  (schemaGraph schemas).drain order [] (order.list [] (schemaReferences (.obj paths)))

/-- `referenced_schemas`. -/
def referencedSchemas (order : SetOrder PyStr) (paths schemas : Json.Dict) : Json.Dict :=
  (sorted (resolvedNames order paths schemas)).filterMap fun name =>
    (Json.get schemas name).map fun schema => (name, schema)

/-! ## Tags -/

/-- A `TypeError`. -/
def typeError : Exc := .library (.other (str "TypeError"))

/-- The items that `for item in value` runs through. -/
def iterate : Json → Except Exc (List Json)
  | .arr items => .ok items
  | .obj fields => .ok (fields.map fun field => .str field.1)
  | .str s => .ok (s.map fun c => .str [c])
  | _ => .error typeError

/-- `value.get(key, ())` as it is run through. -/
def iterateField (fields : Json.Dict) (key : PyStr) : Except Exc (List Json) :=
  match Json.get fields key with
  | none => .ok []
  | some value => iterate value

/-- `value in tags` of a set of strings. -/
def isTag (tags : List PyStr) : Json → Except Exc Bool
  | .arr _ | .obj _ => .error typeError
  | .str s => .ok (s ∈ tags)
  | _ => .ok false

/-- `any(item in tags for item in items)`. -/
def anyTag (tags : List PyStr) : List Json → Except Exc Bool
  | [] => .ok false
  | item :: items => do
    if ← isTag tags item then return true
    else anyTag tags items

/-- The tags of an operation. -/
def operationTags : Json → Except Exc (List PyStr)
  | .obj operation => do
    let tags ← iterateField operation (str "tags")
    return tags.filterMap fun
      | .str tag => some tag
      | _ => none
  | _ => .ok []

/-- The tags of a path item. -/
def itemTags : Json → Except Exc (List PyStr)
  | .obj pathItem => do
    let tags ← pathItem.mapM fun operation => operationTags operation.2
    return tags.flatten
  | _ => .ok []

/-- `path_tags`. -/
def pathTags (paths : Json.Dict) : Except Exc (List PyStr) := do
  let tags ← paths.mapM fun path => itemTags path.2
  return tags.flatten

/-- Whether an entry of `tags` is kept. -/
def keepsTag (used : List PyStr) : Json → Except Exc Bool
  | .obj tag => isTag used ((Json.get tag (str "name")).getD .null)
  | _ => .ok false

/-- Whether an entry of `x-tagGroups` is kept. -/
def keepsGroup (used : List PyStr) : Json → Except Exc Bool
  | .obj group => do anyTag used (← iterateField group (str "tags"))
  | _ => .ok false

/-- `[item for item in items if keep(item)]`. -/
def select (keep : Json → Except Exc Bool) : List Json → Except Exc (List Json)
  | [] => .ok []
  | item :: items => do
    if ← keep item then return item :: (← select keep items)
    else select keep items

/-! ## The filter -/

/-- The paths that are kept. -/
def v3Paths (paths : Json.Dict) : Json.Dict := paths.filter fun path => startsWith path.1 (str "/v3/")

/-- The components, with the schemas pruned. -/
def pruneComponents (order : SetOrder PyStr) (paths components : Json.Dict) : Json.Dict :=
  match Json.get components (str "schemas") with
  | some (.obj schemas) =>
    Json.insert components (str "schemas") (.obj (referencedSchemas order paths schemas))
  | _ => components

/-- The document, with the schemas pruned. -/
def pruneSchemas (order : SetOrder PyStr) (paths spec : Json.Dict) : Json.Dict :=
  match Json.get spec (str "components") with
  | some (.obj components) =>
    Json.insert spec (str "components") (.obj (pruneComponents order paths components))
  | _ => spec

/-- The document, with the entries of a list field selected. -/
def selectField (key : PyStr) (keep : Json → Except Exc Bool) (spec : Json.Dict) :
    Except Exc Json.Dict :=
  match Json.get spec key with
  | some (.arr items) => do return Json.insert spec key (.arr (← select keep items))
  | _ => .ok spec

/-- `filter_v3_only`. -/
def filterV3Only (order : SetOrder PyStr) (spec : Json.Dict) : Except Exc Json.Dict :=
  match Json.get spec (str "paths") with
  | some (.obj paths) => do
    let v3 := v3Paths paths
    let spec := pruneSchemas order v3 (Json.insert spec (str "paths") (.obj v3))
    let used ← pathTags v3
    let spec ← selectField (str "tags") (keepsTag used) spec
    selectField (str "x-tagGroups") (keepsGroup used) spec
  | _ => .error (.value (str "TradeStation spec is missing paths"))

end TradeStation.PinSpec
