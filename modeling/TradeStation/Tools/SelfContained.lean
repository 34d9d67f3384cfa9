import Mathlib.Data.Nat.Digits.Defs
import TradeStation.Tools.Schemas

/-!
# The pinned document

What `filter_v3_only` leaves of a document, and which of its references still lead somewhere. How the
tokens of a reference are decoded is a parameter: nothing here depends on it.

* `filterV3Only_again`: to filter a filtered document changes nothing.
* `filterV3Only_selfContained_iff`: the references that led somewhere still do, exactly where every
  schema that one of them leads into is one that the tool reaches.
-/

namespace TradeStation.PinSpec

open Python Foundations

/-! ## References that lead somewhere -/

/-- `"#/components/"`. -/
def componentsPrefix : PyStr := str "#/components/"

/-- The place of an item in a list. -/
def arrayIndex (token : PyStr) : Option ℕ :=
  if token ≠ [] ∧ (∀ c ∈ token, 0x30 ≤ c ∧ c ≤ 0x39) ∧ (token.head? = some 0x30 → token.length = 1) then
    some (Nat.ofDigits 10 (token.reverse.map (· - 0x30)))
  else none

/-- The value at the end of a JSON pointer. -/
def resolve : Json → List PyStr → Option Json
  | value, [] => some value
  | .obj fields, token :: tokens => (Json.get fields token).bind fun child => resolve child tokens
  | .arr items, token :: tokens =>
    ((arrayIndex token).bind fun index => items[index]?).bind fun child => resolve child tokens
  | _, _ :: _ => none

/-- The tokens of a pointer. -/
def pointerTokens (decode : PyStr → PyStr) (pointer : PyStr) : List PyStr :=
  (pointer.splitOn 0x2f).map decode

/-- A reference `"#/components/…"` that leads somewhere. -/
def Resolvable (decode : PyStr → PyStr) (spec : Json.Dict) (ref : PyStr) : Prop :=
  ∃ pointer, ref = componentsPrefix ++ pointer ∧
    (resolve (.obj spec) (str "components" :: pointerTokens decode pointer)).isSome

/-- The reference is in the paths or in the components of a document. -/
def InDocument (spec : Json.Dict) (ref : PyStr) : Prop :=
  ∃ key value, (key = str "paths" ∨ key = str "components") ∧ Json.get spec key = some value ∧
    HasRef value ref

/-- What leads somewhere in a document still does in the filtered one. -/
def SelfContained (decode : PyStr → PyStr) (spec filtered : Json.Dict) : Prop :=
  ∀ ref, InDocument filtered ref → Resolvable decode spec ref → Resolvable decode filtered ref

/-- The paths are those that start with `"/v3/"`, as they were. -/
def PathsKept (spec filtered : Json.Dict) : Prop :=
  ∃ paths paths', Json.get spec (str "paths") = some (.obj paths) ∧
    Json.get filtered (str "paths") = some (.obj paths') ∧
    paths' = paths.filter fun path => startsWith path.1 (str "/v3/")

/-- The sections of the components beside the schemas. -/
def otherSections (components : Json.Dict) : Json.Dict := components.eraseP (·.1 = str "schemas")

/-- A reference in what is kept: in a path, in another section, or in a schema that is reached, where a
schema may by its name and text be an entry `"$ref"` itself. -/
def InKept (paths components schemas : Json.Dict) (ref : PyStr) : Prop :=
  HasRef (.obj paths) ref ∨ HasRef (.obj (otherSections components)) ref ∨
    ∃ name schema, ToolReached paths schemas name ∧ Json.get schemas name = some schema ∧
      HasRef (.obj [(name, schema)]) ref

/-- Every schema that a reference in what is kept leads into is reached. -/
def LedIntoReached (decode : PyStr → PyStr) (spec : Json.Dict) : Prop :=
  ∀ paths components schemas, Json.get spec (str "paths") = some (.obj paths) →
    Json.get spec (str "components") = some (.obj components) →
    Json.get components (str "schemas") = some (.obj schemas) →
    ∀ pointer name tokens, InKept (v3Paths paths) components schemas (componentsPrefix ++ pointer) →
      pointerTokens decode pointer = str "schemas" :: name :: tokens →
      Resolvable decode spec (componentsPrefix ++ pointer) → ToolReached (v3Paths paths) schemas name

/-! ## What the filter leaves -/

section
variable {order order' : SetOrder PyStr} {paths components schemas spec filtered : Json.Dict}
variable {name key key' : PyStr} {keep : Json → Except Exc Bool}

theorem select_select {items kept : List Json} (h : select keep items = .ok kept) :
    select keep kept = .ok kept := by
  induction items generalizing kept with
  | nil =>
    cases h
    rfl
  | cons item items ih =>
    simp only [select] at h
    cases hkeep : keep item with
    | error e =>
      rw [hkeep] at h
      cases h
    | ok b =>
      rw [hkeep] at h
      cases b with
      | false => exact ih h
      | true =>
        change (select keep items >>= fun rest => pure (item :: rest)) = .ok kept at h
        cases hrest : select keep items with
        | error e =>
          rw [hrest] at h
          cases h
        | ok rest =>
          rw [hrest] at h
          cases h
          rw [select, hkeep]
          change (select keep rest >>= fun rest => pure (item :: rest)) = _
          rw [ih hrest]
          rfl

/-- All of a list field is selected. -/
def Selected (key : PyStr) (keep : Json → Except Exc Bool) (spec : Json.Dict) : Prop :=
  ∀ items, Json.get spec key = some (.arr items) → select keep items = .ok items

theorem Selected.selectField (h : Selected key keep spec) :
    selectField key keep spec = .ok spec := by
  unfold PinSpec.selectField
  cases hget : Json.get spec key with
  | none => rfl
  | some value =>
    cases value with
    | arr items =>
      change (select keep items >>= fun kept => pure (Json.insert spec key (.arr kept))) = _
      rw [h items hget]
      exact congrArg Except.ok (Json.insert_get hget)
    | _ => rfl

/-- What the selection in a list field leaves. -/
theorem selectField_ok (h : selectField key keep spec = .ok filtered) :
    (∀ key', key' ≠ key → Json.get filtered key' = Json.get spec key') ∧
      Selected key keep filtered := by
  unfold selectField at h
  cases hget : Json.get spec key with
  | none =>
    rw [hget] at h
    cases h
    exact ⟨fun _ _ => rfl, fun items hitems => by simp [hget] at hitems⟩
  | some value =>
    rw [hget] at h
    cases value with
    | arr items =>
      change (select keep items >>= fun kept => pure (Json.insert spec key (.arr kept))) = .ok filtered at h
      cases hselect : select keep items with
      | error e =>
        rw [hselect] at h
        cases h
      | ok kept =>
        rw [hselect] at h
        cases h
        refine ⟨fun key' hne => Json.get_insert_ne hne, fun items' hitems => ?_⟩
        rw [Json.get_insert_self] at hitems
        cases hitems
        exact select_select hselect
    | _ =>
      cases h
      exact ⟨fun _ _ => rfl, fun items hitems => by simp [hget] at hitems⟩

theorem v3Paths_v3Paths (paths : Json.Dict) : v3Paths (v3Paths paths) = v3Paths paths := by
  rw [v3Paths, v3Paths, List.filter_filter]
  simp

theorem get_referencedSchemas_of_reached (hreached : ToolReached paths schemas name) :
    Json.get (referencedSchemas order paths schemas) name = Json.get schemas name := by
  rw [get_referencedSchemas, if_pos (mem_resolvedNames.2 hreached)]

/-- The pruned schemas reach what the schemas reached. -/
theorem toolReached_referencedSchemas :
    ToolReached paths (referencedSchemas order paths schemas) name ↔
      ToolReached paths schemas name := by
  constructor
  · intro h
    induction h with
    | path href htaken => exact .path href htaken
    | schema _ hschema href htaken ih =>
      rw [get_referencedSchemas_of_reached ih] at hschema
      exact .schema ih hschema href htaken
  · intro h
    induction h with
    | path href htaken => exact .path href htaken
    | schema hreached hschema href htaken ih =>
      exact .schema ih (by rw [get_referencedSchemas_of_reached hreached, hschema]) href htaken

/-- To prune what is pruned changes nothing. -/
theorem referencedSchemas_again :
    referencedSchemas order' paths (referencedSchemas order paths schemas) =
      referencedSchemas order paths schemas := by
  have hnames : sorted (resolvedNames order' paths (referencedSchemas order paths schemas)) =
      sorted (resolvedNames order paths schemas) := by
    apply sorted_congr
    rw [List.perm_ext_iff_of_nodup (nodup_resolvedNames _ _ _) (nodup_resolvedNames _ _ _)]
    intro name
    rw [mem_resolvedNames, mem_resolvedNames, toolReached_referencedSchemas]
  rw [referencedSchemas, hnames, referencedSchemas]
  apply List.filterMap_congr
  intro name hname
  rw [mem_sorted, mem_resolvedNames] at hname
  have hget : Json.get (referencedSchemas order paths schemas) name = Json.get schemas name :=
    get_referencedSchemas_of_reached hname
  rw [referencedSchemas] at hget
  rw [hget]

/-- What the filter makes of the components. -/
def keptComponents (order : SetOrder PyStr) (paths : Json.Dict) : Json → Json
  | .obj components => .obj (pruneComponents order paths components)
  | value => value

theorem pruneComponents_again :
    pruneComponents order' paths (pruneComponents order paths components) =
      pruneComponents order paths components := by
  cases hget : Json.get components (str "schemas") with
  | none => simp [pruneComponents, hget]
  | some value =>
    cases value with
    | obj schemas =>
      have hpruned : pruneComponents order paths components =
          Json.insert components (str "schemas") (.obj (referencedSchemas order paths schemas)) := by
        rw [pruneComponents, hget]
      rw [hpruned, pruneComponents, Json.get_insert_self]
      change Json.insert _ _ (.obj (referencedSchemas order' paths (referencedSchemas order paths schemas))) = _
      rw [referencedSchemas_again, Json.insert_get Json.get_insert_self]
    | _ => simp [pruneComponents, hget]

/-- The schemas are pruned in the components, and nowhere else. -/
theorem get_pruneSchemas (spec : Json.Dict) (key : PyStr) :
    Json.get (pruneSchemas order paths spec) key =
      if key = str "components" then (Json.get spec key).map (keptComponents order paths)
      else Json.get spec key := by
  unfold pruneSchemas
  split_ifs with hkey
  · subst hkey
    cases hget : Json.get spec (str "components") with
    | none => simpa using hget
    | some value =>
      cases value with
      | obj components => rw [Json.get_insert_self, Option.map_some, keptComponents]
      | _ => simpa [keptComponents] using hget
  · cases hget : Json.get spec (str "components") with
    | none => rfl
    | some value =>
      cases value with
      | obj components => rw [Json.get_insert_ne hkey]
      | _ => rfl

theorem pruneSchemas_eq_self {components : Option Json}
    (h : Json.get spec (str "components") = components.map (keptComponents order paths)) :
    pruneSchemas order' paths spec = spec := by
  unfold pruneSchemas
  rw [h]
  cases components with
  | none => rfl
  | some value =>
    cases value with
    | obj components =>
      rw [Option.map_some, keptComponents] at h ⊢
      change Json.insert spec (str "components")
        (.obj (pruneComponents order' paths (pruneComponents order paths components))) = spec
      rw [pruneComponents_again, Json.insert_get h]
    | _ => rfl

/-- **What the filter does**: the paths are those of version 3, the schemas are pruned, the tags are
selected, and to do so again changes nothing. -/
theorem filterV3Only_ok (h : filterV3Only order spec = .ok filtered) :
    ∃ paths, Json.get spec (str "paths") = some (.obj paths) ∧
      Json.get filtered (str "paths") = some (.obj (v3Paths paths)) ∧
      Json.get filtered (str "components") =
        (Json.get spec (str "components")).map (keptComponents order (v3Paths paths)) ∧
      ∀ order', filterV3Only order' filtered = .ok filtered := by
  unfold filterV3Only at h
  cases hpaths : Json.get spec (str "paths") with
  | none =>
    rw [hpaths] at h
    cases h
  | some value =>
    rw [hpaths] at h
    cases value with
    | obj paths =>
      cases hused : pathTags (v3Paths paths) with
      | error e => simp [hused, bind, Except.bind] at h
      | ok used =>
        simp only [hused, bind, Except.bind] at h
        cases htags : selectField (str "tags") (keepsTag used) (pruneSchemas order (v3Paths paths)
            (Json.insert spec (str "paths") (.obj (v3Paths paths)))) with
        | error e => simp [htags] at h
        | ok tagged =>
          rw [htags] at h
          obtain ⟨hother, htagged⟩ := selectField_ok htags
          obtain ⟨hother', hgrouped⟩ := selectField_ok h
          have hget : Json.get filtered (str "paths") = some (.obj (v3Paths paths)) := by
            rw [hother' _ (by decide), hother _ (by decide), get_pruneSchemas, if_neg (by decide),
              Json.get_insert_self]
          have hcomponents : Json.get filtered (str "components") =
              (Json.get spec (str "components")).map (keptComponents order (v3Paths paths)) := by
            rw [hother' _ (by decide), hother _ (by decide), get_pruneSchemas, if_pos rfl,
              Json.get_insert_ne (by decide)]
          refine ⟨paths, rfl, hget, hcomponents, fun order' => ?_⟩
          have hpruned : pruneSchemas order' (v3Paths paths) filtered = filtered :=
            pruneSchemas_eq_self hcomponents
          have htags' : Selected (str "tags") (keepsTag used) filtered := by
            intro items hitems
            exact htagged items (by rw [← hother' _ (by decide), hitems])
          unfold filterV3Only
          rw [hget]
          simp only [v3Paths_v3Paths, Json.insert_get hget, hpruned, hused, bind, Except.bind,
            htags'.selectField, hgrouped.selectField]
    | _ => cases h

/-! ## The references of what is left -/

theorem hasRef_insert {d : Json.Dict} {value : Json} {ref : PyStr} (hkey : key ≠ str "$ref") :
    HasRef (.obj (Json.insert d key value)) ref ↔
      HasRef (.obj (d.eraseP (·.1 = key))) ref ∨ HasRef value ref := by
  rw [hasRef_obj_iff, hasRef_obj_iff, Json.get_insert_ne hkey.symm, Json.get_eraseP_ne hkey.symm]
  simp only [Json.mem_insert_iff, or_and_right, exists_or, exists_eq_left, or_assoc]

/-- The references of a `dict` are those of its entries. -/
theorem hasRef_entries {d : Json.Dict} {ref : PyStr} (hd : (Json.keys d).Nodup) :
    HasRef (.obj d) ref ↔ ∃ entry ∈ d, HasRef (.obj [entry]) ref := by
  constructor
  · intro h
    rcases hasRef_obj_iff.1 h with hget | ⟨entry, hmem, h⟩
    · exact ⟨_, Json.mem_of_get hget, .here (by simp [Json.get_cons])⟩
    · exact ⟨entry, hmem, .field List.mem_cons_self h⟩
  · rintro ⟨entry, hmem, h⟩
    rcases hasRef_obj_iff.1 h with hget | ⟨entry', hmem', hchild⟩
    · obtain rfl := List.mem_singleton.1 (Json.mem_of_get hget)
      exact .here (Json.get_of_mem hd hmem)
    · obtain rfl := List.mem_singleton.1 hmem'
      exact .field hmem hchild

theorem mem_referencedSchemas {schema : Json} :
    (name, schema) ∈ referencedSchemas order paths schemas ↔
      ToolReached paths schemas name ∧ Json.get schemas name = some schema := by
  rw [referencedSchemas, List.mem_filterMap]
  constructor
  · rintro ⟨n, hn, hpick⟩
    obtain ⟨value, hget, hentry⟩ := Option.map_eq_some_iff.1 hpick
    cases hentry
    exact ⟨mem_resolvedNames.1 (mem_sorted.1 hn), hget⟩
  · rintro ⟨hreached, hget⟩
    exact ⟨name, mem_sorted.2 (mem_resolvedNames.2 hreached), by rw [hget]; rfl⟩

/-- Where the schemas are pruned, the references of the filtered document are those of what is kept. -/
theorem inDocument_iff {ref : PyStr}
    (hpaths : Json.get filtered (str "paths") = some (.obj paths))
    (hcomponents : Json.get filtered (str "components") =
      some (.obj (pruneComponents order paths components)))
    (hschemas : Json.get components (str "schemas") = some (.obj schemas)) :
    InDocument filtered ref ↔ InKept paths components schemas ref := by
  have hpruned : pruneComponents order paths components =
      Json.insert components (str "schemas") (.obj (referencedSchemas order paths schemas)) := by
    rw [pruneComponents, hschemas]
  have hsections : HasRef (.obj (pruneComponents order paths components)) ref ↔
      HasRef (.obj (otherSections components)) ref ∨
        ∃ name schema, ToolReached paths schemas name ∧ Json.get schemas name = some schema ∧
          HasRef (.obj [(name, schema)]) ref := by
    rw [hpruned, hasRef_insert (by decide),
      hasRef_entries (nodup_referencedSchemas order paths schemas), otherSections]
    simp only [Prod.exists, mem_referencedSchemas, and_assoc]
  unfold InKept
  rw [← hsections]
  constructor
  · rintro ⟨_, value, rfl | rfl, hget, h⟩
    · rw [hpaths] at hget
      cases hget
      exact .inl h
    · rw [hcomponents] at hget
      cases hget
      exact .inr h
  · rintro (h | h)
    · exact ⟨_, _, .inl rfl, hpaths, h⟩
    · exact ⟨_, _, .inr rfl, hcomponents, h⟩

theorem resolvable_iff {decode : PyStr → PyStr} {spec : Json.Dict} {pointer : PyStr} :
    Resolvable decode spec (componentsPrefix ++ pointer) ↔
      ∃ value, Json.get spec (str "components") = some value ∧
        (resolve value (pointerTokens decode pointer)).isSome := by
  have hroot : ∀ tokens, resolve (.obj spec) (str "components" :: tokens) =
      (Json.get spec (str "components")).bind fun value => resolve value tokens := fun _ => rfl
  unfold Resolvable
  simp only [List.append_cancel_left_eq, exists_eq_left', hroot]
  cases Json.get spec (str "components") <;> simp

/-- A pointer leads through the pruned components as through the components, unless into a schema that
is not reached. -/
theorem resolve_pruneComponents {tokens : List PyStr}
    (hschemas : Json.get components (str "schemas") = some (.obj schemas)) :
    (resolve (.obj (pruneComponents order paths components)) tokens).isSome ↔
      (resolve (.obj components) tokens).isSome ∧
        ∀ name rest, tokens = str "schemas" :: name :: rest → ToolReached paths schemas name := by
  have hpruned : pruneComponents order paths components =
      Json.insert components (str "schemas") (.obj (referencedSchemas order paths schemas)) := by
    rw [pruneComponents, hschemas]
  have hchild : ∀ (d : Json.Dict) token tokens, resolve (.obj d) (token :: tokens) =
      (Json.get d token).bind fun child => resolve child tokens := fun _ _ _ => rfl
  rw [hpruned]
  cases tokens with
  | nil => simp [resolve]
  | cons token tokens =>
    rw [hchild, hchild]
    by_cases htoken : token = str "schemas"
    · subst htoken
      rw [Json.get_insert_self, hschemas, Option.bind_some, Option.bind_some]
      cases tokens with
      | nil => simp [resolve]
      | cons name rest =>
        rw [hchild, hchild, get_referencedSchemas]
        split_ifs with hresolved
        · have hreached : ToolReached paths schemas name := mem_resolvedNames.1 hresolved
          simp [hreached]
        · have hreached : ¬ToolReached paths schemas name := fun h => hresolved (mem_resolvedNames.2 h)
          simp [hreached]
    · rw [Json.get_insert_ne htoken]
      simp [htoken]

end

/-- **The filtered document is self-contained** if and only if every schema that a reference in what is
kept leads into is reached. The paths that are kept are as they were, and to filter again changes
nothing. -/
theorem filterV3Only_selfContained_iff (decode : PyStr → PyStr) (order : SetOrder PyStr)
    {spec filtered : Json.Dict} (h : filterV3Only order spec = .ok filtered) :
    (SelfContained decode spec filtered ↔ LedIntoReached decode spec) ∧ PathsKept spec filtered ∧
      ∀ order', filterV3Only order' filtered = .ok filtered := by
  obtain ⟨paths, hpaths, hkept, hcomponents, hagain⟩ := filterV3Only_ok h
  refine ⟨⟨fun hself => ?_, fun hled => ?_⟩, ⟨paths, _, hpaths, hkept, rfl⟩, hagain⟩
  · intro paths' components schemas hpaths' hget hschemas pointer name tokens hin htokens hres
    rw [hpaths] at hpaths'
    cases hpaths'
    rw [hget, Option.map_some, keptComponents] at hcomponents
    have hdocument := (inDocument_iff hkept hcomponents hschemas).2 hin
    obtain ⟨value, hvalue, hsome⟩ := resolvable_iff.1 (hself _ hdocument hres)
    rw [hcomponents] at hvalue
    cases hvalue
    exact ((resolve_pruneComponents hschemas).1 hsome).2 name tokens htokens
  · rintro ref hin ⟨pointer, rfl, hres⟩
    have hres' : Resolvable decode spec (componentsPrefix ++ pointer) := ⟨pointer, rfl, hres⟩
    obtain ⟨value, hvalue, hsome⟩ := resolvable_iff.1 hres'
    rw [hvalue, Option.map_some] at hcomponents
    refine resolvable_iff.2 ⟨_, hcomponents, ?_⟩
    cases value with
    | obj components =>
      rw [keptComponents] at hcomponents ⊢
      cases hschemas : Json.get components (str "schemas") with
      | none => rwa [pruneComponents, hschemas]
      | some sections =>
        cases sections with
        | obj schemas =>
          refine (resolve_pruneComponents hschemas).2 ⟨hsome, fun name rest htokens => ?_⟩
          have hin' := (inDocument_iff hkept hcomponents hschemas).1 hin
          exact hled paths components schemas hpaths hvalue hschemas pointer name rest hin' htokens hres'
        | _ => rwa [pruneComponents, hschemas]
    | _ => exact hsome

/-! ## A response between a path and a schema -/

/-- A path whose answer is a response among the components. -/
def ordersPaths : Json.Dict :=
  [(str "/v3/orders", .obj [(str "get", .obj [(str "responses", .obj [(str "200",
    .obj [(str "$ref", .str (str "#/components/responses/Orders"))])])])])]

/-- The response has a schema. -/
def ordersSpec (schemas : Json.Dict) : Json.Dict :=
  [(str "paths", .obj ordersPaths),
    (str "components", .obj
      [(str "responses", .obj [(str "Orders",
        .obj [(str "schema", .obj [(str "$ref", .str (componentsPrefix ++ str "schemas/Orders"))])])]),
      (str "schemas", .obj schemas)])]

/-- The schema of the response. -/
def ordersSchemas : Json.Dict := [(str "Orders", .obj [])]

theorem filter_ordersSpec :
    filterV3Only (.asListed PyStr) (ordersSpec ordersSchemas) = .ok (ordersSpec []) := by
  have hnone : schemaReferences (.obj ordersPaths) = [] := by decide
  have hpruned : referencedSchemas (.asListed PyStr) ordersPaths ordersSchemas = [] := by
    rw [referencedSchemas, resolvedNames, hnone]
    change (sorted (Graph.drain _ _ [] [])).filterMap _ = []
    rw [Graph.drain_nil]
    rfl
  have hspec : pruneSchemas (.asListed PyStr) (v3Paths ordersPaths) (Json.insert
      (ordersSpec ordersSchemas) (str "paths") (.obj (v3Paths ordersPaths))) = ordersSpec [] := by
    change Json.insert (ordersSpec ordersSchemas) _
      (.obj (Json.insert _ _ (.obj (referencedSchemas _ ordersPaths ordersSchemas)))) = _
    rw [hpruned]
    rfl
  have hget : Json.get (ordersSpec ordersSchemas) (str "paths") = some (.obj ordersPaths) := rfl
  unfold filterV3Only
  simp only [hget, hspec]
  rfl

theorem filterV3Only_selfContained_iff_orders :
    (SelfContained id (ordersSpec ordersSchemas) (ordersSpec []) ↔
        LedIntoReached id (ordersSpec ordersSchemas)) ∧
      PathsKept (ordersSpec ordersSchemas) (ordersSpec []) ∧
      ∀ order', filterV3Only order' (ordersSpec []) = .ok (ordersSpec []) :=
  filterV3Only_selfContained_iff id (.asListed PyStr) filter_ordersSpec

/-- The schema of the response is gone, and the reference to it is left. -/
theorem filterV3Only_dangling :
    ¬∀ decode order spec filtered, filterV3Only order spec = .ok filtered →
      SelfContained decode spec filtered := by
  intro h
  have hself := h id _ _ _ filter_ordersSpec
  have href : InDocument (ordersSpec []) (componentsPrefix ++ str "schemas/Orders") := by
    refine ⟨str "components", _, .inr rfl, rfl, ?_⟩
    exact .field List.mem_cons_self (.field List.mem_cons_self (.field List.mem_cons_self (.here rfl)))
  have hres : Resolvable id (ordersSpec ordersSchemas) (componentsPrefix ++ str "schemas/Orders") :=
    ⟨_, rfl, by decide⟩
  obtain ⟨value, hvalue, hsome⟩ := resolvable_iff.1 (hself _ href hres)
  cases hvalue
  revert hsome
  decide

end TradeStation.PinSpec
