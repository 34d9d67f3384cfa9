import TradeStation.Tools.PinSpec

/-!
# The schemas that are needed

What `referenced_schemas` has to keep, `Needed`, is said without its loop: the schemas that are reached
from the paths along references `"#/components/schemas/<name>"`.

* `mem_schemaReferences`: what the tool makes of the references of a value. It takes what stands behind
  the last slash for the name, also where the reference goes on into the schema.
* `referencedSchemas_exact_iff`: it keeps the needed schemas alone exactly where no such longer
  reference leads it astray.
-/

namespace TradeStation.PinSpec

open Python Foundations

/-! ## What is needed -/

/-- There is this `"$ref"` in a value, at any depth. -/
inductive HasRef : Json → PyStr → Prop
  | here {fields : List (PyStr × Json)} {ref : PyStr}
    (h : Json.get fields (str "$ref") = some (.str ref)) : HasRef (.obj fields) ref
  | field {fields : List (PyStr × Json)} {key : PyStr} {child : Json} {ref : PyStr}
    (hmem : (key, child) ∈ fields) (h : HasRef child ref) : HasRef (.obj fields) ref
  | item {items : List Json} {child : Json} {ref : PyStr} (hmem : child ∈ items)
    (h : HasRef child ref) : HasRef (.arr items) ref

/-- A value refers to a schema: a `"$ref"` is its name behind `"#/components/schemas/"`. -/
def Refers (value : Json) (name : PyStr) : Prop :=
  HasRef value (schemasPrefix ++ name) ∧ 0x2f ∉ name

/-- A schema that is reached from the paths. -/
inductive Needed (paths schemas : Json.Dict) : PyStr → Prop
  | path {name : PyStr} (h : Refers (.obj paths) name) : Needed paths schemas name
  | schema {name name' : PyStr} {schema : Json} (h : Needed paths schemas name)
    (hschema : Json.get schemas name = some schema) (href : Refers schema name') :
    Needed paths schemas name'

/-- A `dict` is another one, less the names that do not satisfy `P`. -/
structure Restricts (result schemas : Json.Dict) (P : PyStr → Prop) : Prop where
  kept : ∀ name, P name → Json.get result name = Json.get schemas name
  dropped : ∀ name, ¬P name → Json.get result name = none
  nodup : (Json.keys result).Nodup

/-- The references in the paths and in the schemas that are needed. -/
def Met (paths schemas : Json.Dict) (ref : PyStr) : Prop :=
  HasRef (.obj paths) ref ∨
    ∃ name schema, Needed paths schemas name ∧ Json.get schemas name = some schema ∧
      HasRef schema ref

/-- A reference that goes on into a schema. -/
def GoesOn (ref : PyStr) : Prop := ∃ rest, ref = schemasPrefix ++ rest ∧ 0x2f ∈ rest

/-- No reference that goes on into a schema ends with the name of a schema that is not needed. -/
def NoneAstray (paths schemas : Json.Dict) : Prop :=
  ∀ ref, Met paths schemas ref → GoesOn ref → lastSegment ref ∈ Json.keys schemas →
    Needed paths schemas (lastSegment ref)

/-- The reference is one to a schema, and the tool takes it for that name. -/
def TakenFor (ref name : PyStr) : Prop :=
  startsWith ref schemasPrefix = true ∧ lastSegment ref = name

instance (ref name : PyStr) : Decidable (TakenFor ref name) :=
  inferInstanceAs (Decidable (_ ∧ _))

/-- A schema that is reached from the paths, with references as the tool takes them. -/
inductive ToolReached (paths schemas : Json.Dict) : PyStr → Prop
  | path {ref name : PyStr} (href : HasRef (.obj paths) ref) (htaken : TakenFor ref name) :
    ToolReached paths schemas name
  | schema {name ref name' : PyStr} {schema : Json} (h : ToolReached paths schemas name)
    (hschema : Json.get schemas name = some schema) (href : HasRef schema ref)
    (htaken : TakenFor ref name') : ToolReached paths schemas name'

/-! ## What the tool makes of references -/

theorem hasRef_obj_iff {fields : List (PyStr × Json)} {ref : PyStr} :
    HasRef (.obj fields) ref ↔ Json.get fields (str "$ref") = some (.str ref) ∨
      ∃ field ∈ fields, HasRef field.2 ref := by
  constructor
  · intro h
    cases h with
    | here h => exact .inl h
    | field hmem h => exact .inr ⟨_, hmem, h⟩
  · rintro (h | ⟨field, hmem, h⟩)
    · exact .here h
    · exact .field hmem h

theorem hasRef_arr_iff {items : List Json} {ref : PyStr} :
    HasRef (.arr items) ref ↔ ∃ item ∈ items, HasRef item ref := by
  constructor
  · intro h
    cases h with
    | item hmem h => exact ⟨_, hmem, h⟩
  · rintro ⟨item, hmem, h⟩
    exact .item hmem h

theorem mem_ownReference {fields : Json.Dict} {name : PyStr} :
    name ∈ ownReference fields ↔
      ∃ ref, Json.get fields (str "$ref") = some (.str ref) ∧ TakenFor ref name := by
  unfold ownReference TakenFor
  cases hget : Json.get fields (str "$ref") with
  | none => simp
  | some value =>
    cases value with
    | str ref =>
      simp only [Option.some.injEq, Json.str.injEq, exists_eq_left']
      split_ifs with h
      · simp [h, eq_comm]
      · simp [h]
    | _ => simp

mutual

/-- The names that the tool reads off the references of a value. -/
theorem mem_schemaReferences {name : PyStr} : ∀ value : Json,
    name ∈ schemaReferences value ↔ ∃ ref, HasRef value ref ∧ TakenFor ref name
  | .obj fields => by
    rw [schemaReferences, List.mem_union_iff, mem_ownReference, mem_fieldReferences fields]
    simp only [hasRef_obj_iff]
    constructor
    · rintro (⟨ref, h, htaken⟩ | ⟨ref, h, htaken⟩)
      · exact ⟨ref, .inl h, htaken⟩
      · exact ⟨ref, .inr h, htaken⟩
    · rintro ⟨ref, h | h, htaken⟩
      · exact .inl ⟨ref, h, htaken⟩
      · exact .inr ⟨ref, h, htaken⟩
  | .arr items => by
    rw [schemaReferences, mem_itemReferences items]
    simp only [hasRef_arr_iff]
  | .null | .bool _ | .int _ | .float _ | .str _ => by
    constructor
    · intro h
      simp [schemaReferences] at h
    · rintro ⟨ref, h, -⟩
      cases h

theorem mem_fieldReferences {name : PyStr} : ∀ fields : List (PyStr × Json),
    name ∈ fieldReferences fields ↔
      ∃ ref, (∃ field ∈ fields, HasRef field.2 ref) ∧ TakenFor ref name
  | [] => by simp [fieldReferences]
  | (key, child) :: fields => by
    rw [fieldReferences, List.mem_union_iff, mem_schemaReferences child,
      mem_fieldReferences fields]
    simp only [List.mem_cons, or_and_right, exists_or, exists_eq_left]

theorem mem_itemReferences {name : PyStr} : ∀ items : List Json,
    name ∈ itemReferences items ↔ ∃ ref, (∃ item ∈ items, HasRef item ref) ∧ TakenFor ref name
  | [] => by simp [itemReferences]
  | child :: items => by
    rw [itemReferences, List.mem_union_iff, mem_schemaReferences child, mem_itemReferences items]
    simp only [List.mem_cons, or_and_right, exists_or, exists_eq_left]

end

theorem lastSegment_plain {name : PyStr} (h : 0x2f ∉ name) :
    lastSegment (schemasPrefix ++ name) = name := by
  have hall : ∀ c ∈ name.reverse, (decide (c ≠ 0x2f)) = true := by
    intro c hc
    rw [List.mem_reverse] at hc
    exact decide_eq_true fun heq => h (heq ▸ hc)
  have hslash : schemasPrefix.reverse.takeWhile (fun c => decide (c ≠ 0x2f)) = [] := by decide
  rw [lastSegment, List.reverse_append, List.takeWhile_append_of_pos hall, hslash, List.append_nil,
    List.reverse_reverse]

/-- A reference to a schema is taken for its name, unless it goes on. -/
theorem TakenFor.name_or {ref name : PyStr} (h : TakenFor ref name) :
    (ref = schemasPrefix ++ name ∧ 0x2f ∉ name) ∨ GoesOn ref := by
  obtain ⟨hstart, hname⟩ := h
  obtain ⟨rest, rfl⟩ := List.isPrefixOf_iff_prefix.1 hstart
  by_cases hslash : 0x2f ∈ rest
  · exact .inr ⟨rest, rfl, hslash⟩
  · rw [lastSegment_plain hslash] at hname
    exact .inl ⟨by rw [hname], by rwa [← hname]⟩

theorem takenFor_plain {name : PyStr} (h : 0x2f ∉ name) : TakenFor (schemasPrefix ++ name) name :=
  ⟨List.isPrefixOf_iff_prefix.2 (List.prefix_append _ _), lastSegment_plain h⟩

theorem GoesOn.takenFor {ref : PyStr} (h : GoesOn ref) : TakenFor ref (lastSegment ref) := by
  obtain ⟨rest, rfl, -⟩ := h
  exact ⟨List.isPrefixOf_iff_prefix.2 (List.prefix_append _ _), rfl⟩

/-! ## What the tool keeps -/

section
variable {order : SetOrder PyStr} {paths schemas : Json.Dict} {name : PyStr}

theorem mem_referencesOf {name' : PyStr} :
    name' ∈ referencesOf schemas name ↔
      ∃ schema, Json.get schemas name = some schema ∧ name' ∈ schemaReferences schema := by
  unfold referencesOf
  cases Json.get schemas name with
  | none => simp
  | some schema => cases schema <;> simp [schemaReferences]

/-- **The loop resolves what the tool reaches.** -/
theorem mem_resolvedNames :
    name ∈ resolvedNames order paths schemas ↔ ToolReached paths schemas name := by
  have hstart : ∀ s, s ∈ order.list [] (schemaReferences (.obj paths)) ↔
      s ∈ schemaReferences (.obj paths) := fun s => (order.perm _ _).mem_iff
  rw [resolvedNames, Graph.mem_drain_iff]
  constructor
  · intro h
    refine h.induct ?_ ?_
    · intro name hname
      obtain ⟨ref, href, htaken⟩ := (mem_schemaReferences _).1 ((hstart name).1 hname)
      exact .path href htaken
    · intro a b _ ih hb
      obtain ⟨schema, hschema, hb⟩ := mem_referencesOf.1 hb
      obtain ⟨ref, href, htaken⟩ := (mem_schemaReferences _).1 hb
      exact .schema ih hschema href htaken
  · intro h
    induction h with
    | path href htaken =>
      exact .of_mem ((hstart _).2 ((mem_schemaReferences _).2 ⟨_, href, htaken⟩))
    | schema _ hschema href htaken ih =>
      have hedge := (mem_schemaReferences _).2 ⟨_, href, htaken⟩
      exact ih.edge (mem_referencesOf.2 ⟨_, hschema, hedge⟩)

/-- What is needed is reached. -/
theorem Needed.toolReached (h : Needed paths schemas name) : ToolReached paths schemas name := by
  induction h with
  | path h => exact .path h.1 (takenFor_plain h.2)
  | schema _ hschema h ih => exact .schema ih hschema h.1 (takenFor_plain h.2)

/-- What a list of names picks from a `dict`. -/
theorem get_pick (names : List PyStr) (schemas : Json.Dict) (name : PyStr) :
    Json.get (names.filterMap fun n => (Json.get schemas n).map fun schema => (n, schema)) name =
      if name ∈ names then Json.get schemas name else none := by
  induction names with
  | nil => simp
  | cons n names ih =>
    rw [List.filterMap_cons]
    cases hget : Json.get schemas n with
    | none =>
      simp only [Option.map_none, ih, List.mem_cons]
      by_cases hn : name = n
      · subst hn
        simp [hget]
      · simp [hn]
    | some schema =>
      simp only [Option.map_some, Json.get_cons, ih, List.mem_cons]
      by_cases hn : name = n
      · subst hn
        simp [hget]
      · simp [hn, Ne.symm hn]

theorem keys_pick (names : List PyStr) (schemas : Json.Dict) :
    (Json.keys (names.filterMap fun n => (Json.get schemas n).map fun schema => (n, schema))) =
      names.filter fun n => (Json.get schemas n).isSome := by
  induction names with
  | nil => rfl
  | cons n names ih =>
    rw [List.filterMap_cons, List.filter_cons]
    cases hget : Json.get schemas n with
    | none => simpa using ih
    | some schema => simpa [Json.keys] using ih

theorem get_referencedSchemas (order : SetOrder PyStr) (paths schemas : Json.Dict) (name : PyStr) :
    Json.get (referencedSchemas order paths schemas) name =
      if name ∈ resolvedNames order paths schemas then Json.get schemas name else none := by
  rw [referencedSchemas, get_pick]
  simp only [mem_sorted]

theorem nodup_resolvedNames (order : SetOrder PyStr) (paths schemas : Json.Dict) :
    (resolvedNames order paths schemas).Nodup :=
  Graph.nodup_drain List.nodup_nil

theorem nodup_referencedSchemas (order : SetOrder PyStr) (paths schemas : Json.Dict) :
    (Json.keys (referencedSchemas order paths schemas)).Nodup := by
  rw [referencedSchemas, keys_pick]
  apply List.Nodup.filter
  exact nodup_sorted (nodup_resolvedNames order paths schemas)

/-- A schema that is reached is needed, where no reference leads astray. -/
theorem NoneAstray.needed (h : NoneAstray paths schemas) (hreached : ToolReached paths schemas name)
    (hname : name ∈ Json.keys schemas) : Needed paths schemas name := by
  induction hreached with
  | path href htaken =>
    rcases htaken.name_or with ⟨rfl, hslash⟩ | hgoes
    · exact .path ⟨href, hslash⟩
    · obtain ⟨-, rfl⟩ := htaken
      exact h _ (.inl href) hgoes hname
  | schema _ hschema href htaken ih =>
    have hneeded := ih (Json.mem_keys_iff.2 (by rw [hschema]; rfl))
    rcases htaken.name_or with ⟨rfl, hslash⟩ | hgoes
    · exact .schema hneeded hschema ⟨href, hslash⟩
    · obtain ⟨-, rfl⟩ := htaken
      exact h _ (.inr ⟨_, _, hneeded, hschema, href⟩) hgoes hname

/-- What is met is taken for a schema that is reached. -/
theorem Met.toolReached {ref : PyStr} (h : Met paths schemas ref) (hgoes : GoesOn ref) :
    ToolReached paths schemas (lastSegment ref) := by
  rcases h with href | ⟨name, schema, hneeded, hschema, href⟩
  · exact .path href hgoes.takenFor
  · exact .schema hneeded.toolReached hschema href hgoes.takenFor

end

/-- **`referenced_schemas` keeps the schemas that are needed and no others** if and only if no
reference that goes on into a schema leads it astray. -/
theorem referencedSchemas_exact_iff (order : SetOrder PyStr) (paths schemas : Json.Dict) :
    Restricts (referencedSchemas order paths schemas) schemas (Needed paths schemas) ↔
      NoneAstray paths schemas := by
  have hget := get_referencedSchemas order paths schemas
  constructor
  · intro h ref hmet hgoes hkey
    by_contra hneeded
    have hdropped := h.dropped _ hneeded
    rw [hget, if_pos (mem_resolvedNames.2 (hmet.toolReached hgoes)), Json.get_eq_none_iff] at hdropped
    exact hdropped hkey
  · intro h
    refine ⟨fun name hname => ?_, fun name hname => ?_, nodup_referencedSchemas order paths schemas⟩
    · rw [hget, if_pos (mem_resolvedNames.2 hname.toolReached)]
    · rw [hget]
      split_ifs with hresolved
      · rw [Json.get_eq_none_iff]
        exact fun hkey => hname (h.needed (mem_resolvedNames.1 hresolved) hkey)
      · rfl

/-! ## A reference into a schema -/

/-- A path whose answer is a property of a schema. -/
def deepPaths : Json.Dict :=
  [(str "/v3/a", .obj [(str "$ref", .str (schemasPrefix ++ str "Order/properties/Legs"))])]

/-- A schema with the name of that property. -/
def legsSchemas : Json.Dict := [(str "Legs", .obj [])]

theorem hasRef_deepPaths {ref : PyStr} (h : HasRef (.obj deepPaths) ref) :
    ref = schemasPrefix ++ str "Order/properties/Legs" := by
  rcases hasRef_obj_iff.1 h with hget | ⟨field, hmem, h⟩
  · cases hget
  · obtain rfl := List.mem_singleton.1 hmem
    rcases hasRef_obj_iff.1 h with hget | ⟨field, hmem, h⟩
    · cases hget
      rfl
    · obtain rfl := List.mem_singleton.1 hmem
      cases h

theorem not_needed_deepPaths (name : PyStr) : ¬Needed deepPaths legsSchemas name := by
  intro h
  induction h with
  | path h =>
    obtain ⟨href, hslash⟩ := h
    have hname := List.append_cancel_left (hasRef_deepPaths href)
    rw [hname] at hslash
    exact hslash (by decide)
  | schema _ _ _ ih => exact ih

/-- A schema is kept that no reference names. -/
theorem referencedSchemas_astray :
    ¬∀ order paths schemas,
      Restricts (referencedSchemas order paths schemas) schemas (Needed paths schemas) := by
  intro h
  have hdropped := (h (.asListed PyStr) deepPaths legsSchemas).dropped _ (not_needed_deepPaths (str "Legs"))
  have hreached : ToolReached deepPaths legsSchemas (str "Legs") :=
    .path (.field List.mem_cons_self (.here rfl)) (by decide)
  rw [get_referencedSchemas, if_pos (mem_resolvedNames.2 hreached)] at hdropped
  cases hdropped

end TradeStation.PinSpec
