/-
Contexts and their maps.

* **`Context.IsBuilt`** — the contexts that there are;
* **`Context.lookup_toFields`** — the map of a context holds what is found for each name;
* **`Context.names_toFields`** — its names are in the order in which they come up from the outermost
  layer inwards;
* **`Context.toFields_isMap`** — a context and its map are the same thing.

Design notes: names are looked up from the innermost layer outwards, and the map is made from the
outermost one inwards.  Both inductions are on the layers from the inside, so that a lookup takes
its first step where the map takes its last one.
-/
import PathQuery.Context
import PathQuery.Proofs.Fields

namespace PathQuery

namespace Context

/-! ### Names within a layer -/

theorem get?_insert_of_ne (c : Context) {name other : String} (h : other ≠ name) (v : Value) :
    (c.insert name v).get? other = c.get? other := by
  change List.findSome? _ (Fields.insert name v c.own :: c.outer) = List.findSome? _ (c.own :: _)
  rw [List.findSome?_cons, List.findSome?_cons, Fields.lookup_insert, if_neg h]

/-- No layer has a name twice. -/
def HasDistinctNames (c : Context) : Prop := ∀ layer ∈ c.layers, (Fields.names layer).Nodup

theorem hasDistinctNames_empty : empty.HasDistinctNames := by
  intro layer hlayer
  rw [List.mem_singleton.1 hlayer]
  exact List.nodup_nil

theorem HasDistinctNames.insert {c : Context} (h : c.HasDistinctNames) (name : String)
    (v : Value) : (c.insert name v).HasDistinctNames := by
  obtain ⟨hown, houter⟩ := List.forall_mem_cons.1 h
  exact List.forall_mem_cons.2 ⟨Fields.nodup_names_insert hown name v, houter⟩

theorem HasDistinctNames.nested {c : Context} (h : c.HasDistinctNames) :
    c.nested.HasDistinctNames := List.forall_mem_cons.2 ⟨List.nodup_nil, h⟩

/-- The contexts that are made from nothing: variables are set, an empty layer is put on top, or
the entries of a map are taken over. -/
inductive IsBuilt : Context → Prop where
  | empty : IsBuilt empty
  | insert {c : Context} (h : IsBuilt c) (name : String) (v : Value) : IsBuilt (c.insert name v)
  | nested {c : Context} (h : IsBuilt c) : IsBuilt c.nested
  | ofFields (pairs : List (String × Value)) : IsBuilt (ofFields (Fields.ofList pairs))

theorem IsBuilt.hasDistinctNames {c : Context} (h : c.IsBuilt) : c.HasDistinctNames := by
  induction h with
  | empty => exact hasDistinctNames_empty
  | insert h name v ih => exact ih.insert name v
  | nested h ih => exact ih.nested
  | ofFields pairs =>
    have hnil : (Fields.names ([] : List (String × Value))).Nodup := List.nodup_nil
    exact List.forall_mem_singleton.2 (Fields.nodup_names_insertAll hnil pairs)

/-! ### The map of a context -/

theorem nodup_names_toFields (c : Context) : (Fields.names c.toFields).Nodup := by
  rw [toFields]
  induction c.layers with
  | nil => exact List.nodup_nil
  | cons layer rest ih => exact Fields.nodup_names_insertAll ih layer

/-- All variables together hold what is found for each name. -/
theorem lookup_toFields {c : Context} (h : c.HasDistinctNames) (name : String) :
    c.toFields.lookup name = c.get? name := by
  rw [toFields, get?]
  rw [HasDistinctNames] at h
  generalize c.layers = layers at h
  induction layers with
  | nil => rfl
  | cons layer rest ih =>
    obtain ⟨hlayer, hrest⟩ := List.forall_mem_cons.1 h
    rw [List.foldr_cons, Fields.lookup_insertAll hlayer, ih hrest, List.findSome?_cons]
    cases layer.lookup name <;> rfl

theorem get?_ofFields (fields : List (String × Value)) (name : String) :
    (ofFields fields).get? name = fields.lookup name := by
  change List.findSome? _ [fields] = _
  rw [List.findSome?_cons]
  cases fields.lookup name <;> rfl

/-- A single layer with distinct names is its own map. -/
theorem toFields_ofFields {fields : List (String × Value)} (h : (Fields.names fields).Nodup) :
    (ofFields fields).toFields = fields := by
  rw [← List.nil_append fields] at h
  exact Fields.insertAll_eq_append h

/-- The names of all layers, from the outermost layer inwards. -/
def namesInwards (c : Context) : List String := c.layers.reverse.flatMap Fields.names

/-- Each name stands where it comes up first. -/
theorem names_toFields (c : Context) : Fields.names c.toFields = c.namesInwards.eraseDups := by
  rw [toFields, namesInwards]
  induction c.layers with
  | nil => rfl
  | cons layer rest ih =>
    have hnodup : (Fields.names (rest.foldr (fun layer fields => Fields.insertAll fields layer)
        [])).Nodup := nodup_names_toFields ⟨[], rest⟩
    rw [List.foldr_cons, Fields.names_insertAll hnodup, List.reverse_cons, List.flatMap_append,
      List.flatMap_singleton]
    rw [ih] at hnodup ⊢
    exact Fields.eraseDups_append_congr (Fields.eraseDups_eq_self hnodup) _

theorem isEmpty_iff (c : Context) : c.isEmpty = true ↔ c.toFields = [] := by
  rw [toFields, isEmpty]
  induction c.layers with
  | nil => exact iff_of_true rfl rfl
  | cons layer rest ih =>
    rw [List.all_cons, List.foldr_cons, Fields.insertAll_eq_nil_iff, Bool.and_eq_true, ih,
      List.isEmpty_iff, and_comm]

theorem contains_iff {c : Context} (h : c.HasDistinctNames) (name : String) :
    c.contains name = true ↔ name ∈ Fields.names c.toFields := by
  rw [contains, ← lookup_toFields h, Fields.isSome_lookup_iff]

/-- A context and its map are the same thing: the map has each visible name once with the value
that is found for it, in the order in which the names come up from the outermost layer inwards, and
the context that is made from the map has the same variables and the same map. -/
theorem toFields_isMap {c : Context} (h : c.IsBuilt) :
    (∀ name, c.get? name = c.toFields.lookup name) ∧
      (∀ name, c.contains name = true ↔ name ∈ Fields.names c.toFields) ∧
      (c.isEmpty = true ↔ c.toFields = []) ∧
      (Fields.names c.toFields).Nodup ∧
      Fields.names c.toFields = c.namesInwards.eraseDups ∧
      (ofFields c.toFields).toFields = c.toFields ∧
      ∀ name, (ofFields c.toFields).get? name = c.get? name := by
  have hdistinct := h.hasDistinctNames
  refine ⟨fun name => (lookup_toFields hdistinct name).symm, contains_iff hdistinct, c.isEmpty_iff,
    c.nodup_names_toFields, c.names_toFields, toFields_ofFields c.nodup_names_toFields, ?_⟩
  intro name
  rw [get?_ofFields, lookup_toFields hdistinct]

/-- Three layers: `"x"` is in each of them, and set twice in the outermost one. -/
def threeLayers : Context :=
  (((ofFields (Fields.ofList
      [("x", .integer 1), ("y", .integer 2), ("x", .integer 3)])).nested.insert "z" .null).insert
    "x" (.integer 4)).nested.insert "x" (.integer 5)

theorem toFields_isMap_threeLayers :
    threeLayers.IsBuilt ∧ threeLayers.get? "x" = threeLayers.toFields.lookup "x" ∧
      threeLayers.toFields = [("x", .integer 5), ("y", .integer 2), ("z", .null)] ∧
      Fields.names threeLayers.toFields = threeLayers.namesInwards.eraseDups ∧
      (ofFields threeLayers.toFields).get? "x" = threeLayers.get? "x" := by
  have hbuilt : threeLayers.IsBuilt :=
    ((((IsBuilt.ofFields _).nested.insert _ _).insert _ _).nested).insert _ _
  obtain ⟨hget, -, -, -, hnames, -, hagain⟩ := toFields_isMap hbuilt
  exact ⟨hbuilt, hget "x", rfl, hnames, hagain "x"⟩

end Context

end PathQuery
