import Mathlib.Data.List.Forall2
import LayeredQuery.Evaluation.Run
import LayeredQuery.Proofs.Meaning.Filter
import LayeredQuery.Proofs.Request.Include
import LayeredQuery.Proofs.StableSort
import LayeredQuery.Request.Layer

/-!
# Meaning of layers

What a layer makes of a list of resources with a sorter, without plans. Its filter, sort keys and
page choose resources and their order. A projection makes one object of each: a field alone has its
value, a relationship to one goes through the projection of its own layer, and a relationship to many
is answered by its own layer like the list that the whole layer is asked of. Without a projection
resources are shown with the relationships of the include tree. There is nothing as soon as one of
the sorts on the way fails.

The values in an object keep their type tags until the object is answered.
-/

set_option autoImplicit false

namespace LayeredQuery

def Page.window {α : Type} (page : Page) (items : List α) : List α :=
  match page.take with
  | none => items.drop page.skip
  | some count => (items.drop page.skip).take count

/-! ## Lists of what there may be -/

section

variable {α β : Type} {f : α → Option β} {items : List α} {values : List β}

theorem mapM_eq_some_iff :
    items.mapM f = some values ↔
      List.Forall₂ (fun item value => f item = some value) items values := by
  induction items generalizing values with
  | nil => cases values <;> simp
  | cons item rest ih =>
    rw [List.mapM_cons]
    cases values with
    | nil => cases f item <;> cases rest.mapM f <;> simp
    | cons value others =>
      rw [List.forall₂_cons, ← ih]
      cases f item <;> cases rest.mapM f <;> simp

theorem isSome_mapM_iff :
    (items.mapM f).isSome = true ↔ ∀ item ∈ items, (f item).isSome = true := by
  induction items with
  | nil => simp
  | cons item rest ih =>
    rw [List.mapM_cons, List.forall_mem_cons, ← ih]
    cases f item <;> cases rest.mapM f <;> simp

end

namespace Schema

/-! ## Rows -/

def keyValue (schema : Schema) (type : ResourceType) (key : SortKey) (row : Json) : Json :=
  (schema.operandValues type row (.target key.target)).headD .null

/-- The order of two resources by sort keys, of which the first counts most. -/
def rowOrder (schema : Schema) (type : ResourceType) (keys : List SortKey) :
    Json → Json → Ordering :=
  lexicographic (keys.map fun key x y =>
    Json.sortOrder key.direction (schema.keyValue type key x) (schema.keyValue type key y))

def sorted? (schema : Schema) (sorter : Sorter KeyedRow) (sorting : Sorting)
    (type : ResourceType) (rows : List Json) : Option (List Json) :=
  sortKeyed sorter (sorting.keys.map SortKey.direction)
    (rows.map fun row => (sorting.keys.map fun key => schema.keyValue type key row, row))

def ordered? (schema : Schema) (sorter : Sorter KeyedRow) (sort : Option Sorting)
    (type : ResourceType) (rows : List Json) : Option (List Json) :=
  match sort with
  | none => some rows
  | some sorting => schema.sorted? sorter sorting type rows

def kept (schema : Schema) (filter : Option Filter) (type : ResourceType) (rows : List Json) :
    List Json :=
  match filter with
  | none => rows
  | some filter => rows.filter (schema.satisfies filter type)

def paged (page : Option Page) (rows : List Json) : List Json :=
  match page with
  | none => rows
  | some page => page.window rows

def chosen? (schema : Schema) (sorter : Sorter KeyedRow) (filter : Option Filter)
    (sort : Option Sorting) (page : Option Page) (type : ResourceType) (rows : List Json) :
    Option (List Json) :=
  (schema.ordered? sorter sort type (schema.kept filter type rows)).map (paged page)

def shownTree : Option Include → Include
  | none => .empty
  | some tree => tree.leafTree

/-! ## Objects -/

def fieldValue (schema : Schema) (type : ResourceType) (name : String) (row : Json) : Json :=
  match schema.fieldOn? type name with
  | none => .null
  | some resolved => schema.read resolved row

/-- What a relationship with a nested layer becomes, given what the layer makes of one resource, if
it has a projection, and what it answers for many. -/
def relatedValue? (schema : Schema) (object? : Option (ResourceType → Json → Option Json))
    (answer : ResourceType → List Json → Option (List Json)) (type : ResourceType) (name : String)
    (row : Json) : Option Json :=
  match schema.fieldOn? type name with
  | none => some .null
  | some resolved =>
    match schema.targetOf? resolved with
    | none => some .null
    | some target =>
      let value := schema.read resolved row
      if resolved.kind.isToMany then (answer target value.related).map .array
      else
        match object? with
        | none => some value
        | some object => if value.isNull then some .null else object target value

/-- The identity, when it comes along and is not among the selected names anyway. -/
def identityEntries (schema : Schema) (settings : Settings) (selections : List Selection)
    (type : ResourceType) (row : Json) : List (String × Json) :=
  if settings.alwaysIncludeIdentity
      && !selections.any fun selection => selection.name = type.idField then
    [(type.idField, schema.fieldValue type type.idField row)]
  else []

mutual

/-- What a layer answers for resources of a type. -/
def answers? (schema : Schema) (sorter : Sorter KeyedRow) (settings : Settings) :
    Layer → ResourceType → List Json → Option (List Json)
  | ⟨_, tree, filter, sort, page, projection⟩, type, rows =>
    (schema.chosen? sorter filter sort page type rows).bind fun chosen =>
      match projected? schema sorter settings projection with
      | none => some (chosen.map (schema.shape type.name (shownTree tree)))
      | some object => (chosen.mapM (object type)).map (List.map Json.untag)

def layerObject? (schema : Schema) (sorter : Sorter KeyedRow) (settings : Settings) :
    Layer → Option (ResourceType → Json → Option Json)
  | ⟨_, _, _, _, _, projection⟩ => projected? schema sorter settings projection

/-- The object that a projection makes of a resource; one that is absent or empty makes none. -/
def projected? (schema : Schema) (sorter : Sorter KeyedRow) (settings : Settings) :
    Option (List Selection) → Option (ResourceType → Json → Option Json)
  | none => none
  | some selections =>
    if selections.isEmpty then none
    else some fun type row =>
      (selectedEntries? schema sorter settings selections type row).map fun entries =>
        .ofEntries (entries ++ schema.identityEntries settings selections type row)

def selectedEntries? (schema : Schema) (sorter : Sorter KeyedRow) (settings : Settings) :
    List Selection → ResourceType → Json → Option (List (String × Json))
  | [], _, _ => some []
  | selection :: rest, type, row =>
    (selected? schema sorter settings selection type row).bind fun value =>
      (selectedEntries? schema sorter settings rest type row).map ((selection.name, value) :: ·)

def selected? (schema : Schema) (sorter : Sorter KeyedRow) (settings : Settings) :
    Selection → ResourceType → Json → Option Json
  | .field name, type, row => some (schema.fieldValue type name row)
  | .nested name layer, type, row =>
    schema.relatedValue? (layerObject? schema sorter settings layer)
      (fun target items => answers? schema sorter settings layer target items) type name row

end

/-- The object that selections make of a resource. -/
def object? (schema : Schema) (sorter : Sorter KeyedRow) (settings : Settings)
    (selections : List Selection) (type : ResourceType) (row : Json) : Option Json :=
  (schema.selectedEntries? sorter settings selections type row).map fun entries =>
    .ofEntries (entries ++ schema.identityEntries settings selections type row)

variable {schema : Schema} {sorter : Sorter KeyedRow} {settings : Settings}

theorem selectedEntries?_eq_mapM (type : ResourceType) (row : Json) (selections : List Selection) :
    schema.selectedEntries? sorter settings selections type row =
      selections.mapM fun selection =>
        (schema.selected? sorter settings selection type row).map (selection.name, ·) := by
  induction selections with
  | nil => rfl
  | cons selection rest ih =>
    rw [selectedEntries?, ih, List.mapM_cons]
    cases schema.selected? sorter settings selection type row with
    | none => rfl
    | some value => cases rest.mapM fun selection =>
        (schema.selected? sorter settings selection type row).map (selection.name, ·) <;> rfl

end Schema

end LayeredQuery
