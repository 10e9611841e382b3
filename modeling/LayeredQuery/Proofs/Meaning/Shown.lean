import LayeredQuery.Proofs.Evaluation.Untagged
import LayeredQuery.Proofs.Meaning.Orderly

/-!
# What projections show

What stands under the selected names of an object that a projection has made of a resource, and in
what order the resources of a relationship to many stand there. No value has a type tag in it, and
nothing but tags is missing in the values of fields.
-/

set_option autoImplicit false

namespace LayeredQuery

namespace Json

mutual

/-- A value that is another one less the type tags in it. -/
inductive Strips : Json → Json → Prop
  | null : Strips .null .null
  | bool (value : Bool) : Strips (.bool value) (.bool value)
  | number (value : Numeric) : Strips (.number value) (.number value)
  | string (text : String) : Strips (.string text) (.string text)
  | array {items stripped : List Json} (each : ItemsStrip items stripped) :
      Strips (.array items) (.array stripped)
  | object {entries stripped : List (String × Json)} (each : EntriesStrip entries stripped) :
      Strips (.object entries) (.object stripped)

inductive ItemsStrip : List Json → List Json → Prop
  | nil : ItemsStrip [] []
  | cons {item stripped : Json} {rest others : List Json} (here : Strips item stripped)
      (later : ItemsStrip rest others) : ItemsStrip (item :: rest) (stripped :: others)

inductive EntriesStrip : List (String × Json) → List (String × Json) → Prop
  | nil : EntriesStrip [] []
  | tag {value : Json} {rest others : List (String × Json)} (later : EntriesStrip rest others) :
      EntriesStrip ((typeTag, value) :: rest) others
  | kept {name : String} {value stripped : Json} {rest others : List (String × Json)}
      (isName : name ≠ typeTag) (here : Strips value stripped) (later : EntriesStrip rest others) :
      EntriesStrip ((name, value) :: rest) ((name, stripped) :: others)

end

mutual

theorem strips_untag : ∀ value : Json, value.Strips value.untag
  | .object entries => by
    rw [untag]
    exact .object (entriesStrip_untag entries)
  | .array items => by
    rw [untag]
    exact .array (itemsStrip_untag items)
  | .null => .null
  | .bool value => .bool value
  | .number value => .number value
  | .string text => .string text

theorem itemsStrip_untag : ∀ items : List Json, ItemsStrip items (untagItems items)
  | [] => .nil
  | item :: rest => .cons (strips_untag item) (itemsStrip_untag rest)

theorem entriesStrip_untag :
    ∀ entries : List (String × Json), EntriesStrip entries (untagEntries entries)
  | [] => .nil
  | (name, value) :: rest => by
    rw [untagEntries]
    split
    · rename_i isTag
      subst isTag
      exact .tag (entriesStrip_untag rest)
    · rename_i isName
      exact .kept isName (strips_untag value) (entriesStrip_untag rest)

end

end Json

namespace Schema

/-- What stands under the name of a relationship with a nested layer, given what the layer shows of
one resource, if it has a projection, and of many. -/
def RelatedShows (schema : Schema) (one? : Option (ResourceType → Json → Json → Prop))
    (many : ResourceType → List Json → List Json → Prop) (type : ResourceType) (name : String)
    (row value : Json) : Prop :=
  match schema.fieldOn? type name with
  | none => value = .null
  | some resolved =>
    match schema.targetOf? resolved with
    | none => value = .null
    | some target =>
      let found := schema.read resolved row
      if resolved.kind.isToMany then ∃ items, value = .array items ∧ many target found.related items
      else
        match one? with
        | none => found.Strips value
        | some one => if found.isNull then value = .null else one target found value

/-- An object with the selected names, and the identity where it comes along, and no others. -/
structure IsObject (schema : Schema) (settings : Settings) (selections : List Selection)
    (type : ResourceType) (row : Json) (shows : List (String × Json) → Prop)
    (entries : List (String × Json)) : Prop where
  names : ∀ name, name ∈ Keyed.keys entries ↔
    name ∈ selections.map Selection.name ∨
      (settings.alwaysIncludeIdentity = true ∧ name = type.idField)
  values : shows entries
  identity : settings.alwaysIncludeIdentity = true →
    type.idField ∉ selections.map Selection.name →
    ∃ value, Keyed.lookup? type.idField entries = some value ∧
      (schema.fieldValue type type.idField row).Strips value

mutual

/-- What a layer shows of resources of a type in the object of another resource. -/
def LayerShows (schema : Schema) (settings : Settings) :
    Layer → ResourceType → List Json → List Json → Prop
  | ⟨_, tree, filter, sort, page, projection⟩, type, rows, shown =>
    ∃ ordered, schema.SortsTo sort type (schema.kept filter type rows) ordered ∧
      match projectionShows? schema settings projection with
      | none =>
        List.Forall₂ (fun row value => (schema.shape type.name (shownTree tree) row).Strips value)
          (paged page ordered) shown
      | some object => List.Forall₂ (object type) (paged page ordered) shown

def layerShows? (schema : Schema) (settings : Settings) :
    Layer → Option (ResourceType → Json → Json → Prop)
  | ⟨_, _, _, _, _, projection⟩ => projectionShows? schema settings projection

def projectionShows? (schema : Schema) (settings : Settings) :
    Option (List Selection) → Option (ResourceType → Json → Json → Prop)
  | none => none
  | some selections =>
    if selections.isEmpty then none
    else some fun type row value => ∃ entries, value = .object entries ∧
      schema.IsObject settings selections type row
        (fun entries => EntriesShow schema settings selections type row entries) entries

/-- Each selected name has its value; of several selections of one name the last one counts. -/
def EntriesShow (schema : Schema) (settings : Settings) :
    List Selection → ResourceType → Json → List (String × Json) → Prop
  | [], _, _, _ => True
  | selection :: rest, type, row, entries =>
    (selection.name ∉ rest.map Selection.name →
      ∃ value, Keyed.lookup? selection.name entries = some value ∧
        SelectionShows schema settings selection type row value) ∧
    EntriesShow schema settings rest type row entries

def SelectionShows (schema : Schema) (settings : Settings) :
    Selection → ResourceType → Json → Json → Prop
  | .field name, type, row, value => (schema.fieldValue type name row).Strips value
  | .nested name layer, type, row, value =>
    schema.RelatedShows (layerShows? schema settings layer)
      (fun target items shown => LayerShows schema settings layer target items shown) type name row
      value

end

/-- What a projection shows of a resource. -/
def ObjectShows (schema : Schema) (settings : Settings) (selections : List Selection)
    (type : ResourceType) (row value : Json) : Prop :=
  ∃ entries, value = .object entries ∧
    schema.IsObject settings selections type row
      (schema.EntriesShow settings selections type row) entries

end Schema

end LayeredQuery
