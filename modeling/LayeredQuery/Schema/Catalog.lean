import LayeredQuery.Schema.Build

/-!
# Catalogs

A catalog has the types of a schema in tables: types by their names, names of types by their
elements, fields by the type that declares them and by name, and the names of derived types by base
type. The tables are filled one after the other, each of them type by type; of the entries with one
key, the last one that was made counts.

A walk along base types goes from look-up to look-up and ends where it meets a type again.
-/

set_option autoImplicit false

namespace LayeredQuery

structure Catalog where
  /-- Types by name, in the order in which they were declared. -/
  types : List (String × ResourceType)
  elements : List (String × String)
  fields : List ((String × String) × Field)
  derived : List (String × List String)

namespace Catalog

/-! ## Filling tables -/

def enterElement (table : List (String × String)) (type : ResourceType) : List (String × String) :=
  (type.element, type.name) :: table

def enterFields (table : List ((String × String) × Field)) (type : ResourceType) :
    List ((String × String) × Field) :=
  type.fields.foldl (fun table field => ((type.name, field.name), field) :: table) table

def enterDerived (table : List (String × List String)) (type : ResourceType) :
    List (String × List String) :=
  match type.base with
  | none => table
  | some base => (base, (table.lookup base).getD [] ++ [type.name]) :: table

def sortNames (table : List (String × List String)) : List (String × List String) :=
  table.map fun entry => (entry.1, entry.2.mergeSort fun x y => x ≤ y)

def ofSchema (schema : Schema) : Catalog where
  types := schema.types.map fun type => (type.name, type)
  elements := schema.types.foldl enterElement []
  fields := schema.types.foldl enterFields []
  derived := sortNames (schema.types.foldl enterDerived [])

def build (types : List ResourceType) : Except SchemaError Catalog :=
  match Schema.build types with
  | .error e => .error e
  | .ok schema => .ok (ofSchema schema)

/-! ## Looking up -/

def resourceTypes (catalog : Catalog) : List ResourceType :=
  catalog.types.map Prod.snd

def type? (catalog : Catalog) (name : String) : Option ResourceType :=
  catalog.types.lookup name

def typeOfElement? (catalog : Catalog) (element : String) : Option ResourceType :=
  (catalog.elements.lookup element).bind catalog.type?

def declaredField? (catalog : Catalog) (type field : String) : Option Field :=
  catalog.fields.lookup (type, field)

def derivedTypes (catalog : Catalog) (name : String) : List ResourceType :=
  ((catalog.derived.lookup name).getD []).filterMap catalog.type?

theorem mem_of_lookup {κ α : Type} [BEq κ] [LawfulBEq κ] {key : κ} {value : α}
    {table : List (κ × α)} (found : table.lookup key = some value) : (key, value) ∈ table := by
  obtain ⟨earlier, later, parts, _⟩ := List.lookup_eq_some_iff.mp found
  exact parts ▸ List.mem_append_right _ List.mem_cons_self

theorem mem_of_type? {catalog : Catalog} {name : String} {type : ResourceType}
    (found : catalog.type? name = some type) : type ∈ catalog.resourceTypes :=
  List.mem_map_of_mem (mem_of_lookup found)

/-- The type of a name and its base types, up to one that was met before. -/
def chainFrom (catalog : Catalog) (met : List String) (name : String) : List ResourceType :=
  match _found : catalog.type? name with
  | none => []
  | some type =>
    if type.name ∈ met then []
    else
      match type.base with
      | none => [type]
      | some base => type :: chainFrom catalog (type.name :: met) base
termination_by ResourceType.unmet catalog.resourceTypes met
decreasing_by exact ResourceType.unmet_cons_lt (mem_of_type? ‹_›) ‹_›

def baseChain (catalog : Catalog) (name : String) : List ResourceType :=
  catalog.chainFrom [] name

def isSameOrDerived (catalog : Catalog) (candidate base : String) : Bool :=
  (catalog.baseChain candidate).any fun type => type.name = base

end Catalog

end LayeredQuery
