import LayeredQuery.Schema.Field

/-!
# Schemas

A schema is a list of resource types. A type has a public name, the name of its elements, perhaps
a base type, an identity field, and the fields it declares itself; fields of its base types are
inherited. Types and their base types form trees, whose edges can be followed in both directions:
`baseChain` goes from a type up to the root, and `descendants` goes down level by level, each level
in the order of the names.

Both walks are bounded by the number of types, which is enough because a walk in a tree meets no
type twice.
-/

set_option autoImplicit false

namespace LayeredQuery

structure ResourceType where
  name : String
  element : String
  base : Option String
  idField : String
  idType : ValueType
  /-- Fields declared by this type only, in the order of declaration. -/
  fields : List Field
deriving DecidableEq

structure Schema where
  types : List ResourceType
deriving DecidableEq

namespace ResourceType

def find? (types : List ResourceType) (name : String) : Option ResourceType :=
  types.find? fun type => type.name = name

/-- A type followed by its base types, nearest first, at most so many of them. -/
def chainWithin (types : List ResourceType) : Nat → ResourceType → List ResourceType
  | 0, type => [type]
  | bound + 1, type =>
    match type.base with
    | none => [type]
    | some base =>
      match find? types base with
      | none => [type]
      | some parent => type :: chainWithin types bound parent

def chain (types : List ResourceType) (type : ResourceType) : List ResourceType :=
  chainWithin types types.length type

def declares (type : ResourceType) (field : String) : Bool :=
  (Field.find? field type.fields).isSome

def unmet (types : List ResourceType) (met : List String) : Nat :=
  (types.filter fun type => type.name ∉ met).length

theorem unmet_cons_lt {types : List ResourceType} {met : List String} {type : ResourceType}
    (known : type ∈ types) (isNew : type.name ∉ met) :
    unmet types (type.name :: met) < unmet types met := by
  have fewer : (types.filter fun other => other.name ∉ type.name :: met) =
      (types.filter fun other => other.name ∉ met).filter fun other => other.name ≠ type.name := by
    rw [List.filter_filter]
    simp
  rw [unmet, fewer, unmet, List.length_filter_lt_length_iff_exists]
  exact ⟨type, List.mem_filter.mpr ⟨known, by simpa using isNew⟩, by simp⟩

end ResourceType

namespace Schema

def type? (schema : Schema) (name : String) : Option ResourceType :=
  ResourceType.find? schema.types name

def typeOfElement? (schema : Schema) (element : String) : Option ResourceType :=
  schema.types.find? fun type => type.element = element

/-- A field by the type that declares it; inherited fields are not found here. -/
def declaredField? (schema : Schema) (type field : String) : Option Field :=
  (schema.type? type).bind fun found => Field.find? field found.fields

def baseChain (schema : Schema) (name : String) : List ResourceType :=
  match schema.type? name with
  | none => []
  | some type => type.chain schema.types

def isSameOrDerived (schema : Schema) (candidate base : String) : Bool :=
  (schema.baseChain candidate).any fun type => type.name = base

def derivedTypes (schema : Schema) (name : String) : List ResourceType :=
  (schema.types.filter fun type => type.base = some name).mergeSort fun x y => x.name ≤ y.name

def levelsBelow (schema : Schema) : Nat → List ResourceType → List ResourceType
  | 0, _ => []
  | bound + 1, level =>
    match level.flatMap fun type => schema.derivedTypes type.name with
    | [] => []
    | next :: others => next :: others ++ levelsBelow schema bound (next :: others)

/-- All types that derive from a type, breadth first. -/
def descendants (schema : Schema) (type : ResourceType) : List ResourceType :=
  schema.levelsBelow schema.types.length [type]

def field? (schema : Schema) (type name : String) : Option Field :=
  (schema.baseChain type).findSome? fun declaring => Field.find? name declaring.fields

end Schema

end LayeredQuery
