import LayeredQuery.Schema.Basic

/-!
# Building schemas

A list of resource types is a schema when names are well formed and distinct, base types exist and
lead to a root, relationships have known targets, and no field is declared twice along a chain of
base types. The identity belongs to the root: its identity field becomes its first attribute, and
all types below take it over. `Schema.build` reports the first fault in a fixed order: names type
by type, then base types, then fields.
-/

set_option autoImplicit false

namespace LayeredQuery

inductive SchemaError
  | invalidName (name : String)
  | duplicateResourceType (name : String)
  | duplicateElementType (element : String)
  | unknownBaseType (resource base : String)
  | cyclicInheritance (name : String)
  | unknownRelationshipTarget (resource field target : String)
  | duplicateField (resource field : String)
deriving DecidableEq

namespace SchemaError

def message : SchemaError → String
  | .invalidName name => "invalid name '" ++ name ++ "'"
  | .duplicateResourceType name => "resource type '" ++ name ++ "' is registered more than once"
  | .duplicateElementType element =>
    "element type '" ++ element ++ "' is used by more than one resource type"
  | .unknownBaseType resource base =>
    "resource type '" ++ resource ++ "' derives from unknown type '" ++ base ++ "'"
  | .cyclicInheritance name => "resource type '" ++ name ++ "' is part of an inheritance cycle"
  | .unknownRelationshipTarget resource field target =>
    "relationship '" ++ resource ++ "." ++ field ++ "' targets unknown resource type '" ++ target
      ++ "'"
  | .duplicateField resource field =>
    "field '" ++ field ++ "' on '" ++ resource ++ "' is already declared in its type hierarchy"

end SchemaError

/-! ## Names -/

/-- A letter, then letters, digits, underscores and hyphens. -/
def isPublicName (name : String) : Bool :=
  match name.toList with
  | [] => false
  | c :: rest => c.isAlpha && rest.all fun d => d.isAlphanum || d = '_' || d = '-'

/-- A letter or underscore, then letters, digits and underscores. -/
def isElementName (name : String) : Bool :=
  match name.toList with
  | [] => false
  | c :: rest => (c.isAlpha || c = '_') && rest.all fun d => d.isAlphanum || d = '_'

namespace Schema

def checkPublicName (name : String) : Except SchemaError Unit :=
  if isPublicName name then .ok () else .error (.invalidName name)

def checkPublicNames : List String → Except SchemaError Unit
  | [] => .ok ()
  | name :: rest =>
    match checkPublicName name with
    | .error e => .error e
    | .ok () => checkPublicNames rest

def checkNames (type : ResourceType) : Except SchemaError Unit :=
  match checkPublicName type.name with
  | .error e => .error e
  | .ok () =>
    if isElementName type.element then
      checkPublicNames (type.fields.map Field.name ++ [type.idField])
    else .error (.invalidName type.element)

def registerAll (earlier : List ResourceType) : List ResourceType → Except SchemaError Unit
  | [] => .ok ()
  | type :: rest =>
    match checkNames type with
    | .error e => .error e
    | .ok () =>
      if earlier.any fun other => other.element = type.element then
        .error (.duplicateElementType type.element)
      else if earlier.any fun other => other.name = type.name then
        .error (.duplicateResourceType type.name)
      else registerAll (earlier ++ [type]) rest

/-! ## Base types -/

/-- Follows base types from `current`. A walk of more steps than there are types goes in circles,
and is blamed on the type it started from. -/
def checkBasesFrom (types : List ResourceType) (start : String) :
    Nat → ResourceType → Except SchemaError Unit
  | bound, current =>
    match current.base with
    | none => .ok ()
    | some base =>
      match bound with
      | 0 => .error (.cyclicInheritance start)
      | bound + 1 =>
        match ResourceType.find? types base with
        | none => .error (.unknownBaseType current.name base)
        | some parent => checkBasesFrom types start bound parent

def checkBases (types : List ResourceType) : List ResourceType → Except SchemaError Unit
  | [] => .ok ()
  | type :: rest =>
    match checkBasesFrom types type.name types.length type with
    | .error e => .error e
    | .ok () => checkBases types rest

/-! ## Fields -/

def root (types : List ResourceType) (type : ResourceType) : ResourceType :=
  (type.chain types).getLastD type

def isRedeclared (types : List ResourceType) (type : ResourceType) (field : String) : Bool :=
  field = (root types type).idField
    || (type.chain types).tail.any fun ancestor => ancestor.declares field

def checkTarget (types : List ResourceType) (type : ResourceType) (field : Field) :
    Except SchemaError Unit :=
  match field.kind.target? with
  | none => .ok ()
  | some target =>
    if (ResourceType.find? types target).isSome then .ok ()
    else .error (.unknownRelationshipTarget type.name field.name target)

def checkFields (types : List ResourceType) (type : ResourceType) :
    List Field → Except SchemaError Unit
  | [] => .ok ()
  | field :: rest =>
    match checkTarget types type field with
    | .error e => .error e
    | .ok () =>
      if isRedeclared types type field.name then .error (.duplicateField type.name field.name)
      else checkFields types type rest

def checkAllFields (types : List ResourceType) : List ResourceType → Except SchemaError Unit
  | [] => .ok ()
  | type :: rest =>
    match checkFields types type type.fields with
    | .error e => .error e
    | .ok () => checkAllFields types rest

/-! ## Identity -/

/-- A type with the identity of its root, which declares it in front of its own fields. -/
def withIdentity (types : List ResourceType) (type : ResourceType) : ResourceType :=
  let top := root types type
  let fields :=
    if type.base.isNone then ⟨top.idField, .attribute top.idType false⟩ :: type.fields
    else type.fields
  ⟨type.name, type.element, type.base, top.idField, top.idType, fields⟩

def build (types : List ResourceType) : Except SchemaError Schema :=
  match registerAll [] types with
  | .error e => .error e
  | .ok () =>
    match checkBases types types with
    | .error e => .error e
    | .ok () =>
      match checkAllFields types types with
      | .error e => .error e
      | .ok () => .ok ⟨types.map (withIdentity types)⟩

end Schema

end LayeredQuery
