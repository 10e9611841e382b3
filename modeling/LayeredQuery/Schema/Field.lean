import LayeredQuery.Schema.ValueType

/-!
# Fields of resource types

A field is an attribute, or a relationship to one or to many resources of a target type.
-/

set_option autoImplicit false

namespace LayeredQuery

inductive FieldKind
  | attribute (type : ValueType) (nullable : Bool)
  | toOne (target : String)
  | toMany (target : String)
deriving DecidableEq

namespace FieldKind

def target? : FieldKind → Option String
  | .attribute _ _ => none
  | .toOne target => some target
  | .toMany target => some target

def isRelationship (kind : FieldKind) : Bool :=
  kind.target?.isSome

def isToMany : FieldKind → Bool
  | .toMany _ => true
  | _ => false

def describe : FieldKind → String
  | .attribute type true => type.name ++ "?"
  | .attribute type false => type.name
  | .toOne target => "to-one relationship to '" ++ target ++ "'"
  | .toMany target => "to-many relationship to '" ++ target ++ "'"

end FieldKind

structure Field where
  name : String
  kind : FieldKind
deriving DecidableEq

namespace Field

/-- Adds a field after those declared so far; a field of the same name changes its kind in
place. -/
def declare (field : Field) : List Field → List Field
  | [] => [field]
  | other :: rest =>
    if other.name = field.name then field :: rest else other :: declare field rest

def declareAll (declared fields : List Field) : List Field :=
  fields.foldl (fun declared field => field.declare declared) declared

def find? (name : String) (fields : List Field) : Option Field :=
  fields.find? fun field => field.name = name

end Field

end LayeredQuery
