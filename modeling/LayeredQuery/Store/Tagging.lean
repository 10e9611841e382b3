import LayeredQuery.Evaluation.Error
import LayeredQuery.Json.Basic
import LayeredQuery.Schema.Basic

/-!
# Type tags

A stored object carries the name of its concrete type under the key `$type`, and so does every
object in its relationships. An object without a tag is of the type that is expected where it
stands, and a tag has to name that type or one derived from it. Relationships are those of the
concrete type.

When several relationships of an object are at fault, the first one in the order of declaration is
reported, going from the concrete type up through its base types.
-/

set_option autoImplicit false

namespace LayeredQuery

namespace Schema

/-- The concrete type of an object that stands where `static` is expected. -/
def concreteType (schema : Schema) (static : String) (entries : List (String × Json)) :
    Except RunError String :=
  let check (concrete : String) : Except RunError String :=
    if schema.isSameOrDerived concrete static then .ok concrete
    else .error (.invalidData (.notDerived concrete static))
  match Keyed.lookup? typeTag entries with
  | none => check static
  | some (.string concrete) => check concrete
  | some _ => .error (.invalidData .tagNotAName)

def fieldNames (schema : Schema) (type : String) : List String :=
  (schema.baseChain type).flatMap fun declaring => declaring.fields.map Field.name

def firstFault? (names : List String) (results : List (String × Except RunError Json)) :
    Option RunError :=
  names.findSome? fun name =>
    match Keyed.lookup? name results with
    | some (.error error) => some error
    | _ => none

def settled (results : List (String × Except RunError Json)) : List (String × Json) :=
  results.filterMap fun
    | (name, .ok value) => some (name, value)
    | (_, .error _) => none

mutual

/-- A value that stands where a resource of the type `static` is expected, tagged throughout. -/
def tag (schema : Schema) (static : String) : Json → Except RunError Json
  | .null => .ok .null
  | .object entries =>
    match schema.concreteType static entries with
    | .error error => .error error
    | .ok concrete =>
      let results := tagEntries schema concrete entries
      match firstFault? (schema.fieldNames concrete) results with
      | some error => .error error
      | none => .ok (.object (Keyed.insert typeTag (.string concrete) (settled results)))
  | _ => .error (.invalidData (.notAnObject static))

def tagItems (schema : Schema) (static : String) : List Json → Except RunError (List Json)
  | [] => .ok []
  | item :: rest =>
    match tag schema static item with
    | .error error => .error error
    | .ok tagged =>
      match tagItems schema static rest with
      | .error error => .error error
      | .ok others => .ok (tagged :: others)

def tagMany (schema : Schema) (field static : String) : Json → Except RunError Json
  | .null => .ok .null
  | .array items =>
    match tagItems schema static items with
    | .error error => .error error
    | .ok tagged => .ok (.array tagged)
  | _ => .error (.invalidData (.notAnArray field))

/-- Each entry of an object with its value tagged, or with the fault in it. -/
def tagEntries (schema : Schema) (concrete : String) :
    List (String × Json) → List (String × Except RunError Json)
  | [] => []
  | (name, value) :: rest =>
    let result :=
      match schema.field? concrete name with
      | none => .ok value
      | some field =>
        match field.kind with
        | .attribute _ _ => .ok value
        | .toOne target => tag schema target value
        | .toMany target => tagMany schema name target value
    (name, result) :: tagEntries schema concrete rest

end

end Schema

end LayeredQuery
