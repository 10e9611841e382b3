import LayeredQuery.Evaluation.Error
import LayeredQuery.Json.Basic
import LayeredQuery.Plan.Basic
import LayeredQuery.Request.Include
import LayeredQuery.Schema.Basic

/-!
# Shape of answers

An answer shows a resource without its type tag and with those of its relationships only that the
query loads. What a relationship is, the concrete type of each object decides. The rows of a
projection have been given their shape already, and lose nothing but their tags.
-/

set_option autoImplicit false

namespace LayeredQuery

namespace Json

mutual

def untag : Json → Json
  | .object entries => .object (untagEntries entries)
  | .array items => .array (untagItems items)
  | value => value

def untagItems : List Json → List Json
  | [] => []
  | item :: rest => untag item :: untagItems rest

def untagEntries : List (String × Json) → List (String × Json)
  | [] => []
  | (name, value) :: rest =>
    if name = typeTag then untagEntries rest else (name, untag value) :: untagEntries rest

end

end Json

namespace Schema

def taggedType (static : String) (entries : List (String × Json)) : String :=
  match Keyed.lookup? typeTag entries with
  | some (.string concrete) => concrete
  | _ => static

def relationshipTarget? (schema : Schema) (type name : String) : Option String :=
  (schema.field? type name).bind fun field => field.kind.target?

mutual

def shape (schema : Schema) (static : String) (tree : Include) : Json → Json
  | .object entries => .object (shapeEntries schema (taggedType static entries) tree entries)
  | value => value

def shapeItems (schema : Schema) (static : String) (tree : Include) : List Json → List Json
  | [] => []
  | item :: rest => shape schema static tree item :: shapeItems schema static tree rest

def shapeRelated (schema : Schema) (static : String) (tree : Include) : Json → Json
  | .array items => .array (shapeItems schema static tree items)
  | .object entries => .object (shapeEntries schema (taggedType static entries) tree entries)
  | value => value

def shapeEntries (schema : Schema) (concrete : String) (tree : Include) :
    List (String × Json) → List (String × Json)
  | [] => []
  | (name, value) :: rest =>
    let others := shapeEntries schema concrete tree rest
    if name = typeTag then others
    else
      match schema.relationshipTarget? concrete name with
      | none => (name, value) :: others
      | some target =>
        match tree.child? name with
        | none => others
        | some below => (name, shapeRelated schema target below value) :: others

end

def shapeRows (schema : Schema) (type : String) (paths : List String) (rows : List Json) :
    Except RunError (List Json) :=
  match Include.ofChains (paths.map Chain.ofText) with
  | .error argument => .error (.invalidData (.badPath argument))
  | .ok tree => .ok (rows.map (schema.shape type tree))

end Schema

namespace Query

def rootType (schema : Schema) : Query → Except RunError String
  | .source type _ => .ok type
  | .navigation _ element =>
    match schema.typeOfElement? element with
    | none => .error (.unknownElementType element)
    | some type => .ok type.name
  | .withPath input _ => rootType schema input
  | .filter input _ => rootType schema input
  | .orderBy input _ _ _ => rootType schema input
  | .skip input _ => rootType schema input
  | .take input _ => rootType schema input
  | .select input _ => rootType schema input

def isProjected : Query → Bool
  | .select _ _ => true
  | _ => false

def answer (schema : Schema) (query : Query) (rows : List Json) : Except RunError (List Json) :=
  if query.isProjected then .ok (rows.map Json.untag)
  else
    match query.rootType schema with
    | .error error => .error error
    | .ok type => schema.shapeRows type query.paths rows

end Query

end LayeredQuery
