import LayeredQuery.Evaluation.Run
import LayeredQuery.Json.Reader
import LayeredQuery.Store.Tagging

/-!
# Engines

An engine is a store over a schema. Resources are checked and tagged on their way in, one by one or
from a document that maps types to arrays of resources. Loading stops at the first fault and keeps
what was stored before it.
-/

set_option autoImplicit false

namespace LayeredQuery

structure Engine where
  schema : Schema
  store : Store

namespace Engine

def ofSchema (schema : Schema) : Engine := ⟨schema, .empty⟩

def isObject : Json → Bool
  | .object _ => true
  | _ => false

def put (engine : Engine) (type : String) (item : Json) : Except RunError Engine :=
  if isObject item then .ok ⟨engine.schema, engine.store.insert type item⟩
  else .error (.invalidData (.notAnObject type))

def insert (engine : Engine) (type : String) (item : Json) : Except RunError Engine :=
  match engine.schema.type? type with
  | none => .error (.unknownResourceType type)
  | some _ =>
    match engine.schema.tag type item with
    | .error error => .error error
    | .ok tagged => engine.put type tagged

/-! ## Loading -/

/-- How far loading has come: the engine so far, and the number of resources or the fault that
ended it. -/
structure Loaded where
  engine : Engine
  count : Except RunError Nat

def insertAll (engine : Engine) (type : String) (count : Nat) : List Json → Loaded
  | [] => ⟨engine, .ok count⟩
  | item :: rest =>
    match engine.insert type item with
    | .error error => ⟨engine, .error error⟩
    | .ok next => insertAll next type (count + 1) rest

def loadEntries (engine : Engine) (count : Nat) : List (String × Json) → Loaded
  | [] => ⟨engine, .ok count⟩
  | (type, .array items) :: rest =>
    match insertAll engine type count items with
    | ⟨next, .ok total⟩ => loadEntries next total rest
    | ⟨next, .error error⟩ => ⟨next, .error error⟩
  | (type, _) :: _ => ⟨engine, .error (.invalidData (.notAnArrayOf type))⟩

def load (engine : Engine) (text : String) : Loaded :=
  match Json.ofText? text with
  | some (.object entries) => engine.loadEntries 0 entries
  | _ => ⟨engine, .error .notADocument⟩

def clear (engine : Engine) : Engine := ofSchema engine.schema

/-! ## Running -/

def evaluator (engine : Engine) (sorter : Sorter KeyedRow) : Evaluator :=
  .plain engine.schema engine.store sorter

def run (engine : Engine) (sorter : Sorter KeyedRow) (query : Query) :
    Except RunError (List Json) :=
  (engine.evaluator sorter).run query

def execute (engine : Engine) (sorter : Sorter KeyedRow) (query : Query) :
    Except RunError (List Json) :=
  (engine.evaluator sorter).execute query

end Engine

end LayeredQuery
