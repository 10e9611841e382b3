import LayeredQuery.Evaluation.Shape
import LayeredQuery.Evaluation.Sorter
import LayeredQuery.Evaluation.ValueOrder
import LayeredQuery.Plan.Printer
import LayeredQuery.Store.Basic

/-!
# Running plans

Expressions are evaluated in an environment of range variables, and queries give lists of rows. A
member of null is null, so that a missing resource goes through a chain of members without an error;
null also counts as false and as a relationship without resources.

A chain of orders is one sort: its keys are gathered from the last one inwards up to the primary
order, and rows are compared by the primary key first. The order of values is no preorder of all
values, so a sort can end without rows.

An evaluator is given its sorter, of which it relies on nothing else, and the meaning of comparisons,
so that one can run a plan with comparisons that refuse what the usual ones decide.
-/

set_option autoImplicit false

namespace LayeredQuery

abbrev Env : Type := List (String × Json)

/-- What there is unless a sort has failed. -/
def unlessDisordered {α : Type} : Option α → Except RunError α
  | none => .error .disordered
  | some value => .ok value

/-- A row with the values that the keys of a sort have for it. -/
abbrev KeyedRow : Type := List Json × Json

structure Evaluator where
  schema : Schema
  store : Store
  sorter : Sorter KeyedRow
  holds : Relation → Json → Json → Except RunError Bool

def wrongKind {α : Type} (expression : Expr) (expected : String) (found : Json) :
    Except RunError α :=
  .error (.wrongKind expression.text expected found.kind)

def truth (expression : Expr) : Json → Except RunError Bool
  | .bool value => .ok value
  | .null => .ok false
  | value => wrongKind expression "bool" value

def sequence (expression : Expr) : Json → Except RunError (List Json)
  | .array items => .ok items
  | .null => .ok []
  | value => wrongKind expression "array" value

/-! ## Lists of rows -/

def anyItem (test : Json → Except RunError Bool) : List Json → Except RunError Bool
  | [] => .ok false
  | item :: rest =>
    match test item with
    | .error error => .error error
    | .ok true => .ok true
    | .ok false => anyItem test rest

def keepItems (test : Json → Except RunError Bool) : List Json → Except RunError (List Json)
  | [] => .ok []
  | item :: rest =>
    match test item with
    | .error error => .error error
    | .ok kept =>
      match keepItems test rest with
      | .error error => .error error
      | .ok others => .ok (if kept then item :: others else others)

def mapItems {α β : Type} (f : α → Except RunError β) : List α → Except RunError (List β)
  | [] => .ok []
  | item :: rest =>
    match f item with
    | .error error => .error error
    | .ok value =>
      match mapItems f rest with
      | .error error => .error error
      | .ok others => .ok (value :: others)

structure RowKey where
  value : Json → Except RunError Json
  direction : Direction

def compareKeys : List Direction → List Json → List Json → Ordering
  | direction :: directions, x :: xs, y :: ys =>
    (Json.sortOrder direction x y).then (compareKeys directions xs ys)
  | _, _, _ => .eq

def keyedRow (keys : List RowKey) (row : Json) : Except RunError KeyedRow :=
  match mapItems (fun (key : RowKey) => key.value row) keys with
  | .error error => .error error
  | .ok values => .ok (values, row)

/-- Keyed rows in the order of their keys, if the sorter gives one. -/
def sortKeyed (sorter : Sorter KeyedRow) (directions : List Direction) (keyed : List KeyedRow) :
    Option (List Json) :=
  (sorter.sort (fun x y => compareKeys directions x.1 y.1) keyed).map (List.map Prod.snd)

def sortRows (sorter : Sorter KeyedRow) (keys : List RowKey) (rows : List Json) :
    Except RunError (List Json) :=
  match keys with
  | [] => .ok rows
  | key :: others =>
    match mapItems (keyedRow (key :: others)) rows with
    | .error error => .error error
    | .ok keyed =>
      unlessDisordered (sortKeyed sorter ((key :: others).map RowKey.direction) keyed)

namespace Evaluator

def plain (schema : Schema) (store : Store) (sorter : Sorter KeyedRow) : Evaluator :=
  ⟨schema, store, sorter, fun relation x y => .ok (relation.holds x y)⟩

/-- The resources of a type, then those of its derived types, breadth first. -/
def scan (evaluator : Evaluator) (type : String) : Except RunError (List Json) :=
  match evaluator.schema.type? type with
  | none => .error (.unknownResourceType type)
  | some found =>
    .ok ((found :: evaluator.schema.descendants found).flatMap fun derived =>
      evaluator.store.items derived.name)

def tagged? : Json → Option String
  | .object entries =>
    match Keyed.lookup? typeTag entries with
    | some (.string concrete) => some concrete
    | _ => none
  | _ => none

def isInstance (evaluator : Evaluator) (element : String) (value : Json) :
    Except RunError Bool :=
  match evaluator.schema.typeOfElement? element with
  | none => .error (.unknownElementType element)
  | some target =>
    match tagged? value with
    | none => .ok false
    | some concrete => .ok (evaluator.schema.isSameOrDerived concrete target.name)

def memberOf (expression : Expr) (field : String) : Json → Except RunError Json
  | .object entries => .ok ((Keyed.lookup? field entries).getD .null)
  | .null => .ok .null
  | value => wrongKind expression "object" value

def matchOf (expression : Expr) (kind : TextMatch) (needle : String) :
    Json → Except RunError Bool
  | .string text => .ok (kind.holds text needle)
  | .null => .ok false
  | value => wrongKind expression "string" value

def isIn (evaluator : Evaluator) (value : Json) : List Literal → Except RunError Bool
  | [] => .ok false
  | literal :: rest =>
    match evaluator.holds .equal value literal.toJson with
    | .error error => .error error
    | .ok true => .ok true
    | .ok false => isIn evaluator value rest

mutual

def eval (evaluator : Evaluator) : Expr → Env → Except RunError Json
  | .parameter name, env =>
    match Keyed.lookup? name env with
    | none => .error (.unboundVariable name)
    | some value => .ok value
  | .member target field, env => do
    let value ← eval evaluator target env
    memberOf (.member target field) field value
  | .cast operand element, env => do
    let value ← eval evaluator operand env
    let holds ← evaluator.isInstance element value
    .ok (if holds then value else .null)
  | .typeIs operand element, env => do
    let value ← eval evaluator operand env
    let holds ← evaluator.isInstance element value
    .ok (.bool holds)
  | .constant literal, _ => .ok literal.toJson
  | .compare left relation right, env => do
    let x ← eval evaluator left env
    let y ← eval evaluator right env
    let holds ← evaluator.holds relation x y
    .ok (.bool holds)
  | .and terms, env => do
    let holds ← evalAll evaluator terms env
    .ok (.bool holds)
  | .or terms, env => do
    let holds ← evalAny evaluator terms env
    .ok (.bool holds)
  | .not operand, env => do
    let value ← eval evaluator operand env
    let holds ← truth operand value
    .ok (.bool !holds)
  | .matchText operand kind needle, env => do
    let value ← eval evaluator operand env
    let holds ← matchOf (.matchText operand kind needle) kind needle value
    .ok (.bool holds)
  | .inSet operand literals, env => do
    let value ← eval evaluator operand env
    let holds ← evaluator.isIn value literals
    .ok (.bool holds)
  | .any source, env => do
    let value ← eval evaluator source env
    let items ← sequence source value
    .ok (.bool !items.isEmpty)
  | .anyWhere source predicate, env => do
    let value ← eval evaluator source env
    let items ← sequence source value
    let holds ← anyItem (fun item => test evaluator predicate item env) items
    .ok (.bool holds)
  | .count source, env => do
    let value ← eval evaluator source env
    let items ← sequence source value
    .ok (.number (.ofSize items.length))
  | .conditional condition ifTrue ifFalse, env => do
    let value ← eval evaluator condition env
    let holds ← truth condition value
    if holds then eval evaluator ifTrue env else eval evaluator ifFalse env
  | .record _ bindings, env => do
    let entries ← evalBindings evaluator bindings env
    .ok (.ofEntries entries)
  | .rows query, env => do
    let rows ← runWith evaluator query [] env
    let answered ← query.answer evaluator.schema rows
    .ok (.array answered)

/-- Whether all terms hold; terms after the first that does not are not looked at. -/
def evalAll (evaluator : Evaluator) : List Expr → Env → Except RunError Bool
  | [], _ => .ok true
  | term :: rest, env => do
    let value ← eval evaluator term env
    let holds ← truth term value
    if holds then evalAll evaluator rest env else .ok false

/-- Whether some term holds; terms after the first that does are not looked at. -/
def evalAny (evaluator : Evaluator) : List Expr → Env → Except RunError Bool
  | [], _ => .ok false
  | term :: rest, env => do
    let value ← eval evaluator term env
    let holds ← truth term value
    if holds then .ok true else evalAny evaluator rest env

def evalBindings (evaluator : Evaluator) :
    List (String × Expr) → Env → Except RunError (List (String × Json))
  | [], _ => .ok []
  | (name, expression) :: rest, env => do
    let value ← eval evaluator expression env
    let others ← evalBindings evaluator rest env
    .ok ((name, value) :: others)

def apply (evaluator : Evaluator) : Lambda → Json → Env → Except RunError Json
  | ⟨parameter, _, body⟩, argument, env => eval evaluator body ((parameter, argument) :: env)

def test (evaluator : Evaluator) : Lambda → Json → Env → Except RunError Bool
  | ⟨parameter, _, body⟩, argument, env => do
    let value ← eval evaluator body ((parameter, argument) :: env)
    truth body value

/-- The rows of a query, sorted by the keys of the orders that break its ties. -/
def runWith (evaluator : Evaluator) : Query → List RowKey → Env → Except RunError (List Json)
  | .source type _, keys, _ => do
    let rows ← evaluator.scan type
    sortRows evaluator.sorter keys rows
  | .navigation items _, keys, env => do
    let value ← eval evaluator items env
    let rows ← sequence items value
    sortRows evaluator.sorter keys rows
  | .withPath input _, keys, env => do
    let rows ← runWith evaluator input [] env
    sortRows evaluator.sorter keys rows
  | .filter input predicate, keys, env => do
    let rows ← runWith evaluator input [] env
    let kept ← keepItems (fun row => test evaluator predicate row env) rows
    sortRows evaluator.sorter keys kept
  | .orderBy input key direction thenBy, keys, env =>
    let all := ⟨fun row => apply evaluator key row env, direction⟩ :: keys
    if thenBy then runWith evaluator input all env
    else do
      let rows ← runWith evaluator input [] env
      sortRows evaluator.sorter all rows
  | .skip input count, keys, env => do
    let rows ← runWith evaluator input [] env
    sortRows evaluator.sorter keys (rows.drop count)
  | .take input count, keys, env => do
    let rows ← runWith evaluator input [] env
    sortRows evaluator.sorter keys (rows.take count)
  | .select input selector, keys, env => do
    let rows ← runWith evaluator input [] env
    let selected ← mapItems (fun row => apply evaluator selector row env) rows
    sortRows evaluator.sorter keys selected

end

def run (evaluator : Evaluator) (query : Query) : Except RunError (List Json) :=
  evaluator.runWith query [] []

def execute (evaluator : Evaluator) (query : Query) : Except RunError (List Json) :=
  match evaluator.run query with
  | .error error => .error error
  | .ok rows => query.answer evaluator.schema rows

end Evaluator

end LayeredQuery
