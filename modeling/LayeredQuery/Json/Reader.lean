import LayeredQuery.Json.Basic
import LayeredQuery.Json.Tree

/-!
# Reading documents

A tree becomes a document once every numeral has a value and every string is whole. Arrays and
objects nest at most `depthLimit` deep.
-/

set_option autoImplicit false

namespace LayeredQuery.Json

def depthLimit : Nat := 127

def Numeral.numeric? (numeral : Numeral) : Option Numeric :=
  match numeral.integer? with
  | some value => Numeric.ofInt? value
  | none => numeral.float?.map .float

mutual

def ofTree? (depth : Nat) : Tree → Option Json
  | .null => some .null
  | .bool value => some (.bool value)
  | .numeral value => value.numeric?.map .number
  | .text units => (Tree.string? units).map .string
  | .array items =>
    match depth with
    | 0 => none
    | depth + 1 => (ofItems? depth items).map .array
  | .object entries =>
    match depth with
    | 0 => none
    | depth + 1 => (ofObject? depth entries).map ofEntries

def ofItems? (depth : Nat) : List Tree → Option (List Json)
  | [] => some []
  | item :: rest =>
    match ofTree? depth item with
    | none => none
    | some value => (ofItems? depth rest).map (value :: ·)

def ofObject? (depth : Nat) : List (List TextUnit × Tree) → Option (List (String × Json))
  | [] => some []
  | (key, tree) :: rest =>
    match Tree.string? key with
    | none => none
    | some name =>
      match ofTree? depth tree with
      | none => none
      | some value => (ofObject? depth rest).map ((name, value) :: ·)

end

def ofTextWithin? (depth : Nat) (text : String) : Option Json :=
  match Tree.ofText? text with
  | none => none
  | some tree => ofTree? depth tree

def ofText? (text : String) : Option Json :=
  ofTextWithin? depthLimit text

end LayeredQuery.Json
