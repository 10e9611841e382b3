import LayeredQuery.Json.Reader

/-!
# Settings

Two settings govern compilation: how deep a request may nest, and whether a projection always
brings the identity along. They are read from a document that is an object, where a setting that
is left out keeps its default and other keys are ignored, or an array of at most two values in the
order of the settings. A setting that is given twice is refused, and so is a value of another kind.
-/

set_option autoImplicit false

namespace LayeredQuery
open LayeredQuery.Json

structure Settings where
  maxDepth : Nat
  alwaysIncludeIdentity : Bool
deriving DecidableEq

namespace Settings

def default : Settings := ⟨32, true⟩

def depth? : Tree → Option Nat
  | .numeral numeral =>
    match numeral.integer? with
    | some (.ofNat depth) => some depth
    | _ => none
  | _ => none

def flag? : Tree → Option Bool
  | .bool value => some value
  | _ => none

structure Given where
  maxDepth : Option Nat
  alwaysIncludeIdentity : Option Bool

def Given.settings (given : Given) : Settings :=
  ⟨given.maxDepth.getD default.maxDepth,
    given.alwaysIncludeIdentity.getD default.alwaysIncludeIdentity⟩

def give? (given : Given) (key : String) (value : Tree) : Option Given :=
  if key = "maxDepth" then
    if given.maxDepth.isSome then none
    else (depth? value).map fun depth => ⟨some depth, given.alwaysIncludeIdentity⟩
  else if key = "alwaysIncludeIdentity" then
    if given.alwaysIncludeIdentity.isSome then none
    else (flag? value).map fun flag => ⟨given.maxDepth, some flag⟩
  else some given

def giveAll? (given : Given) : List (List TextUnit × Tree) → Option Given
  | [] => some given
  | (key, value) :: rest =>
    match Tree.string? key with
    | none => none
    | some name =>
      match give? given name value with
      | none => none
      | some next => giveAll? next rest

def ofTree? : Tree → Option Settings
  | .object entries => (giveAll? ⟨none, none⟩ entries).map Given.settings
  | .array [] => some default
  | .array [first] => (depth? first).map fun depth => ⟨depth, default.alwaysIncludeIdentity⟩
  | .array [first, second] =>
    match depth? first, flag? second with
    | some depth, some flag => some ⟨depth, flag⟩
    | _, _ => none
  | _ => none

def ofText? (text : String) : Option Settings :=
  match Tree.ofText? text with
  | none => none
  | some tree => ofTree? tree

def toJson (settings : Settings) : Json :=
  .ofEntries [("maxDepth", .number (.ofSize settings.maxDepth)),
    ("alwaysIncludeIdentity", .bool settings.alwaysIncludeIdentity)]

end Settings

end LayeredQuery
