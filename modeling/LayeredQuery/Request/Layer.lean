import LayeredQuery.Request.Filter
import LayeredQuery.Request.Include
import LayeredQuery.Request.Page
import LayeredQuery.Request.Sorting

/-!
# Layers

A layer is all that a request asks of the resources of one type; what it leaves out it does not
constrain. A projection selects fields by name, and a selected relationship can carry a layer of its
own. The names of a projection are distinct and keep the order they came in, which the text of a
layer shows and equality of layers does not.
-/

set_option autoImplicit false

namespace LayeredQuery

mutual

structure Layer where
  type : String
  tree : Option Include
  filter : Option Filter
  sort : Option Sorting
  page : Option Page
  projection : Option (List Selection)

inductive Selection
  | field (name : String)
  | nested (name : String) (layer : Layer)

end

namespace Selection

def name : Selection → String
  | .field name => name
  | .nested name _ => name

/-- Adds a selection at the end, or in the place of an earlier one of the same name. -/
def add (selection : Selection) : List Selection → List Selection
  | [] => [selection]
  | other :: rest =>
    if other.name = selection.name then selection :: rest else other :: add selection rest

def ofList (selections : List Selection) : List Selection :=
  selections.foldl (fun projection selection => selection.add projection) []

end Selection

namespace Layer

def ofType (type : String) : Layer :=
  ⟨type, none, none, none, none, none⟩

def selections? (layer : Layer) : Option (List Selection) :=
  match layer.projection with
  | none => none
  | some [] => none
  | some (selection :: rest) => some (selection :: rest)

def isIdentity (layer : Layer) : Bool :=
  layer.tree.isNone && layer.filter.isNone && layer.sort.isNone && layer.page.isNone
    && layer.selections?.isNone

/-! ## Equality -/

def beqOption {α : Type} (beq : α → α → Bool) : Option α → Option α → Bool
  | none, none => true
  | some x, some y => beq x y
  | _, _ => false

mutual

def beq : Layer → Layer → Bool
  | ⟨type, tree, filter, sort, page, projection⟩, other =>
    type == other.type && beqOption Include.beq tree other.tree
      && beqOption Filter.beq filter other.filter && sort == other.sort && page == other.page
      && beqProjection projection other.projection
termination_by structural layer => layer

def beqProjection : Option (List Selection) → Option (List Selection) → Bool
  | none, none => true
  | some xs, some ys => xs.length == ys.length && beqSelections xs ys
  | _, _ => false
termination_by structural projection => projection

/-- Whether each selection has its equal among others. -/
def beqSelections : List Selection → List Selection → Bool
  | [], _ => true
  | selection :: rest, others => beqSelection selection others && beqSelections rest others
termination_by structural selections => selections

def beqSelection : Selection → List Selection → Bool
  | .field name, others =>
    others.any fun
      | .field other => other == name
      | .nested _ _ => false
  | .nested name layer, others =>
    others.any fun
      | .field _ => false
      | .nested other nested => other == name && beq layer nested
termination_by structural selection => selection

end

/-! ## Text -/

def optionalPart {α : Type} (label : String) (text : α → String) : Option α → List String
  | none => []
  | some value => [label ++ ": " ++ text value]

def braced (parts : List String) (separator : String) : String :=
  "\x7b " ++ Text.joined separator parts ++ " \x7d"

mutual

def text : Layer → String
  | ⟨type, tree, filter, sort, page, projection⟩ =>
    let parts :=
      optionalPart "include" Include.text tree ++ optionalPart "filter" Filter.text filter
        ++ optionalPart "sort" Sorting.text sort ++ optionalPart "pagination" Page.text page
        ++ projectionText projection
    let head := "QueryLayer<" ++ type ++ ">"
    if parts.isEmpty then head else head ++ " " ++ braced parts "; "

def projectionText : Option (List Selection) → List String
  | none => []
  | some [] => []
  | some (selection :: rest) =>
    ["projection: " ++ braced (selectionText selection :: selectionTexts rest) ", "]

def selectionTexts : List Selection → List String
  | [] => []
  | selection :: rest => selectionText selection :: selectionTexts rest

def selectionText : Selection → String
  | .field name => name
  | .nested name layer => name ++ ": " ++ text layer

end

end Layer

end LayeredQuery
