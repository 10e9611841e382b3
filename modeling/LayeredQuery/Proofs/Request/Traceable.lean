import LayeredQuery.Proofs.Request.Chain
import LayeredQuery.Request.Layer

/-!
# Traceable requests

A path is the names that lead to where something was found, with full stops between them. It can be
taken apart again if none of the names is empty or has a full stop in it. Whatever is asked for
behind a type test is asked of a type that no path tells, so that in traceable requests no filter
has a type test.
-/

set_option autoImplicit false

namespace LayeredQuery

def isSegment (name : String) : Bool :=
  !name.toList.isEmpty && !name.toList.contains '.'

theorem isSegment_iff {name : String} :
    isSegment name = true ↔ name.toList ≠ [] ∧ '.' ∉ name.toList := by
  simp [isSegment]

theorem isSegment_of_isPublicName {name : String} (isPublic : isPublicName name = true) :
    isSegment name = true :=
  isSegment_iff.mpr
    ⟨toList_ne_nil_of_isPublicName isPublic, not_mem_of_isPublicName isPublic (by decide)⟩

theorem joined_snoc_ne_empty {names : List String} {name : String}
    (segment : isSegment name = true) :
    Text.joined "." (names ++ [name]) ≠ "" := by
  have letters := (isSegment_iff.mp segment).1
  intro empty
  rw [← String.toList_inj] at empty
  cases names with
  | nil =>
    rw [List.nil_append, Text.joined_singleton] at empty
    exact letters empty
  | cons first rest =>
    rw [Text.joined_append "." (List.cons_ne_nil _ _) (List.cons_ne_nil _ _)] at empty
    simp at empty

/-! ## Requests -/

def Chain.isTraceable (chain : Chain) : Bool :=
  chain.names.all isSegment

def Sorting.isTraceable (sorting : Sorting) : Bool :=
  sorting.keys.all fun key => key.target.chain.isTraceable

def Operand.isTraceable : Operand → Bool
  | .target t => t.chain.isTraceable
  | .constant _ => true

namespace Include

mutual

def isTraceable : Include → Bool
  | ⟨elements⟩ => elementsTraceable elements

def elementsTraceable : List (String × Include) → Bool
  | [] => true
  | (name, below) :: rest => isSegment name && isTraceable below && elementsTraceable rest

end

end Include

namespace Filter

mutual

def isTraceable : Filter → Bool
  | .compare left _ right => left.isTraceable && right.isTraceable
  | .logical _ terms => allTraceable terms
  | .not term => isTraceable term
  | .matchText chain _ _ => chain.isTraceable
  | .oneOf chain _ => chain.isTraceable
  | .has chain => chain.isTraceable
  | .hasWhere chain filter => chain.isTraceable && isTraceable filter
  | .isType _ _ => false
  | .isTypeWhere _ _ _ => false

def allTraceable : List Filter → Bool
  | [] => true
  | filter :: rest => isTraceable filter && allTraceable rest

end

end Filter

namespace Layer

mutual

def isTraceable : Layer → Bool
  | ⟨_, tree, filter, sort, _, projection⟩ =>
    tree.all Include.isTraceable && filter.all Filter.isTraceable && sort.all Sorting.isTraceable
      && projectionTraceable projection

def projectionTraceable : Option (List Selection) → Bool
  | none => true
  | some selections => selectionsTraceable selections

def selectionsTraceable : List Selection → Bool
  | [] => true
  | selection :: rest => selectionTraceable selection && selectionsTraceable rest

def selectionTraceable : Selection → Bool
  | .field name => isSegment name
  | .nested name layer => isSegment name && isTraceable layer

end

end Layer

end LayeredQuery
