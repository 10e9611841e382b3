import LayeredQuery.Plan.Basic
import LayeredQuery.Text.Lowercase

/-!
# Names of range variables

A range variable is named after its element type with the first letter in lower case, and a number
from two upwards is added when that name was given out before. A name is never given out again,
even when the scope of its variable has ended.
-/

set_option autoImplicit false

namespace LayeredQuery

structure Variable where
  name : String
  element : String
deriving DecidableEq

namespace Variable

def accessor (v : Variable) : Expr :=
  .parameter v.name

def lambda (v : Variable) (body : Expr) : Lambda :=
  ⟨v.name, v.element, body⟩

end Variable

structure ScopeNames where
  /-- All names given out, latest first. -/
  issued : List String
  /-- Names of the scopes that have not ended, outermost first. -/
  active : List String
deriving DecidableEq

namespace ScopeNames

def empty : ScopeNames := ⟨[], []⟩

def baseName (element : String) : String :=
  match element.toList with
  | [] => "element"
  | letters => String.ofList (Text.lowercaseFirst letters)

def numbered (base : String) (number : Nat) : String :=
  base ++ toString number

/-- The first numbered name from `number` on that is free. As many tries as there are names
suffice, because numbered names are distinct. -/
def firstFree (issued : List String) (base : String) : Nat → Nat → String
  | 0, number => numbered base number
  | tries + 1, number =>
    if issued.contains (numbered base number) then firstFree issued base tries (number + 1)
    else numbered base number

def freshName (issued : List String) (element : String) : String :=
  let base := baseName element
  if issued.contains base then firstFree issued base issued.length 2 else base

def issue (names : ScopeNames) (element : String) : Variable × ScopeNames :=
  let name := freshName names.issued element
  (⟨name, element⟩, ⟨name :: names.issued, names.active ++ [name]⟩)

def release (names : ScopeNames) (name : String) : ScopeNames :=
  ⟨names.issued, (names.active.reverse.erase name).reverse⟩

end ScopeNames

/-! ## Sessions -/

structure ScopeSession where
  names : ScopeNames
  scopes : List (Variable × Bool)

inductive ScopeStep
  | create (element : String)
  | drop (index : Nat)

namespace ScopeSession

def start : ScopeSession := ⟨.empty, []⟩

/-- Dropping a scope that does not exist or is closed already has no effect. -/
def step (session : ScopeSession) : ScopeStep → ScopeSession
  | .create element =>
    let (v, names) := session.names.issue element
    ⟨names, session.scopes ++ [(v, true)]⟩
  | .drop index =>
    match session.scopes[index]? with
    | some (v, true) => ⟨session.names.release v.name, session.scopes.set index (v, false)⟩
    | _ => session

def run (session : ScopeSession) (steps : List ScopeStep) : ScopeSession :=
  steps.foldl step session

end ScopeSession

end LayeredQuery
