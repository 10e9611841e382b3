import LayeredQuery.Text.Split

/-!
# Chains of field names

A chain such as `author.manager.name` names fields to follow one after another. Read from text it
has no empty names; put together from names it may have any, and may itself be empty.
-/

set_option autoImplicit false

namespace LayeredQuery

structure Chain where
  names : List String
deriving DecidableEq

namespace Chain

def ofText (text : String) : Chain :=
  ⟨((Text.pieces '.' text.toList).filter fun piece => !piece.isEmpty).map String.ofList⟩

def text (chain : Chain) : String :=
  Text.joined "." chain.names

def textOfFirst (chain : Chain) (count : Nat) : String :=
  Text.joined "." (chain.names.take count)

def isEmpty (chain : Chain) : Bool :=
  chain.names.isEmpty

/-- Chains compare name by name, and a chain comes before those that go on from it. -/
def orderNames : List String → List String → Ordering
  | [], [] => .eq
  | [], _ :: _ => .lt
  | _ :: _, [] => .gt
  | x :: xs, y :: ys => (compare x y).then (orderNames xs ys)

def order (x y : Chain) : Ordering :=
  orderNames x.names y.names

end Chain

end LayeredQuery
