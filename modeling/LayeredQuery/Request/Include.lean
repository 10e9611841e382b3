import LayeredQuery.Keyed
import LayeredQuery.Request.Argument
import LayeredQuery.Request.Chain
import LayeredQuery.Text.Blank

/-!
# Include trees

An include tree says which relationships come along with a resource, which relationships of those
come along with them, and so on. Siblings have distinct names and stand in the order of their
names, so trees that ask for the same relationships are the same tree.

A tree can be written as the chains of its leaves and read back from them; chains that share names
from the start share a path in the tree, and a chain that another one continues adds nothing.
-/

set_option autoImplicit false

namespace LayeredQuery

inductive Include
  | mk (elements : List (String × Include))

namespace Include

def elements : Include → List (String × Include)
  | ⟨elements⟩ => elements

def empty : Include := ⟨[]⟩

def isEmpty (tree : Include) : Bool :=
  tree.elements.isEmpty

def size (tree : Include) : Nat :=
  tree.elements.length

def child? (tree : Include) (relationship : String) : Option Include :=
  Keyed.lookup? relationship tree.elements

/-! ## Union -/

mutual

def merge (tree : Include) : Include → Include
  | ⟨elements⟩ => ⟨mergeElements tree.elements elements⟩

def mergeElements (into : List (String × Include)) :
    List (String × Include) → List (String × Include)
  | [] => into
  | (name, below) :: rest =>
    let merged :=
      match Keyed.lookup? name into with
      | none => below
      | some old => merge old below
    mergeElements (Keyed.insert name merged into) rest

end

def ofElements (elements : List (String × Include)) : Except InvalidArgument Include :=
  if elements.isEmpty then .error ⟨"include", .emptyInclude⟩
  else .ok ⟨mergeElements [] elements⟩

def ofNames (names : List String) : Except InvalidArgument Include :=
  ofElements (names.map fun name => (name, empty))

/-! ## Chains -/

mutual

def paths : Include → List (List String)
  | ⟨elements⟩ => elementPaths elements

def elementPaths : List (String × Include) → List (List String)
  | [] => []
  | (name, below) :: rest =>
    match paths below with
    | [] => [name] :: elementPaths rest
    | path :: others => (path :: others).map (name :: ·) ++ elementPaths rest

end

def toChains (tree : Include) : List Chain :=
  tree.paths.map Chain.mk

def ofPath : List String → Include
  | [] => empty
  | name :: rest => ⟨[(name, ofPath rest)]⟩

def mergeChains (tree : Include) : List Chain → Except InvalidArgument Include
  | [] => .ok tree
  | chain :: rest =>
    if chain.isEmpty then .error ⟨"include", .emptyIncludeChain⟩
    else mergeChains (tree.merge (ofPath chain.names)) rest

def ofChains (chains : List Chain) : Except InvalidArgument Include :=
  mergeChains empty chains

/-! ## Text -/

def ofText (text : String) : Except InvalidArgument Include :=
  let parts := (Text.pieces ',' text.toList).map Text.trim
  ofChains ((parts.filter fun part => !part.isEmpty).map fun part =>
    Chain.ofText (String.ofList part))

/-- The chains of the leaves in the order of their texts. -/
def text (tree : Include) : String :=
  Text.joined "," ((tree.toChains.map Chain.text).mergeSort fun x y => x ≤ y)

def elementText (name : String) (below : Include) : String :=
  if below.isEmpty then name else name ++ "\x7b" ++ below.text ++ "\x7d"

/-! ## Order -/

mutual

def order : Include → Include → Ordering
  | ⟨xs⟩, ⟨ys⟩ => orderElements xs ys

def orderElements : List (String × Include) → List (String × Include) → Ordering
  | [], [] => .eq
  | [], _ :: _ => .lt
  | _ :: _, [] => .gt
  | (name, x) :: xs, (other, y) :: ys =>
    (compare name other).then ((order x y).then (orderElements xs ys))

end

mutual

def beq : Include → Include → Bool
  | ⟨xs⟩, ⟨ys⟩ => beqElements xs ys

def beqElements : List (String × Include) → List (String × Include) → Bool
  | [], [] => true
  | (name, x) :: xs, (other, y) :: ys => name == other && beq x y && beqElements xs ys
  | _, _ => false

end

end Include

end LayeredQuery
