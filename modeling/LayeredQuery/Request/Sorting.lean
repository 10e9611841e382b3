import LayeredQuery.Request.Target
import LayeredQuery.Text.Blank

/-!
# Sort keys

The first key orders the resources and each further key orders those that are equal so far. In
text a hyphen in front of a key asks for the descending order, as in `-createdAt,author.name`.
-/

set_option autoImplicit false

namespace LayeredQuery

inductive Direction
  | ascending
  | descending
deriving DecidableEq

structure SortKey where
  target : Target
  direction : Direction
deriving DecidableEq

structure Sorting where
  keys : List SortKey
deriving DecidableEq

namespace SortKey

def ofText : List Char → SortKey
  | '-' :: rest => ⟨Target.ofText rest, .descending⟩
  | text => ⟨Target.ofText text, .ascending⟩

def text (key : SortKey) : String :=
  match key.direction with
  | .ascending => key.target.text
  | .descending => "-" ++ key.target.text

end SortKey

namespace Sorting

def ofText (text : String) : Sorting :=
  let parts := (Text.pieces ',' text.toList).map Text.trim
  ⟨(parts.filter fun part => !part.isEmpty).map SortKey.ofText⟩

def text (sort : Sorting) : String :=
  Text.joined "," (sort.keys.map SortKey.text)

end Sorting

end LayeredQuery
