/-!
# Cutting and joining text

`pieces` cuts a text at every occurrence of a separator and keeps empty pieces, so a text with
`n` separators has `n + 1` pieces. `joined` puts pieces back together.
-/

set_option autoImplicit false

namespace LayeredQuery.Text

def pieces (separator : Char) : List Char → List (List Char)
  | [] => [[]]
  | c :: rest =>
    if c = separator then [] :: pieces separator rest
    else
      match pieces separator rest with
      | [] => [[c]]
      | piece :: others => (c :: piece) :: others

def joined (separator : String) (parts : List String) : String :=
  separator.intercalate parts

/-- Whether `needle` stands somewhere in a text; the empty text stands everywhere. -/
def contains (needle : List Char) : List Char → Bool
  | [] => needle.isEmpty
  | c :: rest => needle.isPrefixOf (c :: rest) || contains needle rest

theorem joined_nil (separator : String) : joined separator [] = "" := by
  simp [joined]

theorem joined_singleton (separator part : String) : joined separator [part] = part := by
  simp [joined]

theorem joined_cons_cons (separator part next : String) (rest : List String) :
    joined separator (part :: next :: rest) =
      part ++ separator ++ joined separator (next :: rest) := by
  rw [← String.toList_inj]
  simp [joined, String.toList_intercalate]

end LayeredQuery.Text
