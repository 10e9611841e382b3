import LayeredQuery.Json.Basic
import LayeredQuery.Number.Layout
import LayeredQuery.Text.Digit
import LayeredQuery.Text.Split

/-!
# Text of documents

The compact text has no blanks. In strings the quote, the backslash and the characters below
U+0020 are escaped, with a short escape where one exists, and all else stands as it is.
-/

set_option autoImplicit false

namespace LayeredQuery.Json
open LayeredQuery.Text

def Numeric.text : Numeric → String
  | .int value _ => toString value
  | .float value => Number.documentLayout.write value

def controlEscape (c : Char) : List Char :=
  ['\\', 'u'] ++ fixedWidth 16 4 c.toNat

def escapedChar (c : Char) : List Char :=
  if c = '"' then ['\\', '"']
  else if c = '\\' then ['\\', '\\']
  else if c = '\x08' then ['\\', 'b']
  else if c = '\x0c' then ['\\', 'f']
  else if c = '\n' then ['\\', 'n']
  else if c = '\r' then ['\\', 'r']
  else if c = '\t' then ['\\', 't']
  else if c.toNat < 0x20 then controlEscape c
  else [c]

def stringText (value : String) : String :=
  String.ofList (['"'] ++ value.toList.flatMap escapedChar ++ ['"'])

mutual

def text : Json → String
  | .null => "null"
  | .bool true => "true"
  | .bool false => "false"
  | .number value => value.text
  | .string value => stringText value
  | .array items => "[" ++ joined "," (itemTexts items) ++ "]"
  | .object entries => "\x7b" ++ joined "," (entryTexts entries) ++ "\x7d"

def itemTexts : List Json → List String
  | [] => []
  | item :: rest => text item :: itemTexts rest

def entryTexts : List (String × Json) → List String
  | [] => []
  | (name, value) :: rest => (stringText name ++ ":" ++ text value) :: entryTexts rest

end

end LayeredQuery.Json
