import LayeredQuery.Json.Numeral
import LayeredQuery.Text.Digit

/-!
# Tokens of a document

A document's text is cut into punctuation, words, numerals and strings, with blanks between them
dropped. The cut reads one character at a time. A string keeps its escapes of the form `\uXXXX` as
code units, since whether they pair up to characters matters only to those who read the string.
-/

set_option autoImplicit false

namespace LayeredQuery.Json

/-- A character of a string, or one unit of an escaped surrogate pair or character. -/
inductive TextUnit
  | char (c : Char)
  | code (unit : Nat)
deriving DecidableEq

inductive Token
  | openArray
  | closeArray
  | openObject
  | closeObject
  | comma
  | colon
  | null
  | bool (value : Bool)
  | numeral (value : Numeral)
  | text (units : List TextUnit)

namespace Token

/-- What the characters read so far leave unfinished; collected parts stand in reverse. -/
inductive Pending
  | nothing
  | word (letters : List Char)
  | numeral (characters : List Char)
  | text (units : List TextUnit)
  | escape (units : List TextUnit)
  | hexadecimal (units : List TextUnit) (missing : Nat) (code : Nat)

structure Scan where
  /-- The finished tokens, last one first. -/
  tokens : List Token
  pending : Pending

def isBlank (c : Char) : Bool :=
  c = ' ' || c = '\n' || c = '\r' || c = '\t'

def isNumeralChar (c : Char) : Bool :=
  c.isDigit || c = '-' || c = '+' || c = '.' || c = 'e' || c = 'E'

def ofWord? (word : String) : Option Token :=
  if word = "null" then some .null
  else if word = "true" then some (.bool true)
  else if word = "false" then some (.bool false)
  else none

def start? (tokens : List Token) (c : Char) : Option Scan :=
  if isBlank c then some ⟨tokens, .nothing⟩
  else if c = '[' then some ⟨.openArray :: tokens, .nothing⟩
  else if c = ']' then some ⟨.closeArray :: tokens, .nothing⟩
  else if c = '\x7b' then some ⟨.openObject :: tokens, .nothing⟩
  else if c = '\x7d' then some ⟨.closeObject :: tokens, .nothing⟩
  else if c = ',' then some ⟨.comma :: tokens, .nothing⟩
  else if c = ':' then some ⟨.colon :: tokens, .nothing⟩
  else if c = '"' then some ⟨tokens, .text []⟩
  else if c.isDigit || c = '-' then some ⟨tokens, .numeral [c]⟩
  else if c.isAlpha then some ⟨tokens, .word [c]⟩
  else none

def finish? (scan : Scan) : Option (List Token) :=
  match scan.pending with
  | .nothing => some scan.tokens
  | .word letters => (ofWord? (String.ofList letters.reverse)).map (· :: scan.tokens)
  | .numeral characters =>
    (Numeral.ofText? characters.reverse).map fun value => .numeral value :: scan.tokens
  | .text _ => none
  | .escape _ => none
  | .hexadecimal _ _ _ => none

def escapedChar? (c : Char) : Option Char :=
  match c with
  | '"' => some '"'
  | '\\' => some '\\'
  | '/' => some '/'
  | 'b' => some '\x08'
  | 'f' => some '\x0c'
  | 'n' => some '\n'
  | 'r' => some '\r'
  | 't' => some '\t'
  | _ => none

def step? (scan : Scan) (c : Char) : Option Scan :=
  match scan.pending with
  | .nothing => start? scan.tokens c
  | .word letters =>
    if c.isAlpha then some ⟨scan.tokens, .word (c :: letters)⟩
    else
      match finish? scan with
      | none => none
      | some tokens => start? tokens c
  | .numeral characters =>
    if isNumeralChar c then some ⟨scan.tokens, .numeral (c :: characters)⟩
    else
      match finish? scan with
      | none => none
      | some tokens => start? tokens c
  | .text units =>
    if c = '"' then some ⟨.text units.reverse :: scan.tokens, .nothing⟩
    else if c = '\\' then some ⟨scan.tokens, .escape units⟩
    else if c.toNat < 0x20 then none
    else some ⟨scan.tokens, .text (.char c :: units)⟩
  | .escape units =>
    if c = 'u' then some ⟨scan.tokens, .hexadecimal units 3 0⟩
    else (escapedChar? c).map fun e => ⟨scan.tokens, .text (.char e :: units)⟩
  | .hexadecimal units missing code =>
    match Text.hexValue? c with
    | none => none
    | some digit =>
      match missing with
      | 0 => some ⟨scan.tokens, .text (.code (code * 16 + digit) :: units)⟩
      | missing + 1 => some ⟨scan.tokens, .hexadecimal units missing (code * 16 + digit)⟩

def scan? : List Char → Scan → Option (List Token)
  | [], scan => (finish? scan).map List.reverse
  | c :: rest, scan =>
    match step? scan c with
    | none => none
    | some next => scan? rest next

def ofText? (text : String) : Option (List Token) :=
  scan? text.toList ⟨[], .nothing⟩

end Token

end LayeredQuery.Json
