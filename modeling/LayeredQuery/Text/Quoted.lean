import LayeredQuery.Text.GraphemeExtend
import LayeredQuery.Text.Unprintable

/-!
# Quoted text

A quoted text stands between double quotes. The quote and the backslash take a backslash in front,
line feed, carriage return, tab and the null character have short escapes, and every other
character that would not show on its own is written as its code point in hexadecimal. Such a
character is unprintable, or is a letter that draws nothing, or is a mark drawn onto the character
before it.
-/

set_option autoImplicit false

namespace LayeredQuery.Text

def codePointEscape (c : Char) : List Char :=
  ['\\', 'u', '\x7b'] ++ Nat.toDigits 16 c.toNat ++ ['\x7d']

/-- The Hangul fillers, letters that only hold a place: they are drawn as nothing at all. -/
def isFiller (c : Char) : Bool :=
  c = '\u115F' || c = '\u1160' || c = '\u3164' || c = '\uFFA0'

/-- The halfwidth voiced and semi-voiced sound marks, the letters among the characters that extend
a grapheme: each is drawn after the character it belongs to, in a cell of its own. -/
def isHalfwidthSoundMark (c : Char) : Bool :=
  c = '\uFF9E' || c = '\uFF9F'

/-- No character is drawn for `c` alone. -/
def isInvisible (c : Char) : Bool :=
  isUnprintable c || isFiller c || (isGraphemeExtend c && !isHalfwidthSoundMark c)

def quotedChar (c : Char) : List Char :=
  if c = '"' then ['\\', '"']
  else if c = '\\' then ['\\', '\\']
  else if c = '\n' then ['\\', 'n']
  else if c = '\r' then ['\\', 'r']
  else if c = '\t' then ['\\', 't']
  else if c = '\x00' then ['\\', '0']
  else if isInvisible c then codePointEscape c
  else [c]

def quoted (text : String) : String :=
  String.ofList (['"'] ++ text.toList.flatMap quotedChar ++ ['"'])

end LayeredQuery.Text
