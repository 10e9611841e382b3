import LayeredQuery.Text.Digit

/-!
# Universally unique identifiers

An identifier is a number of 128 bits. Its text has thirty-two hexadecimal digits in five groups
divided by hyphens; reading admits both cases and writing uses lower case.
-/

set_option autoImplicit false

namespace LayeredQuery

structure Uuid where
  value : Nat
  value_lt : value < 1 <<< 128
deriving DecidableEq

namespace Uuid

def of? (value : Nat) : Option Uuid :=
  if h : value < 1 <<< 128 then some ⟨value, h⟩ else none

def order (x y : Uuid) : Ordering :=
  compare x.value y.value

def groupLengths : List Nat := [8, 4, 4, 4, 12]

def digits? : Nat → Nat → List Char → Option (Nat × List Char)
  | 0, value, text => some (value, text)
  | count + 1, value, c :: rest =>
    match Text.hexValue? c with
    | none => none
    | some digit => digits? count (value * 16 + digit) rest
  | _ + 1, _, [] => none

def groups? : List Nat → Nat → List Char → Option (Nat × List Char)
  | [], value, text => some (value, text)
  | [count], value, text => digits? count value text
  | count :: next :: counts, value, text =>
    match digits? count value text with
    | some (value, '-' :: rest) => groups? (next :: counts) value rest
    | _ => none

def ofText? (text : String) : Option Uuid :=
  match groups? groupLengths 0 text.toList with
  | some (value, []) => of? value
  | _ => none

def hexGroup (width n : Nat) : List Char :=
  Text.fixedWidth 16 width n

def chars (x : Uuid) : List Char :=
  hexGroup 8 (x.value >>> 96) ++ ['-'] ++ hexGroup 4 (x.value >>> 80) ++ ['-']
    ++ hexGroup 4 (x.value >>> 64) ++ ['-'] ++ hexGroup 4 (x.value >>> 48) ++ ['-']
    ++ hexGroup 12 x.value

def text (x : Uuid) : String :=
  String.ofList x.chars

end Uuid

end LayeredQuery
