import LayeredQuery.Json.Token

/-!
# Document trees

A tree is a document as it is written: numerals are not yet numbers, strings are not yet checked,
and an object keeps repeated keys. It is built from tokens with a stack of open arrays and
objects, so nesting has no bound here.
-/

set_option autoImplicit false

namespace LayeredQuery.Json

inductive Tree
  | null
  | bool (value : Bool)
  | numeral (value : Numeral)
  | text (units : List TextUnit)
  | array (items : List Tree)
  | object (entries : List (List TextUnit × Tree))

namespace Tree

inductive Frame
  | array (items : List Tree)
  | object (entries : List (List TextUnit × Tree))
  | entry (entries : List (List TextUnit × Tree)) (key : List TextUnit)

inductive Awaiting
  | value
  | valueOrClose
  | key
  | keyOrClose
  | colon (key : List TextUnit)
  | commaOrClose
  | nothing (tree : Tree)

structure Build where
  frames : List Frame
  awaiting : Awaiting

def place? (frames : List Frame) (tree : Tree) : Option Build :=
  match frames with
  | [] => some ⟨[], .nothing tree⟩
  | .array items :: rest => some ⟨.array (tree :: items) :: rest, .commaOrClose⟩
  | .entry entries key :: rest => some ⟨.object ((key, tree) :: entries) :: rest, .commaOrClose⟩
  | .object _ :: _ => none

def value? (frames : List Frame) : Token → Option Build
  | .null => place? frames .null
  | .bool value => place? frames (.bool value)
  | .numeral value => place? frames (.numeral value)
  | .text units => place? frames (.text units)
  | .openArray => some ⟨.array [] :: frames, .valueOrClose⟩
  | .openObject => some ⟨.object [] :: frames, .keyOrClose⟩
  | _ => none

def close? (frames : List Frame) : Token → Option Build
  | .closeArray =>
    match frames with
    | .array items :: rest => place? rest (.array items.reverse)
    | _ => none
  | .closeObject =>
    match frames with
    | .object entries :: rest => place? rest (.object entries.reverse)
    | _ => none
  | _ => none

def key? (frames : List Frame) : Token → Option Build
  | .text units => some ⟨frames, .colon units⟩
  | _ => none

def colon? (frames : List Frame) (key : List TextUnit) : Token → Option Build
  | .colon =>
    match frames with
    | .object entries :: rest => some ⟨.entry entries key :: rest, .value⟩
    | _ => none
  | _ => none

def comma? (frames : List Frame) : Token → Option Build
  | .comma =>
    match frames with
    | .array items :: rest => some ⟨.array items :: rest, .value⟩
    | .object entries :: rest => some ⟨.object entries :: rest, .key⟩
    | _ => none
  | token => close? frames token

def valueOrClose? (frames : List Frame) : Token → Option Build
  | .closeArray => close? frames .closeArray
  | token => value? frames token

def keyOrClose? (frames : List Frame) : Token → Option Build
  | .closeObject => close? frames .closeObject
  | token => key? frames token

def step? (build : Build) (token : Token) : Option Build :=
  match build.awaiting with
  | .value => value? build.frames token
  | .valueOrClose => valueOrClose? build.frames token
  | .key => key? build.frames token
  | .keyOrClose => keyOrClose? build.frames token
  | .colon key => colon? build.frames key token
  | .commaOrClose => comma? build.frames token
  | .nothing _ => none

def build? : List Token → Build → Option Tree
  | [], build =>
    match build.awaiting with
    | .nothing tree => some tree
    | _ => none
  | token :: rest, build =>
    match step? build token with
    | none => none
    | some next => build? rest next

def ofText? (text : String) : Option Tree :=
  match Token.ofText? text with
  | none => none
  | some tokens => build? tokens ⟨[], .value⟩

/-! ## Strings -/

def pairedChar (high low : Nat) : Char :=
  Char.ofNat (0x10000 + (high - 0xD800) * 0x400 + (low - 0xDC00))

/-- The characters of a string; a surrogate that is not part of a pair has none. -/
def characters? : List TextUnit → Option (List Char)
  | [] => some []
  | .char c :: rest => (characters? rest).map (c :: ·)
  | .code high :: rest =>
    if 0xD800 ≤ high ∧ high ≤ 0xDBFF then
      match rest with
      | .code low :: rest =>
        if 0xDC00 ≤ low ∧ low ≤ 0xDFFF then (characters? rest).map (pairedChar high low :: ·)
        else none
      | _ => none
    else if 0xDC00 ≤ high ∧ high ≤ 0xDFFF then none
    else (characters? rest).map (Char.ofNat high :: ·)

def string? (units : List TextUnit) : Option String :=
  (characters? units).map String.ofList

end Tree

end LayeredQuery.Json
