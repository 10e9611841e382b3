import LayeredQuery.Compiler.Context
import LayeredQuery.Request.Chain

/-!
# Resolving fields

A name is looked up along the base types of its owner first, and then among the types derived from
it. A field found on a derived type is reached through a cast, and one that several derived types
declare is ambiguous. A chain that is to end in a single value can cross relationships to one
resource only.
-/

set_option autoImplicit false

namespace LayeredQuery

structure ResolvedField where
  field : Field
  declaring : ResourceType
  /-- The field is declared by a type derived from the one it was looked up on. -/
  viaDerived : Bool
deriving DecidableEq

namespace ResolvedField

def kind (resolved : ResolvedField) : FieldKind :=
  resolved.field.kind

def describe (resolved : ResolvedField) : String :=
  resolved.field.kind.describe

def access (resolved : ResolvedField) (current : Expr) : Expr :=
  if resolved.viaDerived then .member (.cast current resolved.declaring.element) resolved.field.name
  else .member current resolved.field.name

def ofType? (name : String) (viaDerived : Bool) (type : ResourceType) : Option ResolvedField :=
  (Field.find? name type.fields).map fun field => ⟨field, type, viaDerived⟩

end ResolvedField

namespace Schema

def inheritedField? (schema : Schema) (owner : ResourceType) (name : String) :
    Option ResolvedField :=
  (schema.baseChain owner.name).findSome? (ResolvedField.ofType? name false)

def derivedFields (schema : Schema) (owner : ResourceType) (name : String) : List ResolvedField :=
  (schema.descendants owner).filterMap (ResolvedField.ofType? name true)

def resolve (schema : Schema) (owner : ResourceType) (name path : String) :
    Except CompileError ResolvedField :=
  match schema.inheritedField? owner name with
  | some resolved => .ok resolved
  | none =>
    match schema.derivedFields owner name with
    | [] => .error (.unknownField owner.name path)
    | [resolved] => .ok resolved
    | several =>
      .error (.unsupported path
        (.ambiguousField name owner.name (several.map fun resolved => resolved.declaring.name)))

end Schema

namespace Compiler

def type (compiler : Compiler) (name : String) : Except CompileError ResourceType :=
  match compiler.schema.type? name with
  | none => .error (.unknownResourceType name)
  | some type => .ok type

def targetOf (compiler : Compiler) (resolved : ResolvedField) (path : String) :
    Except CompileError ResourceType :=
  match resolved.kind.target? with
  | none => .error (.typeMismatch path "relationship" resolved.describe)
  | some target => compiler.type target

def deeper {α : Type} (compiler : Compiler) (path : String) (computation : Compile α) :
    Compile α :=
  Compile.deeper compiler.settings.maxDepth path computation

def resolve (compiler : Compiler) (owner : ResourceType) (name path : String) :
    Compile ResolvedField :=
  .ofExcept (compiler.schema.resolve owner name path)

def singleValueFrom (compiler : Compiler) (chain : Chain) :
    List String → Nat → Expr → ResourceType → Compile (Expr × ResolvedField)
  | [], _, _, _ => .fail (.invalid "" .emptyChain)
  | [last], _, current, owner => do
    let resolved ← compiler.resolve owner last chain.text
    .done (resolved.access current, resolved)
  | name :: next :: rest, taken, current, owner => do
    let path := chain.textOfFirst (taken + 1)
    let resolved ← compiler.resolve owner name path
    match resolved.kind with
    | .toOne _ =>
      compiler.deeper path do
        let target ← .ofExcept (compiler.targetOf resolved path)
        singleValueFrom compiler chain (next :: rest) (taken + 1) (resolved.access current) target
    | .toMany _ => .fail (.unsupported chain.text (.toManySegment path))
    | .attribute _ _ => .fail (.typeMismatch path "relationship" resolved.describe)

def singleValue (compiler : Compiler) (chain : Chain) (current : Expr) (owner : ResourceType) :
    Compile (Expr × ResolvedField) :=
  compiler.singleValueFrom chain chain.names 0 current owner

end Compiler

end LayeredQuery
