import LayeredQuery.Proofs.Meaning.Ends

/-!
# Meaning of filters

What a filter says about a resource, read off its chains directly. A condition on the end of a chain
holds when some end fulfils it, so over relationships to many it asks for one fitting resource. Two
operands of a comparison stand for the values they lead to, and a constant for itself.
-/

set_option autoImplicit false

namespace LayeredQuery

namespace Schema

def operandValues (schema : Schema) (owner : ResourceType) (value : Json) : Operand → List Json
  | .constant literal => [literal.toJson]
  | .target (.field chain) => (schema.ends chain.names owner value).map fun found => found.2
  | .target (.count chain) =>
    (schema.ends chain.names owner value).map fun found =>
      .number (.ofSize found.2.related.length)

def relates (schema : Schema) (left : Operand) (relation : Relation) (right : Operand)
    (owner : ResourceType) (value : Json) : Bool :=
  (schema.operandValues owner value left).any fun x =>
    (schema.operandValues owner value right).any fun y => relation.holds x y

end Schema

/-- Whether a value is a text in which another one stands; null is no text. -/
def TextMatch.holdsIn (kind : TextMatch) (needle : String) : Json → Bool
  | .string text => kind.holds text needle
  | _ => false

def Literal.anyEqual (literals : List Literal) (value : Json) : Bool :=
  literals.any fun literal => Relation.equal.holds value literal.toJson

namespace Schema

/-- Whether some end of a chain fulfils a condition on its field and value. -/
def someEnd (schema : Schema) (chain : Chain) (owner : ResourceType) (value : Json)
    (condition : ResolvedField → Json → Bool) : Bool :=
  (schema.ends chain.names owner value).any fun found => condition found.1 found.2

def someRelated (schema : Schema) (condition : ResourceType → Json → Bool)
    (resolved : ResolvedField) (value : Json) : Bool :=
  match schema.targetOf? resolved with
  | none => false
  | some target => value.related.any (condition target)

/-- Whether a value is of a type, seen as which it fulfils a condition. -/
def isInstanceWhere (schema : Schema) (type : String) (condition : ResourceType → Json → Bool)
    (value : Json) : Bool :=
  match schema.type? type with
  | none => false
  | some derived => schema.isInstance type value && condition derived value

mutual

/-- Whether a filter holds of a resource that is read as one of the type `owner`. -/
def satisfies (schema : Schema) : Filter → ResourceType → Json → Bool
  | .compare left relation right, owner, value => schema.relates left relation right owner value
  | .logical .and terms, owner, value => satisfiesAll schema terms owner value
  | .logical .or terms, owner, value => satisfiesAny schema terms owner value
  | .not term, owner, value => !satisfies schema term owner value
  | .matchText chain kind needle, owner, value =>
    schema.someEnd chain owner value fun _ found => kind.holdsIn needle found
  | .oneOf chain literals, owner, value =>
    schema.someEnd chain owner value fun _ found => Literal.anyEqual literals found
  | .has chain, owner, value =>
    schema.someEnd chain owner value fun _ found => !found.related.isEmpty
  | .hasWhere chain filter, owner, value =>
    schema.someEnd chain owner value
      (schema.someRelated fun target item => satisfies schema filter target item)
  | .isType none type, _, value => schema.isInstance type value
  | .isType (some chain) type, owner, value =>
    schema.someEnd chain owner value fun _ found => schema.isInstance type found
  | .isTypeWhere none type filter, _, value =>
    schema.isInstanceWhere type (fun derived narrowed => satisfies schema filter derived narrowed)
      value
  | .isTypeWhere (some chain) type filter, owner, value =>
    schema.someEnd chain owner value fun _ found =>
      schema.isInstanceWhere type
        (fun derived narrowed => satisfies schema filter derived narrowed) found

def satisfiesAll (schema : Schema) : List Filter → ResourceType → Json → Bool
  | [], _, _ => true
  | filter :: rest, owner, value =>
    satisfies schema filter owner value && satisfiesAll schema rest owner value

def satisfiesAny (schema : Schema) : List Filter → ResourceType → Json → Bool
  | [], _, _ => false
  | filter :: rest, owner, value =>
    satisfies schema filter owner value || satisfiesAny schema rest owner value

end

end Schema

end LayeredQuery
