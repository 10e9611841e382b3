import LayeredQuery.Request.Literal
import LayeredQuery.Request.Target

/-!
# Filters

A filter is a predicate over the fields of a resource. Chains in it are names only, and what they
mean is found when the filter is compiled against a schema. A comparison relates two operands, each
of which is a target or a constant.
-/

set_option autoImplicit false

namespace LayeredQuery

inductive Relation
  | equal
  | notEqual
  | less
  | lessOrEqual
  | greater
  | greaterOrEqual
deriving DecidableEq

namespace Relation

def all : List Relation := [.equal, .notEqual, .less, .lessOrEqual, .greater, .greaterOrEqual]

def reversed : Relation → Relation
  | .equal => .equal
  | .notEqual => .notEqual
  | .less => .greater
  | .lessOrEqual => .greaterOrEqual
  | .greater => .less
  | .greaterOrEqual => .lessOrEqual

def isOrdering : Relation → Bool
  | .equal => false
  | .notEqual => false
  | _ => true

def keyword : Relation → String
  | .equal => "equals"
  | .notEqual => "notEquals"
  | .less => "lessThan"
  | .lessOrEqual => "lessOrEqual"
  | .greater => "greaterThan"
  | .greaterOrEqual => "greaterOrEqual"

def symbol : Relation → String
  | .equal => "=="
  | .notEqual => "!="
  | .less => "<"
  | .lessOrEqual => "<="
  | .greater => ">"
  | .greaterOrEqual => ">="

end Relation

inductive Connective
  | and
  | or
deriving DecidableEq

def Connective.keyword : Connective → String
  | .and => "and"
  | .or => "or"

inductive TextMatch
  | contains
  | startsWith
  | endsWith
deriving DecidableEq

namespace TextMatch

def all : List TextMatch := [.contains, .startsWith, .endsWith]

def keyword : TextMatch → String
  | .contains => "contains"
  | .startsWith => "startsWith"
  | .endsWith => "endsWith"

def method : TextMatch → String
  | .contains => "Contains"
  | .startsWith => "StartsWith"
  | .endsWith => "EndsWith"

def holds (kind : TextMatch) (text needle : String) : Bool :=
  match kind with
  | .contains => Text.contains needle.toList text.toList
  | .startsWith => needle.toList.isPrefixOf text.toList
  | .endsWith => needle.toList.isSuffixOf text.toList

end TextMatch

inductive Operand
  | target (target : Target)
  | constant (value : Literal)

inductive Filter
  | compare (left : Operand) (relation : Relation) (right : Operand)
  | logical (connective : Connective) (terms : List Filter)
  | not (term : Filter)
  | matchText (chain : Chain) (kind : TextMatch) (value : String)
  | oneOf (chain : Chain) (values : List Literal)
  | has (chain : Chain)
  | hasWhere (chain : Chain) (filter : Filter)
  | isType (chain : Option Chain) (type : String)
  | isTypeWhere (chain : Option Chain) (type : String) (filter : Filter)

/-! ## Equality -/

namespace Operand

def beq : Operand → Operand → Bool
  | .target x, .target y => x == y
  | .constant x, .constant y => x.beq y
  | _, _ => false

end Operand

namespace Filter

mutual

def beq : Filter → Filter → Bool
  | .compare l r l', .compare m s m' => l.beq m && r == s && l'.beq m'
  | .logical c xs, .logical d ys => c == d && beqAll xs ys
  | .not x, .not y => beq x y
  | .matchText c k v, .matchText d l w => c == d && k == l && v == w
  | .oneOf c xs, .oneOf d ys => c == d && Literal.beqAll xs ys
  | .has c, .has d => c == d
  | .hasWhere c x, .hasWhere d y => c == d && beq x y
  | .isType c t, .isType d u => c == d && t == u
  | .isTypeWhere c t x, .isTypeWhere d u y => c == d && t == u && beq x y
  | _, _ => false

def beqAll : List Filter → List Filter → Bool
  | [], [] => true
  | x :: xs, y :: ys => beq x y && beqAll xs ys
  | _, _ => false

end

end Filter

/-! ## Text -/

/-- A constant inside a filter; a string stands between single quotes, which are doubled in it. -/
def Literal.filterText : Literal → String
  | .string value =>
    String.ofList (['\''] ++ value.toList.flatMap (fun c => if c = '\'' then [c, c] else [c])
      ++ ['\''])
  | other => other.text

def Operand.text : Operand → String
  | .target t => t.text
  | .constant literal => literal.filterText

namespace Filter

def chainText : Option Chain → String
  | none => ""
  | some chain => chain.text

mutual

def text : Filter → String
  | .compare left relation right =>
    relation.keyword ++ "(" ++ left.text ++ "," ++ right.text ++ ")"
  | .logical connective terms =>
    connective.keyword ++ "(" ++ Text.joined "," (texts terms) ++ ")"
  | .not term => "not(" ++ text term ++ ")"
  | .matchText chain kind value =>
    kind.keyword ++ "(" ++ chain.text ++ "," ++ (Literal.string value).filterText ++ ")"
  | .oneOf chain values =>
    "any(" ++ Text.joined "," (chain.text :: values.map Literal.filterText) ++ ")"
  | .has chain => "has(" ++ chain.text ++ ")"
  | .hasWhere chain filter => "has(" ++ chain.text ++ "," ++ text filter ++ ")"
  | .isType chain type => "isType(" ++ chainText chain ++ "," ++ type ++ ")"
  | .isTypeWhere chain type filter =>
    "isType(" ++ chainText chain ++ "," ++ type ++ "," ++ text filter ++ ")"

def texts : List Filter → List String
  | [] => []
  | filter :: rest => text filter :: texts rest

end

end Filter

end LayeredQuery
