import LayeredQuery.Proofs.Evaluation.Faithful

/-!
# Strict evaluators

A strict evaluator refuses the comparisons that the usual one decides by falling back: those of
values of different kinds, and orders of values whose kind has none that a request could mean. Where
every attribute has the kind of its declared type, the comparisons that a compiler lets through are
never of that sort, so a strict evaluator is faithful to the compiler.
-/

set_option autoImplicit false

namespace LayeredQuery

/-! ## Typed attributes -/

/-- The test that attributes are null or have the kind of their declared type. -/
def AttributeTest.typed : AttributeTest
  | _, .null => true
  | .bool, .bool _ => true
  | .int, .number _ => true
  | .float, .number _ => true
  | .string, .string _ => true
  | .dateTime, .string _ => true
  | .uuid, .string _ => true
  | _, _ => false

theorem AttributeTest.typed_sound : AttributeTest.typed.Sound where
  nullPasses type := by cases type <;> rfl
  textPasses value passed := by
    cases value with
    | null => exact .inl rfl
    | string text => exact .inr ⟨text, rfl⟩
    | _ => cases passed
  literalPasses literal type isTyped := by
    cases literal <;> cases isTyped
    case float value => cases value <;> rfl
    all_goals rfl
  countPasses _ := rfl

/-! ## Strict comparisons -/

def Json.isOrderable : Json → Bool
  | .number _ => true
  | .string _ => true
  | _ => false

/-- Whether a comparison is of two values of different kinds, or asks for an order of two truth
values, two arrays or two objects. Comparisons with null are not. -/
def Relation.fallsBack (relation : Relation) (x y : Json) : Bool :=
  !x.isNull && !y.isNull &&
    (x.kindRank != y.kindRank || (relation.isOrdering && !x.isOrderable))

/-- The evaluator that refuses comparisons in which the usual one falls back. -/
def Evaluator.strict (schema : Schema) (store : Store) (sorter : Sorter KeyedRow) : Evaluator :=
  ⟨schema, store, sorter, fun relation x y =>
    if relation.fallsBack x y then .error (.wrongKind relation.symbol x.kind y.kind)
    else .ok (relation.holds x y)⟩

def ValueType.kindRank : ValueType → Nat
  | .bool => Json.kindRank (.bool false)
  | .int => Json.kindRank (.number (.ofSize 0))
  | .float => Json.kindRank (.number (.ofSize 0))
  | .string => Json.kindRank (.string "")
  | .dateTime => Json.kindRank (.string "")
  | .uuid => Json.kindRank (.string "")

theorem AttributeTest.kindRank_of_typed {type : ValueType} {value : Json}
    (passed : AttributeTest.typed type value = true) :
    value = .null ∨ value.kindRank = type.kindRank := by
  cases value with
  | null => exact .inl rfl
  | _ =>
    right
    cases type <;> first | rfl | cases passed

theorem ValueType.kindRank_of_accepts {type other : ValueType}
    (fits : (type.accepts other || other.accepts type) = true) :
    type.kindRank = other.kindRank := by
  cases type <;> cases other <;> first | rfl | cases fits

theorem Json.isOrderable_of_kindRank {type : ValueType} {value : Json}
    (sameKind : value.kindRank = type.kindRank) (orderable : type.isOrderable = true) :
    value.isOrderable = true := by
  cases value with
  | number _ => rfl
  | string _ => rfl
  | _ =>
    cases type <;>
      first
      | exact absurd orderable Bool.false_ne_true
      | simp [kindRank, ValueType.kindRank] at sameKind

/-- Values of types that fit are compared without falling back. -/
theorem Relation.fallsBack_of_typed {relation : Relation} {type other : ValueType} {x y : Json}
    (left : AttributeTest.typed type x = true) (right : AttributeTest.typed other y = true)
    (fits : (type.accepts other || other.accepts type) = true)
    (orderable : relation.isOrdering = true → type.isOrderable = true) :
    relation.fallsBack x y = false := by
  unfold fallsBack
  rcases AttributeTest.kindRank_of_typed left with rfl | leftKind
  · rfl
  · rcases AttributeTest.kindRank_of_typed right with rfl | rightKind
    · cases x.isNull <;> rfl
    · have sameKind : x.kindRank = y.kindRank :=
        leftKind.trans ((ValueType.kindRank_of_accepts fits).trans rightKind.symm)
      have hasOrder : (relation.isOrdering && !x.isOrderable) = false := by
        cases ordering : relation.isOrdering with
        | false => rfl
        | true => rw [Json.isOrderable_of_kindRank leftKind (orderable ordering)]; rfl
      rw [sameKind, hasOrder, bne_self_eq_false, Bool.or_self, Bool.and_false]

theorem Evaluator.strict_faithful {schema : Schema} (coherent : schema.Coherent) (store : Store)
    (sorter : Sorter KeyedRow) (settings : Settings) :
    (Evaluator.strict schema store sorter).Faithful ⟨schema, settings⟩ AttributeTest.typed where
  toPermissive := AttributeTest.typed_sound.toPermissive
  textPasses := AttributeTest.typed_sound.textPasses
  sameSchema := rfl
  coherent := coherent
  decidesNull relation value := by cases value <;> rfl
  decidesNullLeft _ _ := rfl
  decides left right fits orderable := by
    simp [strict, Relation.fallsBack_of_typed left right fits orderable]

end LayeredQuery
