import LayeredQuery.Proofs.Evaluation.ValueOrder
import LayeredQuery.Proofs.Meaning.Filter

/-!
# Exchanged operands

In a comparison the operands can change places if the relation is reversed along with them. Done to
any of the comparisons in a filter, at any depth, this leaves what the filter says of each resource
as it is.
-/

set_option autoImplicit false

namespace LayeredQuery

theorem Relation.reversed_reversed (relation : Relation) :
    relation.reversed.reversed = relation := by
  cases relation <;> rfl

theorem Relation.isOrdering_reversed (relation : Relation) :
    relation.reversed.isOrdering = relation.isOrdering := by
  cases relation <;> rfl

/-! ## Filters -/

mutual

/-- Filters that are the same but for comparisons with exchanged operands and the reversed
relation. -/
inductive Filter.Exchanged : Filter → Filter → Prop
  | same (filter : Filter) : Filter.Exchanged filter filter
  | operands (left : Operand) (relation : Relation) (right : Operand) :
      Filter.Exchanged (.compare left relation right) (.compare right relation.reversed left)
  | logical (connective : Connective) {terms others : List Filter}
      (each : Filter.AllExchanged terms others) :
      Filter.Exchanged (.logical connective terms) (.logical connective others)
  | not {term other : Filter} (inner : Filter.Exchanged term other) :
      Filter.Exchanged (.not term) (.not other)
  | hasWhere (chain : Chain) {filter other : Filter} (inner : Filter.Exchanged filter other) :
      Filter.Exchanged (.hasWhere chain filter) (.hasWhere chain other)
  | isTypeWhere (chain : Option Chain) (type : String) {filter other : Filter}
      (inner : Filter.Exchanged filter other) :
      Filter.Exchanged (.isTypeWhere chain type filter) (.isTypeWhere chain type other)

inductive Filter.AllExchanged : List Filter → List Filter → Prop
  | nil : Filter.AllExchanged [] []
  | cons {filter other : Filter} {rest others : List Filter}
      (here : Filter.Exchanged filter other) (later : Filter.AllExchanged rest others) :
      Filter.AllExchanged (filter :: rest) (other :: others)

end

namespace Schema

variable {schema : Schema}

/-- Some values of two operands are related exactly if some values of the exchanged operands are in
the reversed relation. -/
theorem relates_exchanged (left : Operand) (relation : Relation) (right : Operand)
    (owner : ResourceType) (value : Json) :
    schema.relates right relation.reversed left owner value =
      schema.relates left relation right owner value := by
  unfold relates
  rw [Bool.eq_iff_iff]
  simp only [List.any_eq_true, Relation.reversed_holds]
  constructor
  · rintro ⟨y, isRight, x, isLeft, held⟩
    exact ⟨x, isLeft, y, isRight, held⟩
  · rintro ⟨x, isLeft, y, isRight, held⟩
    exact ⟨y, isRight, x, isLeft, held⟩

mutual

theorem satisfies_exchanged : ∀ {filter other : Filter}, filter.Exchanged other →
    schema.satisfies filter = schema.satisfies other
  | _, _, .same _ => rfl
  | _, _, .operands left relation right => by
    funext owner value
    rw [satisfies, satisfies, relates_exchanged]
  | _, _, .logical connective each => by
    funext owner value
    obtain ⟨all, any⟩ := satisfiesAll_exchanged each
    cases connective with
    | and => rw [satisfies, satisfies, all]
    | or => rw [satisfies, satisfies, any]
  | _, _, .not inner => by
    funext owner value
    rw [satisfies, satisfies, satisfies_exchanged inner]
  | _, _, .hasWhere chain inner => by
    funext owner value
    rw [satisfies, satisfies, satisfies_exchanged inner]
  | _, _, .isTypeWhere chain type inner => by
    funext owner value
    cases chain <;> rw [satisfies, satisfies, satisfies_exchanged inner]

theorem satisfiesAll_exchanged : ∀ {filters others : List Filter},
    Filter.AllExchanged filters others →
      schema.satisfiesAll filters = schema.satisfiesAll others ∧
        schema.satisfiesAny filters = schema.satisfiesAny others
  | _, _, .nil => ⟨rfl, rfl⟩
  | _, _, .cons here later => by
    obtain ⟨all, any⟩ := satisfiesAll_exchanged later
    have first := satisfies_exchanged here
    constructor
    · funext owner value
      rw [satisfiesAll, satisfiesAll, first, all]
    · funext owner value
      rw [satisfiesAny, satisfiesAny, first, any]

end

end Schema

end LayeredQuery
