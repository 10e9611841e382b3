import LayeredQuery.Proofs.Compiler.Chain
import LayeredQuery.Proofs.Evaluation.ValueOrder

/-!
# What filters compile to

The predicate compiled for a filter evaluates, for every resource of the filter's type, to what the
filter says of the resource. Each leaf is matched with its condition once, the type checks giving
what the comparison in it needs; the filter itself is followed case by case.
-/

set_option autoImplicit false

namespace LayeredQuery

theorem Literal.eq_null_of_type?_eq_none {literal : Literal} (untyped : literal.type? = none) :
    literal = .null := by
  cases literal with
  | null => rfl
  | _ => cases untyped

theorem Literal.eq_null_of_isNull {literal : Literal} (isNull : literal.isNull = true) :
    literal = .null := by
  cases literal with
  | null => rfl
  | _ => cases isNull

namespace Compiler

variable {compiler : Compiler} {evaluator : Evaluator} {test : AttributeTest}

/-! ## Comparisons that are let through -/

/-- What is left of a comparison that two type checks let through is decided the usual way. -/
theorem checked_decides (compares : evaluator.Compares compiler test) {relation : Relation}
    {type other : ValueType} {x y : Json} (left : test type x = true) (right : test other y = true)
    (fits : (type.accepts other || other.accepts type) = true)
    (ordered : ¬(relation.isOrdering && !type.isOrderable) = true) :
    evaluator.holds relation x y = .ok (relation.holds x y) := by
  refine compares.decides left right fits ?_
  intro ordering
  simpa [ordering] using ordered

theorem checkAttribute_decides (compares : evaluator.Compares compiler test) {type : ValueType}
    {nullable : Bool} {path : String} {relation : Relation} {literal : Literal} {value : Json}
    (passed : checkAttribute type nullable path relation literal = .ok ())
    (held : test type value = true) :
    evaluator.holds relation value literal.toJson = .ok (relation.holds value literal.toJson) := by
  unfold checkAttribute at passed
  cases typed : literal.type? with
  | none =>
    rw [Literal.eq_null_of_type?_eq_none typed]
    exact compares.decidesNull relation value
  | some found =>
    simp only [typed] at passed
    split at passed
    · rename_i accepted
      split at passed
      · cases passed
      · rename_i ordered
        refine checked_decides compares held (compares.literalPasses literal found typed) ?_ ordered
        rw [accepted, Bool.true_or]
    · cases passed

theorem checkConstant_decides (compares : evaluator.Compares compiler test)
    {resolved : ResolvedField} {path : String} {relation : Relation} {literal : Literal}
    {value : Json} (passed : checkConstant resolved path relation literal = .ok ())
    (held : compiler.schema.Holds test resolved.kind value) :
    evaluator.holds relation value literal.toJson = .ok (relation.holds value literal.toJson) := by
  unfold checkConstant at passed
  cases kind : resolved.kind with
  | «attribute» type nullable =>
    simp only [kind] at passed
    rw [kind] at held
    exact checkAttribute_decides compares passed held
  | toOne _ =>
    simp only [kind] at passed
    split at passed
    · rename_i isNull
      rw [Bool.and_eq_true] at isNull
      rw [Literal.eq_null_of_isNull isNull.1]
      exact compares.decidesNull relation value
    · cases passed
  | toMany _ => simp [kind] at passed

theorem checkAllConstants_decides (compares : evaluator.Compares compiler test)
    {resolved : ResolvedField} {path : String} {value : Json}
    (held : compiler.schema.Holds test resolved.kind value) :
    ∀ {literals : List Literal}, checkAllConstants resolved path literals = .ok () →
      ∀ literal ∈ literals, evaluator.holds .equal value literal.toJson =
        .ok (Relation.equal.holds value literal.toJson) := by
  intro literals
  induction literals with
  | nil => intro _ literal member; cases member
  | cons first rest ih =>
    intro passed literal member
    rw [checkAllConstants] at passed
    cases here : checkConstant resolved path .equal first with
    | error _ => simp [here] at passed
    | ok _ =>
      simp only [here] at passed
      rcases List.mem_cons.mp member with same | later
      · subst same
        exact checkConstant_decides compares here held
      · exact ih passed literal later

theorem checkConstants_decides (compares : evaluator.Compares compiler test) {relation : Relation}
    {left right : Literal} (passed : checkConstants relation left right = .ok ()) :
    evaluator.holds relation left.toJson right.toJson =
      .ok (relation.holds left.toJson right.toJson) := by
  unfold checkConstants at passed
  cases leftTyped : left.type? with
  | none =>
    rw [Literal.eq_null_of_type?_eq_none leftTyped]
    exact compares.decidesNullLeft relation right.toJson
  | some type =>
    cases rightTyped : right.type? with
    | none =>
      rw [Literal.eq_null_of_type?_eq_none rightTyped]
      exact compares.decidesNull relation left.toJson
    | some other =>
      simp only [leftTyped, rightTyped] at passed
      split at passed
      · rename_i accepted
        split at passed
        · cases passed
        · rename_i ordered
          exact checked_decides compares (compares.literalPasses left type leftTyped)
            (compares.literalPasses right other rightTyped) accepted ordered
      · cases passed

theorem readable_of_checkToMany {resolved : ResolvedField} {path : String} {value : Json}
    (passed : checkToMany resolved path = .ok ())
    (held : compiler.schema.Holds test resolved.kind value) :
    ∃ target, resolved.kind = .toMany target ∧
      (value = .null ∨ ∃ items, value = .array items) := by
  unfold checkToMany at passed
  cases kind : resolved.kind with
  | «attribute» _ _ => simp [kind, FieldKind.isToMany] at passed
  | toOne _ => simp [kind, FieldKind.isToMany] at passed
  | toMany target =>
    rw [kind] at held
    exact ⟨target, rfl, held.related.1⟩

/-! ## Leaves -/

theorem fieldLeaf_decides (compares : evaluator.Compares compiler test) (relation : Relation)
    (literal : Literal) :
    compiler.LeafDecides evaluator test (fieldLeaf relation literal)
      fun _ found => relation.holds found literal.toJson := by
  intro value resolved path body env found yielded evaluated held
  obtain ⟨_, passed, yielded⟩ := Compile.yields_bind yielded
  have isBody := Compile.yields_done yielded
  subst isBody
  exact Evaluator.eval_compare evaluated (Evaluator.eval_constant literal)
    (checkConstant_decides compares (Compile.yields_ofExcept passed) held)

theorem countLeaf_decides (compares : evaluator.Compares compiler test) (relation : Relation)
    (literal : Literal) :
    compiler.LeafDecides evaluator test (countLeaf relation literal)
      fun _ found =>
        relation.holds (.number (.ofSize found.related.length)) literal.toJson := by
  intro value resolved path body env found yielded evaluated held
  obtain ⟨_, passed, yielded⟩ := Compile.yields_bind yielded
  obtain ⟨_, _, readable⟩ := readable_of_checkToMany (Compile.yields_ofExcept passed) held
  split at yielded
  · rename_i isInt
    have isBody := Compile.yields_done yielded
    subst isBody
    refine Evaluator.eval_compare (Evaluator.eval_count evaluated readable)
      (Evaluator.eval_constant literal) ?_
    exact compares.decides (compares.countPasses _) (compares.literalPasses literal .int isInt) rfl
      fun _ => rfl
  · exact absurd yielded Compile.not_yields_fail

theorem textLeaf_decides (faithful : evaluator.Faithful compiler test) (kind : TextMatch)
    (needle : String) :
    compiler.LeafDecides evaluator test (textLeaf kind needle)
      fun _ found => kind.holdsIn needle found := by
  intro value resolved path body env found yielded evaluated held
  unfold textLeaf at yielded
  split at yielded
  · rename_i isString
    have isBody := Compile.yields_done yielded
    subst isBody
    rw [isString] at held
    exact Evaluator.eval_matchText evaluated (faithful.textPasses found held)
  · exact absurd yielded Compile.not_yields_fail

theorem setLeaf_decides (compares : evaluator.Compares compiler test) (literals : List Literal) :
    compiler.LeafDecides evaluator test (setLeaf literals)
      fun _ found => Literal.anyEqual literals found := by
  intro value resolved path body env found yielded evaluated held
  unfold setLeaf at yielded
  split at yielded
  · exact absurd yielded Compile.not_yields_fail
  · obtain ⟨_, passed, yielded⟩ := Compile.yields_bind yielded
    split at yielded
    · have isBody := Compile.yields_done yielded
      subst isBody
      exact Evaluator.eval_inSet evaluated
        (checkAllConstants_decides compares held (Compile.yields_ofExcept passed))
    · exact absurd yielded Compile.not_yields_fail

theorem hasLeaf_decides :
    compiler.LeafDecides evaluator test hasLeaf fun _ found => !found.related.isEmpty := by
  intro value resolved path body env found yielded evaluated held
  obtain ⟨_, passed, yielded⟩ := Compile.yields_bind yielded
  have isBody := Compile.yields_done yielded
  subst isBody
  obtain ⟨_, _, readable⟩ := readable_of_checkToMany (Compile.yields_ofExcept passed) held
  exact Evaluator.eval_any evaluated readable

/-- A predicate that is compiled for an element denotes a condition. -/
abbrev DenotesCondition (compiler : Compiler) (evaluator : Evaluator) (test : AttributeTest)
    (compile : Expr → ResourceType → Compile Expr) (condition : ResourceType → Json → Bool) :
    Prop :=
  compiler.Denotes evaluator test compile fun owner value => .bool (condition owner value)

theorem hasWhereLeaf_decides {inner : Expr → ResourceType → Compile Expr}
    {condition : ResourceType → Json → Bool}
    (denotes : compiler.DenotesCondition evaluator test inner condition) :
    compiler.LeafDecides evaluator test (compiler.hasWhereLeaf inner)
      (compiler.schema.someRelated condition) := by
  intro value resolved path body env found yielded evaluated held
  obtain ⟨_, passed, yielded⟩ := Compile.yields_bind yielded
  obtain ⟨_, kind, _⟩ := readable_of_checkToMany (Compile.yields_ofExcept passed) held
  obtain ⟨target, isTarget, yielded⟩ := Compile.yields_bind yielded
  obtain ⟨targetFound, targetKnown, readable, each⟩ :=
    target_of_toMany kind (Compile.yields_ofExcept isTarget) held
  obtain ⟨v, yielded⟩ := Compile.yields_withVariable yielded
  obtain ⟨built, isBuilt, yielded⟩ := Compile.yields_bind yielded
  have isBody := Compile.yields_done yielded
  subst isBody
  simp only [Schema.someRelated, targetFound]
  refine Evaluator.eval_anyWhere evaluated readable fun item member => ?_
  exact denotes _ _ _ _ _ (Compile.yields_mapError isBuilt) targetKnown
    (Evaluator.eval_parameter v.name item) (each item member)

/-! ## Type tests -/

theorem derivedType_found {name path : String} {static derived : ResourceType}
    (found : compiler.derivedType name static path = .ok derived) :
    compiler.schema.type? name = some derived ∧ derived ∈ compiler.schema.types ∧
      derived.name = name := by
  unfold derivedType at found
  cases known : compiler.type name with
  | error _ => simp [known] at found
  | ok type =>
    simp only [known] at found
    split at found
    · cases found
      have isType := type?_of_type known
      exact ⟨isType, Schema.mem_of_type? isType, Schema.name_of_type? isType⟩
    · cases found

theorem narrowed_found {resolved : ResolvedField} {path type : String} {derived : ResourceType}
    (yielded : (compiler.narrowed resolved path type).Yields derived) :
    (∃ target, resolved.kind = .toOne target) ∧ compiler.schema.type? type = some derived ∧
      derived ∈ compiler.schema.types ∧ derived.name = type := by
  unfold narrowed at yielded
  split at yielded
  · rename_i target kind
    obtain ⟨_, _, yielded⟩ := Compile.yields_bind yielded
    exact ⟨⟨target, kind⟩, derivedType_found (Compile.yields_ofExcept yielded)⟩
  · exact absurd yielded Compile.not_yields_fail

theorem resource_of_isInstance {schema : Schema} {static type : String} {value : Json}
    (resource : schema.Resource test static value) (fits : schema.isInstance type value = true) :
    schema.Resource test type value := by
  rcases resource.cases_value with rfl | ⟨entries, concrete, rfl, tagged, derived, _⟩
  · exact .null schema test type
  · rw [Schema.isInstance_object tagged] at fits
    refine ⟨?_, resource.attributes⟩
    have entriesTagged := resource.tagged
    rw [Schema.wellTagged] at entriesTagged ⊢
    simp only [tagged, derived, fits, Bool.true_and] at entriesTagged ⊢
    exact entriesTagged

theorem typeTest_eval (reads : evaluator.Reads compiler test)
    {inner : Expr → ResourceType → Compile Expr} {condition : ResourceType → Json → Bool}
    (denotes : compiler.DenotesCondition evaluator test inner condition) {operand body : Expr}
    {static : String} {derived : ResourceType} {env : Env} {value : Json}
    (yielded : (typeTest operand derived inner).Yields body)
    (found : compiler.schema.type? derived.name = some derived)
    (evaluated : evaluator.eval operand env = .ok value)
    (resource : compiler.schema.Resource test static value) :
    evaluator.eval body env =
      .ok (.bool (compiler.schema.isInstanceWhere derived.name condition value)) := by
  have known := Schema.mem_of_type? found
  obtain ⟨built, isBuilt, yielded⟩ := Compile.yields_bind yielded
  have isBody := Compile.yields_done yielded
  subst isBody
  have decided := reads.isInstance_eq value known
  simp only [Schema.isInstanceWhere, found]
  refine Evaluator.eval_typeTest evaluated decided fun fits => ?_
  have narrowed := Evaluator.eval_cast evaluated decided
  rw [fits] at narrowed
  exact denotes _ _ _ _ _ isBuilt known narrowed (resource_of_isInstance resource fits)

theorem isTypeLeaf_decides (reads : evaluator.Reads compiler test) (type : String) :
    compiler.LeafDecides evaluator test (compiler.isTypeLeaf type)
      fun _ found => compiler.schema.isInstance type found := by
  intro value resolved path body env found yielded evaluated held
  obtain ⟨derived, isNarrowed, yielded⟩ := Compile.yields_bind yielded
  have isBody := Compile.yields_done yielded
  subst isBody
  obtain ⟨_, _, known, named⟩ := narrowed_found isNarrowed
  rw [← named]
  exact Evaluator.eval_typeIs evaluated (reads.isInstance_eq found known)

theorem isTypeWhereLeaf_decides (reads : evaluator.Reads compiler test) (type : String)
    {inner : Expr → ResourceType → Compile Expr} {condition : ResourceType → Json → Bool}
    (denotes : compiler.DenotesCondition evaluator test inner condition) :
    compiler.LeafDecides evaluator test (compiler.isTypeWhereLeaf type inner)
      fun _ found => compiler.schema.isInstanceWhere type condition found := by
  intro value resolved path body env found yielded evaluated held
  obtain ⟨derived, isNarrowed, tested⟩ := Compile.yields_bind yielded
  obtain ⟨⟨target, kind⟩, isType, _, named⟩ := narrowed_found isNarrowed
  subst named
  rw [kind] at held
  refine typeTest_eval reads ?_ tested isType evaluated held
  intro current owner body env value innerYielded
  exact denotes current owner body env value (Compile.yields_mapError innerYielded)

/-! ## Comparisons -/

theorem scalar_eval (compares : evaluator.Compares compiler test) {target : Target}
    {current body : Expr} {owner : ResourceType} {type : ValueType} {env : Env} {value : Json}
    (yielded : (compiler.scalar target current owner).Yields (body, type))
    (known : owner ∈ compiler.schema.types) (evaluated : evaluator.eval current env = .ok value)
    (resource : compiler.schema.Resource test owner.name value) :
    ∃ found, compiler.schema.operandValues owner value (.target target) = [found] ∧
      evaluator.eval body env = .ok found ∧ test type found = true := by
  cases target with
  | field chain =>
    obtain ⟨⟨reached, resolved⟩, single, yielded⟩ := Compile.yields_bind yielded
    obtain ⟨found, ends, read, held⟩ := singleValue_eval compares.toReads
      (Compile.yields_mapError single) known evaluated resource
    simp only at yielded
    split at yielded
    · rename_i kind
      cases Compile.yields_done yielded
      rw [kind] at held
      exact ⟨found, by simp [Schema.operandValues, ends], read, held⟩
    · exact absurd yielded Compile.not_yields_fail
  | count chain =>
    obtain ⟨⟨reached, resolved⟩, single, yielded⟩ := Compile.yields_bind yielded
    obtain ⟨found, ends, read, held⟩ := singleValue_eval compares.toReads
      (Compile.yields_mapError single) known evaluated resource
    obtain ⟨_, passed, yielded⟩ := Compile.yields_bind yielded
    obtain ⟨_, _, readable⟩ := readable_of_checkToMany (Compile.yields_ofExcept passed) held
    cases Compile.yields_done yielded
    exact ⟨.number (.ofSize found.related.length), by simp [Schema.operandValues, ends],
      Evaluator.eval_count read readable, compares.countPasses _⟩

theorem compareTargets_eval (compares : evaluator.Compares compiler test) (left : Target)
    (relation : Relation) (right : Target) :
    compiler.DenotesCondition evaluator test
      (fun current owner => compiler.compareTargets left relation right current owner)
      (compiler.schema.relates (.target left) relation (.target right)) := by
  intro current owner body env value yielded known evaluated resource
  obtain ⟨⟨x, leftType⟩, leftYielded, yielded⟩ := Compile.yields_bind yielded
  obtain ⟨⟨y, rightType⟩, rightYielded, yielded⟩ := Compile.yields_bind yielded
  obtain ⟨a, leftValues, leftRead, leftPasses⟩ :=
    scalar_eval compares leftYielded known evaluated resource
  obtain ⟨b, rightValues, rightRead, rightPasses⟩ :=
    scalar_eval compares rightYielded known evaluated resource
  simp only at yielded
  split at yielded
  · rename_i accepted
    split at yielded
    · exact absurd yielded Compile.not_yields_fail
    · rename_i ordered
      have isBody := Compile.yields_done yielded
      subst isBody
      have decided := checked_decides compares leftPasses rightPasses accepted ordered
      simp only [Schema.relates, leftValues, rightValues, List.any_cons, List.any_nil,
        Bool.or_false]
      exact Evaluator.eval_compare leftRead rightRead decided
  · exact absurd yielded Compile.not_yields_fail

theorem compareWithConstant_eval (compares : evaluator.Compares compiler test) (target : Target)
    (relation : Relation) (literal : Literal) :
    compiler.DenotesCondition evaluator test
      (fun current owner => compiler.compareWithConstant target relation literal current owner)
      fun owner value => (compiler.schema.operandValues owner value (.target target)).any
        fun found => relation.holds found literal.toJson := by
  intro current owner body env value yielded known evaluated resource
  cases target with
  | field chain =>
    simp only [Schema.operandValues, List.any_map]
    exact walk_eval compares.toReads (fieldLeaf_decides compares relation literal) chain
      _ _ _ _ _ yielded known evaluated resource
  | count chain =>
    simp only [Schema.operandValues, List.any_map]
    exact walk_eval compares.toReads (countLeaf_decides compares relation literal) chain
      _ _ _ _ _ yielded known evaluated resource

theorem comparison_eval (compares : evaluator.Compares compiler test) (left : Operand)
    (relation : Relation) (right : Operand) :
    compiler.DenotesCondition evaluator test
      (fun current owner => compiler.comparison left relation right current owner)
      (compiler.schema.relates left relation right) := by
  intro current owner body env value yielded known evaluated resource
  cases left with
  | constant a =>
    cases right with
    | constant b =>
      obtain ⟨_, passed, yielded⟩ := Compile.yields_bind yielded
      have isBody := Compile.yields_done yielded
      subst isBody
      simp only [Schema.relates, Schema.operandValues, List.any_cons, List.any_nil, Bool.or_false]
      exact Evaluator.eval_compare (Evaluator.eval_constant a) (Evaluator.eval_constant b)
        (checkConstants_decides compares (Compile.yields_ofExcept passed))
    | target t =>
      have denoted := compareWithConstant_eval compares t relation.reversed a
        _ _ _ _ _ yielded known evaluated resource
      simp only [Relation.reversed_holds] at denoted
      rw [denoted]
      simp only [Schema.relates, Schema.operandValues.eq_1, List.any_cons, List.any_nil,
        Bool.or_false]
  | target t =>
    cases right with
    | constant b =>
      have denoted := compareWithConstant_eval compares t relation b
        _ _ _ _ _ yielded known evaluated resource
      rw [denoted]
      simp only [Schema.relates, Schema.operandValues.eq_1, List.any_cons, List.any_nil,
        Bool.or_false]
    | target u =>
      exact compareTargets_eval compares t relation u _ _ _ _ _ yielded known evaluated resource

/-! ## Filters -/

theorem compare_eval (compares : evaluator.Compares compiler test) (left : Operand)
    (relation : Relation) (right : Operand) :
    compiler.DenotesCondition evaluator test
      (fun current owner => compiler.predicate (.compare left relation right) current owner)
      (compiler.schema.satisfies (.compare left relation right)) := by
  intro current owner body env value yielded known evaluated resource
  simp only [predicate] at yielded
  exact comparison_eval compares left relation right _ _ _ _ _ (yields_deeper yielded) known
    evaluated resource

theorem oneOf_eval (compares : evaluator.Compares compiler test) (chain : Chain)
    (literals : List Literal) :
    compiler.DenotesCondition evaluator test
      (fun current owner => compiler.predicate (.oneOf chain literals) current owner)
      (compiler.schema.satisfies (.oneOf chain literals)) := by
  intro current owner body env value yielded known evaluated resource
  simp only [predicate] at yielded
  simp only [Schema.satisfies]
  exact walk_eval compares.toReads (setLeaf_decides compares literals) chain _ _ _ _ _
    (yields_deeper yielded) known evaluated resource

mutual

/-- The predicate compiled for a filter evaluates to whether the filter holds. -/
theorem predicate_eval (faithful : evaluator.Faithful compiler test) :
    ∀ filter : Filter, compiler.DenotesCondition evaluator test
      (fun current owner => compiler.predicate filter current owner)
      (compiler.schema.satisfies filter)
  | .compare left relation right, current, owner, body, env, value, yielded, known, evaluated,
      resource =>
    compare_eval faithful.toCompares left relation right current owner body env value yielded known
      evaluated resource
  | .logical connective terms, current, owner, body, env, value, yielded, known, evaluated,
      resource => by
    simp only [predicate] at yielded
    have yielded := yields_deeper yielded
    split at yielded
    · exact absurd yielded Compile.not_yields_fail
    · obtain ⟨compiled, isCompiled, yielded⟩ := Compile.yields_bind yielded
      have isBody := Compile.yields_done yielded
      subst isBody
      obtain ⟨all, any⟩ := predicates_eval faithful terms _ _ _ _ _ isCompiled known evaluated
        resource
      cases connective with
      | and => simp only [connect, Evaluator.eval, all, ok_bind, Schema.satisfies]
      | or => simp only [connect, Evaluator.eval, any, ok_bind, Schema.satisfies]
  | .not term, current, owner, body, env, value, yielded, known, evaluated, resource => by
    simp only [predicate] at yielded
    obtain ⟨compiled, isCompiled, yielded⟩ := Compile.yields_bind (yields_deeper yielded)
    have isBody := Compile.yields_done yielded
    subst isBody
    simp only [Schema.satisfies]
    exact Evaluator.eval_not
      (predicate_eval faithful term _ _ _ _ _ isCompiled known evaluated resource)
  | .matchText chain kind needle, current, owner, body, env, value, yielded, known, evaluated,
      resource => by
    simp only [predicate] at yielded
    simp only [Schema.satisfies]
    exact walk_eval faithful.toReads (textLeaf_decides faithful kind needle) chain _ _ _ _ _
      (yields_deeper yielded) known evaluated resource
  | .oneOf chain literals, current, owner, body, env, value, yielded, known, evaluated,
      resource =>
    oneOf_eval faithful.toCompares chain literals current owner body env value yielded known
      evaluated resource
  | .has chain, current, owner, body, env, value, yielded, known, evaluated, resource => by
    simp only [predicate] at yielded
    simp only [Schema.satisfies]
    exact walk_eval faithful.toReads hasLeaf_decides chain _ _ _ _ _ (yields_deeper yielded) known
      evaluated resource
  | .hasWhere chain filter, current, owner, body, env, value, yielded, known, evaluated,
      resource => by
    simp only [predicate] at yielded
    simp only [Schema.satisfies]
    exact walk_eval faithful.toReads (hasWhereLeaf_decides (predicate_eval faithful filter)) chain
      _ _ _ _ _ (yields_deeper yielded) known evaluated resource
  | .isType none type, current, owner, body, env, value, yielded, known, evaluated,
      resource => by
    simp only [predicate] at yielded
    obtain ⟨derived, isDerived, yielded⟩ := Compile.yields_bind (yields_deeper yielded)
    have isBody := Compile.yields_done yielded
    subst isBody
    obtain ⟨_, derivedKnown, named⟩ := derivedType_found (Compile.yields_ofExcept isDerived)
    subst named
    simp only [Schema.satisfies]
    exact Evaluator.eval_typeIs evaluated (faithful.isInstance_eq value derivedKnown)
  | .isType (some chain) type, current, owner, body, env, value, yielded, known, evaluated,
      resource => by
    simp only [predicate] at yielded
    simp only [Schema.satisfies]
    exact walk_eval faithful.toReads (isTypeLeaf_decides faithful.toReads type) chain _ _ _ _ _
      (yields_deeper yielded) known evaluated resource
  | .isTypeWhere none type filter, current, owner, body, env, value, yielded, known, evaluated,
      resource => by
    simp only [predicate] at yielded
    obtain ⟨derived, isDerived, tested⟩ := Compile.yields_bind (yields_deeper yielded)
    obtain ⟨isType, _, named⟩ := derivedType_found (Compile.yields_ofExcept isDerived)
    subst named
    simp only [Schema.satisfies]
    exact typeTest_eval faithful.toReads (predicate_eval faithful filter) tested isType evaluated
      resource
  | .isTypeWhere (some chain) type filter, current, owner, body, env, value, yielded, known,
      evaluated, resource => by
    simp only [predicate] at yielded
    simp only [Schema.satisfies]
    exact walk_eval faithful.toReads
      (isTypeWhereLeaf_decides faithful.toReads type (predicate_eval faithful filter)) chain
      _ _ _ _ _ (yields_deeper yielded) known evaluated resource

theorem predicates_eval (faithful : evaluator.Faithful compiler test) :
    ∀ (filters : List Filter) (current : Expr) (owner : ResourceType) (compiled : List Expr)
      (env : Env) (value : Json),
      (compiler.predicates filters current owner).Yields compiled →
      owner ∈ compiler.schema.types → evaluator.eval current env = .ok value →
      compiler.schema.Resource test owner.name value →
      evaluator.evalAll compiled env = .ok (compiler.schema.satisfiesAll filters owner value) ∧
        evaluator.evalAny compiled env = .ok (compiler.schema.satisfiesAny filters owner value)
  | [], current, owner, compiled, env, value, yielded, known, evaluated, resource => by
    simp only [predicates] at yielded
    have isNil := Compile.yields_done yielded
    subst isNil
    simp only [Evaluator.evalAll, Evaluator.evalAny, Schema.satisfiesAll, Schema.satisfiesAny,
      and_self]
  | filter :: rest, current, owner, compiled, env, value, yielded, known, evaluated,
      resource => by
    simp only [predicates] at yielded
    obtain ⟨first, isFirst, yielded⟩ := Compile.yields_bind yielded
    obtain ⟨others, areOthers, yielded⟩ := Compile.yields_bind yielded
    have isCompiled := Compile.yields_done yielded
    subst isCompiled
    have here := predicate_eval faithful filter _ _ _ _ _ isFirst known evaluated resource
    obtain ⟨all, any⟩ := predicates_eval faithful rest _ _ _ _ _ areOthers known evaluated resource
    rw [Evaluator.evalAll, Evaluator.evalAny, Schema.satisfiesAll, Schema.satisfiesAny, here,
      ok_bind, ok_bind, truth, ok_bind, ok_bind]
    cases compiler.schema.satisfies filter owner value with
    | true => exact ⟨all, rfl⟩
    | false => exact ⟨rfl, any⟩

end

/-- A filter clause keeps the rows for which its predicate holds, which decides the filter for every
resource of the type. -/
theorem filterClause_eval {source query : Query} {filter : Filter} {v : Variable}
    {type : ResourceType} (yielded : (compiler.filterClause source filter v type).Yields query)
    (known : type ∈ compiler.schema.types) :
    ∃ predicate, query = .filter source predicate ∧
      ∀ {evaluator : Evaluator} {test : AttributeTest}, evaluator.Faithful compiler test →
        ∀ (row : Json) (env : Env), compiler.schema.Resource test type.name row →
          evaluator.apply predicate row env =
            .ok (.bool (compiler.schema.satisfies filter type row)) := by
  obtain ⟨body, isBody, yielded⟩ := Compile.yields_bind yielded
  have isQuery := Compile.yields_done yielded
  subst isQuery
  refine ⟨v.lambda body, rfl, fun faithful row env resource => ?_⟩
  rw [Evaluator.apply_eq]
  exact predicate_eval faithful filter _ _ _ _ _ isBody known (Evaluator.eval_parameter v.name row)
    resource

end Compiler

end LayeredQuery
