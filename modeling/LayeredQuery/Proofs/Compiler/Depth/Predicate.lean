import LayeredQuery.Proofs.Compiler.Depth.Basic

/-!
# Depths of compiled filters

A filter is compiled for an accessor no longer than the depth, inside of at most one lambda more.
It enters a level before it follows a chain, and each further name of the chain enters another
level, so at the end of a chain both the accessor and the lambdas are at most as many as the levels.
-/

set_option autoImplicit false

namespace LayeredQuery

namespace Compiler

open Compile

variable {compiler : Compiler} {depth : Nat} {around : Surroundings}

/-- What is compiled for an element at a depth stays within the limit. The lambda around the element
need not have entered a level of its own. -/
def Bounded (compiler : Compiler) (compile : Expr → ResourceType → Compile Expr) : Prop :=
  ∀ depth around current owner, depth ≤ compiler.settings.maxDepth →
    around.AtMost (depth + 1) depth → current.Reaches depth →
    (compile current owner).AtDepth depth (Expr.Within compiler.settings.maxDepth around)

def LeafBounded (compiler : Compiler) (leaf : Leaf) : Prop :=
  ∀ depth around value resolved path, depth ≤ compiler.settings.maxDepth →
    around.AtMost depth depth → value.Reaches depth →
    (leaf value resolved path).AtDepth depth (Expr.Within compiler.settings.maxDepth around)

/-! ## Chains -/

theorem singleValueFrom_atDepth {chain : Chain} :
    ∀ (names : List String) (taken depth : Nat) (current : Expr) (owner : ResourceType),
      depth ≤ compiler.settings.maxDepth → current.Reaches depth →
      (compiler.singleValueFrom chain names taken current owner).AtDepth depth
        fun found => found.1.Reaches (compiler.settings.maxDepth + 1) := by
  intro names
  induction names with
  | nil => exact fun _ _ _ _ _ _ => .fail _ _
  | cons name rest ih =>
    intro taken depth current owner shallow reaches
    cases rest with
    | nil =>
      rw [singleValueFrom]
      refine AtDepth.lookup fun resolved _ => AtDepth.done ?_
      exact (resolved.access_reaches reaches).mono (Nat.succ_le_succ shallow)
    | cons next rest =>
      rw [singleValueFrom]
      refine AtDepth.lookup fun resolved _ => ?_
      cases resolved.kind with
      | «attribute» _ _ => exact .fail _ _
      | toMany _ => exact .fail _ _
      | toOne _ =>
        refine AtDepth.deeper fun below => AtDepth.lookup fun target _ => ?_
        exact ih _ _ _ _ below (resolved.access_reaches reaches)

theorem singleValue_atDepth {chain : Chain} {current : Expr} {owner : ResourceType}
    {f : CompileError → CompileError} (shallow : depth ≤ compiler.settings.maxDepth)
    (reaches : current.Reaches depth) :
    (Compile.mapError f (compiler.singleValue chain current owner)).AtDepth depth
      fun found => found.1.Reaches (compiler.settings.maxDepth + 1) :=
  .mapError (singleValueFrom_atDepth _ _ _ _ _ shallow reaches)

theorem anyWhere_within {limit : Nat} {source body : Expr} {v : Variable}
    (few : around.AtMost (limit + 1) limit) (first : source.Within limit around)
    (second : body.Within limit around.inLambda) :
    (Expr.anyWhere source (v.lambda body)).Within limit around :=
  Point.operator_within few rfl
    (by simp [Point.inside, Point.ofLambda, Variable.lambda, first, second])

theorem walkFrom_bounded {chain : Chain} {leaf : Leaf} (leafBounded : compiler.LeafBounded leaf) :
    ∀ (names : List String) (taken depth : Nat) (around : Surroundings) (current : Expr)
      (owner : ResourceType), depth < compiler.settings.maxDepth →
      around.AtMost (depth + 1) depth → current.Reaches depth →
      (compiler.walkFrom chain leaf names taken current owner).AtDepth (depth + 1)
        (Expr.Within compiler.settings.maxDepth around) := by
  intro names
  induction names with
  | nil => exact fun _ _ _ _ _ _ _ _ => .fail _ _
  | cons name rest ih =>
    intro taken depth around current owner below few reaches
    cases rest with
    | nil =>
      rw [walkFrom]
      refine AtDepth.lookup fun resolved _ => ?_
      exact leafBounded _ _ _ _ _ below few.entered (resolved.access_reaches reaches)
    | cons next rest =>
      rw [walkFrom]
      refine AtDepth.lookup fun resolved _ => ?_
      have value := resolved.access_reaches reaches
      cases resolved.kind with
      | «attribute» _ _ => exact .fail _ _
      | toOne _ =>
        refine AtDepth.lookup fun target _ => AtDepth.deeper fun further => ?_
        exact ih _ _ _ _ _ further few.entered.loose value
      | toMany _ =>
        refine AtDepth.lookup fun target _ => AtDepth.deeper fun further =>
          AtDepth.withVariable fun v => ?_
        have inner := ih (taken + 1) (depth + 1) around.inLambda v.accessor target further
          few.entered.inLambda (v.accessor_reaches _)
        have allowed := few.entered.loose.limit below
        exact inner.map fun body within =>
          anyWhere_within allowed (value.within (Nat.le_succ_of_le below) allowed) within

theorem walk_bounded {leaf : Leaf} (leafBounded : compiler.LeafBounded leaf) {chain : Chain}
    {current : Expr} {owner : ResourceType} (below : depth < compiler.settings.maxDepth)
    (few : around.AtMost (depth + 1) depth) (reaches : current.Reaches depth) :
    (compiler.walk chain current owner leaf).AtDepth (depth + 1)
      (Expr.Within compiler.settings.maxDepth around) :=
  walkFrom_bounded leafBounded _ _ _ _ _ _ below few reaches

/-! ## Leaves -/

theorem constant_within {limit : Nat} (few : around.AtMost (limit + 1) limit) (value : Literal) :
    (Expr.constant value).Within limit around :=
  Point.operator_within few rfl fun inner member => by cases member

theorem compare_within {limit : Nat} {left right : Expr} (relation : Relation)
    (few : around.AtMost (limit + 1) limit) (first : left.Within limit around)
    (second : right.Within limit around) :
    (Expr.compare left relation right).Within limit around :=
  Point.operator_within few rfl (by simp [Point.inside, first, second])

theorem count_within {limit : Nat} {source : Expr} (few : around.AtMost (limit + 1) limit)
    (within : source.Within limit around) : (Expr.count source).Within limit around :=
  Point.operator_within few rfl (List.forall_mem_singleton.mpr within)

theorem operator_atDepth {operand result : Expr} (shallow : depth ≤ compiler.settings.maxDepth)
    (few : around.AtMost depth depth) (reaches : operand.Reaches depth) (ends : result.run = 0)
    (inside : (Point.expr around result).inside = [.expr around operand]) :
    (Compile.done result).AtDepth depth (Expr.Within compiler.settings.maxDepth around) := by
  have allowed := few.loose.limit shallow
  refine .done (Point.operator_within allowed ends ?_)
  rw [inside]
  exact List.forall_mem_singleton.mpr (reaches.within (Nat.le_succ_of_le shallow) allowed)

theorem fieldLeaf_bounded (relation : Relation) (literal : Literal) :
    compiler.LeafBounded (fieldLeaf relation literal) := by
  intro depth around value resolved path shallow few reaches
  have allowed := few.loose.limit shallow
  refine AtDepth.lookup fun _ _ => AtDepth.done ?_
  exact compare_within relation allowed (reaches.within (Nat.le_succ_of_le shallow) allowed)
    (constant_within allowed literal)

theorem countLeaf_bounded (relation : Relation) (literal : Literal) :
    compiler.LeafBounded (countLeaf relation literal) := by
  intro depth around value resolved path shallow few reaches
  have allowed := few.loose.limit shallow
  refine AtDepth.lookup fun _ _ => ?_
  split
  · refine AtDepth.done (compare_within relation allowed ?_ (constant_within allowed literal))
    exact count_within allowed (reaches.within (Nat.le_succ_of_le shallow) allowed)
  · exact .fail _ _

theorem textLeaf_bounded (kind : TextMatch) (needle : String) :
    compiler.LeafBounded (textLeaf kind needle) := by
  intro depth around value resolved path shallow few reaches
  unfold textLeaf
  split
  · exact operator_atDepth shallow few reaches rfl rfl
  · exact .fail _ _

theorem setLeaf_bounded (literals : List Literal) : compiler.LeafBounded (setLeaf literals) := by
  intro depth around value resolved path shallow few reaches
  unfold setLeaf
  split
  · exact .fail _ _
  · refine AtDepth.lookup fun _ _ => ?_
    split
    · exact operator_atDepth shallow few reaches rfl rfl
    · exact .fail _ _

theorem hasLeaf_bounded : compiler.LeafBounded hasLeaf := by
  intro depth around value resolved path shallow few reaches
  exact AtDepth.lookup fun _ _ => operator_atDepth shallow few reaches rfl rfl

theorem hasWhereLeaf_bounded {inner : Expr → ResourceType → Compile Expr}
    (innerBounded : compiler.Bounded inner) :
    compiler.LeafBounded (compiler.hasWhereLeaf inner) := by
  intro depth around value resolved path shallow few reaches
  have allowed := few.loose.limit shallow
  refine AtDepth.lookup fun _ _ => AtDepth.lookup fun target _ => AtDepth.withVariable fun v => ?_
  have condition := innerBounded depth around.inLambda v.accessor target shallow few.inLambda
    (v.accessor_reaches _)
  exact condition.mapError.map fun body within =>
    anyWhere_within allowed (reaches.within (Nat.le_succ_of_le shallow) allowed) within

theorem narrowed_atDepth (resolved : ResolvedField) (path type : String) :
    (compiler.narrowed resolved path type).AtDepth depth fun _ => True := by
  unfold narrowed
  split
  · exact AtDepth.lookup fun target _ => (AtDepth.ofExcept _).weaken fun _ _ => trivial
  · exact .fail _ _

theorem isTypeLeaf_bounded (type : String) : compiler.LeafBounded (compiler.isTypeLeaf type) := by
  intro depth around value resolved path shallow few reaches
  refine (narrowed_atDepth resolved path type).bind fun derived _ => ?_
  exact operator_atDepth shallow few reaches rfl rfl

theorem typeTest_bounded {inner : Expr → ResourceType → Compile Expr}
    (innerBounded : compiler.Bounded inner) {operand : Expr}
    (shallow : depth ≤ compiler.settings.maxDepth) (few : around.AtMost (depth + 1) depth)
    (reaches : operand.Reaches depth) (derived : ResourceType) :
    (typeTest operand derived inner).AtDepth depth
      (Expr.Within compiler.settings.maxDepth around) := by
  have allowed := few.limit shallow
  have test : (Expr.typeIs operand derived.element).Within compiler.settings.maxDepth around :=
    Point.operator_within allowed rfl (List.forall_mem_singleton.mpr
      (reaches.within (Nat.le_succ_of_le shallow) allowed))
  have condition := innerBounded depth around _ derived shallow few
    (.cast derived.element reaches)
  exact condition.map fun body within =>
    Point.operator_within allowed rfl (by simp [Point.inside, test, within])

theorem isTypeWhereLeaf_bounded {inner : Expr → ResourceType → Compile Expr}
    (innerBounded : compiler.Bounded inner) (type : String) :
    compiler.LeafBounded (compiler.isTypeWhereLeaf type inner) := by
  intro depth around value resolved path shallow few reaches
  refine (narrowed_atDepth resolved path type).bind fun derived _ => ?_
  refine typeTest_bounded (fun depth around current owner shallow few reaches => ?_) shallow
    few.loose reaches derived
  exact (innerBounded depth around current owner shallow few reaches).mapError

/-! ## Comparisons -/

theorem scalar_atDepth (target : Target) {current : Expr} {owner : ResourceType}
    (shallow : depth ≤ compiler.settings.maxDepth)
    (few : around.AtMost (depth + 1) depth) (reaches : current.Reaches depth) :
    (compiler.scalar target current owner).AtDepth depth
      fun found => found.1.Within compiler.settings.maxDepth around := by
  have allowed := few.limit shallow
  cases target with
  | field chain =>
    refine (singleValue_atDepth shallow reaches).bind fun found ends => ?_
    obtain ⟨value, resolved⟩ := found
    simp only
    split
    · exact .done (ends.within (Nat.le_refl _) allowed)
    · exact .fail _ _
  | count chain =>
    refine (singleValue_atDepth shallow reaches).bind fun found ends => ?_
    exact AtDepth.lookup fun _ _ =>
      .done (count_within allowed (ends.within (Nat.le_refl _) allowed))

theorem compareTargets_bounded (left : Target) (relation : Relation) (right : Target) :
    compiler.Bounded (compiler.compareTargets left relation right) := by
  intro depth around current owner shallow few reaches
  refine (scalar_atDepth left shallow few reaches).bind fun first isFirst => ?_
  refine (scalar_atDepth right shallow few reaches).bind fun second isSecond => ?_
  simp only
  split
  · split
    · exact .fail _ _
    · exact .done (compare_within relation (few.limit shallow) isFirst isSecond)
  · exact .fail _ _

theorem comparison_atDepth (left : Operand) (relation : Relation) (right : Operand)
    {current : Expr} {owner : ResourceType} (below : depth < compiler.settings.maxDepth)
    (few : around.AtMost (depth + 1) depth) (reaches : current.Reaches depth) :
    (compiler.comparison left relation right current owner).AtDepth (depth + 1)
      (Expr.Within compiler.settings.maxDepth around) := by
  have withConstant : ∀ (target : Target) (relation : Relation) (literal : Literal),
      (compiler.compareWithConstant target relation literal current owner).AtDepth (depth + 1)
        (Expr.Within compiler.settings.maxDepth around) := by
    intro target relation literal
    cases target with
    | field chain => exact walk_bounded (fieldLeaf_bounded relation literal) below few reaches
    | count chain => exact walk_bounded (countLeaf_bounded relation literal) below few reaches
  cases left with
  | constant a =>
    cases right with
    | constant b =>
      have allowed := few.entered.loose.limit below
      refine AtDepth.lookup fun _ _ => AtDepth.done ?_
      exact compare_within relation allowed (constant_within allowed a) (constant_within allowed b)
    | target t => exact withConstant t relation.reversed a
  | target t =>
    cases right with
    | constant b => exact withConstant t relation b
    | target u =>
      exact compareTargets_bounded t relation u _ _ _ _ below few.entered.loose
        (reaches.mono (Nat.le_succ _))

/-! ## Filters -/

theorem connect_within {limit : Nat} {terms : List Expr} (connective : Connective)
    (few : around.AtMost (limit + 1) limit) (each : ∀ term ∈ terms, term.Within limit around) :
    (connect connective terms).Within limit around := by
  cases connective with
  | and => exact Point.operator_within few rfl (List.forall_mem_map.mpr each)
  | or => exact Point.operator_within few rfl (List.forall_mem_map.mpr each)

mutual

/-- A compiled filter stays within the limit. -/
theorem predicate_bounded : ∀ filter : Filter, compiler.Bounded (compiler.predicate filter)
  | .compare left relation right, depth, around, current, owner, shallow, few, reaches => by
    rw [predicate]
    exact AtDepth.deeper fun below => comparison_atDepth left relation right below few reaches
  | .logical connective terms, depth, around, current, owner, shallow, few, reaches => by
    rw [predicate]
    refine AtDepth.deeper fun below => ?_
    split
    · exact .fail _ _
    · refine (predicates_bounded terms _ _ _ _ below few.entered.loose
        (reaches.mono (Nat.le_succ _))).map fun compiled each => ?_
      exact connect_within connective (few.limit shallow) each
  | .not term, depth, around, current, owner, shallow, few, reaches => by
    rw [predicate]
    refine AtDepth.deeper fun below => ?_
    refine (predicate_bounded term _ _ _ _ below few.entered.loose
      (reaches.mono (Nat.le_succ _))).map fun compiled within => ?_
    exact Point.operator_within (few.limit shallow) rfl (List.forall_mem_singleton.mpr within)
  | .matchText chain kind value, depth, around, current, owner, shallow, few, reaches => by
    rw [predicate]
    exact AtDepth.deeper fun below => walk_bounded (textLeaf_bounded kind value) below few reaches
  | .oneOf chain literals, depth, around, current, owner, shallow, few, reaches => by
    rw [predicate]
    exact AtDepth.deeper fun below => walk_bounded (setLeaf_bounded literals) below few reaches
  | .has chain, depth, around, current, owner, shallow, few, reaches => by
    rw [predicate]
    exact AtDepth.deeper fun below => walk_bounded hasLeaf_bounded below few reaches
  | .hasWhere chain filter, depth, around, current, owner, shallow, few, reaches => by
    rw [predicate]
    exact AtDepth.deeper fun below =>
      walk_bounded (hasWhereLeaf_bounded (predicate_bounded filter)) below few reaches
  | .isType none type, depth, around, current, owner, shallow, few, reaches => by
    rw [predicate]
    refine AtDepth.deeper fun below => AtDepth.lookup fun derived _ => ?_
    exact operator_atDepth below few.entered (reaches.mono (Nat.le_succ _)) rfl rfl
  | .isType (some chain) type, depth, around, current, owner, shallow, few, reaches => by
    rw [predicate]
    exact AtDepth.deeper fun below => walk_bounded (isTypeLeaf_bounded type) below few reaches
  | .isTypeWhere none type filter, depth, around, current, owner, shallow, few, reaches => by
    rw [predicate]
    refine AtDepth.deeper fun below => AtDepth.lookup fun derived _ => ?_
    exact typeTest_bounded (predicate_bounded filter) below few.entered.loose
      (reaches.mono (Nat.le_succ _)) derived
  | .isTypeWhere (some chain) type filter, depth, around, current, owner, shallow, few,
      reaches => by
    rw [predicate]
    exact AtDepth.deeper fun below =>
      walk_bounded (isTypeWhereLeaf_bounded (predicate_bounded filter) type) below few reaches

theorem predicates_bounded : ∀ (filters : List Filter) (depth : Nat) (around : Surroundings)
    (current : Expr) (owner : ResourceType), depth ≤ compiler.settings.maxDepth →
    around.AtMost (depth + 1) depth → current.Reaches depth →
    (compiler.predicates filters current owner).AtDepth depth
      fun terms => ∀ term ∈ terms, term.Within compiler.settings.maxDepth around
  | [], depth, around, current, owner, shallow, few, reaches => by
    rw [predicates]
    exact .done fun term member => by cases member
  | filter :: rest, depth, around, current, owner, shallow, few, reaches => by
    rw [predicates]
    refine (predicate_bounded filter depth around current owner shallow few reaches).bind
      fun compiled within => ?_
    exact (predicates_bounded rest depth around current owner shallow few reaches).map
      fun others each => List.forall_mem_cons.mpr ⟨within, each⟩

end

end Compiler

end LayeredQuery
