import LayeredQuery.Proofs.Compiler.Tracing.Basic

/-!
# Traced errors of filters

In a filter a field can only be unknown because of a chain, or because of a condition on the
resources that a chain leads to, which is compiled for them and traced from the end of the chain.
-/

set_option autoImplicit false

namespace LayeredQuery

namespace Compiler

open Compile Schema

variable {compiler : Compiler} {owner : ResourceType}

/-- What is compiled for an element of a type fails with errors that are traced from that type. -/
def Traces (compiler : Compiler) (compile : Expr → ResourceType → Compile Expr) : Prop :=
  ∀ current, ∀ owner ∈ compiler.schema.types,
    (compile current owner).FailsOnly (compiler.schema.Traced owner)

def LeafKnown (leaf : Leaf) : Prop :=
  ∀ value resolved path,
    (leaf value resolved path).FailsOnly fun error => error.isUnknownField = false

/-! ## Checks -/

section Checks

variable {resolved : ResolvedField} {path : String} {relation : Relation} {literal : Literal}
  {error : CompileError}

theorem checkAttribute_other {type : ValueType} {nullable : Bool}
    (failed : checkAttribute type nullable path relation literal = .error error) :
    error.isUnknownField = false := by
  unfold checkAttribute at failed
  repeat' split at failed
  all_goals cases failed
  all_goals rfl

theorem checkConstant_other
    (failed : checkConstant resolved path relation literal = .error error) :
    error.isUnknownField = false := by
  unfold checkConstant at failed
  split at failed
  · exact checkAttribute_other failed
  · split at failed <;> cases failed
    rfl
  · cases failed
    rfl

theorem checkAllConstants_other {literals : List Literal}
    (failed : checkAllConstants resolved path literals = .error error) :
    error.isUnknownField = false := by
  induction literals with
  | nil => cases failed
  | cons literal rest ih =>
    rw [checkAllConstants] at failed
    split at failed
    · rename_i here
      cases failed
      exact checkConstant_other here
    · exact ih failed

theorem checkConstants_other {left right : Literal}
    (failed : checkConstants relation left right = .error error) :
    error.isUnknownField = false := by
  unfold checkConstants at failed
  repeat' split at failed
  all_goals cases failed
  all_goals rfl

end Checks

/-! ## Chains -/

theorem walk_traced (coherent : compiler.schema.Coherent) (known : owner ∈ compiler.schema.types)
    {chain : Chain} (traceable : chain.isTraceable = true) {leaf : Leaf}
    (leafTraced : ∀ value resolved, compiler.schema.ArrivesAt owner chain.names resolved →
      (leaf value resolved chain.text).FailsOnly (compiler.schema.Traced owner)) (current : Expr) :
    (compiler.walk chain current owner leaf).FailsOnly (compiler.schema.Traced owner) :=
  walk_failsOnly coherent known chain (fun _ => .of_chainFault coherent known traceable) leafTraced
    current

theorem walk_traced_of_known (coherent : compiler.schema.Coherent)
    (known : owner ∈ compiler.schema.types) {chain : Chain} (traceable : chain.isTraceable = true)
    {leaf : Leaf} (leafKnown : LeafKnown leaf) (current : Expr) :
    (compiler.walk chain current owner leaf).FailsOnly (compiler.schema.Traced owner) :=
  walk_traced coherent known traceable
    (fun value resolved _ => (leafKnown value resolved _).weaken fun _ => .of_other) current

theorem singleValue_traced (coherent : compiler.schema.Coherent)
    (known : owner ∈ compiler.schema.types) {chain : Chain} (traceable : chain.isTraceable = true)
    (reason : Unsupported) (current : Expr) :
    (Compile.mapError (.withReason reason) (compiler.singleValue chain current owner)).FailsOnly
      (compiler.schema.Traced owner) :=
  .mapError ((singleValue_failsOnly coherent known chain current).weaken fun _ fault =>
    (Traced.of_chainFault coherent known traceable fault).withReason)

/-! ## Leaves -/

theorem fieldLeaf_known (relation : Relation) (literal : Literal) :
    LeafKnown (fieldLeaf relation literal) :=
  fun _ _ _ => .lookup (fun _ => checkConstant_other) fun _ _ => .done _

theorem countLeaf_known (relation : Relation) (literal : Literal) :
    LeafKnown (countLeaf relation literal) := by
  intro value resolved path
  refine (checkToMany_failsOnly fun _ _ _ => rfl).bind fun _ _ => ?_
  split
  · exact .done _
  · exact .fail rfl

theorem textLeaf_known (kind : TextMatch) (needle : String) :
    LeafKnown (textLeaf kind needle) := by
  intro value resolved path
  unfold textLeaf
  split
  · exact .done _
  · exact .fail rfl

theorem setLeaf_known (literals : List Literal) : LeafKnown (setLeaf literals) := by
  intro value resolved path
  unfold setLeaf
  split
  · exact .fail rfl
  · refine .lookup (fun _ => checkAllConstants_other) fun _ _ => ?_
    split
    · exact .done _
    · exact .fail rfl

theorem hasLeaf_known : LeafKnown hasLeaf :=
  fun _ _ _ => (checkToMany_failsOnly fun _ _ _ => rfl).map

theorem hasWhereLeaf_traced {inner : Expr → ResourceType → Compile Expr}
    (innerTraces : compiler.Traces inner) {chain : Chain} {resolved : ResolvedField}
    (arrives : compiler.schema.ArrivesAt owner chain.names resolved) (value : Expr) :
    (compiler.hasWhereLeaf inner value resolved chain.text).FailsOnly
      (compiler.schema.Traced owner) := by
  refine (checkToMany_failsOnly fun _ _ _ => trivial).bind fun _ _ => ?_
  refine .lookup (fun _ failed => .of_other (targetOf_other failed)) fun target isTarget => ?_
  obtain ⟨isTarget, targetKnown, _⟩ := targetOf?_of_targetOf isTarget
  refine .withVariable fun v => .map (.mapError ?_)
  exact (innerTraces v.accessor target targetKnown).weaken fun _ traced =>
    traced.within arrives.ne_nil (arrives.follow? isTarget)

/-! ## Comparisons -/

theorem compareTargets_traced (coherent : compiler.schema.Coherent)
    (known : owner ∈ compiler.schema.types) {left right : Target}
    (traceable : left.chain.isTraceable = true) (traceable' : right.chain.isTraceable = true)
    (relation : Relation) (current : Expr) :
    (compiler.compareTargets left relation right current owner).FailsOnly
      (compiler.schema.Traced owner) := by
  have scalarTraced : ∀ target : Target, target.chain.isTraceable = true →
      (compiler.scalar target current owner).FailsOnly (compiler.schema.Traced owner) :=
    fun target traceable => scalar_failsOnly (fun _ _ _ => trivial)
      (singleValue_traced coherent known traceable .compareAcrossToMany current)
  exact compareTargets_failsOnly (fun _ _ _ => trivial) (scalarTraced left traceable)
    (scalarTraced right traceable')

theorem comparison_traced (coherent : compiler.schema.Coherent)
    (known : owner ∈ compiler.schema.types) {left right : Operand}
    (traceable : left.isTraceable = true) (traceable' : right.isTraceable = true)
    (relation : Relation) (current : Expr) :
    (compiler.comparison left relation right current owner).FailsOnly
      (compiler.schema.Traced owner) := by
  have withConstant : ∀ (target : Target) (relation : Relation) (literal : Literal),
      target.chain.isTraceable = true →
      (compiler.compareWithConstant target relation literal current owner).FailsOnly
        (compiler.schema.Traced owner) := by
    intro target relation literal traceable
    cases target with
    | field chain =>
      exact walk_traced_of_known coherent known traceable (fieldLeaf_known relation literal) current
    | count chain =>
      exact walk_traced_of_known coherent known traceable (countLeaf_known relation literal) current
  cases left with
  | constant a =>
    cases right with
    | constant b =>
      exact .lookup (fun _ failed => .of_other (checkConstants_other failed)) fun _ _ => .done _
    | target t => exact withConstant t relation.reversed a traceable'
  | target t =>
    cases right with
    | constant b => exact withConstant t relation b traceable
    | target u => exact compareTargets_traced coherent known traceable traceable' relation current

/-! ## Filters -/

mutual

theorem predicate_traces (coherent : compiler.schema.Coherent) :
    ∀ filter : Filter, filter.isTraceable = true → compiler.Traces (compiler.predicate filter)
  | .compare left relation right, traceable, current, owner, known => by
    rw [Filter.isTraceable, Bool.and_eq_true] at traceable
    rw [predicate]
    exact .deeper trivial
      (comparison_traced coherent known traceable.1 traceable.2 relation current)
  | .logical connective terms, traceable, current, owner, known => by
    rw [Filter.isTraceable] at traceable
    rw [predicate]
    refine .deeper trivial ?_
    split
    · exact .fail trivial
    · exact (predicates_trace coherent terms traceable current owner known).map
  | .not term, traceable, current, owner, known => by
    rw [Filter.isTraceable] at traceable
    rw [predicate]
    exact .deeper trivial (predicate_traces coherent term traceable current owner known).map
  | .matchText chain kind value, traceable, current, owner, known => by
    rw [Filter.isTraceable] at traceable
    rw [predicate]
    exact .deeper trivial
      (walk_traced_of_known coherent known traceable (textLeaf_known kind value) current)
  | .oneOf chain literals, traceable, current, owner, known => by
    rw [Filter.isTraceable] at traceable
    rw [predicate]
    exact .deeper trivial
      (walk_traced_of_known coherent known traceable (setLeaf_known literals) current)
  | .has chain, traceable, current, owner, known => by
    rw [Filter.isTraceable] at traceable
    rw [predicate]
    exact .deeper trivial (walk_traced_of_known coherent known traceable hasLeaf_known current)
  | .hasWhere chain filter, traceable, current, owner, known => by
    rw [Filter.isTraceable, Bool.and_eq_true] at traceable
    rw [predicate]
    refine .deeper trivial (walk_traced coherent known traceable.1
      (fun value resolved arrives => hasWhereLeaf_traced ?_ arrives value) current)
    exact predicate_traces coherent filter traceable.2
  | .isType _ _, traceable, _, _, _ => by cases traceable
  | .isTypeWhere _ _ _, traceable, _, _, _ => by cases traceable

theorem predicates_trace (coherent : compiler.schema.Coherent) :
    ∀ filters : List Filter, Filter.allTraceable filters = true →
      ∀ current, ∀ owner ∈ compiler.schema.types,
        (compiler.predicates filters current owner).FailsOnly (compiler.schema.Traced owner)
  | [], _, current, owner, known => by
    rw [predicates]
    exact .done _
  | filter :: rest, traceable, current, owner, known => by
    rw [Filter.allTraceable, Bool.and_eq_true] at traceable
    rw [predicates]
    exact (predicate_traces coherent filter traceable.1 current owner known).bind fun _ _ =>
      (predicates_trace coherent rest traceable.2 current owner known).map

end

end Compiler

end LayeredQuery
