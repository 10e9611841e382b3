import LayeredQuery.Proofs.Compiler.Outcome
import LayeredQuery.Proofs.Meaning.Exchange

/-!
# Compiling exchanged operands

A filter and one with exchanged operands compile in step: in every context both are refused, or both
end with the same names given out. A constant changes places with a target before anything else is
done, so only the type checks of two constants and of two targets are about both sides, and these
treat the sides alike. The two targets are looked up in another order, which does not show because
looking up leaves no trace.
-/

set_option autoImplicit false

namespace LayeredQuery

theorem ValueType.isOrderable_of_accepts {type other : ValueType}
    (fits : (type.accepts other || other.accepts type) = true) :
    type.isOrderable = other.isOrderable := by
  cases type <;> cases other <;> first | rfl | cases fits

namespace Compile

variable {α β γ δ : Type}

/-! ## Looking up without a trace -/

/-- A compilation that ends, if it does, in the context it started in. -/
def Traceless (computation : Compile α) : Prop :=
  ∀ before value after, outcome? computation before = some (value, after) → after = before

namespace Traceless

theorem done (value : α) : Traceless (.done value) := by
  intro before found after ended
  cases ended
  rfl

theorem fail (error : CompileError) : Traceless (.fail error : Compile α) := by
  intro before found after ended
  cases ended

theorem ofExcept (result : Except CompileError α) : Traceless (.ofExcept result) := by
  cases result with
  | error error => exact fail error
  | ok value => exact done value

theorem bind {first : Compile α} {next : α → Compile β} (traceless : Traceless first)
    (continued : ∀ value, Traceless (next value)) : Traceless (first >>= next) := by
  intro before value after ended
  obtain ⟨middle, between, begun, ended⟩ := outcome?_of_bind ended
  rw [continued middle between value after ended, traceless before middle between begun]

theorem mapError {f : CompileError → CompileError} {computation : Compile α}
    (traceless : Traceless computation) : Traceless (Compile.mapError f computation) := by
  intro before value after ended
  rw [outcome?_mapError] at ended
  exact traceless before value after ended

theorem deeper {limit : Nat} {path : String} {computation : Compile α}
    (traceless : Traceless computation) : Traceless (Compile.deeper limit path computation) := by
  intro before value after ended
  rw [outcome?_deeper] at ended
  obtain ⟨depth, entered, ended⟩ := Option.bind_eq_some_iff.mp ended
  obtain ⟨⟨value', below⟩, inner, same⟩ := Option.map_eq_some_iff.mp ended
  cases same
  rw [traceless _ _ _ inner]
  unfold Depth.enter? at entered
  split at entered
  · cases entered
    rfl
  · cases entered

theorem outcome? {computation : Compile α} (traceless : Traceless computation)
    (context : Context) : Compile.outcome? computation context = none ∨
      ∃ value, Compile.outcome? computation context = some (value, context) := by
  cases ended : Compile.outcome? computation context with
  | none => exact .inl rfl
  | some pair =>
    obtain ⟨value, after⟩ := pair
    rw [traceless context value after ended]
    exact .inr ⟨value, rfl⟩

end Traceless

/-! ## In step -/

/-- Whether two compilations end in the same context, or both fail, in every context. What values
they end with is left out. -/
def InStep (first : Compile α) (second : Compile β) : Prop :=
  ∀ context, (outcome? first context).map Prod.snd = (outcome? second context).map Prod.snd

namespace InStep

theorem refl (computation : Compile α) : InStep computation computation :=
  fun _ => rfl

theorem done (value : α) (other : β) : InStep (.done value) (.done other) :=
  fun _ => rfl

theorem bind {first : Compile α} {second : Compile β} {next : α → Compile γ}
    {other : β → Compile δ} (inStep : InStep first second)
    (continued : ∀ value value', InStep (next value) (other value')) :
    InStep (first >>= next) (second >>= other) := by
  intro context
  have begun := inStep context
  rw [outcome?_bind, outcome?_bind]
  cases ended : outcome? first context with
  | none =>
    cases ended' : outcome? second context with
    | none => rfl
    | some _ =>
      rw [ended, ended'] at begun
      cases begun
  | some pair =>
    cases ended' : outcome? second context with
    | none =>
      rw [ended, ended'] at begun
      cases begun
    | some pair' =>
      rw [ended, ended', Option.map_some, Option.map_some, Option.some.injEq] at begun
      rw [Option.bind_some, Option.bind_some, begun]
      exact continued _ _ _

theorem bind_next {first : Compile α} {next : α → Compile γ} {other : α → Compile δ}
    (continued : ∀ value, InStep (next value) (other value)) :
    InStep (first >>= next) (first >>= other) := by
  intro context
  rw [outcome?_bind, outcome?_bind]
  cases outcome? first context with
  | none => rfl
  | some pair => exact continued pair.1 pair.2

theorem bind_done {first : Compile α} {second : Compile β} (f : α → γ) (g : β → δ)
    (inStep : InStep first second) :
    InStep (first >>= fun value => .done (f value)) (second >>= fun value => .done (g value)) :=
  inStep.bind fun _ _ => done _ _

theorem mapError {first : Compile α} {second : Compile β} {f g : CompileError → CompileError}
    (inStep : InStep first second) :
    InStep (Compile.mapError f first) (Compile.mapError g second) := by
  intro context
  rw [outcome?_mapError, outcome?_mapError, inStep context]

theorem deeper {limit : Nat} {path path' : String} {first : Compile α} {second : Compile β}
    (inStep : InStep first second) :
    InStep (Compile.deeper limit path first) (Compile.deeper limit path' second) := by
  intro context
  rw [outcome?_deeper, outcome?_deeper]
  cases Depth.enter? limit context.depth with
  | none => rfl
  | some depth =>
    have inner := congrArg
      (Option.map fun below : Context => (⟨below.names, Depth.leave below.depth⟩ : Context))
      (inStep ⟨context.names, depth⟩)
    simpa only [Option.bind_some, Option.map_map, Function.comp_def] using inner

theorem withVariable {element : String} {first : Variable → Compile α}
    {second : Variable → Compile β} (inStep : ∀ v, InStep (first v) (second v)) :
    InStep (Compile.withVariable element first) (Compile.withVariable element second) := by
  intro context
  rw [outcome?_withVariable, outcome?_withVariable]
  have inner := congrArg
    (Option.map fun below : Context =>
      (⟨below.names.release (context.names.issue element).1.name, below.depth⟩ : Context))
    (inStep (context.names.issue element).1 ⟨(context.names.issue element).2, context.depth⟩)
  simpa only [Option.map_map, Function.comp_def] using inner

theorem accepted_iff {first : Compile α} {second : Compile β} (inStep : InStep first second)
    (before : Context) :
    (∃ value after, first before = (.ok value, after)) ↔
      ∃ value after, second before = (.ok value, after) := by
  have ends {ε : Type} (computation : Compile ε) :
      (∃ value after, computation before = (.ok value, after)) ↔
        ((outcome? computation before).map Prod.snd).isSome = true := by
    simp only [← outcome?_eq_some, Option.isSome_map, Option.isSome_iff_exists, Prod.exists]
  rw [ends, ends, inStep before]

end InStep

end Compile

namespace Compiler

open Compile

variable {compiler : Compiler}

/-! ## Comparisons -/

theorem singleValueFrom_traceless (chain : Chain) :
    ∀ (names : List String) (taken : Nat) (current : Expr) (owner : ResourceType),
      Traceless (compiler.singleValueFrom chain names taken current owner) := by
  intro names
  induction names with
  | nil => exact fun _ _ _ => .fail _
  | cons name rest ih =>
    intro taken current owner
    cases rest with
    | nil => exact .bind (.ofExcept _) fun resolved => .done _
    | cons next rest =>
      rw [singleValueFrom]
      refine .bind (.ofExcept _) fun resolved => ?_
      cases resolved.kind with
      | «attribute» _ _ => exact .fail _
      | toOne _ => exact .deeper (.bind (.ofExcept _) fun target => ih _ _ _)
      | toMany _ => exact .fail _

theorem scalar_traceless (target : Target) (current : Expr) (owner : ResourceType) :
    Traceless (compiler.scalar target current owner) := by
  cases target with
  | field chain =>
    refine .bind (.mapError (singleValueFrom_traceless _ _ _ _ _)) fun found => ?_
    obtain ⟨value, resolved⟩ := found
    simp only
    split
    · exact .done _
    · exact .fail _
  | count chain =>
    exact .bind (.mapError (singleValueFrom_traceless _ _ _ _ _)) fun found =>
      .bind (.ofExcept _) fun _ => .done _

theorem checkConstants_exchanged (relation : Relation) (left right : Literal) :
    (checkConstants relation.reversed right left).isOk =
      (checkConstants relation left right).isOk := by
  unfold checkConstants
  cases left.type? with
  | none => cases right.type? <;> simp only [relation.isOrdering_reversed] <;> split <;> rfl
  | some type =>
    cases right.type? with
    | none =>
      simp only [relation.isOrdering_reversed]
      split <;> rfl
    | some other =>
      simp only [relation.isOrdering_reversed, Bool.or_comm (other.accepts type)]
      split
      · rename_i fits
        rw [ValueType.isOrderable_of_accepts fits]
        split <;> rfl
      · rfl

theorem compareTargets_exchanged (left : Target) (relation : Relation) (right : Target)
    (current : Expr) (owner : ResourceType) :
    InStep (compiler.compareTargets left relation right current owner)
      (compiler.compareTargets right relation.reversed left current owner) := by
  intro context
  unfold compareTargets
  simp only [outcome?_bind]
  have leftTraceless : Traceless (compiler.scalar left current owner) := scalar_traceless _ _ _
  have rightTraceless : Traceless (compiler.scalar right current owner) := scalar_traceless _ _ _
  obtain isLeft | ⟨⟨leftValue, leftType⟩, isLeft⟩ := leftTraceless.outcome? context
  · obtain isRight | ⟨rightFound, isRight⟩ := rightTraceless.outcome? context
    · simp only [isLeft, isRight, Option.bind_none]
    · simp only [isLeft, isRight, Option.bind_none, Option.bind_some]
  · obtain isRight | ⟨⟨rightValue, rightType⟩, isRight⟩ := rightTraceless.outcome? context
    · simp only [isLeft, isRight, Option.bind_none, Option.bind_some]
    · simp only [isLeft, isRight, Option.bind_some, relation.isOrdering_reversed,
        Bool.or_comm (rightType.accepts leftType)]
      split
      · rename_i fits
        rw [ValueType.isOrderable_of_accepts fits]
        split <;> rfl
      · rfl

theorem comparison_exchanged (left : Operand) (relation : Relation) (right : Operand)
    (current : Expr) (owner : ResourceType) :
    InStep (compiler.comparison left relation right current owner)
      (compiler.comparison right relation.reversed left current owner) := by
  cases left with
  | constant a =>
    cases right with
    | constant b =>
      have checked := checkConstants_exchanged relation a b
      rw [comparison, comparison]
      refine InStep.bind_done _ _ fun context => ?_
      cases here : checkConstants relation a b <;>
        cases there : checkConstants relation.reversed b a <;>
        first | rfl | (rw [here, there] at checked; cases checked)
    | target t => exact .refl _
  | target t =>
    cases right with
    | constant b =>
      rw [comparison, comparison, relation.reversed_reversed]
      exact .refl _
    | target u => exact compareTargets_exchanged t relation u current owner

/-! ## Chains -/

theorem walkFrom_inStep {chain : Chain} {leaf other : Leaf}
    (leaves : ∀ value resolved path,
      InStep (leaf value resolved path) (other value resolved path)) :
    ∀ (names : List String) (taken : Nat) (current : Expr) (owner : ResourceType),
      InStep (compiler.walkFrom chain leaf names taken current owner)
        (compiler.walkFrom chain other names taken current owner) := by
  intro names
  induction names with
  | nil => exact fun _ _ _ => .refl _
  | cons name rest ih =>
    intro taken current owner
    cases rest with
    | nil => exact .bind_next fun resolved => leaves _ _ _
    | cons next rest =>
      rw [walkFrom, walkFrom]
      refine .bind_next fun resolved => ?_
      cases resolved.kind with
      | «attribute» _ _ => exact .refl _
      | toOne _ => exact .bind_next fun target => .deeper (ih _ _ _)
      | toMany _ =>
        exact .bind_next fun target => .deeper (.withVariable fun v => .bind_done _ _ (ih _ _ _))

theorem typeTest_inStep {inner other : Expr → ResourceType → Compile Expr}
    (inStep : ∀ current owner, InStep (inner current owner) (other current owner))
    (operand : Expr) (derived : ResourceType) :
    InStep (typeTest operand derived inner) (typeTest operand derived other) :=
  .bind_done _ _ (inStep _ _)

/-! ## Filters -/

mutual

theorem predicate_exchanged : ∀ {filter other : Filter}, filter.Exchanged other →
    ∀ (current : Expr) (owner : ResourceType),
      InStep (compiler.predicate filter current owner) (compiler.predicate other current owner)
  | _, _, .same _, _, _ => .refl _
  | _, _, .operands left relation right, current, owner => by
    rw [predicate, predicate]
    exact .deeper (comparison_exchanged left relation right current owner)
  | _, _, .logical connective each, current, owner => by
    obtain ⟨sameLength, inStep⟩ := predicates_exchanged each
    rw [predicate, predicate, sameLength]
    refine .deeper ?_
    split
    · exact .refl _
    · exact .bind_done _ _ (inStep current owner)
  | _, _, .not inner, current, owner => by
    rw [predicate, predicate]
    exact .deeper (.bind_done _ _ (predicate_exchanged inner current owner))
  | _, _, .hasWhere chain inner, current, owner => by
    rw [predicate, predicate]
    refine .deeper (walkFrom_inStep (fun value resolved path => ?_) _ _ _ _)
    refine .bind_next fun _ => .bind_next fun target => .withVariable fun v => ?_
    exact .bind_done _ _ (.mapError (predicate_exchanged inner _ _))
  | _, _, .isTypeWhere none type inner, current, owner => by
    rw [predicate, predicate]
    exact .deeper (.bind_next fun derived => typeTest_inStep (predicate_exchanged inner) _ _)
  | _, _, .isTypeWhere (some chain) type inner, current, owner => by
    rw [predicate, predicate]
    refine .deeper (walkFrom_inStep (fun value resolved path => ?_) _ _ _ _)
    refine .bind_next fun derived => typeTest_inStep (fun cast target => ?_) _ _
    exact .mapError (predicate_exchanged inner cast target)

theorem predicates_exchanged : ∀ {filters others : List Filter},
    Filter.AllExchanged filters others → filters.length = others.length ∧
      ∀ (current : Expr) (owner : ResourceType),
        InStep (compiler.predicates filters current owner)
          (compiler.predicates others current owner)
  | _, _, .nil => ⟨rfl, fun _ _ => .refl _⟩
  | _, _, .cons here later => by
    obtain ⟨sameLength, inStep⟩ := predicates_exchanged later
    refine ⟨congrArg (· + 1) sameLength, fun current owner => ?_⟩
    rw [predicates, predicates]
    refine .bind (predicate_exchanged here current owner) fun _ _ => ?_
    exact .bind_done _ _ (inStep current owner)

end

end Compiler

end LayeredQuery
