import LayeredQuery.Proofs.Compiler.Yields
import LayeredQuery.Proofs.Evaluation.Faithful

/-!
# What chains compile to

The walk along a chain keeps one invariant: the expression for the current element evaluates to a
resource of the current owner. A relationship to one takes it to what the relationship holds, and a
relationship to many to each of the resources in it, bound to a variable of their own. So a leaf
that decides a condition on the end of a chain makes a test for some end of the chain, and a chain
without relationships to many has exactly one end, which the compiled expression evaluates to.
-/

set_option autoImplicit false

namespace LayeredQuery

/-- What is compiled for an element of a type evaluates to its meaning for every resource of that
type that the element stands for. -/
def Compiler.Denotes (compiler : Compiler) (evaluator : Evaluator) (test : AttributeTest)
    (compile : Expr → ResourceType → Compile Expr) (meaning : ResourceType → Json → Json) : Prop :=
  ∀ current owner body env value,
    (compile current owner).Yields body → owner ∈ compiler.schema.types →
    evaluator.eval current env = .ok value → compiler.schema.Resource test owner.name value →
    evaluator.eval body env = .ok (meaning owner value)

/-- What a leaf becomes decides a condition on the field and the value at the end of a chain. -/
def Compiler.LeafDecides (compiler : Compiler) (evaluator : Evaluator) (test : AttributeTest)
    (leaf : Leaf) (condition : ResolvedField → Json → Bool) : Prop :=
  ∀ value resolved path body env found,
    (leaf value resolved path).Yields body → evaluator.eval value env = .ok found →
    compiler.schema.Holds test resolved.kind found →
    evaluator.eval body env = .ok (.bool (condition resolved found))

namespace Compiler

variable {compiler : Compiler} {evaluator : Evaluator} {test : AttributeTest}

theorem targetOf?_of_targetOf {resolved : ResolvedField} {path : String} {target : ResourceType}
    (found : compiler.targetOf resolved path = .ok target) :
    compiler.schema.targetOf? resolved = some target ∧ target ∈ compiler.schema.types ∧
      resolved.kind.target? = some target.name := by
  obtain ⟨name, named, known⟩ := target_of_targetOf found
  refine ⟨?_, Schema.mem_of_type? known, ?_⟩
  · rw [Schema.targetOf?, named]
    exact known
  · rw [Schema.name_of_type? known]
    exact named

theorem target_of_toOne {resolved : ResolvedField} {name path : String} {target : ResourceType}
    {value : Json} (kind : resolved.kind = .toOne name)
    (found : compiler.targetOf resolved path = .ok target)
    (held : compiler.schema.Holds test resolved.kind value) :
    compiler.schema.targetOf? resolved = some target ∧ target ∈ compiler.schema.types ∧
      compiler.schema.Resource test target.name value := by
  obtain ⟨isTarget, known, named⟩ := targetOf?_of_targetOf found
  rw [kind] at held named
  cases named
  exact ⟨isTarget, known, held⟩

theorem target_of_toMany {resolved : ResolvedField} {name path : String} {target : ResourceType}
    {value : Json} (kind : resolved.kind = .toMany name)
    (found : compiler.targetOf resolved path = .ok target)
    (held : compiler.schema.Holds test resolved.kind value) :
    compiler.schema.targetOf? resolved = some target ∧ target ∈ compiler.schema.types ∧
      (value = .null ∨ ∃ items, value = .array items) ∧
      ∀ item ∈ value.related, compiler.schema.Resource test target.name item := by
  obtain ⟨isTarget, known, named⟩ := targetOf?_of_targetOf found
  rw [kind] at held named
  cases named
  exact ⟨isTarget, known, held.related⟩

/-! ## Chains with any number of ends -/

theorem walkFrom_eval (reads : evaluator.Reads compiler test) {chain : Chain} {leaf : Leaf}
    {condition : ResolvedField → Json → Bool}
    (decides : compiler.LeafDecides evaluator test leaf condition) :
    ∀ (names : List String) (taken : Nat) (current : Expr) (owner : ResourceType) (body : Expr)
      (env : Env) (value : Json),
      (compiler.walkFrom chain leaf names taken current owner).Yields body →
      owner ∈ compiler.schema.types → evaluator.eval current env = .ok value →
      compiler.schema.Resource test owner.name value →
      evaluator.eval body env =
        .ok (.bool ((compiler.schema.ends names owner value).any fun found =>
          condition found.1 found.2)) := by
  intro names
  induction names with
  | nil =>
    intro taken current owner body env value yielded
    exact absurd yielded Compile.not_yields_fail
  | cons name rest ih =>
    intro taken current owner body env value yielded known evaluated resource
    cases rest with
    | nil =>
      rw [walkFrom] at yielded
      obtain ⟨resolved, isResolved, yielded⟩ := Compile.yields_bind yielded
      have found := Schema.fieldOn?_of_resolve (yields_resolve isResolved)
      obtain ⟨read, held⟩ := reads.eval_access_holds known found evaluated resource
      simp only [Schema.ends, found, List.any_cons, List.any_nil, Bool.or_false]
      exact decides _ _ _ _ _ _ yielded read held
    | cons next rest =>
      rw [walkFrom] at yielded
      obtain ⟨resolved, isResolved, yielded⟩ := Compile.yields_bind yielded
      have found := Schema.fieldOn?_of_resolve (yields_resolve isResolved)
      obtain ⟨read, held⟩ := reads.eval_access_holds known found evaluated resource
      cases kind : resolved.kind with
      | «attribute» _ _ =>
        simp only [kind] at yielded
        exact absurd yielded Compile.not_yields_fail
      | toOne targetName =>
        simp only [kind] at yielded
        obtain ⟨target, isTarget, yielded⟩ := Compile.yields_bind yielded
        obtain ⟨targetFound, targetKnown, related⟩ :=
          target_of_toOne kind (Compile.yields_ofExcept isTarget) held
        simp only [Schema.ends, found, targetFound, kind, FieldKind.isToMany]
        exact ih _ _ _ _ _ _ (yields_deeper yielded) targetKnown read related
      | toMany targetName =>
        simp only [kind] at yielded
        obtain ⟨target, isTarget, yielded⟩ := Compile.yields_bind yielded
        obtain ⟨targetFound, targetKnown, readable, each⟩ :=
          target_of_toMany kind (Compile.yields_ofExcept isTarget) held
        obtain ⟨v, yielded⟩ := Compile.yields_withVariable (yields_deeper yielded)
        obtain ⟨inner, innerYielded, yielded⟩ := Compile.yields_bind yielded
        have isBody := Compile.yields_done yielded
        subst isBody
        simp only [Schema.ends, found, targetFound, kind, FieldKind.isToMany, if_true,
          List.any_flatMap]
        refine Evaluator.eval_anyWhere read readable fun item member => ?_
        exact ih _ _ _ _ _ _ innerYielded targetKnown (Evaluator.eval_parameter v.name item)
          (each item member)

theorem walk_eval (reads : evaluator.Reads compiler test) {leaf : Leaf}
    {condition : ResolvedField → Json → Bool}
    (decides : compiler.LeafDecides evaluator test leaf condition) (chain : Chain) :
    compiler.Denotes evaluator test (fun current owner => compiler.walk chain current owner leaf)
      fun owner value => .bool (compiler.schema.someEnd chain owner value condition) := by
  intro current owner body env value yielded known evaluated resource
  exact walkFrom_eval reads decides _ _ _ _ _ _ _ yielded known evaluated resource

/-! ## Chains with one end -/

theorem singleValueFrom_eval (reads : evaluator.Reads compiler test) {chain : Chain} :
    ∀ (names : List String) (taken : Nat) (current : Expr) (owner : ResourceType) (body : Expr)
      (resolved : ResolvedField) (env : Env) (value : Json),
      (compiler.singleValueFrom chain names taken current owner).Yields (body, resolved) →
      owner ∈ compiler.schema.types → evaluator.eval current env = .ok value →
      compiler.schema.Resource test owner.name value →
      ∃ found, compiler.schema.ends names owner value = [(resolved, found)] ∧
        evaluator.eval body env = .ok found ∧ compiler.schema.Holds test resolved.kind found := by
  intro names
  induction names with
  | nil =>
    intro taken current owner body resolved env value yielded
    exact absurd yielded Compile.not_yields_fail
  | cons name rest ih =>
    intro taken current owner body resolved env value yielded known evaluated resource
    cases rest with
    | nil =>
      rw [singleValueFrom] at yielded
      obtain ⟨last, isResolved, yielded⟩ := Compile.yields_bind yielded
      have found := Schema.fieldOn?_of_resolve (yields_resolve isResolved)
      cases Compile.yields_done yielded
      refine ⟨compiler.schema.read resolved value, ?_, ?_⟩
      · simp only [Schema.ends, found]
      · exact reads.eval_access_holds known found evaluated resource
    | cons next rest =>
      rw [singleValueFrom] at yielded
      obtain ⟨step, isResolved, yielded⟩ := Compile.yields_bind yielded
      have found := Schema.fieldOn?_of_resolve (yields_resolve isResolved)
      obtain ⟨read, held⟩ := reads.eval_access_holds known found evaluated resource
      cases kind : step.kind with
      | «attribute» _ _ =>
        simp only [kind] at yielded
        exact absurd yielded Compile.not_yields_fail
      | toMany _ =>
        simp only [kind] at yielded
        exact absurd yielded Compile.not_yields_fail
      | toOne targetName =>
        simp only [kind] at yielded
        obtain ⟨target, isTarget, yielded⟩ := Compile.yields_bind (yields_deeper yielded)
        obtain ⟨targetFound, targetKnown, related⟩ :=
          target_of_toOne kind (Compile.yields_ofExcept isTarget) held
        simp only [Schema.ends, found, targetFound, kind, FieldKind.isToMany]
        exact ih _ _ _ _ _ _ _ yielded targetKnown read related

theorem singleValue_eval (reads : evaluator.Reads compiler test) {chain : Chain}
    {current body : Expr} {owner : ResourceType} {resolved : ResolvedField} {env : Env}
    {value : Json} (yielded : (compiler.singleValue chain current owner).Yields (body, resolved))
    (known : owner ∈ compiler.schema.types) (evaluated : evaluator.eval current env = .ok value)
    (resource : compiler.schema.Resource test owner.name value) :
    ∃ found, compiler.schema.ends chain.names owner value = [(resolved, found)] ∧
      evaluator.eval body env = .ok found ∧ compiler.schema.Holds test resolved.kind found :=
  singleValueFrom_eval reads _ _ _ _ _ _ _ _ yielded known evaluated resource

end Compiler

end LayeredQuery
