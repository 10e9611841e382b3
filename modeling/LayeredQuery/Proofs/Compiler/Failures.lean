import LayeredQuery.Proofs.Compiler.Chain
import LayeredQuery.Proofs.Meaning.Route
import LayeredQuery.Proofs.Request.Chain

/-!
# What compilations fail with

A compilation fails with errors of some kind only if each of its parts does, where later parts may
count on what earlier ones have yielded. A chain has its own kinds of errors: it is empty, a name in
it is unknown or ambiguous, it goes on after an attribute, it crosses a relationship to many where
it must not, or it goes too deep. Each of them tells the names that lead up to where it arose.
-/

set_option autoImplicit false

namespace LayeredQuery

namespace Compile

variable {α β : Type} {kind : CompileError → Prop}

/-- Whatever the context, an error that the compilation fails with is of the given kind. -/
def FailsOnly (computation : Compile α) (kind : CompileError → Prop) : Prop :=
  ∀ before error after, computation before = (.error error, after) → kind error

namespace FailsOnly

theorem done (value : α) : FailsOnly (.done value) kind := by
  intro before error after failed
  cases failed

theorem fail {error : CompileError} (isKind : kind error) :
    FailsOnly (.fail error : Compile α) kind := by
  intro before found after failed
  cases failed
  exact isKind

theorem ofExcept {result : Except CompileError α}
    (each : ∀ error, result = .error error → kind error) :
    FailsOnly (.ofExcept result) kind := by
  cases result with
  | ok value => exact done value
  | error error => exact fail (each error rfl)

theorem weaken {computation : Compile α} {kind' : CompileError → Prop}
    (fails : FailsOnly computation kind) (weaker : ∀ error, kind error → kind' error) :
    FailsOnly computation kind' :=
  fun before error after failed => weaker error (fails before error after failed)

theorem bind {first : Compile α} {next : α → Compile β} (here : FailsOnly first kind)
    (continued : ∀ value, first.Yields value → FailsOnly (next value) kind) :
    FailsOnly (first >>= next) kind := by
  intro before error after failed
  rw [bind_apply] at failed
  rcases ended : first before with ⟨_ | value, between⟩
  · rw [ended] at failed
    cases failed
    exact here before _ _ ended
  · rw [ended] at failed
    exact continued value ⟨before, between, ended⟩ between error after failed

theorem map {first : Compile α} {f : α → β} (here : FailsOnly first kind) :
    FailsOnly (first >>= fun value => .done (f value)) kind :=
  here.bind fun value _ => done (f value)

theorem lookup {result : Except CompileError α} {next : α → Compile β}
    (missing : ∀ error, result = .error error → kind error)
    (continued : ∀ value, result = .ok value → FailsOnly (next value) kind) :
    FailsOnly (Compile.ofExcept result >>= next) kind :=
  (ofExcept missing).bind fun value yielded => continued value (yields_ofExcept yielded)

theorem mapError {f : CompileError → CompileError} {computation : Compile α}
    (fails : FailsOnly computation fun error => kind (f error)) :
    FailsOnly (Compile.mapError f computation) kind := by
  intro before error after failed
  unfold Compile.mapError at failed
  rcases ended : computation before with ⟨_ | value, between⟩
  · rw [ended] at failed
    cases failed
    exact fails before _ _ ended
  · rw [ended] at failed
    cases failed

theorem deeper {limit : Nat} {path : String} {computation : Compile α}
    (exceeded : kind (.depthExceeded path limit)) (fails : FailsOnly computation kind) :
    FailsOnly (Compile.deeper limit path computation) kind := by
  intro before error after failed
  unfold Compile.deeper at failed
  split at failed
  · cases failed
    exact exceeded
  · rename_i depth _
    rcases ended : computation ⟨before.names, depth⟩ with ⟨_ | value, between⟩
    · rw [ended] at failed
      cases failed
      exact fails _ _ _ ended
    · rw [ended] at failed
      cases failed

theorem withVariable {element : String} {computation : Variable → Compile α}
    (fails : ∀ v, FailsOnly (computation v) kind) :
    FailsOnly (Compile.withVariable element computation) kind := by
  intro before error after failed
  unfold Compile.withVariable at failed
  rcases ended : computation (before.names.issue element).1
    ⟨(before.names.issue element).2, before.depth⟩ with ⟨_ | value, between⟩
  · simp only [ended] at failed
    cases failed
    exact fails _ _ _ _ ended
  · simp only [ended] at failed
    cases failed

theorem traverse {f : α → Compile β} {items : List α}
    (each : ∀ item ∈ items, FailsOnly (f item) kind) :
    FailsOnly (Compile.traverse f items) kind := by
  induction items with
  | nil => exact done []
  | cons item rest ih =>
    obtain ⟨here, later⟩ := List.forall_mem_cons.mp each
    exact here.bind fun value _ => (ih later).map

end FailsOnly

end Compile

inductive Schema.ChainFault (schema : Schema) (limit : Nat) (owner : ResourceType)
    (names : List String) : CompileError → Prop
  | empty (isEmpty : names = []) : ChainFault schema limit owner names (.invalid "" .emptyChain)
  | unresolved {before after : List String} {name : String} {between : ResourceType}
      {error : CompileError} (parts : names = before ++ name :: after)
      (leads : schema.follow? before owner = some between)
      (refused : schema.resolve between name (Text.joined "." (before ++ [name])) = .error error) :
      ChainFault schema limit owner names error
  | attribute {before after : List String} {name : String} {between : ResourceType}
      {resolved : ResolvedField} (parts : names = before ++ name :: after)
      (leads : schema.follow? before owner = some between)
      (found : schema.fieldOn? between name = some resolved) :
      ChainFault schema limit owner names
        (.typeMismatch (Text.joined "." (before ++ [name])) "relationship" resolved.describe)
  | crossing {before after : List String} {name : String} {between : ResourceType}
      {resolved : ResolvedField} (parts : names = before ++ name :: after) (more : after ≠ [])
      (leads : schema.follow? before owner = some between)
      (found : schema.fieldOn? between name = some resolved)
      (many : resolved.kind.isToMany = true) :
      ChainFault schema limit owner names (.unsupported (Text.joined "." names)
        (.toManySegment (Text.joined "." (before ++ [name]))))
  | tooDeep {before after : List String} {name : String} (parts : names = before ++ name :: after) :
      ChainFault schema limit owner names
        (.depthExceeded (Text.joined "." (before ++ [name])) limit)

namespace Compiler

open Compile

variable {compiler : Compiler} {top : ResourceType} {chain : Chain}

theorem exists_targetOf (coherent : compiler.schema.Coherent) {owner : ResourceType}
    {name target : String} {resolved : ResolvedField} (known : owner ∈ compiler.schema.types)
    (found : compiler.schema.fieldOn? owner name = some resolved)
    (named : resolved.kind.target? = some target) (path : String) :
    ∃ type, compiler.targetOf resolved path = .ok type ∧
      compiler.schema.targetOf? resolved = some type := by
  obtain ⟨type, isTarget⟩ := coherent.exists_targetOf? known found named
  refine ⟨type, ?_, isTarget⟩
  rw [Schema.targetOf?, named, Option.bind_some] at isTarget
  simp only [targetOf, named, Compiler.type, isTarget]

theorem followed_failsOnly {α : Type} {kind : CompileError → Prop}
    (coherent : compiler.schema.Coherent) {owner : ResourceType} {name target path : String}
    {resolved : ResolvedField} (known : owner ∈ compiler.schema.types)
    (found : compiler.schema.fieldOn? owner name = some resolved)
    (named : resolved.kind.target? = some target) {next : ResourceType → Compile α}
    (continued : ∀ type, compiler.schema.targetOf? resolved = some type →
      (next type).FailsOnly kind) :
    (Compile.ofExcept (compiler.targetOf resolved path) >>= next).FailsOnly kind := by
  obtain ⟨type, isTarget, isTarget'⟩ := exists_targetOf coherent known found named path
  rw [isTarget]
  exact continued type isTarget'

theorem singleValueFrom_failsOnly (coherent : compiler.schema.Coherent)
    (topKnown : top ∈ compiler.schema.types) :
    ∀ (rest before : List String) (name : String) (current : Expr) (owner : ResourceType),
      chain.names = before ++ name :: rest → compiler.schema.follow? before top = some owner →
      (compiler.singleValueFrom chain (name :: rest) before.length current owner).FailsOnly
        (compiler.schema.ChainFault compiler.settings.maxDepth top chain.names) := by
  -- The names before the current one lead to its owner: this places every error of the rest.
  intro rest
  induction rest with
  | nil =>
    intro before name current owner parts leads
    rw [singleValueFrom]
    refine .lookup (fun error refused => ?_) fun resolved _ => .done _
    rw [Chain.text, parts] at refused
    exact .unresolved parts leads refused
  | cons next rest ih =>
    intro before name current owner parts leads
    have known := Schema.mem_of_follow? topKnown leads
    simp only [singleValueFrom, Chain.textOfFirst_eq parts]
    refine .lookup (fun error refused => .unresolved parts leads refused)
      fun resolved isResolved => ?_
    have found := Schema.fieldOn?_of_resolve isResolved
    cases kind : resolved.kind with
    | «attribute» _ _ => exact .fail (.attribute parts leads found)
    | toMany _ =>
      exact .fail (.crossing parts (List.cons_ne_nil _ _) leads found (by rw [kind]; rfl))
    | toOne target =>
      refine .deeper (.tooDeep parts) (followed_failsOnly coherent known found (by rw [kind]; rfl)
        fun type isTarget => ?_)
      have further := ih (before ++ [name]) next (resolved.access current) type
        (by rw [parts, List.append_assoc]; rfl) (Schema.follow?_snoc leads found isTarget)
      rw [List.length_append] at further
      exact further

theorem singleValue_failsOnly (coherent : compiler.schema.Coherent)
    (topKnown : top ∈ compiler.schema.types) (chain : Chain) (current : Expr) :
    (compiler.singleValue chain current top).FailsOnly
      (compiler.schema.ChainFault compiler.settings.maxDepth top chain.names) := by
  obtain ⟨names⟩ := chain
  cases names with
  | nil => exact .fail (.empty rfl)
  | cons name rest =>
    exact singleValueFrom_failsOnly coherent topKnown rest [] name current top rfl rfl

theorem singleValueFrom_arrives :
    ∀ (rest before : List String) (name : String) (current value : Expr) (owner : ResourceType)
      (resolved : ResolvedField), chain.names = before ++ name :: rest →
      compiler.schema.follow? before top = some owner →
      (compiler.singleValueFrom chain (name :: rest) before.length current owner).Yields
        (value, resolved) →
      compiler.schema.ArrivesAt top chain.names resolved := by
  intro rest
  induction rest with
  | nil =>
    intro before name current value owner resolved parts leads yielded
    rw [singleValueFrom] at yielded
    obtain ⟨last, isResolved, yielded⟩ := yields_bind yielded
    cases yields_done yielded
    exact ⟨before, name, owner, parts, leads,
      Schema.fieldOn?_of_resolve (yields_resolve isResolved)⟩
  | cons next rest ih =>
    intro before name current value owner resolved parts leads yielded
    rw [singleValueFrom] at yielded
    obtain ⟨step, isResolved, yielded⟩ := yields_bind yielded
    have found := Schema.fieldOn?_of_resolve (yields_resolve isResolved)
    cases kind : step.kind with
    | «attribute» _ _ =>
      simp only [kind] at yielded
      exact absurd yielded not_yields_fail
    | toMany _ =>
      simp only [kind] at yielded
      exact absurd yielded not_yields_fail
    | toOne _ =>
      simp only [kind] at yielded
      obtain ⟨target, isTarget, yielded⟩ := yields_bind (yields_deeper yielded)
      have isTarget' := (targetOf?_of_targetOf (yields_ofExcept isTarget)).1
      refine ih (before ++ [name]) next (step.access current) value target resolved
        (by rw [parts, List.append_assoc]; rfl) (Schema.follow?_snoc leads found isTarget') ?_
      rw [List.length_append]
      exact yielded

theorem singleValue_arrives {chain : Chain} {current value : Expr} {resolved : ResolvedField}
    (yielded : (compiler.singleValue chain current top).Yields (value, resolved)) :
    compiler.schema.ArrivesAt top chain.names resolved := by
  obtain ⟨names⟩ := chain
  cases names with
  | nil => exact absurd yielded not_yields_fail
  | cons name rest => exact singleValueFrom_arrives rest [] name _ _ _ _ rfl rfl yielded

theorem walkFrom_failsOnly {kind : CompileError → Prop} {leaf : Leaf}
    (coherent : compiler.schema.Coherent) (topKnown : top ∈ compiler.schema.types)
    (faults : ∀ error,
      compiler.schema.ChainFault compiler.settings.maxDepth top chain.names error → kind error)
    (leafFails : ∀ value resolved, compiler.schema.ArrivesAt top chain.names resolved →
      (leaf value resolved chain.text).FailsOnly kind) :
    ∀ (rest before : List String) (name : String) (current : Expr) (owner : ResourceType),
      chain.names = before ++ name :: rest → compiler.schema.follow? before top = some owner →
      (compiler.walkFrom chain leaf (name :: rest) before.length current owner).FailsOnly kind := by
  intro rest
  induction rest with
  | nil =>
    intro before name current owner parts leads
    have whole : Text.joined "." (before ++ [name]) = chain.text := by rw [Chain.text, parts]
    simp only [walkFrom, Chain.textOfFirst_eq parts]
    refine .lookup (fun error refused => faults error (.unresolved parts leads refused))
      fun resolved isResolved => ?_
    rw [whole]
    exact leafFails _ resolved
      ⟨before, name, owner, parts, leads, Schema.fieldOn?_of_resolve isResolved⟩
  | cons next rest ih =>
    intro before name current owner parts leads
    have known := Schema.mem_of_follow? topKnown leads
    simp only [walkFrom, Chain.textOfFirst_eq parts]
    refine .lookup (fun error refused => faults error (.unresolved parts leads refused))
      fun resolved isResolved => ?_
    have found := Schema.fieldOn?_of_resolve isResolved
    have further : ∀ type value, compiler.schema.targetOf? resolved = some type →
        (compiler.walkFrom chain leaf (next :: rest) (before.length + 1) value type).FailsOnly
          kind := by
      intro type value isTarget
      have inner := ih (before ++ [name]) next value type (by rw [parts, List.append_assoc]; rfl)
        (Schema.follow?_snoc leads found isTarget)
      rw [List.length_append] at inner
      exact inner
    cases isKind : resolved.kind with
    | «attribute» _ _ => exact .fail (faults _ (.attribute parts leads found))
    | toOne target =>
      refine followed_failsOnly coherent known found (by rw [isKind]; rfl) fun type isTarget => ?_
      exact .deeper (faults _ (.tooDeep parts)) (further type _ isTarget)
    | toMany target =>
      refine followed_failsOnly coherent known found (by rw [isKind]; rfl) fun type isTarget => ?_
      exact .deeper (faults _ (.tooDeep parts))
        (.withVariable fun v => (further type _ isTarget).map)

/-- A walk fails for a fault of the chain, or as the leaf does where the chain arrives. -/
theorem walk_failsOnly {kind : CompileError → Prop} {leaf : Leaf}
    (coherent : compiler.schema.Coherent) (topKnown : top ∈ compiler.schema.types) (chain : Chain)
    (faults : ∀ error,
      compiler.schema.ChainFault compiler.settings.maxDepth top chain.names error → kind error)
    (leafFails : ∀ value resolved, compiler.schema.ArrivesAt top chain.names resolved →
      (leaf value resolved chain.text).FailsOnly kind) (current : Expr) :
    (compiler.walk chain current top leaf).FailsOnly kind := by
  obtain ⟨names⟩ := chain
  cases names with
  | nil => exact .fail (faults _ (.empty rfl))
  | cons name rest =>
    exact walkFrom_failsOnly coherent topKnown faults leafFails rest [] name current top rfl rfl

/-! ## Comparisons and sort keys -/

section Targets

variable {kind : CompileError → Prop} {target left right : Target} {current : Expr}
  {owner : ResourceType}
  (mismatch : ∀ path expected found, kind (.typeMismatch path expected found))

include mismatch

theorem checkToMany_failsOnly {resolved : ResolvedField} {path : String} :
    (Compile.ofExcept (checkToMany resolved path)).FailsOnly kind := by
  unfold checkToMany
  split
  · exact .done _
  · exact .fail (mismatch _ _ _)

theorem scalar_failsOnly
    (looked : (Compile.mapError (.withReason .compareAcrossToMany)
      (compiler.singleValue target.chain current owner)).FailsOnly kind) :
    (compiler.scalar target current owner).FailsOnly kind := by
  cases target with
  | field chain =>
    refine FailsOnly.bind looked fun (value, resolved) _ => ?_
    simp only
    split
    · exact .done _
    · exact .fail (mismatch _ _ _)
  | count chain =>
    exact FailsOnly.bind looked fun _ _ => (checkToMany_failsOnly mismatch).map

theorem compareTargets_failsOnly {relation : Relation}
    (first : (compiler.scalar left current owner).FailsOnly kind)
    (second : (compiler.scalar right current owner).FailsOnly kind) :
    (compiler.compareTargets left relation right current owner).FailsOnly kind := by
  refine first.bind fun (leftValue, leftType) _ => second.bind fun (rightValue, rightType) _ => ?_
  simp only
  split
  · split
    · exact .fail (mismatch _ _ _)
    · exact .done _
  · exact .fail (mismatch _ _ _)

/-- A sort key fails as its chain does, for what the chain ends with, or because a field that the
chain arrives at is a relationship to many. -/
theorem sortValue_failsOnly
    (looked : (Compile.mapError (.withReason .sortAcrossToMany)
      (compiler.singleValue target.chain current owner)).FailsOnly kind)
    (onToMany : ∀ resolved, target = .field target.chain →
      compiler.schema.ArrivesAt owner target.chain.names resolved →
      resolved.kind.isToMany = true → kind (.unsupported target.chain.text .sortOnToMany)) :
    (compiler.sortValue target current owner).FailsOnly kind := by
  cases target with
  | field chain =>
    refine FailsOnly.bind looked fun (value, resolved) yielded => ?_
    have arrives := singleValue_arrives (yields_mapError yielded)
    simp only
    cases isKind : resolved.kind with
    | «attribute» _ _ => exact .done _
    | toMany _ => exact .fail (onToMany resolved rfl arrives (by rw [isKind]; rfl))
    | toOne _ => exact .fail (mismatch _ _ _)
  | count chain =>
    exact FailsOnly.bind looked fun _ _ => (checkToMany_failsOnly mismatch).map

omit mismatch

theorem orderByKeys_failsOnly {v : Variable} {keys : List SortKey}
    (each : ∀ key ∈ keys, (compiler.sortValue key.target v.accessor owner).FailsOnly kind)
    (thenBy : Bool) (query : Query) :
    (compiler.orderByKeys v owner keys thenBy query).FailsOnly kind := by
  induction keys generalizing thenBy query with
  | nil => exact .done _
  | cons key rest ih =>
    obtain ⟨here, later⟩ := List.forall_mem_cons.mp each
    rw [orderByKeys]
    exact here.bind fun _ _ => ih later true _

theorem sortClause_failsOnly {v : Variable} {sorting : Sorting} {source : Query}
    (empty : kind (.invalid "sort" .emptySort))
    (each : ∀ key ∈ sorting.keys,
      (compiler.sortValue key.target v.accessor owner).FailsOnly kind) :
    (compiler.sortClause source sorting v owner).FailsOnly kind := by
  unfold sortClause
  split
  · exact .fail empty
  · exact orderByKeys_failsOnly each false source

end Targets

end Compiler

end LayeredQuery
