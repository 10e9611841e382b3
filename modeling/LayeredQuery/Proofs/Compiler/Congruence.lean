import LayeredQuery.Proofs.Compiler.Outcome

/-!
# Congruences of compilations

Everything that is compiled is put together from lookups in few ways: one step after another, with
its errors moved, one level deeper, in the scope of a new variable. A relation between compilations
that all of these keep therefore holds between the compilations of one request under two limits of
depth, whatever the request is. With both limits the same it says something about each compilation
by itself.
-/

set_option autoImplicit false

namespace LayeredQuery

namespace CompileError

/-- Whether errors for too deep a request stay such errors, with their limit. -/
def KeepsLimit (f : CompileError → CompileError) : Prop :=
  ∀ path limit, ∃ moved, f (.depthExceeded path limit) = .depthExceeded moved limit

theorem keepsLimit_within (relationship : String) : KeepsLimit (within relationship) :=
  fun _ _ => ⟨_, rfl⟩

theorem keepsLimit_withReason (reason : Unsupported) : KeepsLimit (withReason reason) :=
  fun _ _ => ⟨_, rfl⟩

end CompileError

/-- A relation between compilations under two limits that holds between compilations put together
in the same way when it holds between their parts. -/
structure Compile.Congruence (limit limit' : Nat) where
  Related : ∀ {α : Type}, Compile α → Compile α → Prop
  done : ∀ {α : Type} (value : α), Related (.done value) (.done value)
  fail : ∀ {α : Type} (error : CompileError), Related (.fail error : Compile α) (.fail error)
  bind : ∀ {α β : Type} {first second : Compile α} {next other : α → Compile β},
    Related first second → (∀ value, Related (next value) (other value)) →
    Related (first >>= next) (second >>= other)
  mapError : ∀ {α : Type} {f : CompileError → CompileError} {first second : Compile α},
    CompileError.KeepsLimit f → Related first second →
    Related (Compile.mapError f first) (Compile.mapError f second)
  deeper : ∀ {α : Type} (path : String) {first second : Compile α}, Related first second →
    Related (Compile.deeper limit path first) (Compile.deeper limit' path second)
  withVariable : ∀ {α : Type} (element : String) {first second : Variable → Compile α},
    (∀ v, Related (first v) (second v)) →
    Related (Compile.withVariable element first) (Compile.withVariable element second)

namespace Compile.Congruence

variable {limit limit' : Nat} (R : Congruence limit limit') {α β : Type}

theorem ofExcept (result : Except CompileError α) :
    R.Related (Compile.ofExcept result) (Compile.ofExcept result) := by
  cases result with
  | error error => exact R.fail error
  | ok value => exact R.done value

theorem bind_done {first second : Compile α} (f : α → β) (related : R.Related first second) :
    R.Related (first >>= fun value => .done (f value))
      (second >>= fun value => .done (f value)) :=
  R.bind related fun value => R.done (f value)

theorem lookup {result : Except CompileError α} {next other : α → Compile β}
    (related : ∀ value, R.Related (next value) (other value)) :
    R.Related (Compile.ofExcept result >>= next) (Compile.ofExcept result >>= other) :=
  R.bind (R.ofExcept result) related

end Compile.Congruence

def Compiler.withLimit (compiler : Compiler) (limit : Nat) : Compiler :=
  ⟨compiler.schema, ⟨limit, compiler.settings.alwaysIncludeIdentity⟩⟩

namespace Compiler

variable {compiler : Compiler} {limit limit' : Nat} (R : Compile.Congruence limit limit')

/-! ## Chains -/

theorem singleValueFrom_related {chain : Chain} :
    ∀ (names : List String) (taken : Nat) (current : Expr) (owner : ResourceType),
      R.Related ((compiler.withLimit limit).singleValueFrom chain names taken current owner)
        ((compiler.withLimit limit').singleValueFrom chain names taken current owner) := by
  intro names
  induction names with
  | nil => exact fun _ _ _ => R.fail _
  | cons name rest ih =>
    intro taken current owner
    cases rest with
    | nil => exact R.lookup fun resolved => R.done _
    | cons next rest =>
      rw [singleValueFrom, singleValueFrom]
      refine R.lookup fun resolved => ?_
      cases resolved.kind with
      | «attribute» _ _ => exact R.fail _
      | toOne _ => exact R.deeper _ (R.lookup fun target => ih _ _ _)
      | toMany _ => exact R.fail _

theorem singleValue_related (chain : Chain) (reason : Unsupported) (current : Expr)
    (owner : ResourceType) :
    R.Related
      (.mapError (.withReason reason)
        ((compiler.withLimit limit).singleValue chain current owner))
      (.mapError (.withReason reason)
        ((compiler.withLimit limit').singleValue chain current owner)) :=
  R.mapError (CompileError.keepsLimit_withReason reason) (singleValueFrom_related R _ _ _ _)

/-- What is compiled for an element is related under the two limits. -/
def Alike (R : Compile.Congruence limit limit')
    (compile compile' : Expr → ResourceType → Compile Expr) : Prop :=
  ∀ current owner, R.Related (compile current owner) (compile' current owner)

def LeavesAlike (R : Compile.Congruence limit limit') (leaf leaf' : Leaf) : Prop :=
  ∀ value resolved path, R.Related (leaf value resolved path) (leaf' value resolved path)

variable {R}

theorem walkFrom_related {chain : Chain} {leaf leaf' : Leaf} (leaves : LeavesAlike R leaf leaf') :
    ∀ (names : List String) (taken : Nat) (current : Expr) (owner : ResourceType),
      R.Related ((compiler.withLimit limit).walkFrom chain leaf names taken current owner)
        ((compiler.withLimit limit').walkFrom chain leaf' names taken current owner) := by
  intro names
  induction names with
  | nil => exact fun _ _ _ => R.fail _
  | cons name rest ih =>
    intro taken current owner
    cases rest with
    | nil => exact R.lookup fun resolved => leaves _ _ _
    | cons next rest =>
      rw [walkFrom, walkFrom]
      refine R.lookup fun resolved => ?_
      cases resolved.kind with
      | «attribute» _ _ => exact R.fail _
      | toOne _ => exact R.lookup fun target => R.deeper _ (ih _ _ _)
      | toMany _ =>
        refine R.lookup fun target => R.deeper _ (R.withVariable _ fun v => ?_)
        exact R.bind_done _ (ih _ _ _)

theorem walk_alike {leaf leaf' : Leaf} (leaves : LeavesAlike R leaf leaf') (chain : Chain) :
    Alike R (fun current owner => (compiler.withLimit limit).walk chain current owner leaf)
      fun current owner => (compiler.withLimit limit').walk chain current owner leaf' :=
  fun _ _ => walkFrom_related leaves _ _ _ _

/-! ## Leaves -/

theorem fieldLeaf_alike (relation : Relation) (literal : Literal) :
    LeavesAlike R (fieldLeaf relation literal) (fieldLeaf relation literal) :=
  fun _ _ _ => R.lookup fun _ => R.done _

theorem countLeaf_alike (relation : Relation) (literal : Literal) :
    LeavesAlike R (countLeaf relation literal) (countLeaf relation literal) := by
  intro value resolved path
  refine R.lookup fun _ => ?_
  split
  · exact R.done _
  · exact R.fail _

theorem textLeaf_alike (kind : TextMatch) (needle : String) :
    LeavesAlike R (textLeaf kind needle) (textLeaf kind needle) := by
  intro value resolved path
  unfold textLeaf
  split
  · exact R.done _
  · exact R.fail _

theorem setLeaf_alike (literals : List Literal) :
    LeavesAlike R (setLeaf literals) (setLeaf literals) := by
  intro value resolved path
  unfold setLeaf
  split
  · exact R.fail _
  · refine R.lookup fun _ => ?_
    split
    · exact R.done _
    · exact R.fail _

theorem hasLeaf_alike : LeavesAlike R hasLeaf hasLeaf :=
  fun _ _ _ => R.lookup fun _ => R.done _

theorem hasWhereLeaf_alike {inner inner' : Expr → ResourceType → Compile Expr}
    (alike : Alike R inner inner') :
    LeavesAlike R ((compiler.withLimit limit).hasWhereLeaf inner)
      ((compiler.withLimit limit').hasWhereLeaf inner') := by
  intro value resolved path
  refine R.lookup fun _ => R.lookup fun target => R.withVariable _ fun v => ?_
  exact R.bind_done _ (R.mapError (CompileError.keepsLimit_within path) (alike _ _))

theorem narrowed_related (resolved : ResolvedField) (path type : String) :
    R.Related ((compiler.withLimit limit).narrowed resolved path type)
      ((compiler.withLimit limit').narrowed resolved path type) := by
  unfold narrowed
  split
  · exact R.lookup fun target => R.ofExcept _
  · exact R.fail _

theorem isTypeLeaf_alike (type : String) :
    LeavesAlike R ((compiler.withLimit limit).isTypeLeaf type)
      ((compiler.withLimit limit').isTypeLeaf type) :=
  fun _ _ _ => R.bind_done _ (narrowed_related _ _ _)

theorem typeTest_related {inner inner' : Expr → ResourceType → Compile Expr}
    (alike : Alike R inner inner') (operand : Expr) (derived : ResourceType) :
    R.Related (typeTest operand derived inner) (typeTest operand derived inner') :=
  R.bind_done _ (alike _ _)

theorem isTypeWhereLeaf_alike {inner inner' : Expr → ResourceType → Compile Expr}
    (alike : Alike R inner inner') (type : String) :
    LeavesAlike R ((compiler.withLimit limit).isTypeWhereLeaf type inner)
      ((compiler.withLimit limit').isTypeWhereLeaf type inner') := by
  intro value resolved path
  refine R.bind (narrowed_related _ _ _) fun derived => ?_
  refine typeTest_related (fun current owner => ?_) value derived
  exact R.mapError (CompileError.keepsLimit_within path) (alike current owner)

/-! ## Comparisons -/

theorem scalar_related (target : Target) (current : Expr) (owner : ResourceType) :
    R.Related ((compiler.withLimit limit).scalar target current owner)
      ((compiler.withLimit limit').scalar target current owner) := by
  cases target with
  | field chain =>
    refine R.bind (singleValue_related R _ _ _ _) fun found => ?_
    obtain ⟨value, resolved⟩ := found
    simp only
    split
    · exact R.done _
    · exact R.fail _
  | count chain =>
    exact R.bind (singleValue_related R _ _ _ _) fun found => R.lookup fun _ => R.done _

theorem compareTargets_alike (left : Target) (relation : Relation) (right : Target) :
    Alike R ((compiler.withLimit limit).compareTargets left relation right)
      ((compiler.withLimit limit').compareTargets left relation right) := by
  intro current owner
  refine R.bind (scalar_related left _ _) fun first => ?_
  refine R.bind (scalar_related right _ _) fun second => ?_
  simp only
  split
  · split
    · exact R.fail _
    · exact R.done _
  · exact R.fail _

theorem compareWithConstant_alike (target : Target) (relation : Relation) (literal : Literal) :
    Alike R ((compiler.withLimit limit).compareWithConstant target relation literal)
      ((compiler.withLimit limit').compareWithConstant target relation literal) := by
  cases target with
  | field chain => exact walk_alike (fieldLeaf_alike relation literal) chain
  | count chain => exact walk_alike (countLeaf_alike relation literal) chain

theorem comparison_alike (left : Operand) (relation : Relation) (right : Operand) :
    Alike R ((compiler.withLimit limit).comparison left relation right)
      ((compiler.withLimit limit').comparison left relation right) := by
  cases left with
  | constant a =>
    cases right with
    | constant b => exact fun _ _ => R.lookup fun _ => R.done _
    | target t => exact compareWithConstant_alike t relation.reversed a
  | target t =>
    cases right with
    | constant b => exact compareWithConstant_alike t relation b
    | target u => exact compareTargets_alike t relation u

/-! ## Filters -/

mutual

theorem predicate_alike : ∀ filter : Filter,
    Alike R ((compiler.withLimit limit).predicate filter)
      ((compiler.withLimit limit').predicate filter)
  | .compare left relation right, current, owner => by
    rw [predicate, predicate]
    exact R.deeper _ (comparison_alike left relation right current owner)
  | .logical connective terms, current, owner => by
    rw [predicate, predicate]
    refine R.deeper _ ?_
    split
    · exact R.fail _
    · exact R.bind_done _ (predicates_related terms current owner)
  | .not term, current, owner => by
    rw [predicate, predicate]
    exact R.deeper _ (R.bind_done _ (predicate_alike term current owner))
  | .matchText chain kind value, current, owner => by
    rw [predicate, predicate]
    exact R.deeper _ (walk_alike (textLeaf_alike kind value) chain current owner)
  | .oneOf chain literals, current, owner => by
    rw [predicate, predicate]
    exact R.deeper _ (walk_alike (setLeaf_alike literals) chain current owner)
  | .has chain, current, owner => by
    rw [predicate, predicate]
    exact R.deeper _ (walk_alike hasLeaf_alike chain current owner)
  | .hasWhere chain filter, current, owner => by
    rw [predicate, predicate]
    exact R.deeper _ (walk_alike (hasWhereLeaf_alike (predicate_alike filter)) chain current owner)
  | .isType none type, current, owner => by
    rw [predicate, predicate]
    exact R.deeper _ (R.lookup fun derived => R.done _)
  | .isType (some chain) type, current, owner => by
    rw [predicate, predicate]
    exact R.deeper _ (walk_alike (isTypeLeaf_alike type) chain current owner)
  | .isTypeWhere none type filter, current, owner => by
    rw [predicate, predicate]
    exact R.deeper _ (R.lookup fun derived => typeTest_related (predicate_alike filter) _ _)
  | .isTypeWhere (some chain) type filter, current, owner => by
    rw [predicate, predicate]
    exact R.deeper _
      (walk_alike (isTypeWhereLeaf_alike (predicate_alike filter) type) chain current owner)

theorem predicates_related : ∀ (filters : List Filter) (current : Expr) (owner : ResourceType),
    R.Related ((compiler.withLimit limit).predicates filters current owner)
      ((compiler.withLimit limit').predicates filters current owner)
  | [], current, owner => by
    rw [predicates, predicates]
    exact R.done _
  | filter :: rest, current, owner => by
    rw [predicates, predicates]
    refine R.bind (predicate_alike filter current owner) fun compiled => ?_
    exact R.bind_done _ (predicates_related rest current owner)

end

/-! ## Clauses -/

def ClausesAlike (R : Compile.Congruence limit limit') (clause clause' : Query → Compile Query) :
    Prop :=
  ∀ source, R.Related (clause source) (clause' source)

theorem includedTarget_related (type : ResourceType) (name path : String) :
    R.Related ((compiler.withLimit limit).includedTarget type name path)
      ((compiler.withLimit limit').includedTarget type name path) :=
  R.lookup fun _ => R.ofExcept _

mutual

theorem includePaths_related : ∀ (tree : Include) (type : ResourceType) (above : List String),
    R.Related ((compiler.withLimit limit).includePaths type above tree)
      ((compiler.withLimit limit').includePaths type above tree)
  | ⟨elements⟩, type, above => by
    rw [includePaths, includePaths]
    exact includeElements_related elements type above

theorem includeElements_related :
    ∀ (elements : List (String × Include)) (type : ResourceType) (above : List String),
      R.Related ((compiler.withLimit limit).includeElements type above elements)
        ((compiler.withLimit limit').includeElements type above elements)
  | [], type, above => by
    rw [includeElements, includeElements]
    exact R.done _
  | (name, below) :: rest, type, above => by
    rw [includeElements, includeElements]
    refine R.bind (R.deeper _ ?_) fun here => ?_
    · refine R.bind (includedTarget_related type name _) fun target => ?_
      split
      · exact R.done _
      · exact includePaths_related below target _
    · exact R.bind_done _ (includeElements_related rest type above)

end

theorem includeClause_alike (tree : Include) (type : ResourceType) :
    ClausesAlike R (fun source => (compiler.withLimit limit).includeClause source tree type)
      fun source => (compiler.withLimit limit').includeClause source tree type :=
  fun _ => R.bind_done _ (includePaths_related tree type [])

theorem filterClause_alike (filter : Filter) (v : Variable) (type : ResourceType) :
    ClausesAlike R (fun source => (compiler.withLimit limit).filterClause source filter v type)
      fun source => (compiler.withLimit limit').filterClause source filter v type :=
  fun _ => R.bind_done _ (predicate_alike filter _ _)

theorem sortValue_alike (target : Target) :
    Alike R ((compiler.withLimit limit).sortValue target)
      ((compiler.withLimit limit').sortValue target) := by
  intro current owner
  cases target with
  | field chain =>
    refine R.bind (singleValue_related R _ _ _ _) fun found => ?_
    obtain ⟨value, resolved⟩ := found
    simp only
    split
    · exact R.done _
    · exact R.fail _
    · exact R.fail _
  | count chain =>
    exact R.bind (singleValue_related R _ _ _ _) fun found => R.lookup fun _ => R.done _

theorem orderByKeys_related (v : Variable) (type : ResourceType) :
    ∀ (keys : List SortKey) (thenBy : Bool) (query : Query),
      R.Related ((compiler.withLimit limit).orderByKeys v type keys thenBy query)
        ((compiler.withLimit limit').orderByKeys v type keys thenBy query)
  | [], _, _ => R.done _
  | key :: rest, _, _ =>
    R.bind (sortValue_alike key.target _ _) fun _ => orderByKeys_related v type rest true _

theorem sortClause_alike (sorting : Sorting) (v : Variable) (type : ResourceType) :
    ClausesAlike R (fun source => (compiler.withLimit limit).sortClause source sorting v type)
      fun source => (compiler.withLimit limit').sortClause source sorting v type := by
  intro source
  unfold sortClause
  split
  · exact R.fail _
  · exact orderByKeys_related v type _ _ _

theorem optionally_alike {α : Type} {clause clause' : α → Query → Compile Query}
    (each : ∀ value, ClausesAlike R (clause value) (clause' value)) (value? : Option α) :
    ClausesAlike R (optionally clause value?) (optionally clause' value?) := by
  cases value? with
  | none => exact fun _ => R.done _
  | some value => exact each value

/-! ## Projections -/

structure BindingsAlike (R : Compile.Congruence limit limit') (binding binding' : Binding) :
    Prop where
  sameName : binding.name = binding'.name
  values : ∀ current resolved,
    R.Related (binding.value current resolved) (binding'.value current resolved)

theorem plainBinding_alike (name : String) :
    BindingsAlike R (plainBinding name) (plainBinding name) :=
  ⟨rfl, fun _ _ => R.done _⟩

def AllAlike (R : Compile.Congruence limit limit') (bindings bindings' : List Binding) : Prop :=
  ∃ pairs : List (Binding × Binding), pairs.map Prod.fst = bindings ∧
    pairs.map Prod.snd = bindings' ∧ ∀ pair ∈ pairs, BindingsAlike R pair.1 pair.2

theorem AllAlike.withIdentity {bindings bindings' : List Binding}
    (alike : AllAlike R bindings bindings') (type : ResourceType) :
    AllAlike R ((compiler.withLimit limit).withIdentity type bindings)
      ((compiler.withLimit limit').withIdentity type bindings') := by
  obtain ⟨pairs, rfl, rfl, each⟩ := alike
  have present : (pairs.map Prod.fst).any (fun binding => binding.name = type.idField) =
      (pairs.map Prod.snd).any fun binding => binding.name = type.idField := by
    have names : pairs.map (fun pair => pair.1.name) = pairs.map fun pair => pair.2.name :=
      List.map_congr_left fun pair member => (each pair member).sameName
    rw [List.any_map, List.any_map]
    simpa only [List.any_map, Function.comp_def] using
      congrArg (List.any · fun name => decide (name = type.idField)) names
  change AllAlike R (compiler.withIdentity type _) (compiler.withIdentity type _)
  unfold Compiler.withIdentity
  rw [present]
  split
  · refine ⟨pairs ++ [(plainBinding type.idField, plainBinding type.idField)], ?_, ?_, ?_⟩
    · rw [List.map_append]
      rfl
    · rw [List.map_append]
      rfl
    · exact List.forall_mem_append.mpr
        ⟨each, List.forall_mem_singleton.mpr (plainBinding_alike type.idField)⟩
  · exact ⟨pairs, rfl, rfl, each⟩

theorem resolveBindings_alike (compiler : Compiler) (type : ResourceType)
    {pairs : List (Binding × Binding)}
    (each : ∀ pair ∈ pairs, BindingsAlike R pair.1 pair.2) :
    (∃ error,
      (compiler.withLimit limit).resolveBindings type (pairs.map Prod.fst) = .fail error ∧
      (compiler.withLimit limit').resolveBindings type (pairs.map Prod.snd) = .fail error) ∨
    ∃ triples : List ((Binding × Binding) × ResolvedField),
      (compiler.withLimit limit).resolveBindings type (pairs.map Prod.fst) =
        .done (triples.map fun triple => (triple.1.1, triple.2)) ∧
      (compiler.withLimit limit').resolveBindings type (pairs.map Prod.snd) =
        .done (triples.map fun triple => (triple.1.2, triple.2)) ∧
      ∀ triple ∈ triples, BindingsAlike R triple.1.1 triple.1.2 := by
  induction pairs with
  | nil => exact .inr ⟨[], rfl, rfl, fun triple member => by cases member⟩
  | cons pair rest ih =>
    obtain ⟨here, later⟩ := List.forall_mem_cons.mp each
    rw [List.map_cons, List.map_cons, resolveBindings, resolveBindings, ← here.sameName]
    simp only [resolve, withLimit] at ih ⊢
    cases compiler.schema.resolve type pair.1.name pair.1.name with
    | error error => exact .inl ⟨error, rfl, rfl⟩
    | ok field =>
      obtain ⟨error, first, second⟩ | ⟨triples, first, second, alike⟩ := ih later
      · refine .inl ⟨error, ?_, ?_⟩
        · rw [first]
          rfl
        · rw [second]
          rfl
      · refine .inr ⟨(pair, field) :: triples, ?_, ?_, List.forall_mem_cons.mpr ⟨here, alike⟩⟩
        · rw [first]
          rfl
        · rw [second]
          rfl

theorem boundValues_related (current : Expr)
    (triples : List ((Binding × Binding) × ResolvedField))
    (each : ∀ triple ∈ triples, BindingsAlike R triple.1.1 triple.1.2) :
    R.Related (boundValues current (triples.map fun triple => (triple.1.1, triple.2)))
      (boundValues current (triples.map fun triple => (triple.1.2, triple.2))) := by
  induction triples with
  | nil => exact R.done _
  | cons triple rest ih =>
    obtain ⟨here, later⟩ := List.forall_mem_cons.mp each
    refine R.bind ?_ fun entry => R.bind_done _ (ih later)
    simp only [← here.sameName]
    exact R.bind_done _ (here.values current triple.2)

theorem record_alike {bindings bindings' : List Binding} (alike : AllAlike R bindings bindings') :
    Alike R ((compiler.withLimit limit).record bindings)
      ((compiler.withLimit limit').record bindings') := by
  intro current type
  obtain ⟨pairs, firsts, seconds, each⟩ :
      AllAlike R ((compiler.withLimit limit).withIdentity type bindings)
        ((compiler.withLimit limit').withIdentity type bindings') := alike.withIdentity type
  rw [record, record, ← firsts, ← seconds]
  obtain ⟨error, first, second⟩ | ⟨triples, first, second, resolved⟩ :=
    resolveBindings_alike compiler type each
  · rw [first, second]
    exact R.fail error
  · rw [first, second]
    let before : (Binding × Binding) × ResolvedField → (Binding × Binding) × ResolvedField → Bool :=
      fun x y => bindsBefore type.idField x.1.1.name y.1.1.name
    have sortedFirst : (triples.mergeSort before).map (fun triple => (triple.1.1, triple.2)) =
        (triples.map fun triple => (triple.1.1, triple.2)).mergeSort
          fun x y => bindsBefore type.idField x.1.name y.1.name :=
      List.map_mergeSort fun _ _ _ _ => rfl
    have sortedSecond : (triples.mergeSort before).map (fun triple => (triple.1.2, triple.2)) =
        (triples.map fun triple => (triple.1.2, triple.2)).mergeSort
          fun x y => bindsBefore type.idField x.1.name y.1.name := by
      refine List.map_mergeSort fun x isFirst y isSecond => ?_
      simp only [before, (resolved x isFirst).sameName, (resolved y isSecond).sameName]
    have bound := boundValues_related current (triples.mergeSort before)
      fun triple member => resolved triple (List.mem_mergeSort.mp member)
    rw [sortedFirst, sortedSecond] at bound
    exact R.bind_done _ bound

/-! ## Nested layers -/

def BodiesAlike (R : Compile.Congruence limit limit') :
    Option (Expr → ResourceType → Compile Expr) → Option (Expr → ResourceType → Compile Expr) →
      Prop :=
  Option.Rel (Alike R)

theorem nestedValue_related (layer : Layer) {apply apply' : Query → ResourceType → Compile Query}
    (applied : ∀ type, ClausesAlike R (fun source => apply source type)
      fun source => apply' source type)
    {body? body?' : Option (Expr → ResourceType → Compile Expr)}
    (bodies : BodiesAlike R body? body?') (accessor : Expr) (resolved : ResolvedField) :
    R.Related ((compiler.withLimit limit).nestedValue layer apply body? accessor resolved)
      ((compiler.withLimit limit').nestedValue layer apply' body?' accessor resolved) := by
  unfold nestedValue
  cases resolved.kind with
  | «attribute» _ _ => exact R.fail _
  | toOne _ =>
    refine R.lookup fun target => ?_
    split
    · exact R.fail _
    · cases bodies with
      | none => exact R.done _
      | some alike =>
        refine R.deeper _ (R.bind_done _ ?_)
        exact R.mapError (CompileError.keepsLimit_within _) (alike _ target)
  | toMany _ =>
    refine R.lookup fun target => R.deeper _ (R.bind_done _ ?_)
    exact R.mapError (CompileError.keepsLimit_within _) (applied target _)

/-! ## Layers -/

mutual

theorem applyLayer_alike : ∀ (layer : Layer) (type : ResourceType),
    ClausesAlike R (fun source => (compiler.withLimit limit).applyLayer layer source type)
      fun source => (compiler.withLimit limit').applyLayer layer source type
  | ⟨name, tree, filter, sort, page, projection⟩, type, source => by
    have bodies := projectionBody_alike projection
    simp only [applyLayer]
    split
    · refine R.bind (optionally_alike (fun tree => includeClause_alike tree type) tree _)
        fun included => ?_
      refine R.bind (optionally_alike (fun filter _ => R.withVariable _ fun v =>
        filterClause_alike filter v type _) filter _) fun filtered => ?_
      refine R.bind (optionally_alike (fun sorting _ => R.withVariable _ fun v =>
        sortClause_alike sorting v type _) sort _) fun sorted => ?_
      refine R.bind (optionally_alike (fun page _ => R.done _) page _) fun paged => ?_
      generalize (compiler.withLimit limit).projectionBody projection = body? at bodies ⊢
      generalize (compiler.withLimit limit').projectionBody projection = body?' at bodies ⊢
      cases bodies with
      | none => exact R.done _
      | some alike => exact R.withVariable _ fun v => R.bind_done _ (alike _ type)
    · exact R.fail _

theorem layerBody_alike : ∀ layer : Layer,
    BodiesAlike R ((compiler.withLimit limit).layerBody layer)
      ((compiler.withLimit limit').layerBody layer)
  | ⟨_, _, _, _, _, projection⟩ => by
    rw [layerBody, layerBody]
    exact projectionBody_alike projection

theorem projectionBody_alike : ∀ projection : Option (List Selection),
    BodiesAlike R ((compiler.withLimit limit).projectionBody projection)
      ((compiler.withLimit limit').projectionBody projection)
  | none => by
    rw [projectionBody, projectionBody]
    exact .none
  | some selections => by
    rw [projectionBody, projectionBody]
    split
    · exact .none
    · exact .some (record_alike (bindings_alike selections))

theorem bindings_alike : ∀ selections : List Selection,
    AllAlike R ((compiler.withLimit limit).bindings selections)
      ((compiler.withLimit limit').bindings selections)
  | [] => ⟨[], by rw [bindings]; rfl, by rw [bindings]; rfl, fun pair member => by cases member⟩
  | selection :: rest => by
    obtain ⟨pairs, firsts, seconds, each⟩ := bindings_alike rest
    rw [bindings, bindings, ← firsts, ← seconds]
    exact ⟨(_, _) :: pairs, rfl, rfl, List.forall_mem_cons.mpr ⟨binding_alike selection, each⟩⟩

theorem binding_alike : ∀ selection : Selection,
    BindingsAlike R ((compiler.withLimit limit).binding selection)
      ((compiler.withLimit limit').binding selection)
  | .field name => by
    rw [binding, binding]
    exact plainBinding_alike name
  | .nested name layer => by
    rw [binding, binding]
    exact ⟨rfl, nestedValue_related layer (applyLayer_alike layer) (layerBody_alike layer)⟩

end

theorem selectClause_alike (selections : List Selection) (v : Variable) (type : ResourceType) :
    ClausesAlike R
      (fun source => (compiler.withLimit limit).selectClause source selections v type)
      fun source => (compiler.withLimit limit').selectClause source selections v type :=
  fun _ => R.bind_done _ (record_alike (bindings_alike selections) v.accessor type)

theorem compileIn_related (compiler : Compiler) (R : Compile.Congruence limit limit')
    (layer : Layer) :
    R.Related ((compiler.withLimit limit).compileIn layer)
      ((compiler.withLimit limit').compileIn layer) :=
  R.lookup fun type => applyLayer_alike layer type _

end Compiler

end LayeredQuery
