import LayeredQuery.Proofs.Compiler.Scope.Basic

/-!
# Scopes of compiled filters

A chain with a single value reads the variable it starts from and binds nothing. Any other chain
binds a variable for each relationship to many that it crosses, and a filter binds what its parts
bind, in the order they are compiled.
-/

set_option autoImplicit false

namespace LayeredQuery

namespace Compiler

open Compile

variable {compiler : Compiler} {scope : List String}

/-- What is compiled for an element fits every scope that the element is read in. -/
def Scoped (compile : Expr → ResourceType → Compile Expr) : Prop :=
  ∀ scope current owner, current.Reads scope → (compile current owner).Fits scope

def LeafScoped (leaf : Leaf) : Prop :=
  ∀ scope value resolved path, value.Reads scope → (leaf value resolved path).Fits scope

/-! ## Chains -/

theorem singleValueFrom_looks {chain : Chain} :
    ∀ (names : List String) (taken : Nat) (current : Expr) (owner : ResourceType),
      current.Reads scope →
      (compiler.singleValueFrom chain names taken current owner).Looks
        fun found => found.1.Reads scope := by
  intro names
  induction names with
  | nil => exact fun _ _ _ _ => looks_fail _ _
  | cons name rest ih =>
    intro taken current owner reads
    cases rest with
    | nil =>
      rw [singleValueFrom]
      refine looks_bind (looks_ofExcept _) fun resolved _ => ?_
      exact looks_done (resolved.access_reads reads)
    | cons next rest =>
      rw [singleValueFrom]
      refine looks_bind (looks_ofExcept _) fun resolved _ => ?_
      cases resolved.kind with
      | «attribute» _ _ => exact looks_fail _ _
      | toMany _ => exact looks_fail _ _
      | toOne _ =>
        refine looks_deeper (looks_bind (looks_ofExcept _) fun target _ => ?_)
        exact ih _ _ _ (resolved.access_reads reads)

theorem singleValue_looks {chain : Chain} {current : Expr} {owner : ResourceType}
    {f : CompileError → CompileError} (reads : current.Reads scope) :
    (Compile.mapError f (compiler.singleValue chain current owner)).Looks
      fun found => found.1.Reads scope :=
  looks_mapError (singleValueFrom_looks _ _ _ _ reads)

theorem walkFrom_scoped {chain : Chain} {leaf : Leaf} (leafScoped : LeafScoped leaf) :
    ∀ (names : List String) (taken : Nat) (scope : List String) (current : Expr)
      (owner : ResourceType), current.Reads scope →
      (compiler.walkFrom chain leaf names taken current owner).Fits scope := by
  intro names
  induction names with
  | nil => exact fun _ _ _ _ _ => fits_fail _
  | cons name rest ih =>
    intro taken scope current owner reads
    cases rest with
    | nil =>
      rw [walkFrom]
      refine fits_bind (looks_ofExcept _) fun resolved _ => ?_
      exact leafScoped _ _ _ _ (resolved.access_reads reads)
    | cons next rest =>
      rw [walkFrom]
      refine fits_bind (looks_ofExcept _) fun resolved _ => ?_
      have read := resolved.access_reads reads
      cases resolved.kind with
      | «attribute» _ _ => exact fits_fail _
      | toOne _ =>
        refine fits_bind (looks_ofExcept _) fun target _ => fits_deeper ?_
        exact ih _ _ _ _ read
      | toMany _ =>
        refine fits_bind (looks_ofExcept _) fun target _ => fits_deeper ?_
        refine fits_anyWhere read fun v => ?_
        exact ih _ _ _ _ (v.accessor_reads scope)

theorem walk_scoped {leaf : Leaf} (leafScoped : LeafScoped leaf) (chain : Chain) :
    Scoped fun current owner => compiler.walk chain current owner leaf := by
  intro scope current owner reads
  exact walkFrom_scoped leafScoped _ _ _ _ _ reads

/-! ## Leaves -/

theorem fits_operator {operand result : Expr} (reads : operand.Reads scope)
    (wellScoped : result.wellScoped scope = operand.wellScoped scope)
    (binders : result.binders = operand.binders) : (done result).Fits scope :=
  fits_done ⟨wellScoped.trans reads.wellScoped, binders.trans reads.binders⟩

theorem fieldLeaf_scoped (relation : Relation) (literal : Literal) :
    LeafScoped (fieldLeaf relation literal) := by
  intro scope value resolved path reads
  refine fits_bind (looks_ofExcept _) fun _ _ => ?_
  exact fits_operator reads (by simp) (by simp)

theorem countLeaf_scoped (relation : Relation) (literal : Literal) :
    LeafScoped (countLeaf relation literal) := by
  intro scope value resolved path reads
  refine fits_bind (looks_ofExcept _) fun _ _ => ?_
  split
  · exact fits_operator reads (by simp) (by simp)
  · exact fits_fail _

theorem textLeaf_scoped (kind : TextMatch) (needle : String) :
    LeafScoped (textLeaf kind needle) := by
  intro scope value resolved path reads
  unfold textLeaf
  split
  · exact fits_operator reads (by simp) (by simp)
  · exact fits_fail _

theorem setLeaf_scoped (literals : List Literal) : LeafScoped (setLeaf literals) := by
  intro scope value resolved path reads
  unfold setLeaf
  split
  · exact fits_fail _
  · refine fits_bind (looks_ofExcept _) fun _ _ => ?_
    split
    · exact fits_operator reads (by simp) (by simp)
    · exact fits_fail _

theorem hasLeaf_scoped : LeafScoped hasLeaf := by
  intro scope value resolved path reads
  refine fits_bind (looks_ofExcept _) fun _ _ => ?_
  exact fits_operator reads (by simp) (by simp)

theorem hasWhereLeaf_scoped {inner : Expr → ResourceType → Compile Expr}
    (innerScoped : Scoped inner) : LeafScoped (compiler.hasWhereLeaf inner) := by
  intro scope value resolved path reads
  refine fits_bind (looks_ofExcept _) fun _ _ => fits_bind (looks_ofExcept _) fun target _ => ?_
  refine fits_anyWhere reads fun v => fits_mapError ?_
  exact innerScoped _ _ _ (v.accessor_reads scope)

theorem narrowed_looks (resolved : ResolvedField) (path type : String) :
    (compiler.narrowed resolved path type).Looks fun _ => True := by
  unfold narrowed
  split
  · refine looks_bind (looks_ofExcept _) fun target _ => ?_
    exact fun before value after ended => ⟨trivial, (looks_ofExcept _ before value after ended).2⟩
  · exact looks_fail _ _

theorem isTypeLeaf_scoped (type : String) : LeafScoped (compiler.isTypeLeaf type) := by
  intro scope value resolved path reads
  refine fits_bind (narrowed_looks resolved path type) fun derived _ => ?_
  exact fits_operator reads (by simp) (by simp)

theorem cast_reads {operand : Expr} (reads : operand.Reads scope) (element : String) :
    (Expr.cast operand element).Reads scope :=
  ⟨by simpa using reads.wellScoped, by simpa using reads.binders⟩

theorem typeTest_scoped {operand : Expr} {inner : Expr → ResourceType → Compile Expr}
    (innerScoped : Scoped inner) (reads : operand.Reads scope) (derived : ResourceType) :
    (typeTest operand derived inner).Fits scope := by
  intro before result after ended within
  obtain ⟨body, between, compiled, ended⟩ := outcome?_of_bind ended
  cases ended
  have fits := innerScoped scope _ derived (cast_reads reads derived.element) before body _
    compiled within
  refine ⟨?_, ?_⟩
  · simp [reads.wellScoped, fits.wellScoped]
  · simpa [reads.binders] using fits.issues

theorem isTypeWhereLeaf_scoped {inner : Expr → ResourceType → Compile Expr}
    (innerScoped : Scoped inner) (type : String) :
    LeafScoped (compiler.isTypeWhereLeaf type inner) := by
  intro scope value resolved path reads
  refine fits_bind (narrowed_looks resolved path type) fun derived _ => ?_
  refine typeTest_scoped (fun scope current owner reads => ?_) reads derived
  exact fits_mapError (innerScoped scope current owner reads)

/-! ## Comparisons -/

theorem scalar_looks (target : Target) {current : Expr} {owner : ResourceType}
    (reads : current.Reads scope) :
    (compiler.scalar target current owner).Looks fun found => found.1.Reads scope := by
  cases target with
  | field chain =>
    refine looks_bind (singleValue_looks reads) fun found isRead => ?_
    obtain ⟨value, resolved⟩ := found
    simp only
    split
    · exact looks_done isRead
    · exact looks_fail _ _
  | count chain =>
    refine looks_bind (singleValue_looks reads) fun found isRead => ?_
    refine looks_bind (looks_ofExcept _) fun _ _ => looks_done ?_
    exact ⟨by simpa using isRead.wellScoped, by simpa using isRead.binders⟩

theorem compareTargets_scoped (left : Target) (relation : Relation) (right : Target) :
    Scoped (compiler.compareTargets left relation right) := by
  intro scope current owner reads
  refine fits_bind (scalar_looks left reads) fun first isFirst => ?_
  refine fits_bind (scalar_looks right reads) fun second isSecond => ?_
  simp only
  split
  · split
    · exact fits_fail _
    · refine fits_done ⟨?_, ?_⟩
      · simp [isFirst.wellScoped, isSecond.wellScoped]
      · simp [isFirst.binders, isSecond.binders]
  · exact fits_fail _

theorem compareWithConstant_scoped (target : Target) (relation : Relation) (literal : Literal) :
    Scoped (compiler.compareWithConstant target relation literal) := by
  cases target with
  | field chain => exact walk_scoped (fieldLeaf_scoped relation literal) chain
  | count chain => exact walk_scoped (countLeaf_scoped relation literal) chain

theorem comparison_scoped (left : Operand) (relation : Relation) (right : Operand) :
    Scoped (compiler.comparison left relation right) := by
  cases left with
  | constant a =>
    cases right with
    | constant b =>
      intro scope current owner _
      refine fits_bind (looks_ofExcept _) fun _ _ => fits_done ⟨?_, ?_⟩
      · simp
      · simp
    | target t => exact compareWithConstant_scoped t relation.reversed a
  | target t =>
    cases right with
    | constant b => exact compareWithConstant_scoped t relation b
    | target u => exact compareTargets_scoped t relation u

/-! ## Filters -/

structure TermsFit (terms : List Expr) (scope before after : List String) : Prop where
  wellScoped : Expr.allWellScoped scope terms = true
  issues : Issues before after (Expr.allBinders terms)

theorem connect_fits {terms : List Expr} {before after : List String}
    (fit : TermsFit terms scope before after) (connective : Connective) :
    (connect connective terms).Fits scope before after := by
  cases connective with
  | and => exact ⟨by simpa [connect] using fit.wellScoped, by simpa [connect] using fit.issues⟩
  | or => exact ⟨by simpa [connect] using fit.wellScoped, by simpa [connect] using fit.issues⟩

mutual

/-- A compiled filter fits every scope that its element is read in. -/
theorem predicate_scoped : ∀ filter : Filter, Scoped (compiler.predicate filter)
  | .compare left relation right => by
    intro scope current owner reads
    rw [predicate]
    exact fits_deeper (comparison_scoped left relation right scope current owner reads)
  | .logical connective terms => by
    intro scope current owner reads
    rw [predicate]
    refine fits_deeper ?_
    split
    · exact fits_fail _
    · intro before body after ended within
      obtain ⟨compiled, _, areCompiled, ended⟩ := outcome?_of_bind ended
      cases ended
      have fit := predicates_fit terms scope current owner before compiled _ reads areCompiled
        within
      exact connect_fits fit connective
  | .not term => by
    intro scope current owner reads
    rw [predicate]
    refine fits_deeper fun before body after ended within => ?_
    obtain ⟨compiled, _, isCompiled, ended⟩ := outcome?_of_bind ended
    cases ended
    have fits := predicate_scoped term scope current owner reads before compiled _ isCompiled within
    exact ⟨by simpa using fits.wellScoped, by simpa using fits.issues⟩
  | .matchText chain kind value => by
    intro scope current owner reads
    rw [predicate]
    exact fits_deeper (walk_scoped (textLeaf_scoped kind value) chain scope current owner reads)
  | .oneOf chain literals => by
    intro scope current owner reads
    rw [predicate]
    exact fits_deeper (walk_scoped (setLeaf_scoped literals) chain scope current owner reads)
  | .has chain => by
    intro scope current owner reads
    rw [predicate]
    exact fits_deeper (walk_scoped hasLeaf_scoped chain scope current owner reads)
  | .hasWhere chain filter => by
    intro scope current owner reads
    rw [predicate]
    exact fits_deeper (walk_scoped (hasWhereLeaf_scoped (predicate_scoped filter)) chain
      scope current owner reads)
  | .isType none type => by
    intro scope current owner reads
    rw [predicate]
    refine fits_deeper (fits_bind (looks_ofExcept _) fun derived _ => ?_)
    exact fits_operator reads (by simp) (by simp)
  | .isType (some chain) type => by
    intro scope current owner reads
    rw [predicate]
    exact fits_deeper (walk_scoped (isTypeLeaf_scoped type) chain scope current owner reads)
  | .isTypeWhere none type filter => by
    intro scope current owner reads
    rw [predicate]
    refine fits_deeper (fits_bind (looks_ofExcept _) fun derived _ => ?_)
    exact typeTest_scoped (predicate_scoped filter) reads derived
  | .isTypeWhere (some chain) type filter => by
    intro scope current owner reads
    rw [predicate]
    exact fits_deeper (walk_scoped (isTypeWhereLeaf_scoped (predicate_scoped filter) type) chain
      scope current owner reads)

theorem predicates_fit : ∀ (filters : List Filter) (scope : List String) (current : Expr)
    (owner : ResourceType) (before : Context) (terms : List Expr) (after : Context),
    current.Reads scope →
    (compiler.predicates filters current owner).outcome? before = some (terms, after) →
    scope ⊆ before.names.issued →
    TermsFit terms scope before.names.issued after.names.issued
  | [], scope, current, owner, before, terms, after, _, ended, _ => by
    rw [predicates] at ended
    cases ended
    exact ⟨rfl, .nil _⟩
  | filter :: rest, scope, current, owner, before, terms, after, reads, ended, within => by
    rw [predicates] at ended
    obtain ⟨term, between, isTerm, ended⟩ := outcome?_of_bind ended
    obtain ⟨others, _, areOthers, ended⟩ := outcome?_of_bind ended
    cases ended
    have first := predicate_scoped filter scope current owner reads before term between isTerm
      within
    have later := predicates_fit rest scope current owner between others _ reads areOthers
      (List.Subset.trans within first.issues.kept)
    refine ⟨?_, ?_⟩
    · simp [first.wellScoped, later.wellScoped]
    · simpa using first.issues.append later.issues

end

end Compiler

end LayeredQuery
