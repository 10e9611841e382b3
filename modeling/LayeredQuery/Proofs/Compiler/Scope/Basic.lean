import LayeredQuery.Proofs.Compiler.FreshNames
import LayeredQuery.Proofs.Compiler.Outcome
import LayeredQuery.Proofs.Plan.Scope

/-!
# Scopes of compiled plans

Every part of a compilation keeps one invariant on the names given out: the names added are those
that the part binds, each for one binder only. Since all names in scope were given out before, a new
name takes none of theirs, so what is compiled in a scope is well scoped in it. Accessors of outer
scopes can be copied into inner lambdas because they bind nothing themselves.
-/

set_option autoImplicit false

namespace LayeredQuery

/-! ## Names given out -/

/-- How the names given out grow while something with the given binders is compiled. -/
structure Issues (before after : List String) (binders : List (List String)) : Prop where
  kept : before ⊆ after
  fresh : ∀ binder ∈ binders, ∀ name ∈ binder, name ∉ before ∧ name ∈ after
  covered : ∀ name ∈ after, name ∈ before ∨ name ∈ binders.flatten
  apart : binders.Pairwise List.Disjoint
  distinct : before.Nodup → after.Nodup

namespace Issues

variable {before between after : List String} {binders others : List (List String)}

theorem nil (names : List String) : Issues names names [] where
  kept := List.Subset.refl names
  fresh binder member := by cases member
  covered name member := .inl member
  apart := .nil
  distinct := id

theorem append (first : Issues before between binders) (second : Issues between after others) :
    Issues before after (binders ++ others) where
  kept := List.Subset.trans first.kept second.kept
  fresh binder member name named := by
    rcases List.mem_append.mp member with early | late
    · exact ⟨(first.fresh binder early name named).1,
        second.kept (first.fresh binder early name named).2⟩
    · exact ⟨fun old => (second.fresh binder late name named).1 (first.kept old),
        (second.fresh binder late name named).2⟩
  covered name member := by
    rw [List.flatten_append, List.mem_append]
    rcases second.covered name member with early | late
    · exact (first.covered name early).imp_right .inl
    · exact .inr (.inr late)
  apart := by
    refine List.pairwise_append.mpr ⟨first.apart, second.apart, ?_⟩
    intro binder early other late name named taken
    exact (second.fresh other late name taken).1 (first.fresh binder early name named).2
  distinct := second.distinct ∘ first.distinct

theorem fresh_name {name : String} (issues : Issues before after [[name]]) :
    name ∉ before ∧ name ∈ after :=
  issues.fresh [name] (by simp) name (by simp)

theorem issue (names : ScopeNames) (element : String) :
    Issues names.issued (names.issue element).2.issued [[(names.issue element).1.name]] := by
  have isFresh := ScopeNames.freshName_not_mem names.issued element
  simp only [ScopeNames.issue]
  refine ⟨List.subset_cons_self _ _, ?_, ?_, List.pairwise_singleton _ _,
    fun distinct => List.nodup_cons.mpr ⟨isFresh, distinct⟩⟩
  · intro binder member name named
    obtain rfl := List.mem_singleton.mp member
    obtain rfl := List.mem_singleton.mp named
    exact ⟨isFresh, List.mem_cons_self⟩
  · intro name member
    simpa [or_comm] using member

end Issues

/-! ## Expressions -/

/-- An expression that reads variables of a scope and binds none. -/
structure Expr.Reads (expression : Expr) (scope : List String) : Prop where
  wellScoped : expression.wellScoped scope = true
  binders : expression.binders = []

/-- An expression that is well scoped in a scope and binds the names given out for it. -/
structure Expr.Fits (expression : Expr) (scope before after : List String) : Prop where
  wellScoped : expression.wellScoped scope = true
  issues : Issues before after expression.binders

structure Lambda.Fits (lambda : Lambda) (scope before after : List String) : Prop where
  wellScoped : lambda.wellScoped scope = true
  issues : Issues before after ([lambda.parameter] :: lambda.inner)

theorem Expr.Reads.fits {expression : Expr} {scope : List String} (reads : expression.Reads scope)
    (names : List String) : expression.Fits scope names names :=
  ⟨reads.wellScoped, reads.binders ▸ .nil names⟩

theorem Variable.accessor_reads (v : Variable) (scope : List String) :
    v.accessor.Reads (v.name :: scope) :=
  ⟨by simp [Variable.accessor], by simp [Variable.accessor]⟩

theorem ResolvedField.access_reads {current : Expr} {scope : List String}
    (reads : current.Reads scope) (resolved : ResolvedField) :
    (resolved.access current).Reads scope := by
  unfold ResolvedField.access
  split
  · exact ⟨by simpa using reads.wellScoped, by simpa using reads.binders⟩
  · exact ⟨by simpa using reads.wellScoped, by simpa using reads.binders⟩

theorem Variable.lambda_wellScoped {v : Variable} {body : Expr} {scope : List String}
    (isNew : v.name ∉ scope) (wellScoped : body.wellScoped (v.name :: scope) = true) :
    (v.lambda body).wellScoped scope = true := by
  simp [Variable.lambda, isNew, wellScoped]

/-- The body of a lambda is compiled after its variable is named, in the scope with that name. -/
theorem Variable.lambda_fits {v : Variable} {body : Expr} {scope before between after : List String}
    (within : scope ⊆ before) (named : Issues before between [[v.name]])
    (fits : body.Fits (v.name :: scope) between after) :
    (v.lambda body).Fits scope before after := by
  have isNew : v.name ∉ scope := fun inScope => named.fresh_name.1 (within inScope)
  exact ⟨v.lambda_wellScoped isNew fits.wellScoped, named.append fits.issues⟩

namespace Compile

variable {α β : Type} {scope : List String}

/-! ### Looking up -/

/-- A compilation that only looks something up, which is of some kind, and gives out no name. -/
def Looks (computation : Compile α) (kind : α → Prop) : Prop :=
  ∀ before value after, computation.outcome? before = some (value, after) →
    kind value ∧ after.names = before.names

theorem looks_done {kind : α → Prop} {value : α} (isKind : kind value) :
    Looks (done value) kind := by
  intro before found after ended
  cases ended
  exact ⟨isKind, rfl⟩

theorem looks_fail (error : CompileError) (kind : α → Prop) : Looks (fail error) kind := by
  intro before found after ended
  cases ended

theorem looks_ofExcept (result : Except CompileError α) :
    Looks (ofExcept result) fun value => result = .ok value := by
  cases result with
  | error error => exact looks_fail error _
  | ok value => exact looks_done rfl

theorem looks_bind {first : Compile α} {next : α → Compile β} {P : α → Prop} {Q : β → Prop}
    (looks : Looks first P) (continued : ∀ value, P value → Looks (next value) Q) :
    Looks (first >>= next) Q := by
  intro before value after ended
  obtain ⟨middle, between, begun, ended⟩ := outcome?_of_bind ended
  obtain ⟨isKind, same⟩ := looks before middle between begun
  obtain ⟨isKind', same'⟩ := continued middle isKind between value after ended
  exact ⟨isKind', same'.trans same⟩

theorem looks_mapError {f : CompileError → CompileError} {computation : Compile α}
    {kind : α → Prop} (looks : Looks computation kind) : Looks (mapError f computation) kind := by
  intro before value after ended
  rw [outcome?_mapError] at ended
  exact looks before value after ended

theorem looks_deeper {limit : Nat} {path : String} {computation : Compile α} {kind : α → Prop}
    (looks : Looks computation kind) : Looks (deeper limit path computation) kind := by
  intro before value after ended
  obtain ⟨lower, below, same, same', inner⟩ := outcome?_of_deeper ended
  obtain ⟨isKind, unchanged⟩ := looks lower value below inner
  exact ⟨isKind, by rw [same', unchanged, same]⟩

/-! ### Fitting a scope -/

/-- A compilation of an expression that fits any context in which the names of a scope were given
out. -/
def Fits (computation : Compile Expr) (scope : List String) : Prop :=
  ∀ before body after, computation.outcome? before = some (body, after) →
    scope ⊆ before.names.issued → body.Fits scope before.names.issued after.names.issued

theorem fits_done {body : Expr} (reads : body.Reads scope) : Fits (done body) scope := by
  intro before result after ended _
  cases ended
  exact reads.fits _

theorem fits_fail (error : CompileError) : Fits (fail error) scope := by
  intro before result after ended
  cases ended

theorem fits_bind {first : Compile α} {next : α → Compile Expr} {kind : α → Prop}
    (looks : Looks first kind) (continued : ∀ value, kind value → Fits (next value) scope) :
    Fits (first >>= next) scope := by
  intro before body after ended within
  obtain ⟨middle, between, begun, ended⟩ := outcome?_of_bind ended
  obtain ⟨isKind, same⟩ := looks before middle between begun
  rw [← same] at within ⊢
  exact continued middle isKind between body after ended within

theorem fits_mapError {f : CompileError → CompileError} {computation : Compile Expr}
    (fits : Fits computation scope) : Fits (mapError f computation) scope := by
  intro before body after ended
  rw [outcome?_mapError] at ended
  exact fits before body after ended

theorem fits_deeper {limit : Nat} {path : String} {computation : Compile Expr}
    (fits : Fits computation scope) : Fits (deeper limit path computation) scope := by
  intro before body after ended within
  obtain ⟨lower, below, same, same', inner⟩ := outcome?_of_deeper ended
  rw [← same] at within ⊢
  rw [same']
  exact fits lower body below inner within

/-! ### New variables -/

/-- A new variable has a name that was not given out, and ending its scope takes back none. -/
theorem outcome?_of_withVariable {element : String} {computation : Variable → Compile α}
    {before after : Context} {value : α}
    (ended : outcome? (withVariable element computation) before = some (value, after)) :
    ∃ v between inner, Issues before.names.issued between.names.issued [[v.name]] ∧
      after.names.issued = inner.names.issued ∧
      outcome? (computation v) between = some (value, inner) := by
  rw [outcome?_withVariable] at ended
  obtain ⟨⟨value', inner⟩, body, same⟩ := Option.map_eq_some_iff.mp ended
  cases same
  exact ⟨_, _, inner, Issues.issue before.names element, rfl, body⟩

theorem lambda_fits_of_withVariable {element : String}
    {computation : Variable → Compile Expr} {wrap : Lambda → α} {before after : Context} {value : α}
    (fits : ∀ v, Fits (computation v) (v.name :: scope)) (within : scope ⊆ before.names.issued)
    (ended : outcome? (withVariable element fun v => do
      let body ← computation v
      done (wrap (v.lambda body))) before = some (value, after)) :
    ∃ lambda, value = wrap lambda ∧
      lambda.Fits scope before.names.issued after.names.issued := by
  obtain ⟨v, between, inner, named, same, ended⟩ := outcome?_of_withVariable ended
  obtain ⟨body, _, compiled, ended⟩ := outcome?_of_bind ended
  cases ended
  have covered : v.name :: scope ⊆ between.names.issued :=
    List.cons_subset.mpr ⟨named.fresh_name.2, List.Subset.trans within named.kept⟩
  rw [same]
  have bodyFits := fits v between body inner compiled covered
  exact ⟨v.lambda body, rfl, v.lambda_fits within named bodyFits⟩

theorem fits_anyWhere {element : String} {source : Expr} {computation : Variable → Compile Expr}
    (reads : source.Reads scope) (fits : ∀ v, Fits (computation v) (v.name :: scope)) :
    Fits (withVariable element fun v => do
      let body ← computation v
      done (.anyWhere source (v.lambda body))) scope := by
  intro before result after ended within
  obtain ⟨lambda, rfl, lambdaFits⟩ := lambda_fits_of_withVariable fits within ended
  refine ⟨?_, ?_⟩
  · simp [reads.wellScoped, lambdaFits.wellScoped]
  · simpa [reads.binders] using lambdaFits.issues

end Compile

end LayeredQuery
