import LayeredQuery.Proofs.Compiler.Congruence
import LayeredQuery.Proofs.Execution

/-!
# The limit of depth only cuts off

A request compiled under a limit of depth is refused for that limit, or comes to exactly what it
comes to under any higher limit: the same plan with the same names, or the same error. So a query
that compiled stays as it is when the limit is raised.
-/

set_option autoImplicit false

namespace LayeredQuery

namespace Compile

variable {α β : Type} {limit limit' : Nat}

/-- A compilation either fails for its limit or does all that another one does. -/
def CutsOff (limit : Nat) (first second : Compile α) : Prop :=
  ∀ context, (∃ path, (first context).1 = .error (.depthExceeded path limit)) ∨
    first context = second context

namespace CutsOff

theorem refl (computation : Compile α) : CutsOff limit computation computation :=
  fun _ => .inr rfl

theorem bind {first second : Compile α} {next other : α → Compile β}
    (cuts : CutsOff limit first second)
    (continued : ∀ value, CutsOff limit (next value) (other value)) :
    CutsOff limit (first >>= next) (second >>= other) := by
  intro context
  rw [bind_apply, bind_apply]
  rcases cuts context with ⟨path, exceeded⟩ | same
  · rcases ended : first context with ⟨result, after⟩
    rw [ended] at exceeded
    subst exceeded
    exact .inl ⟨path, rfl⟩
  · rw [← same]
    rcases first context with ⟨_ | value, after⟩
    · exact .inr rfl
    · exact continued value after

theorem mapError {f : CompileError → CompileError} {first second : Compile α}
    (keeps : CompileError.KeepsLimit f) (cuts : CutsOff limit first second) :
    CutsOff limit (Compile.mapError f first) (Compile.mapError f second) := by
  intro context
  unfold Compile.mapError
  rcases cuts context with ⟨path, exceeded⟩ | same
  · rcases ended : first context with ⟨result, after⟩
    rw [ended] at exceeded
    subst exceeded
    obtain ⟨moved, isMoved⟩ := keeps path limit
    exact .inl ⟨moved, congrArg Except.error isMoved⟩
  · rw [same]
    exact .inr rfl

theorem deeper (raised : limit ≤ limit') (path : String) {first second : Compile α}
    (cuts : CutsOff limit first second) :
    CutsOff limit (Compile.deeper limit path first) (Compile.deeper limit' path second) := by
  intro context
  unfold Compile.deeper Depth.enter?
  by_cases within : context.depth < limit
  · rw [if_pos within, if_pos (Nat.lt_of_lt_of_le within raised)]
    rcases cuts ⟨context.names, context.depth + 1⟩ with ⟨inner, exceeded⟩ | same
    · exact .inl ⟨inner, exceeded⟩
    · simp only [same]
      exact .inr trivial
  · rw [if_neg within]
    exact .inl ⟨path, rfl⟩

theorem withVariable (element : String) {first second : Variable → Compile α}
    (cuts : ∀ v, CutsOff limit (first v) (second v)) :
    CutsOff limit (Compile.withVariable element first) (Compile.withVariable element second) := by
  intro context
  unfold Compile.withVariable
  rcases cuts (context.names.issue element).1 ⟨(context.names.issue element).2, context.depth⟩ with
    ⟨path, exceeded⟩ | same
  · exact .inl ⟨path, exceeded⟩
  · simp only [same]
    exact .inr trivial

def congruence (raised : limit ≤ limit') : Congruence limit limit' where
  Related := CutsOff limit
  done _ := refl _
  fail _ := refl _
  bind := bind
  mapError := mapError
  deeper := deeper raised
  withVariable := withVariable

end CutsOff

end Compile

/-- Under a limit of depth a layer is refused for that limit, or comes to what it comes to under
every higher limit. So what compiled keeps its plan when the limit is raised. -/
theorem compile_cutsOff (compiler : Compiler) (layer : Layer) {limit higher : Nat}
    (raised : limit ≤ higher) :
    ((∃ path, (compiler.withLimit limit).compile layer = .error (.depthExceeded path limit)) ∨
      (compiler.withLimit limit).compile layer = (compiler.withLimit higher).compile layer) ∧
    ∀ plan, (compiler.withLimit limit).compile layer = .ok plan →
      (compiler.withLimit higher).compile layer = .ok plan := by
  have cuts := Compiler.compileIn_related compiler (Compile.CutsOff.congruence raised) layer
    Context.start
  have dichotomy := cuts.imp_right (congrArg Prod.fst)
  refine ⟨dichotomy, fun plan compiled => ?_⟩
  rcases dichotomy with ⟨path, exceeded⟩ | same
  · cases compiled.symm.trans exceeded
  · exact same.symm.trans compiled

/-- The layer of the shelf nests one level too deep for a limit of two, and keeps its plan when the
limit of three is raised. -/
theorem compile_cutsOff_shelf :
    (∃ path, (Compiler.withLimit ⟨Shelf.schema, Shelf.settings⟩ 2).compile Shelf.layer =
      .error (.depthExceeded path 2)) ∧
    ∃ plan, (Compiler.withLimit ⟨Shelf.schema, Shelf.settings⟩ 3).compile Shelf.layer = .ok plan ∧
      (Compiler.withLimit ⟨Shelf.schema, Shelf.settings⟩ 32).compile Shelf.layer = .ok plan := by
  obtain ⟨plan, compiled⟩ : ∃ plan,
      (Compiler.withLimit ⟨Shelf.schema, Shelf.settings⟩ 3).compile Shelf.layer = .ok plan :=
    exists_eq_ok (by decide +kernel)
  have refused : ((Compiler.withLimit ⟨Shelf.schema, Shelf.settings⟩ 2).compile
      Shelf.layer).isOk = false := by decide +kernel
  refine ⟨?_, plan, compiled, (compile_cutsOff _ _ (by decide)).2 plan compiled⟩
  refine (compile_cutsOff _ _ (by decide : 2 ≤ 3)).1.resolve_right fun same => ?_
  rw [same, compiled] at refused
  cases refused

end LayeredQuery
