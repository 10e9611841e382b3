import Mathlib.Data.List.Dedup
import LayeredQuery.Proofs.Compiler.Scope.Layer
import LayeredQuery.Proofs.Execution

/-!
# Compiled plans are well scoped

In the plan of a layer every variable is bound around its uses, no lambda hides another, and lambdas
that do not belong to one chain of orders have different names. No name is given out in vain: those
of the lambdas are those given out.
-/

set_option autoImplicit false

namespace LayeredQuery

theorem Compiler.compileIn_fits {compiler : Compiler} {layer : Layer} {plan : Query}
    {after : Context}
    (compiled : (compiler.compileIn layer).outcome? Context.start = some (plan, after)) :
    plan.Fits [] [] after.names.issued := by
  obtain ⟨type, between, found, applied⟩ := Compile.outcome?_of_bind compiled
  have unchanged := (Compile.looks_ofExcept _ _ _ _ found).2
  have source : (Query.source type.name type.element).Fits [] [] between.names.issued := by
    rw [unchanged]
    exact ⟨by rw [Query.wellScoped], by rw [Query.binders, Query.bindersWith]; exact .nil _⟩
  exact applyLayer_scoped layer type [] [] _ _ _ _ applied (List.Subset.refl _) source

theorem Issues.length_dedup {names : List String} {binders : List (List String)}
    (issues : Issues [] names binders) : binders.flatten.dedup.length = names.length := by
  refine (List.perm_ext_iff_of_nodup (List.nodup_dedup _) (issues.distinct .nil)).mpr ?_
    |>.length_eq
  intro name
  rw [List.mem_dedup]
  constructor
  · intro bound
    obtain ⟨binder, member, named⟩ := List.mem_flatten.mp bound
    exact (issues.fresh binder member name named).2
  · intro given
    exact (issues.covered name given).resolve_left List.not_mem_nil

/-- A compiled plan is well scoped. Two of its lambdas share a name only when both are keys of one
chain of orders, and its lambdas have as many names as were given out. -/
theorem compile_scoped {schema : Schema} {settings : Settings} {layer : Layer} {plan : Query}
    (compiled : Compiler.compile ⟨schema, settings⟩ layer = .ok plan) :
    plan.wellScoped [] = true ∧ plan.binders.Pairwise List.Disjoint ∧
      plan.binders.flatten.dedup.length =
        (Compiler.compileIn ⟨schema, settings⟩ layer Context.start).2.names.issued.length := by
  have outcome : (Compiler.compileIn ⟨schema, settings⟩ layer).outcome? Context.start =
      some (plan, (Compiler.compileIn ⟨schema, settings⟩ layer Context.start).2) :=
    Compile.outcome?_eq_some.mpr (Prod.ext compiled rfl)
  obtain ⟨wellScoped, issues⟩ := Compiler.compileIn_fits outcome
  exact ⟨wellScoped, issues.apart, issues.length_dedup⟩

/-- The plan for the shelf binds a variable in its filter, another one inside of that, and one each
for its sort, its projection and the nested sort and projection. -/
theorem compile_scoped_shelf :
    ∃ plan, Compiler.compile ⟨Shelf.schema, Shelf.settings⟩ Shelf.layer = .ok plan ∧
      plan.wellScoped [] = true ∧ plan.binders.Pairwise List.Disjoint ∧
      plan.binders.flatten.dedup.length = 6 := by
  obtain ⟨plan, compiled⟩ : ∃ plan,
      Compiler.compile ⟨Shelf.schema, Shelf.settings⟩ Shelf.layer = .ok plan :=
    exists_eq_ok (by decide +kernel)
  have issued : (Compiler.compileIn ⟨Shelf.schema, Shelf.settings⟩ Shelf.layer
      Context.start).2.names.issued.length = 6 := by decide +kernel
  obtain ⟨wellScoped, apart, counted⟩ := compile_scoped compiled
  exact ⟨plan, compiled, wellScoped, apart, counted.trans issued⟩

end LayeredQuery
