import LayeredQuery.Proofs.Compiler.Depth.Layer
import LayeredQuery.Proofs.Execution

/-!
# The limit of depth bounds plans

A plan compiled under a limit of depth is no deeper than the limit allows: nothing in it lies inside
of more lambdas than the limit and one, no run of member accesses is longer than the limit and one,
and a path that comes along has at most as many names as the limit leaves below the queries around
it.
-/

set_option autoImplicit false

namespace LayeredQuery

/-- No point of a compiled plan lies deeper, ends with a longer run of member accesses or adds a
longer path than the limit of depth allows. -/
theorem compile_withinDepth {types : List ResourceType} {schema : Schema} {settings : Settings}
    {layer : Layer} {plan : Query} (built : Schema.build types = .ok schema)
    (compiled : Compiler.compile ⟨schema, settings⟩ layer = .ok plan) {point : Point}
    (isPoint : plan.HasPoint point) :
    point.around.lambdas ≤ settings.maxDepth + 1 ∧
      point.around.queries + point.segments ≤ settings.maxDepth ∧
      point.run ≤ settings.maxDepth + 1 := by
  have coherent := Schema.build_coherent built
  have outcome : (Compiler.compileIn ⟨schema, settings⟩ layer).outcome? Context.start =
      some (plan, (Compiler.compileIn ⟨schema, settings⟩ layer Context.start).2) :=
    Compile.outcome?_eq_some.mpr (Prod.ext compiled rfl)
  have bounded : (Compiler.compileIn ⟨schema, settings⟩ layer).AtDepth 0
      (Query.Within settings.maxDepth .outermost) := by
    refine Compile.AtDepth.lookup fun type found => ?_
    have nothing : Surroundings.outermost.AtMost 0 0 := ⟨Nat.le_refl _, Nat.le_refl _⟩
    have known := Schema.mem_of_type? (Compiler.type?_of_type found)
    refine Compiler.applyLayer_bounded coherent layer type known 0 .outermost _ (Nat.zero_le _)
      nothing ?_
    exact Point.query_within (nothing.loose.limit (Nat.zero_le _)) rfl
      fun inner member => by cases member
  have fits := (bounded _ _ _ outcome).1 point isPoint
  exact ⟨fits.lambdas, fits.path, fits.run⟩

namespace Shelf

def byAuthor : Layer :=
  ⟨"books", some ⟨[("author", .empty)]⟩, none,
    some ⟨[⟨.field ⟨["author", "name"]⟩, .ascending⟩]⟩, none, none⟩

def byAuthorPlan : Query :=
  .orderBy (.withPath (.source "books" "Book") "author")
    ⟨"book", "Book", .member (.member (.parameter "book") "author") "name"⟩ .ascending false

end Shelf

theorem compile_withinDepth_shelf :
    Compiler.compile ⟨Shelf.schema, ⟨1, false⟩⟩ Shelf.byAuthor = .ok Shelf.byAuthorPlan ∧
      ∃ point, Shelf.byAuthorPlan.HasPoint point ∧ point.run = 1 + 1 ∧
        point.around.lambdas ≤ 1 + 1 ∧ point.around.queries + point.segments ≤ 1 := by
  have built : Schema.build Shelf.declared = .ok Shelf.schema := rfl
  have compiled :
      Compiler.compile ⟨Shelf.schema, ⟨1, false⟩⟩ Shelf.byAuthor = .ok Shelf.byAuthorPlan := rfl
  have isPoint : Shelf.byAuthorPlan.HasPoint (.expr ⟨1, 0⟩
      (.member (.member (.parameter "book") "author") "name")) :=
    .single (List.mem_cons_of_mem _ List.mem_cons_self)
  obtain ⟨lambdas, path, _⟩ := compile_withinDepth built compiled isPoint
  exact ⟨compiled, _, isPoint, rfl, lambdas, path⟩

end LayeredQuery
