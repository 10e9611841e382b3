import Mathlib
import LayeredQuery.Proofs.Compiler.Reordering
import LayeredQuery.Proofs.Filtering

/-!
# The order of a request does not show

Layers that differ in the order of their selections only, at any depth, compile to one plan, with
the same names of range variables, or are both refused. They can be refused for different reasons,
since the first fault in the order of the request is the one reported.
-/

set_option autoImplicit false

namespace LayeredQuery

/-- Two layers that differ in the order of selections compile to the same plan, or both fail. -/
theorem compile_reordered (schema : Schema) (settings : Settings) {layer other : Layer}
    (reordered : layer.Reordered other) (distinct : layer.namesDistinct = true) :
    (∃ plan, Compiler.compile ⟨schema, settings⟩ layer = .ok plan ∧
      Compiler.compile ⟨schema, settings⟩ other = .ok plan) ∨
    (∃ error, Compiler.compile ⟨schema, settings⟩ layer = .error error) ∧
      ∃ error, Compiler.compile ⟨schema, settings⟩ other = .error error := by
  have agree : Compile.Agrees (Compiler.compileIn ⟨schema, settings⟩ layer)
      (Compiler.compileIn ⟨schema, settings⟩ other) := by
    obtain ⟨projections⟩ := reordered
    exact Compile.Agrees.bind_next fun type =>
      Compiler.applyLayer_agrees _ (.layer projections) distinct _ type
  have same : (Compiler.compile ⟨schema, settings⟩ layer).toOption =
      (Compiler.compile ⟨schema, settings⟩ other).toOption := by
    unfold Compiler.compile
    rw [Compile.toOption_fst, Compile.toOption_fst, agree Context.start]
  cases first : Compiler.compile ⟨schema, settings⟩ layer with
  | error error =>
    cases second : Compiler.compile ⟨schema, settings⟩ other with
    | error error' => exact .inr ⟨⟨error, rfl⟩, error', rfl⟩
    | ok _ =>
      rw [first, second] at same
      cases same
  | ok plan =>
    cases second : Compiler.compile ⟨schema, settings⟩ other with
    | error _ =>
      rw [first, second] at same
      cases same
    | ok _ =>
      rw [first, second] at same
      cases same
      exact .inl ⟨plan, rfl, rfl⟩

namespace Shelf

def authorsFirst : Layer :=
  ⟨"books", none, none, none, none,
    some [.nested "author"
        ⟨"people", none, none, none, none, some [.field "name", .field "penName"]⟩,
      .field "title"]⟩

def titlesFirst : Layer :=
  ⟨"books", none, none, none, none,
    some [.field "title",
      .nested "author"
        ⟨"people", none, none, none, none, some [.field "penName", .field "name"]⟩]⟩

end Shelf

theorem compile_reordered_shelf :
    Shelf.authorsFirst.Reordered Shelf.titlesFirst ∧
      ∃ plan, Compiler.compile ⟨Shelf.schema, .default⟩ Shelf.authorsFirst = .ok plan ∧
        Compiler.compile ⟨Shelf.schema, .default⟩ Shelf.titlesFirst = .ok plan := by
  have reordered : Shelf.authorsFirst.Reordered Shelf.titlesFirst :=
    .layer (.some (.cons (.nested "author" (.layer (.some
      (.cons (.field "name") (.cons (.field "penName") .nil)) (.swap _ _ _))))
        (.cons (.field "title") .nil)) (.swap _ _ _))
  refine ⟨reordered, ?_⟩
  obtain ⟨plan, compiled⟩ : ∃ plan,
      Compiler.compile ⟨Shelf.schema, .default⟩ Shelf.authorsFirst = .ok plan :=
    exists_eq_ok (by cbv)
  obtain same | ⟨⟨error, failed⟩, _⟩ :=
    compile_reordered Shelf.schema .default reordered (by decide)
  · exact same
  · rw [compiled] at failed
    cases failed

end LayeredQuery
