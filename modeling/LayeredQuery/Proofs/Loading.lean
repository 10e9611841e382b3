import LayeredQuery.Proofs.Compiler.Loading
import LayeredQuery.Proofs.Execution

/-!
# Include trees are recovered

The engine does not see the include trees of a layer, but reads a tree back from the paths of each
query it runs. That is the tree the layer has, for the plan and for every nested query in it. Trees
only need to be ordered, as all trees are that requests are made of.
-/

set_option autoImplicit false

namespace LayeredQuery

/-- The plan of a layer loads the tree of the layer, and for every layer nested at a relationship to
many the plan holds a query, under the names that lead to the layer, that loads its tree. -/
theorem compile_loads {types : List ResourceType} {schema : Schema} {settings : Settings}
    {layer : Layer} {plan : Query} (built : Schema.build types = .ok schema)
    (compiled : Compiler.compile ⟨schema, settings⟩ layer = .ok plan) :
    (layer.included.isOrdered = true → plan.Loads layer.included) ∧
    ∃ type, schema.type? layer.type = some type ∧
      ∀ path nested, layer.Nests schema type path nested →
        ∃ query, (Expr.rows plan).Holds path query ∧
          (nested.included.isOrdered = true → query.Loads nested.included) := by
  have coherent := Schema.build_coherent built
  obtain ⟨type, found, yielded⟩ := Compiler.applyLayer_of_compile compiled
  have known := Schema.mem_of_type? found
  refine ⟨Compiler.applyLayer_loads coherent yielded known (by rw [Query.paths]), type, found, ?_⟩
  intro path nested nests
  obtain ⟨body, isBody⟩ := Compiler.layerBody_of_nests ⟨schema, settings⟩ nests
  obtain ⟨paged, accessor, selector, isElement, rfl⟩ :=
    Compiler.applyLayer_of_layerBody yielded isBody
  obtain ⟨query, holds, loads⟩ := Compiler.nests_loads coherent nests isBody isElement
  exact ⟨query, .selected holds, loads⟩

namespace Shelf

def shelved : List ResourceType :=
  declared ++ [⟨"shelves", "Shelf", none, "id", .int, [⟨"books", .toMany "books"⟩]⟩]

def shelvedSchema : Schema :=
  ⟨shelved.map (Schema.withIdentity shelved)⟩

def bookTree : Include :=
  ⟨[("author", .empty), ("reviews", .empty)]⟩

def shelves : Layer :=
  ⟨"shelves", some ⟨[("books", bookTree)]⟩, none, none, none,
    some [.nested "books" ⟨"books", some bookTree, none, none, none, none⟩]⟩

end Shelf

theorem compile_loads_shelf :
    ∃ plan query, Compiler.compile ⟨Shelf.shelvedSchema, Shelf.settings⟩ Shelf.shelves = .ok plan ∧
      plan.Loads ⟨[("books", Shelf.bookTree)]⟩ ∧ (Expr.rows plan).Holds ["books"] query ∧
      query.Loads Shelf.bookTree := by
  have built : Schema.build Shelf.shelved = .ok Shelf.shelvedSchema := rfl
  obtain ⟨plan, compiled⟩ : ∃ plan,
      Compiler.compile ⟨Shelf.shelvedSchema, Shelf.settings⟩ Shelf.shelves = .ok plan :=
    exists_eq_ok (by decide +kernel)
  obtain ⟨loads, type, found, each⟩ := compile_loads built compiled
  cases found
  obtain ⟨query, holds, loads'⟩ := each ["books"] _
    (.toMany rfl List.mem_cons_self rfl rfl)
  exact ⟨plan, query, compiled, loads rfl, holds, loads' rfl⟩

end LayeredQuery
