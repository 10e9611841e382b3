import LayeredQuery.Proofs.Evaluation.Shape
import LayeredQuery.Proofs.Filtering

/-!
# Answers expose included relationships only

The answer to a query without a projection shows each resource in its shape. Of a resource that is
tagged throughout the shape keeps everything but the tags and the relationships that the include
tree leaves out, where what a relationship is depends on the concrete type of each object, however
the object was reached. So nothing can be learnt from an answer about relationships left out.
-/

set_option autoImplicit false

namespace LayeredQuery

/-- A position that leads through relationships is seen in the shape of a resource exactly when the
tree includes the relationships on the way, and there the shape exposes what the tree includes and
no more. Resources that differ in other relationships only have the same shape. -/
theorem shape_exposes {types : List ResourceType} {schema : Schema} {type : String} {row : Json}
    (built : Schema.build types = .ok schema) (tagged : schema.wellTagged type row = true)
    (tree : Include) :
    (∀ path, schema.crosses row path = true →
      (((schema.shape type tree row).at? path).isSome = true ↔
        (row.at? path).isSome = true ∧ tree.includes (path.map Step.name) = true) ∧
      ∀ stored shown, row.at? path = some stored →
        (schema.shape type tree row).at? path = some shown →
        schema.Exposes tree (path.map Step.name) stored shown) ∧
    ∀ other, schema.Alike tree row other →
      schema.shape type tree other = schema.shape type tree row := by
  have coherent := Schema.build_coherent built
  refine ⟨fun path crossed => ?_, fun other alike => (alike.shape_eq coherent type).symm⟩
  obtain ⟨target, isTarget, seen⟩ := Schema.at?_shape coherent path type tree row tagged crossed
  rw [seen, Include.includes]
  refine ⟨?_, fun stored shown isStored isShown => ?_⟩
  · cases tree.below? (path.map Step.name) <;> cases row.at? path <;> simp
  · obtain ⟨below, included, isShown⟩ := Option.bind_eq_some_iff.mp isShown
    rw [isStored, Option.map_some, Option.some.injEq] at isShown
    subst isShown
    exact Schema.exposes_shape coherent (isTarget stored isStored) included

namespace Shelf

def bareBook : Json :=
  .ofEntries [("id", .number (.ofSize 1)), ("title", .string "Hard Times"),
    ("author", .ofEntries [("$type", .string "authors"), ("penName", .string "Boz")])]

def authorTree : Include :=
  ⟨[("author", .empty)]⟩

end Shelf

theorem shape_exposes_shelf :
    ∃ row bare author, Shelf.schema.tag "books" Shelf.book = .ok row ∧
      Shelf.schema.tag "books" Shelf.bareBook = .ok bare ∧
      (Shelf.schema.shape "books" Shelf.authorTree row).at? [⟨"author", none⟩] = some author ∧
      author.held? "penName" = some (.string "Boz") ∧
      row.carries "reviews" = true ∧
      (Shelf.schema.shape "books" Shelf.authorTree row).carries "reviews" = false ∧
      Shelf.schema.shape "books" Shelf.authorTree bare =
        Shelf.schema.shape "books" Shelf.authorTree row := by
  have built : Schema.build Shelf.declared = .ok Shelf.schema := rfl
  obtain ⟨row, isRow⟩ : ∃ row, Shelf.schema.tag "books" Shelf.book = .ok row := ⟨_, rfl⟩
  obtain ⟨bare, isBare⟩ : ∃ bare, Shelf.schema.tag "books" Shelf.bareBook = .ok bare := ⟨_, rfl⟩
  have tagged := (Schema.build_coherent built).tag_wellTagged Shelf.book isRow
  obtain ⟨exposed, alike⟩ := shape_exposes built tagged Shelf.authorTree
  cases isRow
  cases isBare
  obtain ⟨seen, shows⟩ := exposed [⟨"author", none⟩] rfl
  obtain ⟨author, isAuthor⟩ := Option.isSome_iff_exists.mp (seen.mpr ⟨rfl, rfl⟩)
  have penName := (shows _ author rfl isAuthor).kept "penName" (by decide) rfl
  have reviews := ((exposed [] rfl).2 _ _ rfl rfl).related "reviews" rfl
  refine ⟨_, _, author, rfl, rfl, isAuthor, penName, rfl, ?_, alike _ ?_⟩
  · exact Bool.eq_false_iff.mpr fun carried => by cases (reviews.mp carried).2
  · exact .object rfl (.same _ _ (.same _ _ (.same _ _ (.dropped rfl rfl (.same _ _ (.nil _ _))))))

end LayeredQuery
