import LayeredQuery.Proofs.Filtering
import LayeredQuery.Proofs.Store.Tags

/-!
# Nothing is lost by tagging

Tagging takes a document apart along the relationships of its concrete types and puts it together
again. What comes out is the same document with tags in it: without tags both are the same, all that
is no resource is kept to the letter, and tagging again finds nothing left to do.
-/

set_option autoImplicit false

namespace LayeredQuery

namespace Schema

/-- A document that tagging accepts is the same as before once the tags are removed, and stays as it
is when it is tagged again. Nothing was done to it but to put tags on the resources in it: keys,
attributes, undeclared values and the items of arrays are those it had, in their order. -/
theorem tag_addsTags {types : List ResourceType} {schema : Schema}
    (built : Schema.build types = .ok schema) {static : String} {value tagged : Json}
    (ordered : value.isOrdered = true) (accepted : schema.tag static value = .ok tagged) :
    tagged.untag = value.untag ∧ schema.tag static tagged = .ok tagged ∧
      schema.AddsTags value tagged ∧ tagged.isOrdered = true := by
  have coherent := Schema.build_coherent built
  have adds := addsTags_of_tag value ordered accepted
  have orderedAgain := adds.isOrdered ordered
  have wellTagged := coherent.tag_wellTagged value accepted
  exact ⟨adds.untag_eq, tag_of_wellTagged tagged orderedAgain wellTagged, adds, orderedAgain⟩

end Schema

namespace Shelf

def reviewed : Json :=
  .ofEntries [("title", .string "Bleak House"),
    ("author", .ofEntries [("penName", .string "Boz"), ("$type", .string "authors")]),
    ("reviews", .array [.ofEntries [("stars", .number (.ofSize 4))], .null]),
    ("cover", .ofEntries [("$type", .string "pictures")])]

end Shelf

theorem Schema.tag_addsTags_reviewed :
    ∃ tagged, Shelf.schema.tag "books" Shelf.reviewed = .ok tagged ∧
      tagged.untag = Shelf.reviewed.untag ∧ Shelf.schema.tag "books" tagged = .ok tagged ∧
      Shelf.schema.AddsTags Shelf.reviewed tagged := by
  have built : Schema.build Shelf.declared = .ok Shelf.schema := rfl
  obtain ⟨tagged, accepted⟩ : ∃ tagged, Shelf.schema.tag "books" Shelf.reviewed = .ok tagged :=
    exists_eq_ok (by decide +kernel)
  obtain ⟨same, again, adds, _⟩ := Schema.tag_addsTags built (by decide +kernel) accepted
  exact ⟨tagged, accepted, same, again, adds⟩

end LayeredQuery
