import LayeredQuery.Proofs.Compiler.Showing
import LayeredQuery.Proofs.Execution

/-!
# What projections show

The plan of a layer with a projection ends in making one object of each row that reaches it. Such an
object has the selected names, and the identity where it comes along, with the value that each name
means for the row; no type tag is left anywhere in it. There is an object for every row if the keys
of all sorts that the projection asks for preorder what they sort.
-/

set_option autoImplicit false

namespace LayeredQuery

def Evaluator.select (evaluator : Evaluator) (selector : Lambda) (rows : List Json) :
    Except RunError (List Json) :=
  mapItems (fun row => evaluator.apply selector row []) rows

/-- The plan of a layer with a projection ends in making, of each tagged row that reaches it, one
object that shows what the projection selects of the row, in the order of the rows. It makes them
with every sorter just when the keys of all sorts in the projection preorder what they sort, and
otherwise there is no error but that of a sort. -/
theorem execute_shows {types : List ResourceType} {schema : Schema} {settings : Settings}
    {layer : Layer} {selections : List Selection} {query : Query}
    (built : Schema.build types = .ok schema)
    (compiled : Compiler.compile ⟨schema, settings⟩ layer = .ok query)
    (projected : layer.selections? = some selections) :
    ∃ type input selector, schema.type? layer.type = some type ∧
      query = .select input selector ∧
      ∀ (store : Store) (rows : List Json),
        (∀ row ∈ rows, ∃ stored item, schema.isSameOrDerived stored type.name = true ∧
          schema.tag stored item = .ok row) →
        (∀ row ∈ rows, schema.attributesPass AttributeTest.texts row = true) →
        (∀ sorter error, (Evaluator.plain schema store sorter).select selector rows =
          .error error → error = .disordered) ∧
        ((∀ sorter, ∃ made, (Evaluator.plain schema store sorter).select selector rows =
            .ok made) ↔
          ∀ row ∈ rows, schema.SelectionsOrderly selections type row) ∧
        ∀ sorter made, (Evaluator.plain schema store sorter).select selector rows = .ok made →
          ∃ shown, query.answer schema made = .ok shown ∧
            ((Evaluator.plain schema store sorter).run input = .ok rows →
              (Evaluator.plain schema store sorter).execute query = .ok shown) ∧
            List.Forall₂ (schema.ObjectShows settings selections type) rows shown ∧
            ∀ value ∈ shown, value.tagFree = true := by
  have coherent := Schema.build_coherent built
  obtain ⟨type, found, yielded⟩ := Compiler.applyLayer_of_compile compiled
  have known := Schema.mem_of_type? found
  obtain ⟨input, _, ends⟩ := Compiler.applyLayer_cases yielded
  obtain ⟨isProjection, nonempty⟩ := Layer.projection_of_selections? projected
  rw [isProjection, Compiler.projectionBody_some nonempty] at ends
  obtain ⟨isNone, _⟩ | ⟨body, built, v, isBody, isBuilt, rfl⟩ := ends
  · cases isNone
  cases isBody
  refine ⟨type, input, v.lambda built, found, rfl, ?_⟩
  intro store rows tagged texts
  have resources : ∀ row ∈ rows, schema.Resource AttributeTest.texts type.name row := by
    intro row member
    obtain ⟨stored, item, derived, isTagged⟩ := tagged row member
    exact (coherent.resource_of_tag isTagged (texts row member)).of_derived coherent derived
  have selects : ∀ sorter, (Evaluator.plain schema store sorter).select (v.lambda built) rows =
      unlessDisordered (rows.mapM (schema.object? sorter settings selections type)) := by
    intro sorter
    have faithful :=
      Evaluator.plain_faithful AttributeTest.texts_sound coherent store sorter settings
    exact Compiler.select_runs
      (Compiler.record_makes faithful (Compiler.selections_make faithful selections)) []
      known isBuilt resources
  obtain ⟨noOther, runs⟩ := disordered_or_ok selects
  refine ⟨noOther, runs.trans ?_, fun sorter made isSelected => ?_⟩
  · simp only [isSome_mapM_iff, schema.selectionsOrderly_iff settings]
    exact ⟨fun all row member sorter => all sorter row member,
      fun all sorter row member => all row member sorter⟩
  · have isMade := mapM_eq_some_iff.mp
      (unlessDisordered_eq_ok.mp ((selects sorter).symm.trans isSelected))
    have shown := Compiler.Shows.forall₂
      (Compiler.record_shows coherent (Compiler.selections_show coherent selections)) isBuilt known
      isMade
    refine ⟨made.map Json.untag, rfl, fun reached => ?_, shown, ?_⟩
    · exact Evaluator.execute_select reached isSelected
    · exact List.forall_mem_map.mpr fun value _ => Json.tagFree_untag value

namespace Feed

def blogOf (posts : List Json) : Json :=
  .ofEntries [("owner", .ofEntries [("name", .string "Ann"), ("posts", .array posts)])]

def shortBlog : Json :=
  blogOf [.ofEntries [("published", .string "2024-05-01T12:00:00Z"),
      ("comments", .array [.ofEntries [("text", .string "Later")]])],
    .ofEntries [("published", .string "2024-05-01T13:30:00+02:00"),
      ("comments", .array [.ofEntries [("text", .string "Sooner"),
        ("writer", .ofEntries [("name", .string "Bo")])]])]]

def longBlog : Json := blogOf posts

def selections : List Selection :=
  [.nested "owner" ⟨"people", none, none, none, none,
    some [.nested "posts" ⟨"posts", none, none, some byDate, none,
      some [.nested "comments"
        ⟨"comments", some ⟨[("writer", .empty)]⟩, none, none, none, none⟩]⟩]⟩]

def blogs : Layer := ⟨"blogs", none, none, none, none, some selections⟩

def shownBlog : Json :=
  .ofEntries [("owner", .ofEntries [("posts", .array [
    .ofEntries [("comments", .array [.ofEntries [("text", .string "Sooner"),
      ("writer", .ofEntries [("name", .string "Bo")])]])],
    .ofEntries [("comments", .array [.ofEntries [("text", .string "Later")]])]])])]

def made? (blog : Json) : Option (Except RunError (List Json)) :=
  match Compiler.compile ⟨schema, Shelf.settings⟩ blogs, schema.tag "blogs" blog with
  | .ok (.select _ selector), .ok row =>
    some ((Evaluator.plain schema .empty .standard).select selector [row])
  | _, _ => none

theorem exists_of_made? {blog : Json} {result : Except RunError (List Json)}
    (isMade : made? blog = some result) :
    ∃ input selector row,
      Compiler.compile ⟨schema, Shelf.settings⟩ blogs = .ok (.select input selector) ∧
      schema.tag "blogs" blog = .ok row ∧
      (Evaluator.plain schema .empty .standard).select selector [row] = result := by
  unfold made? at isMade
  split at isMade
  · rename_i input selector row compiled tagged
    exact ⟨input, selector, row, compiled, tagged, Option.some.inj isMade⟩
  · cases isMade

end Feed

theorem execute_shows_feed :
    ∃ type input selector row made value,
      Compiler.compile ⟨Feed.schema, Shelf.settings⟩ Feed.blogs = .ok (.select input selector) ∧
      Feed.schema.tag "blogs" Feed.shortBlog = .ok row ∧
      (Evaluator.plain Feed.schema .empty .standard).select selector [row] = .ok made ∧
      (Query.select input selector).answer Feed.schema made = .ok [value] ∧
      value.beq Feed.shownBlog = true ∧
      Feed.schema.ObjectShows Shelf.settings Feed.selections type row value := by
  have built : Schema.build Feed.declared = .ok Feed.schema := rfl
  have decided : (Feed.made? Feed.shortBlog).map (Except.map fun made =>
      Json.beqItems (made.map Json.untag) [Feed.shownBlog]) = some (.ok true) := by
    decide +kernel
  obtain ⟨result, isMade, isShown⟩ := Option.map_eq_some_iff.mp decided
  obtain ⟨input, selector, row, compiled, tagged, selected⟩ := Feed.exists_of_made? isMade
  obtain ⟨made, rfl⟩ : ∃ made, result = .ok made := by
    cases result with
    | error _ => cases isShown
    | ok made => exact ⟨made, rfl⟩
  have texts : Feed.schema.attributesPass AttributeTest.texts row = true := by
    cases tagged
    decide +kernel
  obtain ⟨type, input', selector', found, isSelect, shows⟩ := execute_shows built compiled rfl
  cases isSelect
  have derived : Feed.schema.isSameOrDerived "blogs" type.name = true := by
    cases found
    decide +kernel
  obtain ⟨_, _, shows⟩ := shows .empty [row]
    (List.forall_mem_singleton.mpr ⟨"blogs", Feed.shortBlog, derived, tagged⟩)
    (List.forall_mem_singleton.mpr texts)
  obtain ⟨shown, answered, _, each, _⟩ := shows .standard made selected
  obtain ⟨value, here, rfl⟩ : ∃ value,
      Feed.schema.ObjectShows Shelf.settings Feed.selections type row value ∧ shown = [value] := by
    cases each with
    | cons here rest =>
      cases rest
      exact ⟨_, here, rfl⟩
  have untagged : made.map Json.untag = [value] := Except.ok.inj answered
  have isShown : Json.beqItems (made.map Json.untag) [Feed.shownBlog] = true :=
    Except.ok.inj isShown
  rw [untagged, Json.beqItems, Bool.and_eq_true] at isShown
  exact ⟨type, input, selector, row, made, value, compiled, tagged, selected, answered, isShown.1,
    here⟩

theorem select_disordered :
    ∃ input selector row,
      Compiler.compile ⟨Feed.schema, Shelf.settings⟩ Feed.blogs = .ok (.select input selector) ∧
      Feed.schema.tag "blogs" Feed.longBlog = .ok row ∧
      Feed.schema.attributesPass AttributeTest.texts row = true ∧
      (Evaluator.plain Feed.schema .empty .standard).select selector [row] =
        .error .disordered := by
  have failed : (Feed.made? Feed.longBlog).map (Except.map fun _ => ()) =
      some (.error .disordered) := by decide +kernel
  obtain ⟨result, isMade, failed⟩ := Option.map_eq_some_iff.mp failed
  obtain ⟨input, selector, row, compiled, tagged, selected⟩ := Feed.exists_of_made? isMade
  refine ⟨input, selector, row, compiled, tagged, ?_, selected.trans (eq_error_of_map failed)⟩
  cases tagged
  decide +kernel

end LayeredQuery
