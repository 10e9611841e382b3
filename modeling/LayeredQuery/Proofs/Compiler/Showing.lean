import LayeredQuery.Proofs.Compiler.Loading
import LayeredQuery.Proofs.Meaning.Route
import LayeredQuery.Proofs.Meaning.Shown

/-!
# What compiled layers show

The object that a compiled projection makes of a resource shows, once the type tags in it are gone,
what the projection selects, and the answer of a compiled layer shows what the layer chooses. That a
projection compiles makes its names public, so that none of them is lost like a tag.
-/

set_option autoImplicit false

namespace LayeredQuery

namespace Compiler

variable {compiler : Compiler} {sorter : Sorter KeyedRow}

/-! ## Names -/

theorem mem_names_allSelections {settings : Settings} {type : ResourceType}
    {selections : List Selection} {name : String} :
    name ∈ (allSelections settings type selections).map Selection.name ↔
      name ∈ selections.map Selection.name ∨
        (settings.alwaysIncludeIdentity = true ∧ name = type.idField) := by
  have present : (selections.any fun selection => selection.name = type.idField) = true ↔
      type.idField ∈ selections.map Selection.name := by simp
  unfold allSelections
  cases settings.alwaysIncludeIdentity with
  | false => simp
  | true =>
    cases isPresent : selections.any fun selection => selection.name = type.idField with
    | false => simp [Selection.name]
    | true =>
      rw [isPresent, eq_self, true_iff] at present
      simp only [Bool.not_true, Bool.and_false, Bool.false_eq_true, if_false, true_and]
      exact ⟨.inl, fun either => either.elim id fun isIdentity => isIdentity ▸ present⟩

section

variable {schema : Schema} {settings : Settings} {type : ResourceType} {row : Json}
  {selections : List Selection} {entries : List (String × Json)}

theorem last?_identityEntries {name : String} (selected : name ∈ selections.map Selection.name) :
    Json.last? name (schema.identityEntries settings selections type row) = none := by
  rw [Json.last?_eq_none_iff, Schema.identityEntries]
  split
  · rename_i absent
    rw [Bool.and_eq_true, Bool.not_eq_true', List.any_eq_false] at absent
    obtain ⟨selection, member, rfl⟩ := List.mem_map.mp selected
    exact fun isIdentity => absent.2 selection member
      (decide_eq_true (List.mem_singleton.mp isIdentity))
  · exact List.not_mem_nil

theorem identityEntries_of_absent (always : settings.alwaysIncludeIdentity = true)
    (absent : type.idField ∉ selections.map Selection.name) :
    schema.identityEntries settings selections type row =
      [(type.idField, schema.fieldValue type type.idField row)] := by
  have unselected : (selections.any fun selection => selection.name = type.idField) = false := by
    simpa using absent
  rw [Schema.identityEntries, always, unselected]
  rfl

theorem keys_of_made
    (made : List.Forall₂ (fun selection entry =>
      (schema.selected? sorter settings selection type row).map (selection.name, ·) = some entry)
      selections entries) :
    Keyed.keys entries = selections.map Selection.name := by
  induction made with
  | nil => rfl
  | cons here _ ih =>
    obtain ⟨value, _, rfl⟩ := Option.map_eq_some_iff.mp here
    exact congrArg (_ :: ·) ih

/-- The last entry of a selected name has the value of the last selection of that name. -/
theorem entriesShow_of_last? {shown : List (String × Json)}
    (made : List.Forall₂ (fun selection entry =>
      (schema.selected? sorter settings selection type row).map (selection.name, ·) = some entry)
      selections entries)
    (each : ∀ selection ∈ selections, ∀ value,
      schema.selected? sorter settings selection type row = some value →
        schema.SelectionShows settings selection type row value.untag)
    (last : ∀ name value, Json.last? name entries = some value →
      Keyed.lookup? name shown = some value.untag) :
    schema.EntriesShow settings selections type row shown := by
  induction made with
  | nil => trivial
  | @cons selection entry rest others here made ih =>
    obtain ⟨isShown, later⟩ := List.forall_mem_cons.mp each
    obtain ⟨value, isValue, rfl⟩ := Option.map_eq_some_iff.mp here
    rw [Schema.EntriesShow]
    constructor
    · intro isLast
      rw [← keys_of_made made, ← Json.last?_eq_none_iff] at isLast
      refine ⟨value.untag, last _ _ ?_, isShown value isValue⟩
      rw [Json.last?_cons, isLast, Option.none_or, if_pos rfl]
    · refine ih later fun name value isLater => last name value ?_
      rw [Json.last?_cons, isLater, Option.some_or]

end

theorem allSelections_public (coherent : compiler.schema.Coherent) {type : ResourceType}
    {selections : List Selection} {current body : Expr} (known : type ∈ compiler.schema.types)
    (yielded : (compiler.record (compiler.bindings selections) current type).Yields body) :
    ∀ selection ∈ allSelections compiler.settings type selections,
      isPublicName selection.name = true := by
  obtain ⟨resolved, isResolved, _⟩ := Compile.yields_bind yielded
  rw [withIdentity_bindings] at isResolved
  obtain ⟨pairs, firsts, _, found⟩ := resolveBindings_found isResolved
  intro selection member
  rw [← firsts] at member
  obtain ⟨pair, isPair, rfl⟩ := List.mem_map.mp member
  exact coherent.isPublicName_of_fieldOn? known (found pair isPair)

/-! ## Objects -/

theorem map_untag_untag (values : List Json) :
    (values.map Json.untag).map Json.untag = values.map Json.untag := by
  rw [List.map_map]
  exact List.map_congr_left fun value _ => Json.untag_of_tagFree (Json.tagFree_untag value)

/-- What is compiled for an element of a type makes values that show something, less their tags. -/
def Shows (compiler : Compiler) (compile : Expr → ResourceType → Compile Expr)
    (object : ResourceType → Json → Option Json) (shows : ResourceType → Json → Json → Prop) :
    Prop :=
  ∀ current type body row value, (compile current type).Yields body →
    type ∈ compiler.schema.types → object type row = some value → shows type row value.untag

theorem Shows.forall₂ {compile : Expr → ResourceType → Compile Expr}
    {object : ResourceType → Json → Option Json} {shows : ResourceType → Json → Json → Prop}
    {current body : Expr} {type : ResourceType} {rows values : List Json}
    (objects : compiler.Shows compile object shows) (yielded : (compile current type).Yields body)
    (known : type ∈ compiler.schema.types)
    (made : List.Forall₂ (fun row value => object type row = some value) rows values) :
    List.Forall₂ (shows type) rows (values.map Json.untag) :=
  List.forall₂_map_right_iff.mpr
    (made.imp fun row value found => objects _ _ _ row value yielded known found)

def BindingShows (compiler : Compiler) (binding : Binding)
    (meaning : ResourceType → Json → Option Json) (shows : ResourceType → Json → Json → Prop) :
    Prop :=
  ∀ resolved current type body row value, (binding.value current resolved).Yields body →
    type ∈ compiler.schema.types → compiler.schema.fieldOn? type binding.name = some resolved →
    meaning type row = some value → shows type row value.untag

/-- The object of a compiled projection shows what the projection selects. -/
theorem record_shows (coherent : compiler.schema.Coherent) {selections : List Selection}
    (each : ∀ selection ∈ selections, compiler.BindingShows (compiler.binding selection)
      (compiler.schema.selected? sorter compiler.settings selection)
      (compiler.schema.SelectionShows compiler.settings selection)) :
    compiler.Shows (compiler.record (compiler.bindings selections))
      (compiler.schema.object? sorter compiler.settings selections)
      (compiler.schema.ObjectShows compiler.settings selections) := by
  intro current type body row value yielded known made
  obtain ⟨entries, isMade, rfl⟩ := Option.map_eq_some_iff.mp made
  have all := entries_eq_mapM compiler.schema sorter compiler.settings selections type row
  rw [isMade, Option.map_some] at all
  have allMade := keys_of_made (mapM_eq_some_iff.mp all.symm)
  rw [Schema.selectedEntries?_eq_mapM, mapM_eq_some_iff] at isMade
  have noTag : typeTag ∉ Keyed.keys
      (entries ++ compiler.schema.identityEntries compiler.settings selections type row) := by
    rw [allMade]
    intro isTag
    obtain ⟨selection, member, isTag⟩ := List.mem_map.mp isTag
    have isPublic := allSelections_public coherent known yielded selection member
    rw [isTag] at isPublic
    exact absurd isPublic (by decide)
  obtain ⟨shown, isShown, found⟩ := Json.untag_ofEntries noTag
  refine ⟨shown, isShown, ?_, ?_, ?_⟩
  · intro name
    rw [← mem_names_allSelections, ← allMade, Keyed.mem_keys_iff, found, Option.isSome_map,
      ← Option.ne_none_iff_isSome, Ne, Json.last?_eq_none_iff, not_not]
  · refine entriesShow_of_last? isMade (fun selection member value isValue => ?_)
      fun name value isLast => ?_
    · obtain ⟨_, resolved, built, _, isField, isBuilt, _⟩ := record_bound yielded member
      exact each selection member _ _ _ _ _ _ isBuilt known (binding_name selection ▸ isField)
        isValue
    · have selected : name ∈ selections.map Selection.name := by
        rw [← keys_of_made isMade]
        by_contra absent
        exact nomatch (Json.last?_eq_none_iff.mpr absent).symm.trans isLast
      rw [found, Json.last?_append, last?_identityEntries selected, Option.none_or, isLast]
      rfl
  · intro always absent
    refine ⟨_, ?_, Json.strips_untag _⟩
    rw [found, Json.last?_append, identityEntries_of_absent always absent, Json.last?_cons,
      if_pos rfl]
    rfl

/-! ## Nested layers -/

/-- What clauses answer shows something, less its tags. -/
def ClausesShow (compiler : Compiler) (apply : Query → ResourceType → Compile Query)
    (answer : ResourceType → List Json → Option (List Json))
    (shows : ResourceType → List Json → List Json → Prop) : Prop :=
  ∀ source type query rows answered, (apply source type).Yields query →
    type ∈ compiler.schema.types → answer type rows = some answered →
    shows type rows (answered.map Json.untag)

inductive ShowsObject (compiler : Compiler) : Option (Expr → ResourceType → Compile Expr) →
    Option (ResourceType → Json → Option Json) → Option (ResourceType → Json → Json → Prop) → Prop
  | none : compiler.ShowsObject none none none
  | some {body : Expr → ResourceType → Compile Expr} {object : ResourceType → Json → Option Json}
      {one : ResourceType → Json → Json → Prop} (shows : compiler.Shows body object one) :
      compiler.ShowsObject (some body) (some object) (some one)

theorem nestedValue_shows {name : String} {layer : Layer}
    {apply : Query → ResourceType → Compile Query}
    {answer : ResourceType → List Json → Option (List Json)}
    {many : ResourceType → List Json → List Json → Prop}
    {body? : Option (Expr → ResourceType → Compile Expr)}
    {object? : Option (ResourceType → Json → Option Json)}
    {one? : Option (ResourceType → Json → Json → Prop)}
    (answers : compiler.ClausesShow apply answer many)
    (objects : compiler.ShowsObject body? object? one?) :
    compiler.BindingShows
      ⟨name, fun accessor resolved => compiler.nestedValue layer apply body? accessor resolved⟩
      (compiler.schema.relatedValue? object? answer · name)
      (compiler.schema.RelatedShows one? many · name) := by
  intro resolved current owner body row value yielded known found made
  have found : compiler.schema.fieldOn? owner name = some resolved := found
  simp only [Schema.relatedValue?, found] at made
  simp only [Schema.RelatedShows, found]
  cases related : compiler.schema.targetOf? resolved with
  | none =>
    simp only [related, Option.some.injEq] at made
    exact made ▸ rfl
  | some target =>
    simp only [related] at made
    cases kind : resolved.kind.isToMany with
    | true =>
      simp only [kind, if_true] at made
      obtain ⟨answered, isAnswered, rfl⟩ := Option.map_eq_some_iff.mp made
      obtain ⟨other, items, query, isTarget, targetKnown, _, isQuery⟩ :=
        nestedValue_toMany yielded kind
      cases isTarget.symm.trans related
      have shown := answers _ _ _ _ _ isQuery targetKnown isAnswered
      rw [Json.untag, Json.untagItems_eq_map]
      exact ⟨_, rfl, shown⟩
    | false =>
      simp only [kind, Bool.false_eq_true, if_false] at made ⊢
      cases objects with
      | none =>
        cases made
        exact Json.strips_untag _
      | some shows =>
        obtain ⟨_, built, _, isBuilt⟩ := nestedValue_toOne yielded kind related
        dsimp only at made ⊢
        split at made
        · rename_i isNull
          cases made
          rw [if_pos isNull]
          rfl
        · rename_i isResource
          rw [if_neg isResource]
          exact shows _ _ _ _ _ isBuilt (Schema.mem_of_targetOf? related) made

/-! ## Layers -/

mutual

/-- The answer of a compiled layer shows what the layer chooses. -/
theorem applyLayer_shows (coherent : compiler.schema.Coherent) :
    ∀ layer : Layer, compiler.ClausesShow (compiler.applyLayer layer)
      (compiler.schema.answers? sorter compiler.settings layer)
      (compiler.schema.LayerShows compiler.settings layer)
  | ⟨name, tree, filter, sort, page, projection⟩, source, type, query, rows, answered, yielded,
      known, found => by
    rw [Schema.answers?] at found
    obtain ⟨chosen, isChosen, isAnswer⟩ := Option.bind_eq_some_iff.mp found
    obtain ⟨ordered, isOrdered, rfl⟩ := Option.map_eq_some_iff.mp isChosen
    rw [Schema.LayerShows]
    refine ⟨ordered, Schema.sortsTo_of_ordered? isOrdered, ?_⟩
    obtain ⟨paged, _, built⟩ := applyLayer_cases yielded
    have objects := projectionBody_shows coherent projection
    dsimp only at built
    generalize compiler.projectionBody projection = body? at built objects
    generalize compiler.schema.projected? sorter compiler.settings projection = object?
      at isAnswer objects
    generalize compiler.schema.projectionShows? compiler.settings projection = one? at objects ⊢
    cases objects with
    | none =>
      cases isAnswer
      rw [List.map_map]
      exact List.forall₂_map_right_iff.mpr (List.forall₂_same.mpr fun _ _ => Json.strips_untag _)
    | some shows =>
      obtain ⟨noBody, _⟩ | ⟨_, _, v, isBody, isBuilt, _⟩ := built
      · cases noBody
      cases isBody
      obtain ⟨values, areValues, rfl⟩ := Option.map_eq_some_iff.mp isAnswer
      rw [map_untag_untag]
      exact shows.forall₂ isBuilt known (mapM_eq_some_iff.mp areValues)

theorem layerBody_shows (coherent : compiler.schema.Coherent) :
    ∀ layer : Layer, compiler.ShowsObject (compiler.layerBody layer)
      (compiler.schema.layerObject? sorter compiler.settings layer)
      (compiler.schema.layerShows? compiler.settings layer)
  | ⟨_, _, _, _, _, projection⟩ => by
    rw [layerBody, Schema.layerObject?, Schema.layerShows?]
    exact projectionBody_shows coherent projection

theorem projectionBody_shows (coherent : compiler.schema.Coherent) :
    ∀ projection : Option (List Selection),
      compiler.ShowsObject (compiler.projectionBody projection)
        (compiler.schema.projected? sorter compiler.settings projection)
        (compiler.schema.projectionShows? compiler.settings projection)
  | none => by
    rw [projectionBody, Schema.projected?, Schema.projectionShows?]
    exact .none
  | some selections => by
    rw [projectionBody, Schema.projected?, Schema.projectionShows?]
    split
    · exact .none
    · exact .some (record_shows coherent (selections_show coherent selections))

theorem selections_show (coherent : compiler.schema.Coherent) :
    ∀ (selections : List Selection), ∀ selection ∈ selections,
      compiler.BindingShows (compiler.binding selection)
        (compiler.schema.selected? sorter compiler.settings selection)
        (compiler.schema.SelectionShows compiler.settings selection)
  | [] => by
    intro selection member
    cases member
  | first :: rest => List.forall_mem_cons.mpr
    ⟨selection_shows coherent first, selections_show coherent rest⟩

theorem selection_shows (coherent : compiler.schema.Coherent) :
    ∀ selection : Selection, compiler.BindingShows (compiler.binding selection)
      (compiler.schema.selected? sorter compiler.settings selection)
      (compiler.schema.SelectionShows compiler.settings selection)
  | .field name, resolved, current, type, body, row, value, yielded, known, found, made => by
    rw [Schema.selected?, Option.some.injEq] at made
    rw [Schema.SelectionShows, ← made]
    exact Json.strips_untag _
  | .nested name layer, resolved, current, type, body, row, value, yielded, known, found, made => by
    rw [binding] at yielded found
    rw [Schema.selected?] at made
    rw [Schema.SelectionShows]
    exact nestedValue_shows (applyLayer_shows coherent layer) (layerBody_shows coherent layer)
      _ _ _ _ _ _ yielded known found made

end

end Compiler

end LayeredQuery
