import LayeredQuery.Proofs.Execution
import LayeredQuery.Proofs.Schema.Descendants

/-!
# What stores hold

Whatever is inserted or loaded, with success or not, a store holds resources that are tagged all the
way down: every related resource carries the name of a known type that derives from the target of
its relationship, where relationships are those of the concrete type of their owner.
-/

set_option autoImplicit false

namespace LayeredQuery

namespace Schema

/-- An object with the name of a known type in its tag, which is or derives from the type expected.
What it holds for a relationship that its concrete type declares or inherits is null or is tagged
as the target, and where there can be many is null or a list of such values. -/
inductive TaggedAs (schema : Schema) : String → Json → Prop
  | object {static concrete : String} {entries : List (String × Json)}
      (tag : Keyed.lookup? typeTag entries = some (.string concrete))
      (known : (schema.type? concrete).isSome) (derives : schema.DerivesFrom concrete static)
      (toOne : ∀ declaring name field target value, schema.DerivesFrom concrete declaring →
        schema.declaredField? declaring name = some field → field.kind = .toOne target →
        Keyed.lookup? name entries = some value → value ≠ .null → TaggedAs schema target value)
      (toMany : ∀ declaring name field target value, schema.DerivesFrom concrete declaring →
        schema.declaredField? declaring name = some field → field.kind = .toMany target →
        Keyed.lookup? name entries = some value → value ≠ .null → ∃ items, value = .array items)
      (items : ∀ declaring name field target items, schema.DerivesFrom concrete declaring →
        schema.declaredField? declaring name = some field → field.kind = .toMany target →
        Keyed.lookup? name entries = some (.array items) → ∀ item ∈ items, item ≠ .null →
        TaggedAs schema target item) :
      TaggedAs schema static (.object entries)

variable {schema : Schema}

theorem Coherent.wellTaggedAs_of_declared (coherent : schema.Coherent) {concrete : String}
    {entries : List (String × Json)} (tagged : schema.wellTaggedEntries concrete entries = true)
    {declaring name : String} {field : Field} {value : Json}
    (derives : schema.DerivesFrom concrete declaring)
    (declared : schema.declaredField? declaring name = some field)
    (found : Keyed.lookup? name entries = some value) :
    schema.wellTaggedAs field.kind value = true := by
  obtain ⟨type, isType, isField⟩ := Option.bind_eq_some_iff.mp declared
  obtain rfl := name_of_type? isType
  have derived := coherent.isSameOrDerived_iff_derivesFrom.mpr derives
  exact wellTaggedEntries_iff.mp tagged (name, value) (Keyed.mem_of_lookup? found) field
    (coherent.field?_of_declared (mem_of_type? isType) isField derived)

/-- Whether the check of a value's tags finds what `TaggedAs` asks for. -/
def ChecksTags (schema : Schema) (value : Json) : Prop :=
  ∀ static, schema.wellTagged static value = true → value ≠ .null → schema.TaggedAs static value

mutual

theorem Coherent.checksTags (coherent : schema.Coherent) : ∀ value, schema.ChecksTags value
  | .object entries => by
    intro static tagged _
    obtain isNull | ⟨_, concrete, same, tag, derived, entriesTagged⟩ := wellTagged_cases tagged
    · cases isNull
    cases same
    have within := coherent.checksTags_entries entries
    refine .object tag ?_ (coherent.isSameOrDerived_iff_derivesFrom.mp derived) ?_ ?_ ?_
    · obtain ⟨type, found⟩ := type?_of_isSameOrDerived derived
      rw [found]
      rfl
    · intro declaring name field target value derives declared isToOne found notNull
      have fits := coherent.wellTaggedAs_of_declared entriesTagged derives declared found
      rw [isToOne] at fits
      exact (within _ (Keyed.mem_of_lookup? found)).1 target fits notNull
    · intro declaring name field target value derives declared isToMany found notNull
      have fits := coherent.wellTaggedAs_of_declared entriesTagged derives declared found
      rw [isToMany] at fits
      obtain isNull | ⟨items, isArray, _⟩ := wellTaggedMany_cases fits
      · exact absurd isNull notNull
      · exact ⟨items, isArray⟩
    · intro declaring name field target items derives declared isToMany found item member
      have fits := coherent.wellTaggedAs_of_declared entriesTagged derives declared found
      rw [isToMany] at fits
      exact (within _ (Keyed.mem_of_lookup? found)).2 items rfl item member target
        (wellTaggedItems_iff.mp fits item member)
  | .null => fun _ _ notNull => absurd rfl notNull
  | .bool _ => fun _ tagged => by cases tagged
  | .number _ => fun _ tagged => by cases tagged
  | .string _ => fun _ tagged => by cases tagged
  | .array _ => fun _ tagged => by cases tagged

theorem Coherent.checksTags_items (coherent : schema.Coherent) :
    ∀ items : List Json, ∀ item ∈ items, schema.ChecksTags item
  | [] => fun _ member => by cases member
  | item :: rest =>
    List.forall_mem_cons.mpr ⟨coherent.checksTags item, coherent.checksTags_items rest⟩

theorem Coherent.checksTags_array (coherent : schema.Coherent) :
    ∀ (value : Json) (items : List Json), value = .array items →
      ∀ item ∈ items, schema.ChecksTags item
  | .array items => fun _ same => by
    cases same
    exact coherent.checksTags_items items
  | .null => fun _ same => by cases same
  | .bool _ => fun _ same => by cases same
  | .number _ => fun _ same => by cases same
  | .string _ => fun _ same => by cases same
  | .object _ => fun _ same => by cases same

theorem Coherent.checksTags_entries (coherent : schema.Coherent) :
    ∀ entries : List (String × Json), ∀ entry ∈ entries, schema.ChecksTags entry.2 ∧
      ∀ items, entry.2 = .array items → ∀ item ∈ items, schema.ChecksTags item
  | [] => fun _ member => by cases member
  | (_, value) :: rest =>
    List.forall_mem_cons.mpr ⟨⟨coherent.checksTags value, coherent.checksTags_array value⟩,
      coherent.checksTags_entries rest⟩

end

end Schema

/-- After every session each stored resource is tagged as the type it is stored under. -/
theorem stored_taggedAs {types : List ResourceType} {schema : Schema}
    (built : Schema.build types = .ok schema) (steps : List EngineStep) :
    ∀ collection ∈ (Engine.after schema steps).store.collections, ∀ item ∈ collection.2,
      schema.TaggedAs collection.1 item := by
  have coherent := Schema.build_coherent built
  intro collection isCollection item member
  have storable := (Engine.Tagged.after coherent steps).storable_of_mem
    (Engine.keys_nodup_after schema steps) collection isCollection item member
  refine coherent.checksTags item collection.1 storable.wellTagged ?_
  rintro rfl
  cases storable.isObject

theorem stored_taggedAs_shelf :
    ∃ row, (Engine.after Shelf.schema Shelf.steps).store.collections = [("books", [row])] ∧
      Shelf.schema.TaggedAs "books" row := by
  have built : Schema.build Shelf.declared = .ok Shelf.schema := rfl
  have tagged := stored_taggedAs built Shelf.steps
  have sizes : (Engine.after Shelf.schema Shelf.steps).store.collections.map
      (fun collection => (collection.1, collection.2.length)) = [("books", 1)] := by
    decide +kernel
  obtain ⟨collection, single, size⟩ := List.map_eq_singleton_iff.mp sizes
  obtain ⟨type, items⟩ := collection
  simp only [Prod.mk.injEq] at size
  obtain ⟨rfl, size⟩ := size
  obtain ⟨row, rfl⟩ := List.length_eq_one_iff.mp size
  refine ⟨row, single, tagged ("books", [row]) ?_ row List.mem_cons_self⟩
  rw [single]
  exact List.mem_cons_self

end LayeredQuery
