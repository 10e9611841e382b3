import LayeredQuery.Proofs.Store.WellTagged

/-!
# Resources with tested attributes

What a plan may rely on about a value that is read where a resource of some type is expected: it is
well tagged, and every attribute in it, at any depth of relationships, passes a test that goes by
the type of the attribute. Attributes are those of the tagged type of each object.
-/

set_option autoImplicit false

namespace LayeredQuery

/-- A test of attribute values that goes by the type they are declared with. -/
abbrev AttributeTest : Type := ValueType → Json → Bool

namespace Schema

mutual

/-- Whether every attribute of the resources in a value passes a test. -/
def attributesPass (schema : Schema) (test : AttributeTest) : Json → Bool
  | .object entries =>
    match Keyed.lookup? typeTag entries with
    | some (.string concrete) => attributesPassIn schema test concrete entries
    | _ => true
  | .array items => attributesPassItems schema test items
  | _ => true

def attributesPassItems (schema : Schema) (test : AttributeTest) : List Json → Bool
  | [] => true
  | item :: rest => attributesPass schema test item && attributesPassItems schema test rest

def attributesPassIn (schema : Schema) (test : AttributeTest) (concrete : String) :
    List (String × Json) → Bool
  | [] => true
  | (name, value) :: rest =>
    let passes :=
      match schema.field? concrete name with
      | none => true
      | some field =>
        match field.kind with
        | .attribute type _ => test type value
        | _ => attributesPass schema test value
    passes && attributesPassIn schema test concrete rest

end

/-- A value that can be read where a resource of a type is expected. -/
structure Resource (schema : Schema) (test : AttributeTest) (static : String) (value : Json) :
    Prop where
  tagged : schema.wellTagged static value = true
  attributes : schema.attributesPass test value = true

/-- A value that can be read from a field of a kind. -/
def Holds (schema : Schema) (test : AttributeTest) (kind : FieldKind) (value : Json) : Prop :=
  match kind with
  | .attribute type _ => test type value = true
  | .toOne target => schema.Resource test target value
  | .toMany target =>
    value = .null ∨ ∃ items, value = .array items ∧ ∀ item ∈ items, schema.Resource test target item

variable {schema : Schema} {test : AttributeTest}

theorem attributesPassItems_iff {items : List Json} :
    schema.attributesPassItems test items = true ↔
      ∀ item ∈ items, schema.attributesPass test item = true := by
  induction items with
  | nil => simp [attributesPassItems]
  | cons item rest ih => simp [attributesPassItems, ih]

theorem holds_of_mem {concrete : String} {entries : List (String × Json)}
    (tagged : schema.wellTaggedEntries concrete entries = true)
    (attributes : schema.attributesPassIn test concrete entries = true) :
    ∀ entry ∈ entries, ∀ field, schema.field? concrete entry.1 = some field →
      schema.Holds test field.kind entry.2 := by
  induction entries with
  | nil => intro entry member; cases member
  | cons first rest ih =>
    obtain ⟨name, value⟩ := first
    obtain ⟨taggedHere, taggedRest⟩ := wellTaggedEntries_cons.mp tagged
    rw [attributesPassIn, Bool.and_eq_true] at attributes
    obtain ⟨passes, passesRest⟩ := attributes
    intro entry member field found
    rcases List.mem_cons.mp member with same | later
    · subst same
      have taggedAs := taggedHere field found
      simp only [found] at passes
      unfold wellTaggedAs at taggedAs
      unfold Holds
      cases kind : field.kind with
      | «attribute» type _ => simpa only [kind] using passes
      | toOne target =>
        simp only [kind] at passes taggedAs
        exact ⟨taggedAs, passes⟩
      | toMany target =>
        simp only [kind] at passes taggedAs
        rcases wellTaggedMany_cases taggedAs with isNull | ⟨items, isArray, each⟩
        · exact .inl isNull
        · simp only [isArray, attributesPass, attributesPassItems_iff] at passes
          exact .inr ⟨items, isArray, fun item isItem => ⟨each item isItem, passes item isItem⟩⟩
    · exact ih taggedRest passesRest entry later field found

namespace Resource

variable {static : String} {value : Json}

theorem null (schema : Schema) (test : AttributeTest) (static : String) :
    schema.Resource test static .null :=
  ⟨rfl, rfl⟩

theorem cases_value (resource : schema.Resource test static value) :
    value = .null ∨ ∃ entries concrete, value = .object entries ∧
      Keyed.lookup? typeTag entries = some (.string concrete) ∧
      schema.isSameOrDerived concrete static = true ∧
      ∀ entry ∈ entries, ∀ field, schema.field? concrete entry.1 = some field →
        schema.Holds test field.kind entry.2 := by
  rcases wellTagged_cases resource.tagged with
    isNull | ⟨entries, concrete, rfl, found, derived, inner⟩
  · exact .inl isNull
  · have passes := resource.attributes
    rw [attributesPass] at passes
    simp only [found] at passes
    exact .inr ⟨entries, concrete, rfl, found, derived, holds_of_mem inner passes⟩

theorem of_derived (coherent : schema.Coherent) {high : String}
    (derived : schema.isSameOrDerived static high = true)
    (resource : schema.Resource test static value) : schema.Resource test high value :=
  ⟨coherent.wellTagged_of_derived derived resource.tagged, resource.attributes⟩

end Resource

theorem holds_null (nullPasses : ∀ type, test type .null = true) (kind : FieldKind) :
    schema.Holds test kind .null := by
  cases kind with
  | «attribute» type _ => exact nullPasses type
  | toOne target => exact Resource.null schema test target
  | toMany _ => exact .inl rfl

end Schema

end LayeredQuery
