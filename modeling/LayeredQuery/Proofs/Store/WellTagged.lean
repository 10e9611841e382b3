import LayeredQuery.Proofs.Schema.Hierarchy
import LayeredQuery.Store.Tagging

/-!
# Well-tagged values

A value is well tagged for a type when it is null, or an object whose tag names that type or one
derived from it and whose relationships, as the tagged type has them, hold well-tagged values
again. Whatever tagging accepts it leaves well tagged.
-/

set_option autoImplicit false

namespace LayeredQuery

namespace Schema

mutual

def wellTagged (schema : Schema) (static : String) : Json → Bool
  | .null => true
  | .object entries =>
    match Keyed.lookup? typeTag entries with
    | some (.string concrete) =>
      schema.isSameOrDerived concrete static && wellTaggedEntries schema concrete entries
    | _ => false
  | _ => false

def wellTaggedItems (schema : Schema) (static : String) : List Json → Bool
  | [] => true
  | item :: rest => wellTagged schema static item && wellTaggedItems schema static rest

def wellTaggedMany (schema : Schema) (static : String) : Json → Bool
  | .null => true
  | .array items => wellTaggedItems schema static items
  | _ => false

def wellTaggedEntries (schema : Schema) (concrete : String) : List (String × Json) → Bool
  | [] => true
  | (name, value) :: rest =>
    let fits :=
      match schema.field? concrete name with
      | none => true
      | some field =>
        match field.kind with
        | .attribute _ _ => true
        | .toOne target => wellTagged schema target value
        | .toMany target => wellTaggedMany schema target value
    fits && wellTaggedEntries schema concrete rest

end

def wellTaggedAs (schema : Schema) (kind : FieldKind) (value : Json) : Bool :=
  match kind with
  | .attribute _ _ => true
  | .toOne target => schema.wellTagged target value
  | .toMany target => schema.wellTaggedMany target value

variable {schema : Schema}

theorem wellTaggedItems_iff {static : String} {items : List Json} :
    schema.wellTaggedItems static items = true ↔
      ∀ item ∈ items, schema.wellTagged static item = true := by
  induction items with
  | nil => simp [wellTaggedItems]
  | cons item rest ih => simp [wellTaggedItems, ih]

theorem wellTaggedEntries_cons {concrete name : String} {value : Json}
    {rest : List (String × Json)} :
    schema.wellTaggedEntries concrete ((name, value) :: rest) = true ↔
      (∀ field, schema.field? concrete name = some field →
        schema.wellTaggedAs field.kind value = true) ∧
      schema.wellTaggedEntries concrete rest = true := by
  rw [wellTaggedEntries, Bool.and_eq_true]
  refine and_congr_left fun _ => ?_
  cases found : schema.field? concrete name with
  | none => simp
  | some field =>
    simp only [Option.some.injEq, forall_eq']
    unfold wellTaggedAs
    cases field.kind <;> rfl

theorem wellTaggedEntries_iff {concrete : String} {entries : List (String × Json)} :
    schema.wellTaggedEntries concrete entries = true ↔
      ∀ entry ∈ entries, ∀ field, schema.field? concrete entry.1 = some field →
        schema.wellTaggedAs field.kind entry.2 = true := by
  induction entries with
  | nil => simp [wellTaggedEntries]
  | cons entry rest ih =>
    obtain ⟨name, value⟩ := entry
    rw [wellTaggedEntries_cons, ih, List.forall_mem_cons]

theorem wellTagged_cases {static : String} {value : Json}
    (tagged : schema.wellTagged static value = true) :
    value = .null ∨ ∃ entries concrete, value = .object entries ∧
      Keyed.lookup? typeTag entries = some (.string concrete) ∧
      schema.isSameOrDerived concrete static = true ∧
      schema.wellTaggedEntries concrete entries = true := by
  cases value with
  | null => exact .inl rfl
  | object entries =>
    right
    rw [wellTagged] at tagged
    split at tagged
    · rename_i concrete found
      rw [Bool.and_eq_true] at tagged
      exact ⟨entries, concrete, rfl, found, tagged.1, tagged.2⟩
    · cases tagged
  | bool _ => cases tagged
  | number _ => cases tagged
  | string _ => cases tagged
  | array _ => cases tagged

theorem wellTagged_object {static concrete : String} {entries : List (String × Json)}
    (found : Keyed.lookup? typeTag entries = some (.string concrete))
    (derived : schema.isSameOrDerived concrete static = true)
    (entriesTagged : schema.wellTaggedEntries concrete entries = true) :
    schema.wellTagged static (.object entries) = true := by
  rw [wellTagged]
  simp only [found, derived, entriesTagged, Bool.and_self]

/-- A resource of a type is one of every type above it. -/
theorem Coherent.wellTagged_of_derived (coherent : schema.Coherent) {low high : String}
    {value : Json} (derived : schema.isSameOrDerived low high = true)
    (tagged : schema.wellTagged low value = true) : schema.wellTagged high value = true := by
  rcases wellTagged_cases tagged with rfl | ⟨entries, concrete, rfl, found, isLow, entriesTagged⟩
  · rfl
  · exact wellTagged_object found (coherent.isSameOrDerived_trans isLow derived) entriesTagged

theorem wellTaggedMany_cases {static : String} {value : Json}
    (tagged : schema.wellTaggedMany static value = true) :
    value = .null ∨ ∃ items, value = .array items ∧
      ∀ item ∈ items, schema.wellTagged static item = true := by
  cases value with
  | null => exact .inl rfl
  | array items => exact .inr ⟨items, rfl, wellTaggedItems_iff.mp tagged⟩
  | bool _ => cases tagged
  | number _ => cases tagged
  | string _ => cases tagged
  | object _ => cases tagged

/-! ## Tagging -/

theorem concreteType_derived {static concrete : String} {entries : List (String × Json)}
    (found : schema.concreteType static entries = .ok concrete) :
    schema.isSameOrDerived concrete static = true := by
  unfold concreteType at found
  simp only at found
  split at found
  · split at found
    · rename_i derived
      cases found
      exact derived
    · cases found
  · split at found
    · rename_i derived
      cases found
      exact derived
    · cases found
  · cases found

theorem Coherent.field?_typeTag (coherent : schema.Coherent) (concrete : String) :
    schema.field? concrete typeTag = none := by
  cases found : schema.field? concrete typeTag with
  | none => rfl
  | some field =>
    obtain ⟨sameName, declaring, known, declared⟩ := coherent.exists_declared_of_field? found
    have isPublic := coherent.fieldsPublic declaring known field declared
    rw [sameName] at isPublic
    exact absurd isPublic (by decide)

theorem settled_cons {name : String} {result : Except RunError Json}
    {rest : List (String × Except RunError Json)} :
    settled ((name, result) :: rest) =
      match result with
      | .ok value => (name, value) :: settled rest
      | .error _ => settled rest := by
  cases result <;> simp [settled]

/-- The tag is not a field, so putting it in leaves the entries as well tagged as they were. -/
theorem Coherent.wellTagged_insert (coherent : schema.Coherent) {static concrete : String}
    {entries : List (String × Json)} (derived : schema.isSameOrDerived concrete static = true)
    (entriesTagged : schema.wellTaggedEntries concrete entries = true) :
    schema.wellTagged static (.object (Keyed.insert typeTag (.string concrete) entries)) =
      true := by
  refine wellTagged_object (by rw [Keyed.lookup?_insert, if_pos rfl]) derived ?_
  rw [wellTaggedEntries_iff] at entriesTagged ⊢
  intro entry member field found
  rcases Keyed.mem_of_mem_insert member with inserted | old
  · rw [inserted, coherent.field?_typeTag concrete] at found
    cases found
  · exact entriesTagged entry old field found

mutual

theorem Coherent.tag_wellTagged (coherent : schema.Coherent) :
    ∀ (value : Json) {static : String} {result : Json},
      schema.tag static value = .ok result → schema.wellTagged static result = true
  | .null, static, result, accepted => by
    cases accepted
    rfl
  | .object entries, static, result, accepted => by
    rw [tag] at accepted
    cases concreteFound : schema.concreteType static entries with
    | error _ => simp [concreteFound] at accepted
    | ok concrete =>
      simp only [concreteFound] at accepted
      split at accepted
      · cases accepted
      · cases accepted
        exact coherent.wellTagged_insert (concreteType_derived concreteFound)
          (coherent.tagEntries_wellTagged entries)
  | .bool _, _, _, accepted => by simp [tag] at accepted
  | .number _, _, _, accepted => by simp [tag] at accepted
  | .string _, _, _, accepted => by simp [tag] at accepted
  | .array _, _, _, accepted => by simp [tag] at accepted

theorem Coherent.tagItems_wellTagged (coherent : schema.Coherent) :
    ∀ (items : List Json) {static : String} {results : List Json},
      schema.tagItems static items = .ok results → schema.wellTaggedItems static results = true
  | [], static, results, accepted => by
    cases accepted
    rfl
  | item :: rest, static, results, accepted => by
    rw [tagItems] at accepted
    cases first : schema.tag static item with
    | error _ => simp [first] at accepted
    | ok tagged =>
      cases later : schema.tagItems static rest with
      | error _ => simp [first, later] at accepted
      | ok others =>
        simp only [first, later, Except.ok.injEq] at accepted
        subst accepted
        rw [wellTaggedItems, coherent.tag_wellTagged item first,
          coherent.tagItems_wellTagged rest later]
        rfl

theorem Coherent.tagMany_wellTagged (coherent : schema.Coherent) :
    ∀ (value : Json) {field static : String} {result : Json},
      schema.tagMany field static value = .ok result →
        schema.wellTaggedMany static result = true
  | .null, field, static, result, accepted => by
    cases accepted
    rfl
  | .array items, field, static, result, accepted => by
    rw [tagMany] at accepted
    cases inner : schema.tagItems static items with
    | error _ => simp [inner] at accepted
    | ok tagged =>
      simp only [inner, Except.ok.injEq] at accepted
      subst accepted
      rw [wellTaggedMany]
      exact coherent.tagItems_wellTagged items inner
  | .bool _, _, _, _, accepted => by simp [tagMany] at accepted
  | .number _, _, _, _, accepted => by simp [tagMany] at accepted
  | .string _, _, _, _, accepted => by simp [tagMany] at accepted
  | .object _, _, _, _, accepted => by simp [tagMany] at accepted

theorem Coherent.tagEntries_wellTagged (coherent : schema.Coherent) {concrete : String} :
    ∀ (entries : List (String × Json)),
      schema.wellTaggedEntries concrete (settled (schema.tagEntries concrete entries)) = true
  | [] => rfl
  | (name, value) :: rest => by
    have later : schema.wellTaggedEntries concrete
        (settled (schema.tagEntries concrete rest)) = true :=
      coherent.tagEntries_wellTagged rest
    rw [tagEntries, settled_cons]
    split
    · rename_i tagged accepted
      refine wellTaggedEntries_cons.mpr ⟨?_, later⟩
      intro field found
      simp only [found] at accepted
      unfold wellTaggedAs
      cases kind : field.kind with
      | «attribute» _ _ => rfl
      | toOne target =>
        simp only [kind] at accepted
        exact coherent.tag_wellTagged value accepted
      | toMany target =>
        simp only [kind] at accepted
        exact coherent.tagMany_wellTagged value accepted
    · exact later

end

end Schema

end LayeredQuery
