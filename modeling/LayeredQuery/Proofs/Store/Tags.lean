import LayeredQuery.Evaluation.Shape
import LayeredQuery.Proofs.Json.Ordered
import LayeredQuery.Proofs.Store.WellTagged

/-!
# What tagging changes

Tagging a document puts a tag on every resource in it and changes nothing else, so the document is
the same as before once the tags are removed. A document that is well tagged already is left as it
is.
-/

set_option autoImplicit false

namespace LayeredQuery

namespace Json

theorem untagEntries_insert (tag : Json) (entries : List (String × Json)) :
    untagEntries (Keyed.insert typeTag tag entries) = untagEntries entries := by
  induction entries with
  | nil => rfl
  | cons entry rest ih =>
    obtain ⟨name, value⟩ := entry
    rw [Keyed.insert]
    by_cases same : typeTag = name
    · rw [if_pos same, untagEntries, if_pos rfl, untagEntries, if_pos same.symm]
    · rw [if_neg same]
      split
      · rw [untagEntries, if_pos rfl]
      · rw [untagEntries, untagEntries, ih]

end Json

namespace Schema

/-! ## Adding tags -/

mutual

/-- A value that is another one with tags put on resources in it. A tag that is there stays, and of
an object that is tagged only what it holds for relationships of its type is looked into. -/
inductive AddsTags (schema : Schema) : Json → Json → Prop
  | null : AddsTags schema .null .null
  | array {items tagged : List Json} (each : ItemsAddTags schema items tagged) :
      AddsTags schema (.array items) (.array tagged)
  | object {concrete : String} {entries tagged : List (String × Json)}
      (kept : ∀ tag, Keyed.lookup? typeTag entries = some tag → tag = .string concrete)
      (each : EntriesAddTags schema concrete entries tagged) :
      AddsTags schema (.object entries)
        (.object (Keyed.insert typeTag (.string concrete) tagged))

inductive ItemsAddTags (schema : Schema) : List Json → List Json → Prop
  | nil : ItemsAddTags schema [] []
  | cons {item tagged : Json} {rest others : List Json} (here : AddsTags schema item tagged)
      (later : ItemsAddTags schema rest others) :
      ItemsAddTags schema (item :: rest) (tagged :: others)

inductive EntriesAddTags (schema : Schema) :
    String → List (String × Json) → List (String × Json) → Prop
  | nil {concrete : String} : EntriesAddTags schema concrete [] []
  | unrelated {concrete name : String} {value : Json} {rest others : List (String × Json)}
      (absent : schema.relationshipTarget? concrete name = none)
      (later : EntriesAddTags schema concrete rest others) :
      EntriesAddTags schema concrete ((name, value) :: rest) ((name, value) :: others)
  | related {concrete name target : String} {value tagged : Json}
      {rest others : List (String × Json)}
      (found : schema.relationshipTarget? concrete name = some target)
      (here : AddsTags schema value tagged)
      (later : EntriesAddTags schema concrete rest others) :
      EntriesAddTags schema concrete ((name, value) :: rest) ((name, tagged) :: others)

end

variable {schema : Schema}

mutual

theorem AddsTags.untag_eq : ∀ {value tagged : Json}, schema.AddsTags value tagged →
    tagged.untag = value.untag
  | _, _, .null => rfl
  | _, _, .array each => by rw [Json.untag, Json.untag, each.untag_eq]
  | _, _, .object _ each => by
    rw [Json.untag, Json.untag, Json.untagEntries_insert, each.untag_eq]

theorem ItemsAddTags.untag_eq : ∀ {items tagged : List Json}, schema.ItemsAddTags items tagged →
    Json.untagItems tagged = Json.untagItems items
  | _, _, .nil => rfl
  | _, _, .cons here later => by
    rw [Json.untagItems, Json.untagItems, here.untag_eq, later.untag_eq]

theorem EntriesAddTags.untag_eq : ∀ {concrete : String} {entries tagged : List (String × Json)},
    schema.EntriesAddTags concrete entries tagged →
      Json.untagEntries tagged = Json.untagEntries entries
  | _, _, _, .nil => rfl
  | _, _, _, .unrelated _ later => by
    rw [Json.untagEntries, Json.untagEntries, later.untag_eq]
  | _, _, _, .related _ here later => by
    rw [Json.untagEntries, Json.untagEntries, here.untag_eq, later.untag_eq]

end

theorem EntriesAddTags.keys_eq : ∀ {concrete : String} {entries tagged : List (String × Json)},
    schema.EntriesAddTags concrete entries tagged → Keyed.keys tagged = Keyed.keys entries
  | _, _, _, .nil => rfl
  | _, _, _, .unrelated _ later => congrArg (_ :: ·) later.keys_eq
  | _, _, _, .related _ _ later => congrArg (_ :: ·) later.keys_eq

mutual

theorem AddsTags.isOrdered : ∀ {value tagged : Json}, schema.AddsTags value tagged →
    value.isOrdered = true → tagged.isOrdered = true
  | _, _, .null, _ => rfl
  | _, _, .array each, ordered => each.isOrdered ordered
  | _, _, .object _ each, ordered => by
    obtain ⟨increasing, inner⟩ := Json.entriesOrdered_iff.mp ordered
    refine Json.entriesOrdered_iff.mpr ⟨Keyed.Increasing.insert _ _ ?_, fun entry member => ?_⟩
    · rw [Keyed.Increasing, each.keys_eq]
      exact increasing
    · rcases Keyed.mem_of_mem_insert member with rfl | old
      · rfl
      · exact each.isOrdered inner entry old

theorem ItemsAddTags.isOrdered : ∀ {items tagged : List Json}, schema.ItemsAddTags items tagged →
    Json.itemsOrdered items = true → Json.itemsOrdered tagged = true
  | _, _, .nil, _ => rfl
  | _, _, .cons here later, ordered => by
    rw [Json.itemsOrdered, Bool.and_eq_true] at ordered ⊢
    exact ⟨here.isOrdered ordered.1, later.isOrdered ordered.2⟩

theorem EntriesAddTags.isOrdered : ∀ {concrete : String} {entries tagged : List (String × Json)},
    schema.EntriesAddTags concrete entries tagged →
      (∀ entry ∈ entries, entry.2.isOrdered = true) → ∀ entry ∈ tagged, entry.2.isOrdered = true
  | _, _, _, .nil, ordered => ordered
  | _, _, _, .unrelated _ later, ordered => by
    obtain ⟨here, rest⟩ := List.forall_mem_cons.mp ordered
    exact List.forall_mem_cons.mpr ⟨here, later.isOrdered rest⟩
  | _, _, _, .related _ inner later, ordered => by
    obtain ⟨here, rest⟩ := List.forall_mem_cons.mp ordered
    exact List.forall_mem_cons.mpr ⟨inner.isOrdered here, later.isOrdered rest⟩

end

/-! ## Tagging entry by entry -/

def tagAs (schema : Schema) (field : Field) (value : Json) : Except RunError Json :=
  match field.kind with
  | .attribute _ _ => .ok value
  | .toOne target => schema.tag target value
  | .toMany target => schema.tagMany field.name target value

def tagHeld (schema : Schema) (concrete name : String) (value : Json) : Except RunError Json :=
  match schema.field? concrete name with
  | none => .ok value
  | some field => schema.tagAs field value

theorem name_of_field? {concrete name : String} {field : Field}
    (found : schema.field? concrete name = some field) :
    field.name = name ∧ name ∈ schema.fieldNames concrete := by
  obtain ⟨declaring, member, declared⟩ := List.exists_of_findSome?_eq_some found
  obtain ⟨isField, sameName⟩ := Field.mem_and_name_of_find? declared
  refine ⟨sameName, List.mem_flatMap.mpr ⟨declaring, member, ?_⟩⟩
  exact List.mem_map.mpr ⟨field, isField, sameName⟩

theorem relationshipTarget?_of_field? {concrete name : String} {field : Field}
    (found : schema.field? concrete name = some field) :
    schema.relationshipTarget? concrete name = field.kind.target? := by
  rw [relationshipTarget?, found, Option.bind_some]

theorem tagEntries_eq_map (concrete : String) (entries : List (String × Json)) :
    schema.tagEntries concrete entries =
      entries.map fun entry => (entry.1, schema.tagHeld concrete entry.1 entry.2) := by
  induction entries with
  | nil => rw [tagEntries, List.map_nil]
  | cons entry rest ih =>
    obtain ⟨name, value⟩ := entry
    rw [tagEntries, List.map_cons, ih]
    simp only [tagHeld]
    cases found : schema.field? concrete name with
    | none => rfl
    | some field =>
      obtain ⟨rfl, _⟩ := name_of_field? found
      obtain ⟨_, kind⟩ := field
      cases kind <;> rfl

theorem settled_of_held {concrete : String} {entries : List (String × Json)}
    (held : ∀ entry ∈ entries, schema.tagHeld concrete entry.1 entry.2 = .ok entry.2) :
    settled (schema.tagEntries concrete entries) = entries := by
  rw [tagEntries_eq_map]
  induction entries with
  | nil => rfl
  | cons entry rest ih =>
    obtain ⟨here, later⟩ := List.forall_mem_cons.mp held
    rw [List.map_cons, settled_cons, here, ih later]

theorem firstFault?_of_held {concrete : String} {entries : List (String × Json)}
    {names : List String}
    (held : ∀ entry ∈ entries, ∃ tagged, schema.tagHeld concrete entry.1 entry.2 = .ok tagged) :
    firstFault? names (schema.tagEntries concrete entries) = none := by
  rw [firstFault?, List.findSome?_eq_none_iff, tagEntries_eq_map]
  intro name _
  split
  · rename_i error found
    obtain ⟨entry, member, same⟩ := List.mem_map.mp (Keyed.mem_of_lookup? found)
    obtain ⟨tagged, isHeld⟩ := held entry member
    cases isHeld.symm.trans (congrArg Prod.snd same)
  · rfl

/-- When no field has a fault tagging makes something of every entry, because only fields are
tagged and each of them has one entry. -/
theorem held_of_firstFault? {concrete : String} {entries : List (String × Json)}
    (once : (Keyed.keys entries).Nodup)
    (faultless : firstFault? (schema.fieldNames concrete) (schema.tagEntries concrete entries) =
      none) :
    ∀ entry ∈ entries, ∃ tagged, schema.tagHeld concrete entry.1 entry.2 = .ok tagged := by
  rintro ⟨name, value⟩ member
  cases held : schema.tagHeld concrete name value with
  | ok tagged => exact ⟨tagged, rfl⟩
  | error error =>
    have isField : name ∈ schema.fieldNames concrete := by
      unfold tagHeld at held
      split at held
      · cases held
      · rename_i field found
        exact (name_of_field? found).2
    have found : Keyed.lookup? name (schema.tagEntries concrete entries) = some (.error error) := by
      refine Keyed.lookup?_of_mem ?_ ?_
      · rw [tagEntries_eq_map, Keyed.keys, List.map_map]
        exact once
      · rw [tagEntries_eq_map, ← held]
        exact List.mem_map.mpr ⟨(name, value), member, rfl⟩
    have isNone := List.findSome?_eq_none_iff.mp faultless name isField
    simp [found] at isNone

theorem tag_of_concreteType {static concrete : String} {entries : List (String × Json)} {tag : Json}
    (isConcrete : schema.concreteType static entries = .ok concrete)
    (tagged : Keyed.lookup? typeTag entries = some tag) : tag = .string concrete := by
  unfold concreteType at isConcrete
  simp only [tagged] at isConcrete
  split at isConcrete
  · rename_i absent
    cases absent
  · rename_i named
    cases named
    split at isConcrete
    · cases isConcrete
      rfl
    · cases isConcrete
  · cases isConcrete

theorem concreteType_of_tag {static concrete : String} {entries : List (String × Json)}
    (tagged : Keyed.lookup? typeTag entries = some (.string concrete))
    (derived : schema.isSameOrDerived concrete static = true) :
    schema.concreteType static entries = .ok concrete := by
  unfold concreteType
  simp only [tagged, derived, if_true]

theorem tag_object_eq_ok {static : String} {entries : List (String × Json)} {tagged : Json}
    (once : (Keyed.keys entries).Nodup)
    (accepted : schema.tag static (.object entries) = .ok tagged) :
    ∃ concrete, schema.concreteType static entries = .ok concrete ∧
      (∀ entry ∈ entries, ∃ tagged, schema.tagHeld concrete entry.1 entry.2 = .ok tagged) ∧
      tagged = .object (Keyed.insert typeTag (.string concrete)
        (settled (schema.tagEntries concrete entries))) := by
  rw [tag] at accepted
  cases isConcrete : schema.concreteType static entries with
  | error _ => simp [isConcrete] at accepted
  | ok concrete =>
    simp only [isConcrete] at accepted
    split at accepted
    · cases accepted
    · rename_i faultless
      cases accepted
      exact ⟨concrete, rfl, held_of_firstFault? once faultless, rfl⟩

mutual

/-- What tagging makes of a document is that document with tags put on the resources in it. -/
theorem addsTags_of_tag : ∀ (value : Json) {static : String} {tagged : Json},
    value.isOrdered = true → schema.tag static value = .ok tagged → schema.AddsTags value tagged
  | .null, static, tagged, _, accepted => by
    cases accepted
    exact .null
  | .object entries, static, tagged, ordered, accepted => by
    obtain ⟨increasing, inner⟩ := Json.entriesOrdered_iff.mp ordered
    obtain ⟨concrete, isConcrete, held, rfl⟩ := tag_object_eq_ok increasing.nodup accepted
    exact .object (fun tag => tag_of_concreteType isConcrete)
      (entriesAddTags_of_held entries inner held)
  | .bool _, _, _, _, accepted => by simp [tag] at accepted
  | .number _, _, _, _, accepted => by simp [tag] at accepted
  | .string _, _, _, _, accepted => by simp [tag] at accepted
  | .array _, _, _, _, accepted => by simp [tag] at accepted

theorem itemsAddTags_of_tagItems : ∀ (items : List Json) {static : String} {tagged : List Json},
    Json.itemsOrdered items = true → schema.tagItems static items = .ok tagged →
      schema.ItemsAddTags items tagged
  | [], static, tagged, _, accepted => by
    cases accepted
    exact .nil
  | item :: rest, static, tagged, ordered, accepted => by
    rw [Json.itemsOrdered, Bool.and_eq_true] at ordered
    rw [tagItems] at accepted
    cases first : schema.tag static item with
    | error _ => simp [first] at accepted
    | ok here =>
      cases later : schema.tagItems static rest with
      | error _ => simp [first, later] at accepted
      | ok others =>
        simp only [first, later, Except.ok.injEq] at accepted
        subst accepted
        exact .cons (addsTags_of_tag item ordered.1 first)
          (itemsAddTags_of_tagItems rest ordered.2 later)

theorem addsTags_of_tagMany : ∀ (value : Json) {field static : String} {tagged : Json},
    value.isOrdered = true → schema.tagMany field static value = .ok tagged →
      schema.AddsTags value tagged
  | .null, field, static, tagged, _, accepted => by
    cases accepted
    exact .null
  | .array items, field, static, tagged, ordered, accepted => by
    rw [tagMany] at accepted
    cases inner : schema.tagItems static items with
    | error _ => simp [inner] at accepted
    | ok others =>
      simp only [inner, Except.ok.injEq] at accepted
      subst accepted
      exact .array (itemsAddTags_of_tagItems items ordered inner)
  | .bool _, _, _, _, _, accepted => by simp [tagMany] at accepted
  | .number _, _, _, _, _, accepted => by simp [tagMany] at accepted
  | .string _, _, _, _, _, accepted => by simp [tagMany] at accepted
  | .object _, _, _, _, _, accepted => by simp [tagMany] at accepted

theorem entriesAddTags_of_held {concrete : String} : ∀ entries : List (String × Json),
    (∀ entry ∈ entries, entry.2.isOrdered = true) →
    (∀ entry ∈ entries, ∃ tagged, schema.tagHeld concrete entry.1 entry.2 = .ok tagged) →
      schema.EntriesAddTags concrete entries (settled (schema.tagEntries concrete entries))
  | [], _, _ => .nil
  | (name, value) :: rest, ordered, held => by
    obtain ⟨ordered, orderedLater⟩ := List.forall_mem_cons.mp ordered
    obtain ⟨⟨tagged, isTagged⟩, heldLater⟩ := List.forall_mem_cons.mp held
    have later := entriesAddTags_of_held rest orderedLater heldLater
    rw [tagEntries_eq_map, List.map_cons, ← tagEntries_eq_map, settled_cons, isTagged]
    simp only
    unfold tagHeld at isTagged
    split at isTagged
    · rename_i absent
      cases isTagged
      exact .unrelated (by rw [relationshipTarget?, absent]; rfl) later
    · rename_i field found
      have target := relationshipTarget?_of_field? found
      unfold tagAs at isTagged
      split at isTagged
      all_goals rename_i isKind; rw [isKind] at target
      · cases isTagged
        exact .unrelated target later
      · exact .related target (addsTags_of_tag value ordered isTagged) later
      · exact .related target (addsTags_of_tagMany value ordered isTagged) later

end

/-! ## Tagging again -/

mutual

/-- A document that is well tagged is left as it is. -/
theorem tag_of_wellTagged : ∀ (value : Json) {static : String}, value.isOrdered = true →
    schema.wellTagged static value = true → schema.tag static value = .ok value
  | .null, _, _, _ => rfl
  | .object entries, static, ordered, tagged => by
    obtain ⟨increasing, inner⟩ := Json.entriesOrdered_iff.mp ordered
    obtain isNull | ⟨_, concrete, same, tag, derived, entriesTagged⟩ := wellTagged_cases tagged
    · cases isNull
    cases same
    have held := tagHeld_of_wellTagged entries inner entriesTagged
    rw [Schema.tag, concreteType_of_tag tag derived]
    simp only
    rw [firstFault?_of_held fun entry member => ⟨entry.2, held entry member⟩,
      settled_of_held held, Keyed.insert_of_lookup? increasing tag]
  | .bool _, _, _, tagged => by cases tagged
  | .number _, _, _, tagged => by cases tagged
  | .string _, _, _, tagged => by cases tagged
  | .array _, _, _, tagged => by cases tagged

theorem tagItems_of_wellTagged : ∀ (items : List Json) {static : String},
    Json.itemsOrdered items = true → schema.wellTaggedItems static items = true →
      schema.tagItems static items = .ok items
  | [], _, _, _ => rfl
  | item :: rest, static, ordered, tagged => by
    rw [Json.itemsOrdered, Bool.and_eq_true] at ordered
    rw [wellTaggedItems, Bool.and_eq_true] at tagged
    rw [tagItems, tag_of_wellTagged item ordered.1 tagged.1,
      tagItems_of_wellTagged rest ordered.2 tagged.2]

theorem tagMany_of_wellTagged : ∀ (value : Json) {field static : String},
    value.isOrdered = true → schema.wellTaggedMany static value = true →
      schema.tagMany field static value = .ok value
  | .null, _, _, _, _ => rfl
  | .array items, field, static, ordered, tagged => by
    rw [tagMany, tagItems_of_wellTagged items ordered tagged]
  | .bool _, _, _, _, tagged => by cases tagged
  | .number _, _, _, _, tagged => by cases tagged
  | .string _, _, _, _, tagged => by cases tagged
  | .object _, _, _, _, tagged => by cases tagged

theorem tagHeld_of_wellTagged {concrete : String} : ∀ entries : List (String × Json),
    (∀ entry ∈ entries, entry.2.isOrdered = true) →
    schema.wellTaggedEntries concrete entries = true →
      ∀ entry ∈ entries, schema.tagHeld concrete entry.1 entry.2 = .ok entry.2
  | [], _, _ => fun _ member => by cases member
  | (name, value) :: rest, ordered, tagged => by
    obtain ⟨ordered, orderedLater⟩ := List.forall_mem_cons.mp ordered
    obtain ⟨here, later⟩ := wellTaggedEntries_cons.mp tagged
    refine List.forall_mem_cons.mpr ⟨?_, tagHeld_of_wellTagged rest orderedLater later⟩
    unfold tagHeld
    split
    · rfl
    · rename_i field found
      have fits := here field found
      unfold wellTaggedAs at fits
      unfold tagAs
      cases kind : field.kind with
      | «attribute» _ _ => rfl
      | toOne target =>
        rw [kind] at fits
        exact tag_of_wellTagged value ordered fits
      | toMany target =>
        rw [kind] at fits
        exact tagMany_of_wellTagged value ordered fits

end

end Schema

end LayeredQuery
