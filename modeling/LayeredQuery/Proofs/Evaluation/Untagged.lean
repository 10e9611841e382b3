import LayeredQuery.Proofs.Evaluation.Shape
import LayeredQuery.Proofs.Meaning.Ends

/-!
# Type tags in answers

Untagging goes through a whole value, and leaves no tag at any depth. The shape of a resource goes
through its relationships only: the resources it shows lose the tag they have themselves, and what
they hold for attributes, or under names that are no field, is kept as it is. So the shape of a
resource is free of tags just when everything that is kept is.
-/

set_option autoImplicit false

namespace LayeredQuery

namespace Json

mutual

/-- Whether no object in a value, at any depth, has a type tag. -/
def tagFree : Json → Bool
  | .object entries => tagFreeEntries entries
  | .array items => tagFreeItems items
  | _ => true

def tagFreeItems : List Json → Bool
  | [] => true
  | item :: rest => tagFree item && tagFreeItems rest

def tagFreeEntries : List (String × Json) → Bool
  | [] => true
  | (name, value) :: rest => name != typeTag && tagFree value && tagFreeEntries rest

end

theorem tagFreeEntries_cons {name : String} {value : Json} {rest : List (String × Json)} :
    tagFreeEntries ((name, value) :: rest) = true ↔
      name ≠ typeTag ∧ value.tagFree = true ∧ tagFreeEntries rest = true := by
  rw [tagFreeEntries, Bool.and_eq_true, Bool.and_eq_true, bne_iff_ne, and_assoc]

mutual

theorem tagFree_untag : ∀ value : Json, value.untag.tagFree = true
  | .object entries => by
    rw [untag, tagFree]
    exact tagFreeEntries_untag entries
  | .array items => by
    rw [untag, tagFree]
    exact tagFreeItems_untag items
  | .null => rfl
  | .bool _ => rfl
  | .number _ => rfl
  | .string _ => rfl

theorem tagFreeItems_untag : ∀ items : List Json, tagFreeItems (untagItems items) = true
  | [] => rfl
  | item :: rest => by
    rw [untagItems, tagFreeItems, tagFree_untag item, tagFreeItems_untag rest, Bool.and_self]

theorem tagFreeEntries_untag :
    ∀ entries : List (String × Json), tagFreeEntries (untagEntries entries) = true
  | [] => rfl
  | (name, value) :: rest => by
    rw [untagEntries]
    split
    · exact tagFreeEntries_untag rest
    · rename_i notTag
      exact tagFreeEntries_cons.mpr ⟨notTag, tagFree_untag value, tagFreeEntries_untag rest⟩

end

mutual

theorem untag_of_tagFree : ∀ {value : Json}, value.tagFree = true → value.untag = value
  | .object entries, isFree => by
    rw [tagFree] at isFree
    rw [untag, untagEntries_of_tagFree isFree]
  | .array items, isFree => by
    rw [tagFree] at isFree
    rw [untag, untagItems_of_tagFree isFree]
  | .null, _ => rfl
  | .bool _, _ => rfl
  | .number _, _ => rfl
  | .string _, _ => rfl

theorem untagItems_of_tagFree :
    ∀ {items : List Json}, tagFreeItems items = true → untagItems items = items
  | [], _ => rfl
  | item :: rest, areFree => by
    rw [tagFreeItems, Bool.and_eq_true] at areFree
    rw [untagItems, untag_of_tagFree areFree.1, untagItems_of_tagFree areFree.2]

theorem untagEntries_of_tagFree :
    ∀ {entries : List (String × Json)}, tagFreeEntries entries = true →
      untagEntries entries = entries
  | [], _ => rfl
  | (name, value) :: rest, areFree => by
    obtain ⟨isName, here, later⟩ := tagFreeEntries_cons.mp areFree
    rw [untagEntries, if_neg isName, untag_of_tagFree here, untagEntries_of_tagFree later]

end

theorem untagItems_eq_map (items : List Json) : untagItems items = items.map untag := by
  induction items with
  | nil => rfl
  | cons item rest ih => rw [untagItems, ih, List.map_cons]

end Json

namespace Schema

/-- A value that the shape of a resource keeps as it is: what a resource that is shown holds under a
name that is neither its tag nor a relationship of its concrete type. The resources that are shown
are the resource itself and those in the relationships that a tree includes. -/
inductive Keeps (schema : Schema) : Include → Json → Json → Prop
  | held {tree : Include} {concrete name : String} {entries : List (String × Json)} {kept : Json}
      (tag : Keyed.lookup? typeTag entries = some (.string concrete))
      (unrelated : schema.relationshipTarget? concrete name = none) (isName : name ≠ typeTag)
      (entry : (name, kept) ∈ entries) : Keeps schema tree (.object entries) kept
  | related {tree below : Include} {concrete name target : String}
      {entries : List (String × Json)} {value item kept : Json}
      (tag : Keyed.lookup? typeTag entries = some (.string concrete))
      (related : schema.relationshipTarget? concrete name = some target)
      (included : tree.child? name = some below) (entry : (name, value) ∈ entries)
      (isItem : item = value ∨ item ∈ value.related) (keeps : Keeps schema below item kept) :
      Keeps schema tree (.object entries) kept

def KeepsOf (schema : Schema) (concrete : String) (tree : Include) (name : String) (value : Json)
    (kept : Json) : Prop :=
  (name ≠ typeTag ∧ schema.relationshipTarget? concrete name = none ∧ kept = value) ∨
    ∃ target below item, schema.relationshipTarget? concrete name = some target ∧
      tree.child? name = some below ∧ (item = value ∨ item ∈ value.related) ∧
      schema.Keeps below item kept

variable {schema : Schema} {concrete name target : String} {tree below : Include}
  {value kept : Json}

theorem keeps_object {entries : List (String × Json)}
    (tag : Keyed.lookup? typeTag entries = some (.string concrete)) :
    schema.Keeps tree (.object entries) kept ↔
      ∃ entry ∈ entries, schema.KeepsOf concrete tree entry.1 entry.2 kept := by
  constructor
  · intro keeps
    cases keeps with
    | held tag' unrelated isName entry =>
      cases tag.symm.trans tag'
      exact ⟨_, entry, .inl ⟨isName, unrelated, rfl⟩⟩
    | related tag' related included entry isItem keeps =>
      cases tag.symm.trans tag'
      exact ⟨_, entry, .inr ⟨_, _, _, related, included, isItem, keeps⟩⟩
  · rintro ⟨⟨name, value⟩, entry, ⟨isName, unrelated, rfl⟩ |
      ⟨target, below, item, related, included, isItem, keeps⟩⟩
    · exact .held tag unrelated isName entry
    · exact .related tag related included entry isItem keeps

theorem not_keeps_of_related {item : Json} (bare : ∀ entries, value ≠ .object entries)
    (alone : value.related = []) (isItem : item = value ∨ item ∈ value.related) :
    ¬schema.Keeps tree item kept := by
  rintro keeps
  rcases isItem with rfl | member
  · cases keeps <;> exact bare _ rfl
  · rw [alone] at member
    cases member

/-! ## Kept values of one entry -/

theorem forall_keepsOf_typeTag (coherent : schema.Coherent) :
    ∀ kept, schema.KeepsOf concrete tree typeTag value kept → kept.tagFree = true := by
  rintro kept (⟨isName, _⟩ | ⟨target, _, _, related, _⟩)
  · exact absurd rfl isName
  · exact absurd rfl (coherent.ne_typeTag_of_related related)

theorem forall_keepsOf_unrelated (isName : name ≠ typeTag)
    (unrelated : schema.relationshipTarget? concrete name = none) :
    (∀ kept, schema.KeepsOf concrete tree name value kept → kept.tagFree = true) ↔
      value.tagFree = true := by
  constructor
  · exact fun each => each value (.inl ⟨isName, unrelated, rfl⟩)
  · rintro free kept (⟨_, _, rfl⟩ | ⟨target, _, _, related, _⟩)
    · exact free
    · cases unrelated.symm.trans related

theorem forall_keepsOf_related (related : schema.relationshipTarget? concrete name = some target)
    (included : tree.child? name = some below) :
    (∀ kept, schema.KeepsOf concrete tree name value kept → kept.tagFree = true) ↔
      ∀ item, item = value ∨ item ∈ value.related →
        ∀ kept, schema.Keeps below item kept → kept.tagFree = true := by
  constructor
  · intro each item isItem kept keeps
    exact each kept (.inr ⟨target, below, item, related, included, isItem, keeps⟩)
  · rintro each kept (⟨_, unrelated, _⟩ | ⟨_, below', item, _, included', isItem, keeps⟩)
    · cases unrelated.symm.trans related
    · cases included.symm.trans included'
      exact each item isItem kept keeps

theorem forall_keepsOf_leftOut (related : schema.relationshipTarget? concrete name = some target)
    (leftOut : tree.child? name = none) :
    ∀ kept, schema.KeepsOf concrete tree name value kept → kept.tagFree = true := by
  rintro kept (⟨_, unrelated, _⟩ | ⟨_, _, _, _, included, _⟩)
  · cases unrelated.symm.trans related
  · cases leftOut.symm.trans included

/-! ## Shapes -/

mutual

/-- The shape of a resource is free of type tags just when all that it keeps is. -/
theorem Coherent.tagFree_shape (coherent : schema.Coherent) :
    ∀ (value : Json) {static : String} {tree : Include}, schema.wellTagged static value = true →
      ((schema.shape static tree value).tagFree = true ↔
        ∀ kept, schema.Keeps tree value kept → kept.tagFree = true)
  | .object entries, static, tree, tagged => by
    obtain isNull | ⟨_, concrete, same, tag, _, entriesTagged⟩ := wellTagged_cases tagged
    · cases isNull
    cases same
    rw [shape_of_tagged tag, Json.tagFree, coherent.tagFree_shapeEntries entries entriesTagged]
    simp only [keeps_object tag]
    exact ⟨fun each kept ⟨entry, member, keeps⟩ => each entry member kept keeps,
      fun each entry member kept keeps => each kept ⟨entry, member, keeps⟩⟩
  | .null, _, _, _ => iff_of_true rfl fun _ keeps => by cases keeps
  | .bool _, _, _, tagged => by cases tagged
  | .number _, _, _, tagged => by cases tagged
  | .string _, _, _, tagged => by cases tagged
  | .array _, _, _, tagged => by cases tagged

theorem Coherent.tagFree_shapeItems (coherent : schema.Coherent) :
    ∀ (items : List Json) {static : String} {tree : Include},
      schema.wellTaggedItems static items = true →
      (Json.tagFreeItems (schema.shapeItems static tree items) = true ↔
        ∀ item ∈ items, ∀ kept, schema.Keeps tree item kept → kept.tagFree = true)
  | [], _, _, _ => iff_of_true rfl fun _ member => by cases member
  | item :: rest, static, tree, tagged => by
    rw [wellTaggedItems, Bool.and_eq_true] at tagged
    rw [shapeItems, Json.tagFreeItems, Bool.and_eq_true, List.forall_mem_cons,
      coherent.tagFree_shape item tagged.1, coherent.tagFree_shapeItems rest tagged.2]

theorem Coherent.tagFree_shapeRelated (coherent : schema.Coherent) :
    ∀ (value : Json) {kind : FieldKind} {target : String} {tree : Include},
      kind.target? = some target → schema.wellTaggedAs kind value = true →
      ((schema.shapeRelated target tree value).tagFree = true ↔
        ∀ item, item = value ∨ item ∈ value.related →
          ∀ kept, schema.Keeps tree item kept → kept.tagFree = true)
  | .array items, kind, target, tree, isTarget, tagged => by
    have each : schema.wellTaggedItems target items = true := by
      cases kind with
      | «attribute» _ _ => cases isTarget
      | toOne _ => cases tagged
      | toMany other =>
        cases isTarget
        exact tagged
    rw [shapeRelated, Json.tagFree, coherent.tagFree_shapeItems items each]
    refine ⟨?_, fun each item member => each item (.inr member)⟩
    rintro each item (rfl | member) kept keeps
    · cases keeps
    · exact each item member kept keeps
  | .object entries, kind, target, tree, isTarget, tagged => by
    have single : schema.wellTagged target (.object entries) = true := by
      cases kind with
      | «attribute» _ _ => cases isTarget
      | toOne other =>
        cases isTarget
        exact tagged
      | toMany _ => cases tagged
    obtain isNull | ⟨_, concrete, same, tag, _, entriesTagged⟩ := wellTagged_cases single
    · cases isNull
    cases same
    rw [shapeRelated, taggedType, tag, Json.tagFree,
      coherent.tagFree_shapeEntries entries entriesTagged]
    simp only [Json.related, List.not_mem_nil, or_false, forall_eq, keeps_object tag]
    exact ⟨fun each kept ⟨entry, member, keeps⟩ => each entry member kept keeps,
      fun each entry member kept keeps => each kept ⟨entry, member, keeps⟩⟩
  | .null, _, _, _, _, _ => iff_of_true rfl fun _ isItem _ keeps =>
    absurd keeps (not_keeps_of_related (fun _ same => by cases same) rfl isItem)
  | .bool _, _, _, _, _, _ => iff_of_true rfl fun _ isItem _ keeps =>
    absurd keeps (not_keeps_of_related (fun _ same => by cases same) rfl isItem)
  | .number _, _, _, _, _, _ => iff_of_true rfl fun _ isItem _ keeps =>
    absurd keeps (not_keeps_of_related (fun _ same => by cases same) rfl isItem)
  | .string _, _, _, _, _, _ => iff_of_true rfl fun _ isItem _ keeps =>
    absurd keeps (not_keeps_of_related (fun _ same => by cases same) rfl isItem)

theorem Coherent.tagFree_shapeEntries (coherent : schema.Coherent) :
    ∀ (entries : List (String × Json)) {concrete : String} {tree : Include},
      schema.wellTaggedEntries concrete entries = true →
      (Json.tagFreeEntries (schema.shapeEntries concrete tree entries) = true ↔
        ∀ entry ∈ entries, ∀ kept, schema.KeepsOf concrete tree entry.1 entry.2 kept →
          kept.tagFree = true)
  | [], _, _, _ => iff_of_true rfl fun _ member => by cases member
  | (name, value) :: rest, concrete, tree, tagged => by
    obtain ⟨here, later⟩ := wellTaggedEntries_cons.mp tagged
    rw [List.forall_mem_cons, ← coherent.tagFree_shapeEntries rest later, shapeEntries]
    by_cases isTag : name = typeTag
    · subst isTag
      rw [if_pos rfl]
      exact (and_iff_right (forall_keepsOf_typeTag coherent)).symm
    rw [if_neg isTag]
    cases related : schema.relationshipTarget? concrete name with
    | none =>
      rw [Json.tagFreeEntries_cons, forall_keepsOf_unrelated isTag related]
      exact and_iff_right isTag
    | some target =>
      cases included : tree.child? name with
      | none => exact (and_iff_right (forall_keepsOf_leftOut related included)).symm
      | some below =>
        obtain ⟨field, isField, isTarget⟩ := Option.bind_eq_some_iff.mp related
        rw [Json.tagFreeEntries_cons, forall_keepsOf_related related included,
          ← coherent.tagFree_shapeRelated value isTarget (here field isField)]
        exact and_iff_right isTag

end

end Schema

end LayeredQuery
