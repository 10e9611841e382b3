import LayeredQuery.Evaluation.Run
import LayeredQuery.Proofs.Store.WellTagged

/-!
# What shaped resources show

A position in a resource leads through relationships, at each step to the related resource or to one
of several. In the shape of a well-tagged resource every position shows the shape of what is stored
there, if the tree includes the relationships on the way, and nothing otherwise. Resources that
differ in other relationships only have the same shape.
-/

set_option autoImplicit false

namespace LayeredQuery

/-- A step from an object to what it has under a name, or to one of the items of an array there. -/
structure Step where
  name : String
  index : Option Nat

namespace Json

def held? (name : String) : Json → Option Json
  | .object entries => Keyed.lookup? name entries
  | _ => none

def carries (value : Json) (name : String) : Bool :=
  (value.held? name).isSome

/-- The item of an array at an index, or a value that is no array. -/
def pick? : Option Nat → Json → Option Json
  | some index, .array items => items[index]?
  | some _, _ => none
  | none, .array _ => none
  | none, value => some value

def step? (step : Step) (value : Json) : Option Json :=
  (value.held? step.name).bind (pick? step.index)

def at? : Json → List Step → Option Json
  | value, [] => some value
  | value, step :: rest =>
    match value.step? step with
    | none => none
    | some inner => at? inner rest

end Json

namespace Include

/-- What is included below the relationships on a path, if all of them are included. -/
def below? : Include → List String → Option Include
  | tree, [] => some tree
  | tree, name :: rest =>
    match tree.child? name with
    | none => none
    | some below => below? below rest

/-- Whether a path is one of a tree, to a leaf or not. -/
def includes (tree : Include) (path : List String) : Bool :=
  (tree.below? path).isSome

theorem below?_append_singleton (path : List String) (name : String) :
    ∀ tree : Include, tree.below? (path ++ [name]) = (tree.below? path).bind (·.child? name) := by
  induction path with
  | nil =>
    intro tree
    simp only [List.nil_append, below?, Option.bind_some]
    cases tree.child? name <;> rfl
  | cons first rest ih =>
    intro tree
    rw [List.cons_append, below?, below?]
    cases tree.child? first with
    | none => rfl
    | some below => exact ih below

end Include

namespace Schema

def isRelationship (schema : Schema) (value : Json) (name : String) : Bool :=
  match Evaluator.tagged? value with
  | none => false
  | some concrete => (schema.relationshipTarget? concrete name).isSome

/-- Whether a position leads through relationships of the concrete types of the objects on the way,
as far as it leads. -/
def crosses (schema : Schema) : Json → List Step → Bool
  | _, [] => true
  | value, step :: rest =>
    schema.isRelationship value step.name &&
      match value.step? step with
      | none => true
      | some inner => crosses schema inner rest

variable {schema : Schema} {static concrete target name : String} {tree below : Include}
  {value : Json}

/-! ## Entries of shaped objects -/

def shown? (schema : Schema) (concrete : String) (tree : Include) (name : String) :
    Option (Json → Json) :=
  if name = typeTag then none
  else
    match schema.relationshipTarget? concrete name with
    | none => some id
    | some target => (tree.child? name).map (schema.shapeRelated target)

theorem shapeEntries_cons (name : String) (value : Json) (rest : List (String × Json)) :
    schema.shapeEntries concrete tree ((name, value) :: rest) =
      match schema.shown? concrete tree name with
      | none => schema.shapeEntries concrete tree rest
      | some shape => (name, shape value) :: schema.shapeEntries concrete tree rest := by
  rw [shapeEntries, shown?]
  split
  · rfl
  · cases schema.relationshipTarget? concrete name with
    | none => rfl
    | some target => cases tree.child? name <;> rfl

theorem lookup?_shapeEntries (name : String) (entries : List (String × Json)) :
    Keyed.lookup? name (schema.shapeEntries concrete tree entries) =
      (schema.shown? concrete tree name).bind fun shape =>
        (Keyed.lookup? name entries).map shape := by
  induction entries with
  | nil =>
    rw [shapeEntries, Keyed.lookup?]
    cases schema.shown? concrete tree name <;> rfl
  | cons entry rest ih =>
    obtain ⟨other, value⟩ := entry
    rw [shapeEntries_cons, Keyed.lookup?]
    by_cases same : other = name
    · subst same
      cases isShown : schema.shown? concrete tree other with
      | none =>
        rw [isShown] at ih
        exact ih
      | some shape => simp [Keyed.lookup?]
    · rw [if_neg same, ← ih]
      split
      · rfl
      · rw [Keyed.lookup?, if_neg same]

theorem tagged?_eq_some : Evaluator.tagged? value = some concrete ↔
    ∃ entries, value = .object entries ∧
      Keyed.lookup? typeTag entries = some (.string concrete) := by
  cases value with
  | object entries =>
    rw [Evaluator.tagged?]
    split
    · rename_i other found
      simp [found]
    · rename_i noName
      simpa using noName concrete
  | null => simp [Evaluator.tagged?]
  | bool _ => simp [Evaluator.tagged?]
  | number _ => simp [Evaluator.tagged?]
  | string _ => simp [Evaluator.tagged?]
  | array _ => simp [Evaluator.tagged?]

/-- A tagged object is shaped by the type of its tag, whatever type was expected. -/
theorem shape_of_tagged {entries : List (String × Json)}
    (tagged : Keyed.lookup? typeTag entries = some (.string concrete)) :
    schema.shape static tree (.object entries) =
      .object (schema.shapeEntries concrete tree entries) := by
  rw [shape, taggedType, tagged]

theorem held?_shape (tagged : Evaluator.tagged? value = some concrete) (name : String) :
    (schema.shape static tree value).held? name =
      (schema.shown? concrete tree name).bind fun shape => (value.held? name).map shape := by
  obtain ⟨entries, rfl, found⟩ := tagged?_eq_some.mp tagged
  rw [shape_of_tagged found]
  exact lookup?_shapeEntries name entries

theorem isRelationship_iff {name : String} : schema.isRelationship value name = true ↔
    ∃ concrete target, Evaluator.tagged? value = some concrete ∧
      schema.relationshipTarget? concrete name = some target := by
  unfold isRelationship
  cases Evaluator.tagged? value with
  | none => simp
  | some concrete => simp [Option.isSome_iff_exists]

theorem Coherent.ne_typeTag_of_related (coherent : schema.Coherent) {name : String}
    (related : schema.relationshipTarget? concrete name = some target) : name ≠ typeTag := by
  rintro rfl
  rw [relationshipTarget?, coherent.field?_typeTag] at related
  cases related

theorem shown?_of_related (coherent : schema.Coherent) {name : String}
    (related : schema.relationshipTarget? concrete name = some target) :
    schema.shown? concrete tree name = (tree.child? name).map (schema.shapeRelated target) := by
  rw [shown?, if_neg (coherent.ne_typeTag_of_related related), related]

/-! ## Positions in shaped resources -/

theorem getElem?_shapeItems (items : List Json) :
    ∀ index : Nat, (schema.shapeItems target below items)[index]? =
      (items[index]?).map (schema.shape target below) := by
  induction items with
  | nil => exact fun _ => rfl
  | cons item rest ih =>
    intro index
    rw [shapeItems]
    cases index with
    | zero => rfl
    | succ index => exact ih index

theorem pick?_shapeRelated (index : Option Nat) :
    Json.pick? index (schema.shapeRelated target below value) =
      (Json.pick? index value).map (schema.shape target below) := by
  cases index with
  | none => cases value <;> rfl
  | some index =>
    cases value with
    | array items => exact getElem?_shapeItems items index
    | null => rfl
    | bool _ => rfl
    | number _ => rfl
    | string _ => rfl
    | object _ => rfl

theorem step?_shape (coherent : schema.Coherent) {step : Step}
    (tagged : Evaluator.tagged? value = some concrete)
    (related : schema.relationshipTarget? concrete step.name = some target) :
    (schema.shape static tree value).step? step =
      (tree.child? step.name).bind fun below =>
        (value.step? step).map (schema.shape target below) := by
  rw [Json.step?, held?_shape tagged, shown?_of_related coherent related, Json.step?]
  cases tree.child? step.name with
  | none => rfl
  | some below =>
    cases value.held? step.name with
    | none => rfl
    | some held => exact pick?_shapeRelated step.index

theorem wellTagged_of_pick? {index : Option Nat} {inner : Json}
    (tagged : schema.wellTagged target value = true)
    (picked : Json.pick? index value = some inner) : schema.wellTagged target inner = true := by
  obtain rfl | ⟨entries, _, rfl, _⟩ := wellTagged_cases tagged
  · cases index with
    | none =>
      cases picked
      rfl
    | some _ => cases picked
  · cases index with
    | none =>
      cases picked
      exact tagged
    | some _ => cases picked

theorem wellTagged_of_pick?_many {index : Option Nat} {inner : Json}
    (tagged : schema.wellTaggedMany target value = true)
    (picked : Json.pick? index value = some inner) : schema.wellTagged target inner = true := by
  obtain rfl | ⟨items, rfl, each⟩ := wellTaggedMany_cases tagged
  · cases index with
    | none =>
      cases picked
      rfl
    | some _ => cases picked
  · cases index with
    | none => cases picked
    | some index => exact each inner (List.mem_of_getElem? picked)

theorem wellTagged_of_step? {step : Step} {inner : Json}
    (wellTagged : schema.wellTagged static value = true)
    (tagged : Evaluator.tagged? value = some concrete)
    (related : schema.relationshipTarget? concrete step.name = some target)
    (found : value.step? step = some inner) : schema.wellTagged target inner = true := by
  obtain ⟨entries, rfl, isTag⟩ := tagged?_eq_some.mp tagged
  obtain isNull | ⟨_, _, same, isTag', _, entriesTagged⟩ := wellTagged_cases wellTagged
  · cases isNull
  cases same
  cases isTag.symm.trans isTag'
  obtain ⟨held, isHeld, picked⟩ := Option.bind_eq_some_iff.mp found
  obtain ⟨field, isField, isTarget⟩ := Option.bind_eq_some_iff.mp related
  have fits := wellTaggedEntries_iff.mp entriesTagged _ (Keyed.mem_of_lookup? isHeld) field isField
  unfold wellTaggedAs at fits
  cases kind : field.kind with
  | «attribute» _ _ =>
    rw [kind] at isTarget
    cases isTarget
  | toOne other =>
    rw [kind] at isTarget fits
    cases isTarget
    exact wellTagged_of_pick? fits picked
  | toMany other =>
    rw [kind] at isTarget fits
    cases isTarget
    exact wellTagged_of_pick?_many fits picked

/-- At each position the shape of a resource shows the shape of what is stored there, with what the
tree includes below the relationships on the way. -/
theorem at?_shape (coherent : schema.Coherent) (path : List Step) :
    ∀ (static : String) (tree : Include) (value : Json),
      schema.wellTagged static value = true → schema.crosses value path = true →
      ∃ target, (∀ stored, value.at? path = some stored → schema.wellTagged target stored = true) ∧
        (schema.shape static tree value).at? path =
          (tree.below? (path.map Step.name)).bind fun below =>
            (value.at? path).map (schema.shape target below) := by
  induction path with
  | nil =>
    intro static tree value wellTagged _
    refine ⟨static, fun stored found => ?_, rfl⟩
    cases found
    exact wellTagged
  | cons step rest ih =>
    intro static tree value wellTagged crossed
    rw [crosses, Bool.and_eq_true] at crossed
    obtain ⟨relates, onward⟩ := crossed
    obtain ⟨concrete, target, tagged, related⟩ := isRelationship_iff.mp relates
    have seen : (schema.shape static tree value).step? step = _ :=
      step?_shape coherent tagged related
    rw [List.map_cons, Include.below?, Json.at?, Json.at?, seen]
    cases found : value.step? step with
    | none =>
      refine ⟨target, fun stored isStored => by simp at isStored, ?_⟩
      cases tree.child? step.name <;> simp
    | some inner =>
      rw [found] at onward
      have innerTagged := wellTagged_of_step? wellTagged tagged related found
      cases child : tree.child? step.name with
      | none =>
        obtain ⟨target', isTarget, _⟩ := ih target .empty inner innerTagged onward
        exact ⟨target', isTarget, rfl⟩
      | some below => exact ih target below inner innerTagged onward

/-! ## What is exposed -/

/-- What the shape of a stored resource shows, with a tree, below the relationships that lead to it:
all but its tag and the relationships that are not included. -/
structure Exposes (schema : Schema) (tree : Include) (above : List String) (stored shown : Json) :
    Prop where
  missing : shown = .null ↔ stored = .null
  untagged : shown.carries typeTag = false
  kept : ∀ name, name ≠ typeTag → schema.isRelationship stored name = false →
    shown.held? name = stored.held? name
  related : ∀ name, schema.isRelationship stored name = true →
    (shown.carries name = true ↔
      stored.carries name = true ∧ tree.includes (above ++ [name]) = true)

theorem exposes_shape (coherent : schema.Coherent) {above : List String} {stored : Json}
    (wellTagged : schema.wellTagged target stored = true)
    (included : tree.below? above = some below) :
    schema.Exposes tree above stored (schema.shape target below stored) := by
  obtain rfl | ⟨entries, concrete, rfl, isTag, _⟩ := wellTagged_cases wellTagged
  · refine ⟨Iff.rfl, rfl, fun _ _ _ => rfl, fun name related => ?_⟩
    cases related
  have tagged : Evaluator.tagged? (.object entries) = some concrete :=
    tagged?_eq_some.mpr ⟨entries, rfl, isTag⟩
  refine ⟨?_, ?_, ?_, ?_⟩
  · simp [shape]
  · rw [Json.carries, held?_shape tagged, shown?, if_pos rfl]
    rfl
  · intro name notTag unrelated
    rw [held?_shape tagged, shown?, if_neg notTag]
    cases related : schema.relationshipTarget? concrete name with
    | none => simp
    | some target =>
      have relates := isRelationship_iff.mpr ⟨concrete, target, tagged, related⟩
      rw [unrelated] at relates
      cases relates
  · intro name relates
    obtain ⟨_, target', tagged', related⟩ := isRelationship_iff.mp relates
    cases tagged.symm.trans tagged'
    rw [Json.carries, held?_shape tagged, shown?_of_related coherent related, Include.includes,
      Include.below?_append_singleton, included, Option.bind_some, Json.carries]
    cases below.child? name <;> simp

/-! ## Resources of one shape -/

mutual

/-- Values that differ only in relationships of tagged objects that a tree does not include. -/
inductive Alike (schema : Schema) : Include → Json → Json → Prop
  | refl (tree : Include) (value : Json) : Alike schema tree value value
  | object {tree : Include} {concrete : String} {entries others : List (String × Json)}
      (tag : Keyed.lookup? typeTag entries = some (.string concrete))
      (alike : EntriesAlike schema concrete tree entries others) :
      Alike schema tree (.object entries) (.object others)

inductive EntriesAlike (schema : Schema) :
    String → Include → List (String × Json) → List (String × Json) → Prop
  | nil (concrete : String) (tree : Include) : EntriesAlike schema concrete tree [] []
  | same {concrete : String} {tree : Include} {rest others : List (String × Json)} (name : String)
      (value : Json) (later : EntriesAlike schema concrete tree rest others) :
      EntriesAlike schema concrete tree ((name, value) :: rest) ((name, value) :: others)
  | included {concrete name target : String} {tree below : Include} {value other : Json}
      {rest others : List (String × Json)}
      (related : schema.relationshipTarget? concrete name = some target)
      (child : tree.child? name = some below) (here : RelatedAlike schema below value other)
      (later : EntriesAlike schema concrete tree rest others) :
      EntriesAlike schema concrete tree ((name, value) :: rest) ((name, other) :: others)
  | dropped {concrete name target : String} {tree : Include} {value : Json}
      {rest others : List (String × Json)}
      (related : schema.relationshipTarget? concrete name = some target)
      (left : tree.child? name = none) (later : EntriesAlike schema concrete tree rest others) :
      EntriesAlike schema concrete tree ((name, value) :: rest) others
  | added {concrete name target : String} {tree : Include} {value : Json}
      {rest others : List (String × Json)}
      (related : schema.relationshipTarget? concrete name = some target)
      (left : tree.child? name = none) (later : EntriesAlike schema concrete tree rest others) :
      EntriesAlike schema concrete tree rest ((name, value) :: others)

inductive RelatedAlike (schema : Schema) : Include → Json → Json → Prop
  | one {tree : Include} {value other : Json} (alike : Alike schema tree value other) :
      RelatedAlike schema tree value other
  | many {tree : Include} {items others : List Json} (alike : ItemsAlike schema tree items others) :
      RelatedAlike schema tree (.array items) (.array others)

inductive ItemsAlike (schema : Schema) : Include → List Json → List Json → Prop
  | nil (tree : Include) : ItemsAlike schema tree [] []
  | cons {tree : Include} {item other : Json} {rest others : List Json}
      (here : Alike schema tree item other) (later : ItemsAlike schema tree rest others) :
      ItemsAlike schema tree (item :: rest) (other :: others)

end

theorem lookup?_typeTag_of_related (coherent : schema.Coherent) {name : String}
    (related : schema.relationshipTarget? concrete name = some target) (value : Json)
    (entries : List (String × Json)) :
    Keyed.lookup? typeTag ((name, value) :: entries) = Keyed.lookup? typeTag entries := by
  rw [Keyed.lookup?, if_neg (coherent.ne_typeTag_of_related related)]

mutual

theorem EntriesAlike.lookup?_typeTag (coherent : schema.Coherent) :
    ∀ {concrete : String} {tree : Include} {entries others : List (String × Json)},
      EntriesAlike schema concrete tree entries others →
      Keyed.lookup? typeTag entries = Keyed.lookup? typeTag others
  | _, _, _, _, .nil _ _ => rfl
  | _, _, _, _, .same name value later => by
    rw [Keyed.lookup?, Keyed.lookup?, later.lookup?_typeTag coherent]
  | _, _, _, _, .included related child here later => by
    rw [lookup?_typeTag_of_related coherent related, lookup?_typeTag_of_related coherent related,
      later.lookup?_typeTag coherent]
  | _, _, _, _, .dropped related left later => by
    rw [lookup?_typeTag_of_related coherent related, later.lookup?_typeTag coherent]
  | _, _, _, _, .added related left later => by
    rw [lookup?_typeTag_of_related coherent related, later.lookup?_typeTag coherent]

/-- Values that are alike have the same shape. -/
theorem Alike.shape_eq (coherent : schema.Coherent) (static : String) :
    ∀ {tree : Include} {value other : Json}, Alike schema tree value other →
      schema.shape static tree value = schema.shape static tree other
  | _, _, _, .refl _ _ => rfl
  | _, _, _, .object tag alike => by
    have tag' := alike.lookup?_typeTag coherent
    rw [shape_of_tagged tag, shape_of_tagged (tag'.symm.trans tag),
      alike.shapeEntries_eq coherent]

theorem EntriesAlike.shapeEntries_eq (coherent : schema.Coherent) :
    ∀ {concrete : String} {tree : Include} {entries others : List (String × Json)},
      EntriesAlike schema concrete tree entries others →
      schema.shapeEntries concrete tree entries = schema.shapeEntries concrete tree others
  | _, _, _, _, .nil _ _ => rfl
  | _, _, _, _, .same name value later => by
    rw [shapeEntries_cons, shapeEntries_cons, later.shapeEntries_eq coherent]
  | _, _, _, _, .included related child here later => by
    simp only [shapeEntries_cons, shown?_of_related coherent related, child, Option.map_some]
    rw [here.shapeRelated_eq coherent, later.shapeEntries_eq coherent]
  | _, _, _, _, .dropped related left later => by
    rw [shapeEntries_cons, shown?_of_related coherent related, left, Option.map_none,
      later.shapeEntries_eq coherent]
  | _, _, _, _, .added related left later => by
    rw [shapeEntries_cons, shown?_of_related coherent related, left, Option.map_none,
      later.shapeEntries_eq coherent]

theorem RelatedAlike.shapeRelated_eq (coherent : schema.Coherent) (target : String) :
    ∀ {tree : Include} {value other : Json}, RelatedAlike schema tree value other →
      schema.shapeRelated target tree value = schema.shapeRelated target tree other
  | _, _, _, .one (.refl _ _) => rfl
  | _, _, _, .one (.object tag alike) => by
    have shapes := Alike.shape_eq coherent target (.object tag alike)
    exact shapes
  | _, _, _, .many alike => by
    rw [shapeRelated, shapeRelated, alike.shapeItems_eq coherent target]

theorem ItemsAlike.shapeItems_eq (coherent : schema.Coherent) (target : String) :
    ∀ {tree : Include} {items others : List Json}, ItemsAlike schema tree items others →
      schema.shapeItems target tree items = schema.shapeItems target tree others
  | _, _, _, .nil _ => rfl
  | _, _, _, .cons here later => by
    rw [shapeItems, shapeItems, here.shape_eq coherent target, later.shapeItems_eq coherent target]

end

end Schema

end LayeredQuery
