import LayeredQuery.Proofs.Evaluation.RowSort
import LayeredQuery.Proofs.Meaning.Layer

/-!
# Layers that can be sorted

A layer can be answered for some resources if the keys of every sort on the way preorder what is
sorted: those of the layer itself the resources that its filter keeps, and those of a nested layer
the resources that a relationship holds, for every resource that is shown. If the keys of one of them
do not, there is a sorter with which the layer has no answer.
-/

set_option autoImplicit false

namespace LayeredQuery

namespace Schema

variable {schema : Schema} {type : ResourceType} {rows ordered : List Json}

/-! ## Sorted resources -/

/-- What resources can become when they are sorted: the stable sort of them by keys that preorder
them, and any order of them by other keys. -/
def SortsTo (schema : Schema) (sort : Option Sorting) (type : ResourceType)
    (rows ordered : List Json) : Prop :=
  match sort with
  | none => ordered = rows
  | some sorting =>
    ordered.Perm rows ∧ (Preorders (schema.rowOrder type sorting.keys) rows →
      StableSort (schema.rowOrder type sorting.keys) rows ordered)

/-- The keys of a sort, if there is one, preorder some resources. -/
def SortPreorders (schema : Schema) (sort : Option Sorting) (type : ResourceType)
    (rows : List Json) : Prop :=
  ∀ sorting, sort = some sorting → Preorders (schema.rowOrder type sorting.keys) rows

theorem compareKeys_eq_rowOrder (keys : List SortKey) :
    (fun x y => compareKeys (keys.map SortKey.direction)
      (keys.map fun key => schema.keyValue type key x)
      (keys.map fun key => schema.keyValue type key y)) = schema.rowOrder type keys :=
  funext fun x => funext fun y => compareKeys_map SortKey.direction (schema.keyValue type) x y keys

theorem sorted?_eq {sorting : Sorting} (sorter : Sorter KeyedRow)
    (preorders : Preorders (schema.rowOrder type sorting.keys) rows) :
    schema.sorted? sorter sorting type rows =
      some (sortedBy (schema.rowOrder type sorting.keys) rows) := by
  rw [← compareKeys_eq_rowOrder] at preorders ⊢
  exact sortKeyed_eq sorter preorders

theorem sortsTo_of_ordered? {sorter : Sorter KeyedRow} {sort : Option Sorting}
    (found : schema.ordered? sorter sort type rows = some ordered) :
    schema.SortsTo sort type rows ordered := by
  cases sort with
  | none => exact (Option.some.inj found).symm
  | some sorting =>
    have perm := sortKeyed_perm found
    rw [List.map_map] at perm
    refine ⟨perm.trans (.of_eq (List.map_id' rows)), fun preorders => ?_⟩
    obtain rfl := Option.some.inj ((sorted?_eq sorter preorders).symm.trans found)
    exact preorders.stableSort_sortedBy

theorem SortPreorders.ordered?_eq {sort : Option Sorting} (sorter : Sorter KeyedRow)
    (preorders : schema.SortPreorders sort type rows)
    (sorts : schema.SortsTo sort type rows ordered) :
    schema.ordered? sorter sort type rows = some ordered := by
  cases sort with
  | none => exact congrArg some sorts.symm
  | some sorting =>
    have preorders := preorders sorting rfl
    rw [ordered?, sorted?_eq sorter preorders,
      (sorts.2 preorders).unique preorders preorders.stableSort_sortedBy]

theorem SortPreorders.exists_sortsTo {sort : Option Sorting}
    (preorders : schema.SortPreorders sort type rows) :
    ∃ ordered, schema.SortsTo sort type rows ordered := by
  cases sort with
  | none => exact ⟨rows, rfl⟩
  | some sorting =>
    have stable := (preorders sorting rfl).stableSort_sortedBy
    exact ⟨_, stable.perm, fun _ => stable⟩

theorem sortPreorders_of_ordered? {sort : Option Sorting}
    (found : (schema.ordered? .demanding sort type rows).isSome = true) :
    schema.SortPreorders sort type rows := by
  rintro sorting rfl
  rw [← compareKeys_eq_rowOrder]
  exact preorders_of_sortKeyed found

/-! ## Orderly layers -/

/-- Whether the resources in a relationship are fit for a nested layer, if it is one to many, and
the resource in it, if it is one to one and there is a resource. -/
def RelatedFit (schema : Schema) (one : ResourceType → Json → Prop)
    (many : ResourceType → List Json → Prop) (type : ResourceType) (name : String) (row : Json) :
    Prop :=
  match schema.fieldOn? type name with
  | none => True
  | some resolved =>
    match schema.targetOf? resolved with
    | none => True
    | some target =>
      let value := schema.read resolved row
      if resolved.kind.isToMany then many target value.related
      else value.isNull = false → one target value

mutual

/-- Every sort that a layer asks for over resources of a type is by keys that preorder what they
sort, at any depth of what is shown. -/
def Orderly (schema : Schema) : Layer → ResourceType → List Json → Prop
  | ⟨_, _, filter, sort, page, projection⟩, type, rows =>
    schema.SortPreorders sort type (schema.kept filter type rows) ∧
      ∀ ordered, schema.SortsTo sort type (schema.kept filter type rows) ordered →
        ∀ row ∈ paged page ordered, ProjectionOrderly schema projection type row

def LayerOrderly (schema : Schema) : Layer → ResourceType → Json → Prop
  | ⟨_, _, _, _, _, projection⟩, type, row => ProjectionOrderly schema projection type row

def ProjectionOrderly (schema : Schema) : Option (List Selection) → ResourceType → Json → Prop
  | none, _, _ => True
  | some selections, type, row => SelectionsOrderly schema selections type row

def SelectionsOrderly (schema : Schema) : List Selection → ResourceType → Json → Prop
  | [], _, _ => True
  | selection :: rest, type, row =>
    SelectionOrderly schema selection type row ∧ SelectionsOrderly schema rest type row

def SelectionOrderly (schema : Schema) : Selection → ResourceType → Json → Prop
  | .field _, _, _ => True
  | .nested name layer, type, row =>
    schema.RelatedFit (LayerOrderly schema layer) (Orderly schema layer) type name row

end

theorem relatedFit_iff {name : String} {row : Json}
    {one : ResourceType → Json → Prop} {many : ResourceType → List Json → Prop}
    {object? : Sorter KeyedRow → Option (ResourceType → Json → Option Json)}
    {answer : Sorter KeyedRow → ResourceType → List Json → Option (List Json)}
    {among : Sorter KeyedRow → Prop}
    (ofOne : ∀ target value, one target value ↔ ∀ sorter, among sorter →
      ∀ object, object? sorter = some object → (object target value).isSome = true)
    (ofMany : ∀ target items, many target items ↔
      ∀ sorter, among sorter → (answer sorter target items).isSome = true) :
    schema.RelatedFit one many type name row ↔ ∀ sorter, among sorter →
      (schema.relatedValue? (object? sorter) (answer sorter) type name row).isSome = true := by
  unfold RelatedFit relatedValue?
  cases schema.fieldOn? type name with
  | none => simp
  | some resolved =>
    cases isTarget : schema.targetOf? resolved with
    | none => simp [isTarget]
    | some target =>
      simp only [isTarget]
      cases resolved.kind.isToMany with
      | true => simp [ofMany]
      | false =>
        simp only [Bool.false_eq_true, if_false, ofOne]
        cases (schema.read resolved row).isNull with
        | true =>
          refine iff_of_true (fun isResource => absurd isResource (by decide)) fun sorter _ => ?_
          cases object? sorter <;> rfl
        | false =>
          refine ⟨fun each sorter isAmong => ?_, fun each _ sorter isAmong object isObject => ?_⟩
          · cases isObject : object? sorter with
            | none => rfl
            | some object => exact each rfl sorter isAmong object isObject
          · simpa [isObject] using each sorter isAmong

theorem SortPreorders.chosen?_eq {filter : Option Filter} {sort : Option Sorting}
    {page : Option Page} (sorter : Sorter KeyedRow)
    (preorders : schema.SortPreorders sort type (schema.kept filter type rows))
    (sorts : schema.SortsTo sort type (schema.kept filter type rows) ordered) :
    schema.chosen? sorter filter sort page type rows = some (paged page ordered) := by
  rw [chosen?, preorders.ordered?_eq sorter sorts, Option.map_some]

section

variable (schema) (settings : Settings) (others : Sorter KeyedRow → Prop)

mutual

/-- A layer is orderly just when it is answered with the demanding sorter and any others. -/
theorem orderly_iff_among : ∀ (layer : Layer) (type : ResourceType) (rows : List Json),
    schema.Orderly layer type rows ↔ ∀ sorter, sorter = .demanding ∨ others sorter →
      (schema.answers? sorter settings layer type rows).isSome = true
  | ⟨_, tree, filter, sort, page, projection⟩, type, rows => by
    rw [Orderly]
    simp only [answers?]
    constructor
    · rintro ⟨preorders, each⟩ sorter isOne
      obtain ⟨ordered, sorts⟩ := preorders.exists_sortsTo
      rw [preorders.chosen?_eq sorter sorts, Option.bind_some]
      cases isObject : schema.projected? sorter settings projection with
      | none => rfl
      | some object =>
        rw [Option.isSome_map, isSome_mapM_iff]
        exact fun row member => (projectionOrderly_iff_among projection type row).mp
          (each ordered sorts row member) sorter isOne object isObject
    · intro all
      have preorders : schema.SortPreorders sort type (schema.kept filter type rows) := by
        have chosen := Option.isSome_of_isSome_bind (all .demanding (.inl rfl))
        rw [chosen?, Option.isSome_map] at chosen
        exact sortPreorders_of_ordered? chosen
      refine ⟨preorders, fun ordered sorts row member => ?_⟩
      refine (projectionOrderly_iff_among projection type row).mpr
        fun sorter isOne object isObject => ?_
      have answered := all sorter isOne
      rw [preorders.chosen?_eq sorter sorts, Option.bind_some, isObject, Option.isSome_map,
        isSome_mapM_iff] at answered
      exact answered row member

theorem layerOrderly_iff_among : ∀ (layer : Layer) (type : ResourceType) (row : Json),
    schema.LayerOrderly layer type row ↔ ∀ sorter, sorter = .demanding ∨ others sorter → ∀ object,
      schema.layerObject? sorter settings layer = some object → (object type row).isSome = true
  | ⟨_, _, _, _, _, projection⟩, type, row => by
    simp only [LayerOrderly, layerObject?]
    exact projectionOrderly_iff_among projection type row

theorem projectionOrderly_iff_among : ∀ (projection : Option (List Selection))
    (type : ResourceType) (row : Json), schema.ProjectionOrderly projection type row ↔
      ∀ sorter, sorter = .demanding ∨ others sorter → ∀ object,
        schema.projected? sorter settings projection = some object →
          (object type row).isSome = true
  | none, type, row => by
    simp [ProjectionOrderly, projected?]
  | some selections, type, row => by
    rw [ProjectionOrderly, selectionsOrderly_iff_among selections type row]
    simp only [projected?]
    cases selections with
    | nil => simp [selectedEntries?]
    | cons selection rest => simp

theorem selectionsOrderly_iff_among : ∀ (selections : List Selection) (type : ResourceType)
    (row : Json), schema.SelectionsOrderly selections type row ↔
      ∀ sorter, sorter = .demanding ∨ others sorter →
        (schema.selectedEntries? sorter settings selections type row).isSome = true
  | [], type, row => by simp [SelectionsOrderly, selectedEntries?]
  | selection :: rest, type, row => by
    rw [SelectionsOrderly, selectionOrderly_iff_among selection type row,
      selectionsOrderly_iff_among rest type row, ← forall₂_and]
    refine forall₂_congr fun sorter _ => ?_
    rw [selectedEntries?]
    cases schema.selected? sorter settings selection type row <;> simp

theorem selectionOrderly_iff_among : ∀ (selection : Selection) (type : ResourceType) (row : Json),
    schema.SelectionOrderly selection type row ↔ ∀ sorter, sorter = .demanding ∨ others sorter →
      (schema.selected? sorter settings selection type row).isSome = true
  | .field name, type, row => by simp [SelectionOrderly, selected?]
  | .nested name layer, type, row => by
    simp only [SelectionOrderly, selected?]
    exact relatedFit_iff (layerOrderly_iff_among layer) (orderly_iff_among layer)

end

end

/-- A layer is orderly just when it is answered with every sorter. -/
theorem orderly_iff (schema : Schema) (settings : Settings) (layer : Layer) (type : ResourceType)
    (rows : List Json) : schema.Orderly layer type rows ↔
      ∀ sorter, (schema.answers? sorter settings layer type rows).isSome = true := by
  rw [orderly_iff_among schema settings fun _ => True]
  simp only [or_true, true_implies]

theorem selectionsOrderly_iff (schema : Schema) (settings : Settings) (selections : List Selection)
    (type : ResourceType) (row : Json) : schema.SelectionsOrderly selections type row ↔
      ∀ sorter, (schema.object? sorter settings selections type row).isSome = true := by
  rw [selectionsOrderly_iff_among schema settings fun _ => True]
  simp only [or_true, true_implies, object?, Option.isSome_map]

/-- The demanding sorter tells whether a layer is orderly. -/
theorem isSome_demanding_iff_orderly (schema : Schema) (settings : Settings) (layer : Layer)
    (type : ResourceType) (rows : List Json) :
    (schema.answers? .demanding settings layer type rows).isSome = true ↔
      schema.Orderly layer type rows := by
  rw [orderly_iff_among schema settings fun _ => False]
  simp only [or_false, forall_eq]

instance (schema : Schema) (layer : Layer) (type : ResourceType) (rows : List Json) :
    Decidable (schema.Orderly layer type rows) :=
  decidable_of_iff _ (isSome_demanding_iff_orderly schema .default layer type rows)

end Schema

end LayeredQuery
