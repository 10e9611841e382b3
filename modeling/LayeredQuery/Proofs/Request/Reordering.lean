import Mathlib.Data.List.Nodup
import LayeredQuery.Request.Layer

/-!
# Reordered layers

A layer reorders another one when they differ only in the order of the selections in their
projections, at any depth. The selections of a projection have distinct names: adding one takes the
place of an earlier one with its name.
-/

set_option autoImplicit false

namespace LayeredQuery

mutual

/-- Layers with the same clauses whose projections are in different orders at most. -/
inductive Layer.Reordered : Layer → Layer → Prop
  | layer {type : String} {tree : Option Include} {filter : Option Filter} {sort : Option Sorting}
      {page : Option Page} {projection other : Option (List Selection)}
      (projections : Layer.ProjectionReordered projection other) :
      Layer.Reordered ⟨type, tree, filter, sort, page, projection⟩
        ⟨type, tree, filter, sort, page, other⟩

inductive Layer.ProjectionReordered : Option (List Selection) → Option (List Selection) → Prop
  | none : Layer.ProjectionReordered none none
  | some {selections matched others : List Selection}
      (each : Selection.Match selections matched) (rearranged : matched.Perm others) :
      Layer.ProjectionReordered (some selections) (some others)

/-- Selections that are the same one by one, but for the order within their layers. -/
inductive Selection.Match : List Selection → List Selection → Prop
  | nil : Selection.Match [] []
  | cons {selection matched : Selection} {rest others : List Selection}
      (here : Selection.Reordered selection matched) (later : Selection.Match rest others) :
      Selection.Match (selection :: rest) (matched :: others)

inductive Selection.Reordered : Selection → Selection → Prop
  | field (name : String) : Selection.Reordered (.field name) (.field name)
  | nested (name : String) {layer other : Layer} (layers : Layer.Reordered layer other) :
      Selection.Reordered (.nested name layer) (.nested name other)

end

/-! ## Distinct names -/

mutual

def Layer.namesDistinct : Layer → Bool
  | ⟨_, _, _, _, _, projection⟩ => Layer.projectionDistinct projection

def Layer.projectionDistinct : Option (List Selection) → Bool
  | none => true
  | some selections =>
    decide (selections.map Selection.name).Nodup && Selection.layersDistinct selections

def Selection.layersDistinct : List Selection → Bool
  | [] => true
  | selection :: rest => Selection.layerDistinct selection && Selection.layersDistinct rest

def Selection.layerDistinct : Selection → Bool
  | .field _ => true
  | .nested _ layer => Layer.namesDistinct layer

end

namespace Selection

theorem layersDistinct_iff {selections : List Selection} :
    layersDistinct selections = true ↔
      ∀ selection ∈ selections, layerDistinct selection = true := by
  induction selections with
  | nil => simp [layersDistinct]
  | cons selection rest ih => simp [layersDistinct, ih]

structure Distinct (selections : List Selection) : Prop where
  names : (selections.map name).Nodup
  inner : layersDistinct selections = true

namespace Distinct

variable {selection : Selection} {selections others rest : List Selection}

theorem head (distinct : Distinct (selection :: rest)) :
    selection.name ∉ rest.map name ∧ selection.layerDistinct = true :=
  ⟨(List.nodup_cons.mp distinct.names).1, (Bool.and_eq_true_iff.mp distinct.inner).1⟩

theorem tail (distinct : Distinct (selection :: rest)) : Distinct rest :=
  ⟨(List.nodup_cons.mp distinct.names).2, (Bool.and_eq_true_iff.mp distinct.inner).2⟩

theorem perm (distinct : Distinct selections) (rearranged : selections.Perm others) :
    Distinct others where
  names := (rearranged.map name).nodup_iff.mp distinct.names
  inner := layersDistinct_iff.mpr fun selection member =>
    layersDistinct_iff.mp distinct.inner selection (rearranged.mem_iff.mpr member)

end Distinct

theorem projectionDistinct_iff {selections : List Selection} :
    Layer.projectionDistinct (some selections) = true ↔ Distinct selections := by
  simp only [Layer.projectionDistinct, Bool.and_eq_true, decide_eq_true_eq]
  exact ⟨fun ⟨names, inner⟩ => ⟨names, inner⟩, fun distinct => ⟨distinct.names, distinct.inner⟩⟩

theorem names_add (selection : Selection) (selections : List Selection) :
    (selection.add selections).map name =
      if selection.name ∈ selections.map name then selections.map name
      else selections.map name ++ [selection.name] := by
  induction selections with
  | nil => simp [add]
  | cons other rest ih =>
    rw [add]
    by_cases same : other.name = selection.name
    · simp [same]
    · simp only [if_neg same, List.map_cons, ih, List.mem_cons, Ne.symm same, false_or]
      split <;> simp

/-- A projection never gets two selections of one name. -/
theorem names_ofList_nodup (selections : List Selection) :
    ((ofList selections).map name).Nodup := by
  suffices kept : ∀ projection : List Selection, (projection.map name).Nodup →
      ((selections.foldl (fun projection selection => selection.add projection) projection).map
        name).Nodup from kept [] .nil
  induction selections with
  | nil => exact fun projection distinct => distinct
  | cons selection rest ih =>
    intro projection distinct
    refine ih (selection.add projection) ?_
    rw [names_add]
    split
    · exact distinct
    · rename_i isNew
      rw [← List.concat_eq_append]
      exact distinct.concat isNew

theorem Match.length_eq {selections matched : List Selection} (each : Match selections matched) :
    selections.length = matched.length := by
  induction selections generalizing matched with
  | nil => cases each; rfl
  | cons selection rest ih =>
    cases each with
    | cons _ later => simp only [List.length_cons, ih later]

end Selection

end LayeredQuery
