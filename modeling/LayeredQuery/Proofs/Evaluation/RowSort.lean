import LayeredQuery.Evaluation.InsertionSort
import LayeredQuery.Proofs.Evaluation.Rules
import LayeredQuery.Proofs.StableSort

/-!
# Sorted rows

Rows are sorted by the values that keys have for them, which go with the rows while they are sorted.
Keys that preorder the rows sort them stably. Other keys leave it to the sorter whether there is an
order at all, but never lose a row.
-/

set_option autoImplicit false

namespace LayeredQuery

variable {sorter : Sorter KeyedRow} {directions : List Direction} {rows sorted : List Json}

theorem compareKeys_map {κ : Type} (direction : κ → Direction) (value : κ → Json → Json)
    (x y : Json) : ∀ keys : List κ,
    compareKeys (keys.map direction) (keys.map fun key => value key x)
        (keys.map fun key => value key y) =
      lexicographic
        (keys.map fun key x y => Json.sortOrder (direction key) (value key x) (value key y)) x y
  | [] => rfl
  | _ :: rest => congrArg (Ordering.then _) (compareKeys_map direction value x y rest)

theorem sortKeyed_perm {keyed : List KeyedRow}
    (found : sortKeyed sorter directions keyed = some sorted) :
    sorted.Perm (keyed.map Prod.snd) := by
  obtain ⟨rows, isSorted, rfl⟩ := Option.map_eq_some_iff.mp found
  exact (sorter.perm isSorted).map Prod.snd

section

variable {values : Json → List Json}

/-- Rows that their keys preorder are sorted stably, whatever sorts them. -/
theorem sortKeyed_eq (sorter : Sorter KeyedRow)
    (preorders : Preorders (fun x y => compareKeys directions (values x) (values y)) rows) :
    sortKeyed sorter directions (rows.map fun row => (values row, row)) =
      some (sortedBy (fun x y => compareKeys directions (values x) (values y)) rows) := by
  let keyed (row : Json) : KeyedRow := (values row, row)
  have ofKeyed : Preorders (fun x y : KeyedRow => compareKeys directions x.1 y.1)
      (rows.map keyed) := .map preorders
  obtain ⟨sorted, found, stable⟩ := sorter.stable ofKeyed
  have unkeyed : ∀ row, Prod.snd (keyed row) = row := fun _ => rfl
  have ofRows := (stable.comap unkeyed).unique preorders preorders.stableSort_sortedBy
  exact (congrArg (Option.map _) found).trans (congrArg some ofRows)

/-- Whoever relies on a sort relies on its keys. -/
theorem preorders_of_sortKeyed
    (found : (sortKeyed .demanding directions (rows.map fun row => (values row, row))).isSome) :
    Preorders (fun x y => compareKeys directions (values x) (values y)) rows := by
  rw [sortKeyed, Option.isSome_map] at found
  exact (Sorter.isSome_demanding_iff.mp found).comap

end

theorem keyedRow_eq {keys : List RowKey} {row : Json} {values : List Json}
    (computed : mapItems (fun (key : RowKey) => key.value row) keys = .ok values) :
    keyedRow keys row = .ok (values, row) := by
  rw [keyedRow, computed]

theorem sortRows_eq (sorter : Sorter KeyedRow) {key : RowKey} {others : List RowKey}
    {values : Json → List Json}
    (computed : ∀ row ∈ rows,
      mapItems (fun (key : RowKey) => key.value row) (key :: others) = .ok (values row)) :
    sortRows sorter (key :: others) rows =
      unlessDisordered (sortKeyed sorter ((key :: others).map RowKey.direction)
        (rows.map fun row => (values row, row))) := by
  have keyed := mapItems_eq fun row member => keyedRow_eq (computed row member)
  simp only [sortRows, keyed]

end LayeredQuery
