import Mathlib.Data.List.Forall2
import LayeredQuery.Evaluation.Engine

/-!
# The parts of a document

Loading goes through a document part by part: a resource for each item of its arrays, and one part
for each value that is no array. Whether a part is refused depends on the schema and not on what is
stored, so the parts before the first that is refused are all stored, and none after it.
-/

set_option autoImplicit false

namespace LayeredQuery

inductive LoadPart
  | resource (type : String) (item : Json)
  | notAnArray (type : String)

def loadParts : List (String × Json) → List LoadPart
  | [] => []
  | (type, .array items) :: rest => items.map (.resource type) ++ loadParts rest
  | (type, _) :: rest => .notAnArray type :: loadParts rest

/-- What is stored for a part: its resource with the tags, under its type. -/
inductive Schema.StoredAs (schema : Schema) : LoadPart → String × Json → Prop
  | tagged {type : String} {item row : Json} (accepted : schema.tag type item = .ok row) :
    StoredAs schema (.resource type item) (type, row)

/-! ## Stores that grow -/

namespace Store

def extend (store : Store) (rows : List (String × Json)) : Store :=
  rows.foldl (fun store row => store.insert row.1 row.2) store

def ofType (type : String) (rows : List (String × Json)) : List Json :=
  (rows.filter fun row => row.1 = type).map Prod.snd

theorem items_insert (store : Store) (type other : String) (item : Json) :
    (store.insert type item).items other =
      if type = other then store.items other ++ [item] else store.items other := by
  rw [insert, items, Keyed.lookup?_set]
  by_cases same : type = other
  · rw [if_pos same, if_pos same, same]
    rfl
  · rw [if_neg same, if_neg same]
    rfl

theorem items_extend (rows : List (String × Json)) (type : String) :
    ∀ store : Store, (store.extend rows).items type = store.items type ++ ofType type rows := by
  induction rows with
  | nil => exact fun store => (List.append_nil _).symm
  | cons row rest ih =>
    intro store
    have later : (store.extend (row :: rest)).items type =
        (store.insert row.1 row.2).items type ++ ofType type rest := ih _
    rw [later, items_insert]
    by_cases same : row.1 = type
    · simp [same, ofType]
    · simp [same, ofType]

end Store

/-! ## Parts that are refused -/

namespace Engine

theorem stored_of_insert {engine next : Engine} {type : String} {item : Json}
    (accepted : engine.insert type item = .ok next) :
    ∃ row, (engine.schema.type? type).isSome ∧ engine.schema.tag type item = .ok row ∧
      isObject row = true ∧ next = ⟨engine.schema, engine.store.insert type row⟩ := by
  unfold insert at accepted
  cases known : engine.schema.type? type with
  | none => simp [known] at accepted
  | some found =>
    cases tagged : engine.schema.tag type item with
    | error _ => simp [known, tagged] at accepted
    | ok row =>
      simp only [known, tagged, put] at accepted
      split at accepted
      · rename_i isObject
        cases accepted
        exact ⟨row, rfl, rfl, isObject, rfl⟩
      · cases accepted

/-- The error with which loading refuses a part. -/
def refusal? (engine : Engine) : LoadPart → Option RunError
  | .resource type item =>
    match engine.insert type item with
    | .ok _ => none
    | .error error => some error
  | .notAnArray type => some (.invalidData (.notAnArrayOf type))

theorem refusal?_store (engine : Engine) (store : Store) (part : LoadPart) :
    refusal? ⟨engine.schema, store⟩ part = engine.refusal? part := by
  cases part with
  | notAnArray type => rfl
  | resource type item =>
    rw [refusal?, refusal?, insert, insert]
    cases engine.schema.type? type with
    | none => rfl
    | some _ =>
      cases engine.schema.tag type item with
      | error _ => rfl
      | ok row =>
        simp only [put]
        cases isObject row <;> rfl

/-! ## Loading part by part -/

def loadAll (engine : Engine) (count : Nat) : List LoadPart → Loaded
  | [] => ⟨engine, .ok count⟩
  | .resource type item :: rest =>
    match engine.insert type item with
    | .error error => ⟨engine, .error error⟩
    | .ok next => loadAll next (count + 1) rest
  | .notAnArray type :: _ => ⟨engine, .error (.invalidData (.notAnArrayOf type))⟩

theorem loadAll_items (type : String) (items : List Json) (rest : List LoadPart) :
    ∀ (engine : Engine) (count : Nat),
      engine.loadAll count (items.map (.resource type) ++ rest) =
        match engine.insertAll type count items with
        | ⟨next, .ok total⟩ => next.loadAll total rest
        | ⟨next, .error error⟩ => ⟨next, .error error⟩ := by
  induction items with
  | nil => intro engine count; rfl
  | cons item others ih =>
    intro engine count
    rw [List.map_cons, List.cons_append, loadAll, insertAll]
    cases engine.insert type item with
    | error _ => rfl
    | ok next => exact ih next (count + 1)

theorem loadEntries_eq_loadAll (entries : List (String × Json)) :
    ∀ (engine : Engine) (count : Nat),
      engine.loadEntries count entries = engine.loadAll count (loadParts entries) := by
  induction entries with
  | nil => intro engine count; rfl
  | cons entry rest ih =>
    obtain ⟨type, value⟩ := entry
    intro engine count
    cases value with
    | array items =>
      rw [loadEntries, loadParts, loadAll_items]
      cases engine.insertAll type count items with
      | mk next result =>
        cases result with
        | error _ => rfl
        | ok total => exact ih next total
    | _ => rfl

theorem loadAll_of_refused {engine : Engine} {bad : LoadPart} {error : RunError}
    (refused : engine.refusal? bad = some error) (count : Nat) (after : List LoadPart) :
    engine.loadAll count (bad :: after) = ⟨engine, .error error⟩ := by
  cases bad with
  | notAnArray type =>
    cases refused
    rfl
  | resource type item =>
    rw [refusal?] at refused
    rw [loadAll]
    cases inserted : engine.insert type item with
    | ok next => simp [inserted] at refused
    | error other =>
      rw [inserted] at refused
      cases refused
      rfl

/-- Parts that are not refused are stored in their order, and loading goes on with the rest. -/
theorem loadAll_of_accepted {parts : List LoadPart} (rest : List LoadPart) :
    ∀ {engine : Engine} (count : Nat), (∀ part ∈ parts, engine.refusal? part = none) →
      ∃ rows, List.Forall₂ engine.schema.StoredAs parts rows ∧
        engine.loadAll count (parts ++ rest) =
          loadAll ⟨engine.schema, engine.store.extend rows⟩ (count + parts.length) rest := by
  induction parts with
  | nil => exact fun count _ => ⟨[], .nil, rfl⟩
  | cons part others ih =>
    intro engine count accepted
    obtain ⟨first, later⟩ := List.forall_mem_cons.mp accepted
    cases part with
    | notAnArray type => cases first
    | resource type item =>
      rw [refusal?] at first
      rw [List.cons_append, loadAll]
      cases inserted : engine.insert type item with
      | error _ => simp [inserted] at first
      | ok next =>
        obtain ⟨row, _, tagged, _, rfl⟩ := stored_of_insert inserted
        have later' : ∀ part ∈ others,
            refusal? ⟨engine.schema, engine.store.insert type row⟩ part = none :=
          fun part member => (refusal?_store engine _ part).trans (later part member)
        obtain ⟨rows, stored, loaded⟩ := ih (count + 1) later'
        refine ⟨(type, row) :: rows, .cons (.tagged tagged) stored, ?_⟩
        rw [List.length_cons, Nat.add_comm others.length 1, ← Nat.add_assoc]
        exact loaded

end Engine

end LayeredQuery
