import LayeredQuery.Json.Reader
import LayeredQuery.Proofs.Json.Entries

/-!
# Ordered documents

A document is ordered when the entries of each object in it stand in the order of their keys, each
key once. Objects put together from entries are ordered if the values are, and all documents that
are read from texts are ordered.
-/

set_option autoImplicit false

namespace LayeredQuery

namespace Json

mutual

/-- Whether the entries of every object in a value stand in the order of their keys, each key
once. -/
def isOrdered : Json → Bool
  | .object entries => entriesOrdered entries
  | .array items => itemsOrdered items
  | _ => true

def itemsOrdered : List Json → Bool
  | [] => true
  | item :: rest => isOrdered item && itemsOrdered rest

def entriesOrdered : List (String × Json) → Bool
  | [] => true
  | (name, value) :: rest =>
    rest.all (fun other => name < other.1) && isOrdered value && entriesOrdered rest

end

theorem entriesOrdered_iff {entries : List (String × Json)} :
    entriesOrdered entries = true ↔
      Keyed.Increasing entries ∧ ∀ entry ∈ entries, entry.2.isOrdered = true := by
  induction entries with
  | nil => simp [entriesOrdered, Keyed.Increasing, Keyed.keys]
  | cons entry rest ih =>
    obtain ⟨name, value⟩ := entry
    rw [entriesOrdered, Bool.and_eq_true, Bool.and_eq_true, ih, Keyed.increasing_cons,
      List.forall_mem_cons]
    simp only [List.all_eq_true, decide_eq_true_eq]
    constructor
    · rintro ⟨⟨least, ordered⟩, later, each⟩
      exact ⟨⟨least, later⟩, ordered, each⟩
    · rintro ⟨⟨least, later⟩, ordered, each⟩
      exact ⟨⟨least, ordered⟩, later, each⟩

theorem isOrdered_ofEntries {entries : List (String × Json)}
    (each : ∀ entry ∈ entries, entry.2.isOrdered = true) :
    (ofEntries entries).isOrdered = true := by
  refine List.foldlRecOn (motive := fun sorted => entriesOrdered sorted = true) entries _ rfl ?_
  intro sorted ordered entry member
  obtain ⟨increasing, inner⟩ := entriesOrdered_iff.mp ordered
  refine entriesOrdered_iff.mpr ⟨increasing.insert _ _, fun other isOther => ?_⟩
  rcases Keyed.mem_of_mem_insert isOther with rfl | old
  · exact each entry member
  · exact inner other old

/-! ## Reading -/

mutual

theorem isOrdered_of_ofTree? : ∀ (tree : Tree) {depth : Nat} {value : Json},
    ofTree? depth tree = some value → value.isOrdered = true
  | .array items, depth, value, read => by
    cases depth with
    | zero => cases read
    | succ depth =>
      obtain ⟨values, areItems, rfl⟩ := Option.map_eq_some_iff.mp read
      exact itemsOrdered_of_ofItems? items areItems
  | .object entries, depth, value, read => by
    cases depth with
    | zero => cases read
    | succ depth =>
      obtain ⟨written, areEntries, rfl⟩ := Option.map_eq_some_iff.mp read
      exact isOrdered_ofEntries (isOrdered_of_ofObject? entries areEntries)
  | .null, _, _, read => by
    cases read
    rfl
  | .bool _, _, _, read => by
    cases read
    rfl
  | .numeral _, _, _, read => by
    obtain ⟨_, _, rfl⟩ := Option.map_eq_some_iff.mp read
    rfl
  | .text _, _, _, read => by
    obtain ⟨_, _, rfl⟩ := Option.map_eq_some_iff.mp read
    rfl

theorem itemsOrdered_of_ofItems? : ∀ (items : List Tree) {depth : Nat} {values : List Json},
    ofItems? depth items = some values → itemsOrdered values = true
  | [], _, _, read => by
    cases read
    rfl
  | item :: rest, depth, values, read => by
    rw [ofItems?] at read
    split at read
    · cases read
    · rename_i value isItem
      obtain ⟨others, areRest, rfl⟩ := Option.map_eq_some_iff.mp read
      rw [itemsOrdered, isOrdered_of_ofTree? item isItem, itemsOrdered_of_ofItems? rest areRest]
      rfl

theorem isOrdered_of_ofObject? : ∀ (entries : List (List TextUnit × Tree)) {depth : Nat}
    {written : List (String × Json)}, ofObject? depth entries = some written →
      ∀ entry ∈ written, entry.2.isOrdered = true
  | [], _, _, read => by
    cases read
    exact fun _ member => by cases member
  | (key, tree) :: rest, depth, written, read => by
    rw [ofObject?] at read
    split at read
    · cases read
    · split at read
      · cases read
      · rename_i value isTree
        obtain ⟨others, areRest, rfl⟩ := Option.map_eq_some_iff.mp read
        exact List.forall_mem_cons.mpr
          ⟨isOrdered_of_ofTree? tree isTree, isOrdered_of_ofObject? rest areRest⟩

end

/-- Every document that a text writes is ordered. -/
theorem isOrdered_of_ofText? {text : String} {value : Json} (read : ofText? text = some value) :
    value.isOrdered = true := by
  unfold ofText? ofTextWithin? at read
  split at read
  · cases read
  · rename_i tree _
    exact isOrdered_of_ofTree? tree read

def writtenEntries? (text : String) : Option (List (String × Json)) :=
  match Tree.ofText? text with
  | some (.object entries) => ofObject? (depthLimit - 1) entries
  | _ => none

theorem ofText?_eq_object_iff {text : String} {entries : List (String × Json)} :
    ofText? text = some (.object entries) ↔
      ∃ written, writtenEntries? text = some written ∧ Keyed.Increasing entries ∧
        ∀ name, Keyed.lookup? name entries = last? name written := by
  simp only [← ofEntries_eq_object_iff]
  unfold ofText? ofTextWithin? writtenEntries?
  cases Tree.ofText? text with
  | none => simp
  | some tree => cases tree <;> simp [ofTree?, depthLimit]

end Json

end LayeredQuery
