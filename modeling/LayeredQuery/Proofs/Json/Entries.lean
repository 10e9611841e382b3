import LayeredQuery.Evaluation.Shape
import LayeredQuery.Proofs.StableSort

/-!
# Entries of objects

The entries of an object stand in the order of their keys, each key once, so they are determined by
what is found under each key. An object put together from entries in any order holds the last value
of each key, and a stable sort by keys changes nothing about it. Removing type tags leaves every
other key with its value, less the tags in that.
-/

set_option autoImplicit false

namespace LayeredQuery

namespace Keyed

variable {α β : Type}

/-! ## Lists with the same look-ups -/

theorem lookup?_eq_none_of_lt {name : String} {entries : List (String × α)}
    (above : ∀ key ∈ keys entries, name < key) : lookup? name entries = none := by
  apply lookup?_eq_none_iff.mpr
  intro member
  exact String.lt_irrefl name (above name member)

/-- Lists with increasing keys are equal when look-ups in them are. -/
theorem Increasing.ext {xs ys : List (String × α)} (increasing : Increasing xs)
    (increasing' : Increasing ys) (same : ∀ name, lookup? name xs = lookup? name ys) : xs = ys := by
  induction xs generalizing ys with
  | nil =>
    cases ys with
    | nil => rfl
    | cons entry rest =>
      have found := same entry.1
      simp [lookup?] at found
  | cons entry rest ih =>
    obtain ⟨key, value⟩ := entry
    obtain ⟨least, later⟩ := List.pairwise_cons.mp increasing
    cases ys with
    | nil =>
      have found := same key
      simp [lookup?] at found
    | cons entry' rest' =>
      obtain ⟨key', value'⟩ := entry'
      obtain ⟨least', later'⟩ := List.pairwise_cons.mp increasing'
      have sameKey : key = key' := by
        by_cases before : key < key'
        · have absent : lookup? key ((key', value') :: rest') = none := by
            refine lookup?_eq_none_of_lt (List.forall_mem_cons.mpr ⟨before, ?_⟩)
            exact fun other member => String.lt_trans before (least' other member)
          rw [← same key] at absent
          simp [lookup?] at absent
        · by_cases after : key' < key
          · have absent : lookup? key' ((key, value) :: rest) = none := by
              refine lookup?_eq_none_of_lt (List.forall_mem_cons.mpr ⟨after, ?_⟩)
              exact fun other member => String.lt_trans after (least other member)
            rw [same key'] at absent
            simp [lookup?] at absent
          · exact String.le_antisymm (String.not_lt.mp after) (String.not_lt.mp before)
      subst sameKey
      have sameValue : value = value' := by simpa [lookup?] using same key
      subst sameValue
      congr 1
      refine ih later later' fun name => ?_
      have found := same name
      simp only [lookup?] at found
      by_cases isKey : key = name
      · subst isKey
        rw [lookup?_eq_none_of_lt least, lookup?_eq_none_of_lt least']
      · simpa [isKey] using found

theorem lookup?_filter (name : String) (entries : List (String × α)) :
    lookup? name (entries.filter fun entry => entry.1 = name) = lookup? name entries := by
  induction entries with
  | nil => rfl
  | cons entry rest ih =>
    obtain ⟨key, value⟩ := entry
    by_cases same : key = name
    · simp [same, lookup?]
    · simp [same, lookup?, ih]

/-! ## Insertion one after another -/

theorem lookup?_foldl_insert (name : String) (entries : List (String × α)) :
    ∀ sorted : List (String × α),
      lookup? name (entries.foldl (fun sorted entry => insert entry.1 entry.2 sorted) sorted) =
        (lookup? name entries.reverse).or (lookup? name sorted) := by
  induction entries with
  | nil => intro sorted; rfl
  | cons entry rest ih =>
    obtain ⟨key, value⟩ := entry
    intro sorted
    rw [List.foldl_cons, ih, lookup?_insert, List.reverse_cons, lookup?_append]
    cases lookup? name rest.reverse with
    | some found => rfl
    | none =>
      by_cases same : key = name
      · simp [lookup?, same]
      · simp [lookup?, same]

theorem Increasing.foldl_insert (entries : List (String × α)) :
    ∀ {sorted : List (String × α)}, Increasing sorted →
      Increasing
        (entries.foldl (fun sorted entry => Keyed.insert entry.1 entry.2 sorted) sorted) := by
  induction entries with
  | nil => intro sorted increasing; exact increasing
  | cons entry rest ih =>
    intro sorted increasing
    exact ih (increasing.insert entry.1 entry.2)

/-! ## Stable sorts -/

/-- A stable sort by keys keeps the entries of one key in their order. -/
theorem filter_mergeSort {before : String → String → Bool}
    (trans : ∀ x y z, before x y = true → before y z = true → before x z = true)
    (total : ∀ x y, (before x y || before y x) = true) (name : String)
    (entries : List (String × α)) :
    (entries.mergeSort fun x y => before x.1 y.1).filter (fun entry => entry.1 = name) =
      entries.filter fun entry => entry.1 = name := by
  have reflexive : before name name = true := by simpa using total name name
  have together : (entries.filter fun entry => entry.1 = name).Pairwise
      fun x y => before x.1 y.1 = true := by
    refine List.pairwise_of_forall_mem_list ?_
    intro x xMember y yMember
    have xName : x.1 = name := by simpa using (List.mem_filter.mp xMember).2
    have yName : y.1 = name := by simpa using (List.mem_filter.mp yMember).2
    rw [xName, yName]
    exact reflexive
  exact filter_mergeSort_of_pairwise (fun x y z => trans x.1 y.1 z.1) (fun x y => total x.1 y.1)
    together

end Keyed

/-! ## Objects -/

namespace Json

open Keyed

theorem lookup?_untagEntries {name : String} (isName : name ≠ typeTag)
    (entries : List (String × Json)) :
    lookup? name (untagEntries entries) = (lookup? name entries).map untag := by
  induction entries with
  | nil => rfl
  | cons entry rest ih =>
    obtain ⟨key, value⟩ := entry
    rw [untagEntries, lookup?]
    by_cases isTag : key = typeTag
    · rw [if_pos isTag, ih, if_neg fun same => isName (same.symm.trans isTag)]
    · rw [if_neg isTag, lookup?, ih]
      by_cases same : key = name
      · simp [same]
      · simp [same]

theorem lookup?_untagEntries_typeTag (entries : List (String × Json)) :
    lookup? typeTag (untagEntries entries) = none := by
  induction entries with
  | nil => rfl
  | cons entry rest ih =>
    obtain ⟨key, value⟩ := entry
    rw [untagEntries]
    by_cases isTag : key = typeTag
    · rw [if_pos isTag, ih]
    · rw [if_neg isTag, lookup?, if_neg isTag, ih]

def last? (name : String) (entries : List (String × Json)) : Option Json :=
  lookup? name entries.reverse

theorem last?_append (name : String) (entries others : List (String × Json)) :
    last? name (entries ++ others) = (last? name others).or (last? name entries) := by
  unfold last?
  rw [List.reverse_append, lookup?_append]

theorem last?_cons (name key : String) (value : Json) (entries : List (String × Json)) :
    last? name ((key, value) :: entries) =
      (last? name entries).or (if key = name then some value else none) :=
  last?_append name [(key, value)] entries

theorem last?_eq_none_iff {name : String} {entries : List (String × Json)} :
    last? name entries = none ↔ name ∉ keys entries := by
  unfold last?
  rw [lookup?_eq_none_iff, keys, keys, List.map_reverse, List.mem_reverse]

/-- What an object has under a name once its type tags are removed, if no entry is such a tag. -/
theorem untag_ofEntries {entries : List (String × Json)} (noTag : typeTag ∉ keys entries) :
    ∃ shown, (ofEntries entries).untag = .object shown ∧
      ∀ name, lookup? name shown = (last? name entries).map untag := by
  refine ⟨_, by rw [ofEntries, untag], fun name => ?_⟩
  by_cases isTag : name = typeTag
  · rw [isTag, lookup?_untagEntries_typeTag, last?_eq_none_iff.mpr noTag]
    rfl
  · rw [lookup?_untagEntries isTag, lookup?_foldl_insert]
    exact congrArg (Option.map untag) Option.or_none

theorem ofEntries_congr {entries others : List (String × Json)}
    (same : ∀ name, last? name entries = last? name others) :
    ofEntries entries = ofEntries others := by
  unfold ofEntries
  congr 1
  refine Increasing.ext (.foldl_insert entries .nil) (.foldl_insert others .nil) ?_
  intro name
  rw [lookup?_foldl_insert, lookup?_foldl_insert]
  exact congrArg (Option.or · _) (same name)

/-- An object put together from entries has them in the order of their keys, each with the last
value of its key. -/
theorem ofEntries_eq_object_iff {written entries : List (String × Json)} :
    ofEntries written = .object entries ↔
      Increasing entries ∧ ∀ name, lookup? name entries = last? name written := by
  have increasing := @Increasing.foldl_insert _ written [] .nil
  have found : ∀ name, lookup? name _ = last? name written := fun name =>
    (lookup?_foldl_insert name written []).trans Option.or_none
  rw [ofEntries, object.injEq]
  constructor
  · rintro rfl
    exact ⟨increasing, found⟩
  · rintro ⟨increasing', found'⟩
    exact increasing.ext increasing' fun name => (found name).trans (found' name).symm

theorem ofEntries_mergeSort {before : String → String → Bool}
    (trans : ∀ x y z, before x y = true → before y z = true → before x z = true)
    (total : ∀ x y, (before x y || before y x) = true) (entries : List (String × Json)) :
    ofEntries (entries.mergeSort fun x y => before x.1 y.1) = ofEntries entries := by
  refine ofEntries_congr fun name => ?_
  unfold last?
  rw [← lookup?_filter, ← lookup?_filter name entries.reverse, List.filter_reverse,
    List.filter_reverse, filter_mergeSort trans total]

end Json

end LayeredQuery
