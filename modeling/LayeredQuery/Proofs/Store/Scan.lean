import LayeredQuery.Proofs.Schema.Descendants
import LayeredQuery.Proofs.Store.Session

/-!
# Scans of a store

A scan collects what is stored under a type and under each type below it. Since the walk down meets
each of these types once and the store holds one collection for each, the scan is a rearrangement of
the resources stored under types that derive from the one scanned.
-/

set_option autoImplicit false

namespace LayeredQuery

namespace Store

def resources (store : Store) : List (String × Json) :=
  store.collections.flatMap fun (type, items) => items.map fun item => (type, item)

def resourcesWhere (store : Store) (test : String × Json → Bool) : List Json :=
  (store.resources.filter test).map Prod.snd

theorem mem_resources {store : Store} {type : String} {item : Json} :
    (type, item) ∈ store.resources ↔ ∃ items, (type, items) ∈ store.collections ∧ item ∈ items := by
  simp [resources]

/-- When one test implies another, both are passed by as many resources only if they agree. -/
theorem resourcesWhere_perm_iff {store : Store} {test other : String × Json → Bool}
    (implies : ∀ entry ∈ store.resources, test entry = true → other entry = true) :
    (store.resourcesWhere test).Perm (store.resourcesWhere other) ↔
      ∀ entry ∈ store.resources, other entry = true → test entry = true := by
  constructor
  · intro rearranged
    have nested : (store.resources.filter other).filter test = store.resources.filter test := by
      rw [List.filter_filter]
      refine List.filter_congr fun entry member => ?_
      cases passes : test entry with
      | false => rfl
      | true => rw [implies entry member passes, Bool.and_self]
    have sameLength : ((store.resources.filter other).filter test).length =
        (store.resources.filter other).length := by
      rw [nested]
      simpa only [resourcesWhere, List.length_map] using rearranged.length_eq
    intro entry member passes
    exact List.length_filter_eq_length_iff.mp sameLength entry
      (List.mem_filter.mpr ⟨member, passes⟩)
  · intro converse
    have same : store.resources.filter test = store.resources.filter other :=
      List.filter_congr fun entry member =>
        Bool.eq_iff_iff.mpr ⟨implies entry member, converse entry member⟩
    rw [resourcesWhere, resourcesWhere, same]

theorem items_cons (type name : String) (items : List Json) (rest : List (String × List Json)) :
    Store.items ⟨(type, items) :: rest⟩ name =
      if type = name then items else Store.items ⟨rest⟩ name := by
  unfold Store.items
  rw [Keyed.lookup?]
  split <;> rfl

theorem resourcesWhere_cons (test : String → Bool) (type : String) (items : List Json)
    (rest : List (String × List Json)) :
    Store.resourcesWhere ⟨(type, items) :: rest⟩ (fun entry => test entry.1) =
      (if test type then items else []) ++
        Store.resourcesWhere ⟨rest⟩ fun entry => test entry.1 := by
  simp only [resourcesWhere, resources, List.flatMap_cons, List.filter_append, List.map_append]
  congr 1
  cases passes : test type <;> simp [List.filter_map, Function.comp_def, passes]

theorem items_eq_nil {collections : List (String × List Json)} {name : String}
    (absent : name ∉ Keyed.keys collections) : Store.items ⟨collections⟩ name = [] := by
  induction collections with
  | nil => rfl
  | cons collection rest ih =>
    obtain ⟨type, items⟩ := collection
    have differ : name ≠ type := List.ne_of_not_mem_cons absent
    rw [items_cons, if_neg differ.symm, ih (List.not_mem_of_not_mem_cons absent)]

theorem flatMap_items_perm {names : List String} (distinct : names.Nodup) :
    ∀ {collections : List (String × List Json)}, (Keyed.keys collections).Nodup →
      (names.flatMap (Store.items ⟨collections⟩)).Perm
        (Store.resourcesWhere ⟨collections⟩ fun entry => names.contains entry.1)
  | [], _ => by
    have nothing : names.flatMap (Store.items ⟨[]⟩) = [] := by
      rw [List.flatMap_eq_nil_iff]
      exact fun name _ => rfl
    rw [nothing]
    rfl
  | (type, items) :: rest, once => by
    obtain ⟨isNew, once⟩ := List.nodup_cons.mp once
    have others := flatMap_items_perm distinct once
    rw [resourcesWhere_cons names.contains]
    by_cases named : type ∈ names
    · -- The collection of the type is moved to the front of both lists.
      have front := List.perm_cons_erase named
      have away : ∀ name ∈ names.erase type, name ≠ type := fun name member =>
        (distinct.mem_erase_iff.mp member).1
      have first : (names.flatMap (Store.items ⟨(type, items) :: rest⟩)).Perm
          (items ++ (names.erase type).flatMap (Store.items ⟨rest⟩)) := by
        refine (front.flatMap_right _).trans (List.Perm.of_eq ?_)
        rw [List.flatMap_cons, items_cons, if_pos rfl]
        congr 1
        refine List.flatMap_congr fun name member => ?_
        rw [items_cons, if_neg (away name member).symm]
      have second : (names.flatMap (Store.items ⟨rest⟩)).Perm
          ((names.erase type).flatMap (Store.items ⟨rest⟩)) := by
        refine (front.flatMap_right _).trans (List.Perm.of_eq ?_)
        rw [List.flatMap_cons, items_eq_nil isNew, List.nil_append]
      rw [if_pos (List.contains_iff_mem.mpr named)]
      exact first.trans ((second.symm.trans others).append_left items)
    · have same : names.flatMap (Store.items ⟨(type, items) :: rest⟩) =
          names.flatMap (Store.items ⟨rest⟩) := by
        refine List.flatMap_congr fun name member => ?_
        have differ : type ≠ name := fun isName => named (isName ▸ member)
        rw [items_cons, if_neg differ]
      rw [same, if_neg (by simpa using named), List.nil_append]
      exact others

end Store

/-- A scan gives each resource that is stored under a type deriving from the one scanned, once. -/
theorem Schema.Coherent.storedRows_perm {schema : Schema} (coherent : schema.Coherent)
    {store : Store} (once : (Keyed.keys store.collections).Nodup) {type : ResourceType}
    (known : type ∈ schema.types) :
    (schema.storedRows store type).Perm
      (store.resourcesWhere fun entry => schema.isSameOrDerived entry.1 type.name) := by
  have types : ∀ derived ∈ type :: schema.descendants type, derived ∈ schema.types ∧
      schema.isSameOrDerived derived.name type.name = true := by
    refine List.forall_mem_cons.mpr ⟨⟨known, coherent.isSameOrDerived_refl known⟩, ?_⟩
    exact fun derived below => coherent.mem_descendants known below
  have distinct : ((type :: schema.descendants type).map ResourceType.name).Nodup := by
    refine (coherent.self_descendants_nodup known).map_on ?_
    intro first isFirst second isSecond same
    have found := coherent.type?_of_mem (types first isFirst).1
    rw [same, coherent.type?_of_mem (types second isSecond).1] at found
    exact (Option.some.inj found).symm
  have collected := Store.flatMap_items_perm distinct once
  rw [List.flatMap_map] at collected
  refine collected.trans (List.Perm.of_eq ?_)
  congr 2
  funext entry
  rw [Bool.eq_iff_iff, List.contains_iff_mem, List.mem_map]
  constructor
  · rintro ⟨derived, member, sameName⟩
    exact sameName ▸ (types derived member).2
  · intro derived
    obtain ⟨found, isFound⟩ := type?_of_isSameOrDerived derived
    refine ⟨found, ?_, name_of_type? isFound⟩
    rw [← name_of_type? isFound] at derived
    exact coherent.mem_self_or_descendants (mem_of_type? isFound) known derived

end LayeredQuery
