import LayeredQuery.Proofs.Schema.BaseTypes
import LayeredQuery.Proofs.Schema.Descendants
import LayeredQuery.Schema.Catalog

/-!
# Answers of catalogs

A look-up in a table of a catalog finds what the types of its schema hold, and the walk along base
types gives the chain of the schema. So a catalog answers as its schema does, whatever the shape of
the hierarchies and the order of the types.
-/

set_option autoImplicit false

namespace LayeredQuery

open ResourceType

namespace Catalog

variable {schema : Schema}

/-! ## Tables -/

/-- In a table that has no key twice, a look-up finds the entries of the table. -/
theorem lookup_eq_some_iff_mem {κ α : Type} [BEq κ] [LawfulBEq κ] {table : List (κ × α)}
    (distinct : table.Pairwise fun x y => x.1 ≠ y.1) {key : κ} {value : α} :
    table.lookup key = some value ↔ (key, value) ∈ table := by
  refine ⟨mem_of_lookup, fun member => ?_⟩
  induction table with
  | nil => cases member
  | cons entry rest ih =>
    obtain ⟨differs, later⟩ := List.pairwise_cons.mp distinct
    rcases List.mem_cons.mp member with rfl | isLater
    · simp
    · have apart : (key == entry.1) = false := by
        simpa using (differs _ isLater).symm
      rw [List.lookup_cons, apart]
      exact ih later isLater

/-! ## Types -/

theorem resourceTypes_ofSchema : (ofSchema schema).resourceTypes = schema.types := by
  simp [resourceTypes, ofSchema, Function.comp_def]

theorem type?_ofSchema (name : String) : (ofSchema schema).type? name = schema.type? name := by
  unfold Catalog.type? Schema.type? ofSchema find?
  induction schema.types with
  | nil => rfl
  | cons type rest ih =>
    by_cases same : type.name = name
    · simp [same]
    · have apart : (name == type.name) = false := by simpa using Ne.symm same
      rw [List.map_cons, List.lookup_cons, apart, List.find?_cons_of_neg (by simpa using same)]
      exact ih

theorem type?_eq_some_iff (coherent : schema.Coherent) {name : String} {type : ResourceType} :
    (ofSchema schema).type? name = some type ↔ type ∈ schema.types ∧ type.name = name := by
  rw [type?_ofSchema]
  constructor
  · exact fun found => ⟨Schema.mem_of_type? found, Schema.name_of_type? found⟩
  · rintro ⟨known, rfl⟩
    exact coherent.type?_of_mem known

theorem foldl_enterElement (types : List ResourceType) (table : List (String × String)) :
    types.foldl enterElement table =
      (types.map fun type => (type.element, type.name)).reverse ++ table := by
  induction types generalizing table with
  | nil => rfl
  | cons type rest ih => simp [ih, enterElement]

theorem typeOfElement?_eq_some_iff (coherent : schema.Coherent) {element : String}
    {type : ResourceType} :
    (ofSchema schema).typeOfElement? element = some type ↔
      type ∈ schema.types ∧ type.element = element := by
  have distinct : (ofSchema schema).elements.Pairwise fun x y => x.1 ≠ y.1 := by
    rw [ofSchema, foldl_enterElement, List.append_nil, List.pairwise_reverse, List.pairwise_map]
    exact coherent.elementsDistinct.imp Ne.symm
  have entries (entry : String × String) : entry ∈ (ofSchema schema).elements ↔
      ∃ type ∈ schema.types, (type.element, type.name) = entry := by
    rw [ofSchema, foldl_enterElement, List.append_nil, List.mem_reverse, List.mem_map]
  simp only [typeOfElement?, Option.bind_eq_some_iff, lookup_eq_some_iff_mem distinct, entries,
    type?_eq_some_iff coherent, Prod.mk.injEq]
  constructor
  · rintro ⟨name, ⟨other, known, sameElement, sameName⟩, isType, rfl⟩
    obtain rfl := eq_of_name_eq coherent.namesDistinct known isType sameName
    exact ⟨isType, sameElement⟩
  · rintro ⟨known, rfl⟩
    exact ⟨type.name, ⟨type, known, rfl, rfl⟩, known, rfl⟩

/-! ## Fields -/

def fieldEntries (type : ResourceType) : List ((String × String) × Field) :=
  type.fields.map fun field => ((type.name, field.name), field)

theorem foldl_enterFields (types : List ResourceType) (table : List ((String × String) × Field)) :
    types.foldl enterFields table = (types.flatMap fieldEntries).reverse ++ table := by
  induction types generalizing table with
  | nil => rfl
  | cons type rest ih =>
    have entered : enterFields table type = (fieldEntries type).reverse ++ table := by
      unfold enterFields fieldEntries
      induction type.fields generalizing table with
      | nil => rfl
      | cons field fields ih => simp [ih]
    rw [List.foldl_cons, ih, entered, List.flatMap_cons, List.reverse_append, List.append_assoc]

theorem declaredField?_eq_some_iff (coherent : schema.Coherent)
    (distinct : ∀ type ∈ schema.types, (type.fields.map Field.name).Nodup) {name : String}
    {fieldName : String} {field : Field} :
    (ofSchema schema).declaredField? name fieldName = some field ↔
      ∃ type ∈ schema.types, type.name = name ∧ field ∈ type.fields ∧ field.name = fieldName := by
  have keys : (ofSchema schema).fields.Pairwise fun x y => x.1 ≠ y.1 := by
    rw [ofSchema, foldl_enterFields, List.append_nil, List.pairwise_reverse, List.pairwise_flatMap]
    constructor
    · intro type known
      refine List.pairwise_map.mpr ((List.pairwise_map.mp (distinct type known)).imp ?_)
      exact fun differ same => differ (congrArg Prod.snd same).symm
    · refine coherent.namesDistinct.imp fun differ x isFirst y isSecond same => differ ?_
      obtain ⟨_, _, rfl⟩ := List.mem_map.mp isFirst
      obtain ⟨_, _, rfl⟩ := List.mem_map.mp isSecond
      exact (congrArg Prod.fst same).symm
  rw [declaredField?, lookup_eq_some_iff_mem keys, ofSchema, foldl_enterFields, List.append_nil,
    List.mem_reverse]
  simp only [List.mem_flatMap, fieldEntries, List.mem_map, Prod.mk.injEq]
  constructor
  · rintro ⟨type, known, field, declared, ⟨rfl, rfl⟩, rfl⟩
    exact ⟨type, known, rfl, declared, rfl⟩
  · rintro ⟨type, known, rfl, declared, rfl⟩
    exact ⟨type, known, field, declared, ⟨rfl, rfl⟩, rfl⟩

/-! ## Derived types -/

theorem lookup_foldl_enterDerived (base : String) (types : List ResourceType)
    (table : List (String × List String)) :
    ((types.foldl enterDerived table).lookup base).getD [] = (table.lookup base).getD [] ++
      (types.filter fun type => type.base = some base).map ResourceType.name := by
  induction types generalizing table with
  | nil => simp
  | cons type rest ih =>
    rw [List.foldl_cons, ih, enterDerived]
    cases isBase : type.base with
    | none => simp [isBase]
    | some other =>
      by_cases same : base = other
      · subst same
        simp [isBase]
      · have apart : (base == other) = false := by simpa using same
        simp [isBase, List.lookup_cons, apart, Ne.symm same]

theorem lookup_sortNames (base : String) (table : List (String × List String)) :
    ((sortNames table).lookup base).getD [] =
      ((table.lookup base).getD []).mergeSort fun x y => x ≤ y := by
  induction table with
  | nil => simp [sortNames]
  | cons entry rest ih =>
    obtain ⟨name, names⟩ := entry
    rw [sortNames, List.map_cons, List.lookup_cons, List.lookup_cons]
    cases base == name with
    | true => rfl
    | false => exact ih

theorem derivedTypes_ofSchema (coherent : schema.Coherent) (name : String) :
    (ofSchema schema).derivedTypes name = schema.derivedTypes name := by
  have entered := lookup_foldl_enterDerived name schema.types []
  have names : ((ofSchema schema).derived.lookup name).getD [] =
      (schema.derivedTypes name).map ResourceType.name := by
    rw [Schema.derivedTypes, List.map_mergeSort (s := fun x y => decide (x ≤ y)) fun _ _ _ _ => rfl]
    rw [List.lookup_nil, Option.getD_none, List.nil_append] at entered
    rw [← entered]
    exact lookup_sortNames name _
  have known : ∀ type ∈ schema.derivedTypes name,
      ((ofSchema schema).type? ∘ ResourceType.name) type = some type := fun type member =>
    (type?_eq_some_iff coherent).mpr ⟨(Schema.mem_derivedTypes.mp member).1, rfl⟩
  rw [Catalog.derivedTypes, names, List.filterMap_map]
  generalize schema.derivedTypes name = found at known
  induction found with
  | nil => rfl
  | cons type rest ih =>
    rw [List.filterMap_cons, known type List.mem_cons_self]
    exact congrArg (type :: ·) (ih fun other member => known other (List.mem_cons_of_mem _ member))

/-! ## Base types -/

theorem chainFrom_of_missing {catalog : Catalog} {met : List String} {name : String}
    (missing : catalog.type? name = none) : catalog.chainFrom met name = [] := by
  rw [chainFrom]
  split
  · rfl
  · rename_i found
    cases missing.symm.trans found

theorem chainFrom_of_found {catalog : Catalog} {met : List String} {name : String}
    {type : ResourceType} (found : catalog.type? name = some type) (isNew : type.name ∉ met) :
    catalog.chainFrom met name =
      match type.base with
      | none => [type]
      | some base => type :: catalog.chainFrom (type.name :: met) base := by
  rw [chainFrom]
  split
  · rename_i missing
    cases missing.symm.trans found
  · rename_i other found'
    cases found.symm.trans found'
    exact if_neg isNew

theorem chainFrom_eq (coherent : schema.Coherent) {type : ResourceType}
    {chain : List ResourceType} (lineage : Lineage schema.types type chain)
    (known : type ∈ schema.types) {met : List String}
    (isNew : (chain.map ResourceType.name ++ met).Nodup) :
    (ofSchema schema).chainFrom met type.name = chain := by
  induction lineage generalizing met with
  | @root type isRoot =>
    have found := (type?_eq_some_iff coherent).mpr ⟨known, rfl⟩
    have apart : type.name ∉ met := (List.nodup_cons.mp isNew).1
    rw [chainFrom_of_found found apart, isRoot]
  | @step type parent base above isBase found' rest ih =>
    have found := (type?_eq_some_iff coherent).mpr ⟨known, rfl⟩
    rw [List.map_cons, List.cons_append] at isNew
    have apart : type.name ∉ met := fun isMet =>
      (List.nodup_cons.mp isNew).1 (List.mem_append_right _ isMet)
    have upper := ih (mem_of_find? found') (List.nodup_middle.mpr isNew)
    rw [name_of_find? found'] at upper
    rw [chainFrom_of_found found apart, isBase]
    exact congrArg (type :: ·) upper

theorem baseChain_ofSchema (coherent : schema.Coherent) (name : String) :
    (ofSchema schema).baseChain name = schema.baseChain name := by
  cases found : schema.type? name with
  | none =>
    rw [Schema.baseChain, found]
    exact chainFrom_of_missing ((type?_ofSchema name).trans found)
  | some type =>
    obtain rfl := Schema.name_of_type? found
    have known := Schema.mem_of_type? found
    have lineage := coherent.baseChain_lineage known
    refine chainFrom_eq coherent lineage known ?_
    rw [List.append_nil]
    exact lineage.names_nodup coherent.namesDistinct known

theorem isSameOrDerived_ofSchema (coherent : schema.Coherent) (candidate base : String) :
    (ofSchema schema).isSameOrDerived candidate base = schema.isSameOrDerived candidate base := by
  rw [isSameOrDerived, baseChain_ofSchema coherent, Schema.isSameOrDerived]

/-! ## Answers of the schema -/

structure Answers (catalog : Catalog) (schema : Schema) : Prop where
  type? : ∀ name, catalog.type? name = schema.type? name
  typeOfElement? : ∀ element, catalog.typeOfElement? element = schema.typeOfElement? element
  declaredField? : ∀ type field, catalog.declaredField? type field = schema.declaredField? type field
  derivedTypes : ∀ name, catalog.derivedTypes name = schema.derivedTypes name
  baseChain : ∀ name, catalog.baseChain name = schema.baseChain name
  isSameOrDerived : ∀ candidate base,
    catalog.isSameOrDerived candidate base = schema.isSameOrDerived candidate base

theorem typeOfElement?_ofSchema (coherent : schema.Coherent) (element : String) :
    (ofSchema schema).typeOfElement? element = schema.typeOfElement? element := by
  ext type
  rw [typeOfElement?_eq_some_iff coherent]
  constructor
  · rintro ⟨known, rfl⟩
    exact coherent.typeOfElement?_of_mem known
  · intro found
    exact ⟨List.mem_of_find?_eq_some found, by simpa using List.find?_some found⟩

theorem declaredField?_ofSchema (coherent : schema.Coherent)
    (distinct : ∀ type ∈ schema.types, (type.fields.map Field.name).Nodup)
    (name fieldName : String) :
    (ofSchema schema).declaredField? name fieldName = schema.declaredField? name fieldName := by
  ext field
  rw [declaredField?_eq_some_iff coherent distinct, Schema.declaredField?, Option.bind_eq_some_iff]
  refine exists_congr fun type => ?_
  constructor
  · rintro ⟨known, rfl, declared, rfl⟩
    exact ⟨coherent.type?_of_mem known, find?_eq_some_of_mem Field.name
      (List.pairwise_map.mp (distinct type known)) declared⟩
  · rintro ⟨found, declared⟩
    obtain ⟨isField, sameName⟩ := Field.mem_and_name_of_find? declared
    exact ⟨Schema.mem_of_type? found, Schema.name_of_type? found, isField, sameName⟩

theorem answers_ofSchema (coherent : schema.Coherent)
    (distinct : ∀ type ∈ schema.types, (type.fields.map Field.name).Nodup) :
    (ofSchema schema).Answers schema where
  type? := type?_ofSchema
  typeOfElement? := typeOfElement?_ofSchema coherent
  declaredField? := declaredField?_ofSchema coherent distinct
  derivedTypes := derivedTypes_ofSchema coherent
  baseChain := baseChain_ofSchema coherent
  isSameOrDerived := isSameOrDerived_ofSchema coherent

end Catalog

end LayeredQuery
