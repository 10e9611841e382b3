import Mathlib.Data.List.Forall2
import LayeredQuery.Proofs.Schema.Acceptance
import LayeredQuery.Proofs.Schema.Answers

/-!
# Consistent catalogs

What is looked up in a catalog fits together. The chains of types lead to the roots of their
hierarchies, a root declares the identity that all types below it have, and no name is declared
twice along a chain. Apart from the identity, types are as they were declared.
-/

set_option autoImplicit false

namespace LayeredQuery

open ResourceType

/-! ## Declaring fields -/

namespace Field

theorem names_declare (field : Field) (fields : List Field) :
    (field.declare fields).map Field.name =
      if field.name ∈ fields.map Field.name then fields.map Field.name
      else fields.map Field.name ++ [field.name] := by
  induction fields with
  | nil => rfl
  | cons other rest ih =>
    rw [declare]
    by_cases same : other.name = field.name
    · simp [same]
    · rw [if_neg same, List.map_cons, ih]
      by_cases found : field.name ∈ rest.map Field.name
      · simp [found]
      · simp [found, Ne.symm same]

theorem declareAll_nodup (declared fields : List Field)
    (distinct : (declared.map Field.name).Nodup) :
    ((declareAll declared fields).map Field.name).Nodup := by
  induction fields generalizing declared with
  | nil => exact distinct
  | cons field rest ih =>
    refine ih (field.declare declared) ?_
    rw [names_declare]
    split
    · exact distinct
    · rename_i isNew
      exact List.nodup_append'.mpr ⟨distinct, List.nodup_singleton _,
        List.disjoint_singleton.mpr isNew⟩

theorem declare_of_notMem {field : Field} {fields : List Field}
    (isNew : field.name ∉ fields.map Field.name) : field.declare fields = fields ++ [field] := by
  induction fields with
  | nil => rfl
  | cons other rest ih =>
    rw [List.map_cons, List.mem_cons, not_or] at isNew
    rw [declare, if_neg (Ne.symm isNew.1), ih isNew.2]
    rfl

theorem declareAll_eq_append (declared fields : List Field)
    (distinct : ((declared ++ fields).map Field.name).Nodup) :
    declareAll declared fields = declared ++ fields := by
  induction fields generalizing declared with
  | nil => exact (List.append_nil declared).symm
  | cons field rest ih =>
    have isNew : field.name ∉ declared.map Field.name := by
      rw [List.map_append, List.nodup_append'] at distinct
      exact fun member => distinct.2.2 member List.mem_cons_self
    have parts : declared ++ field :: rest = (declared ++ [field]) ++ rest := by simp
    rw [parts] at distinct ⊢
    rw [← ih _ distinct, ← declare_of_notMem isNew]
    rfl

end Field

/-! ## Identities -/

namespace Schema

variable {types : List ResourceType}

theorem root_eq_of_mem_lineage {type root' : ResourceType} {chain : List ResourceType}
    (lineage : Lineage types type chain) (short : chain.length ≤ types.length + 1)
    (member : root' ∈ chain) (isRoot : root'.base = none) : root types type = root' := by
  rw [root_of_lineage lineage short, lineage.getLastD_eq (.root isRoot) member]
  rfl

namespace Checked

theorem name_ne_identity (checked : Checked types) {type : ResourceType} (known : type ∈ types)
    {field : Field} (declared : field ∈ type.fields) :
    field.name ≠ (withIdentity types type).idField := by
  have isNew := (checked.fields type known field declared).2
  rw [isRedeclared, Bool.or_eq_false_iff, decide_eq_false_iff_not] at isNew
  exact isNew.1

theorem identity_shared (checked : Checked types) {type : ResourceType} (known : type ∈ types)
    {chain : List ResourceType} (lineage : Lineage types type chain) {top : ResourceType}
    (member : top ∈ chain) (isRoot : top.base = none) :
    (withIdentity types type).idField = (withIdentity types top).idField ∧
      (withIdentity types type).idType = (withIdentity types top).idType := by
  obtain ⟨chain', lineage', short⟩ := checked.rooted type known
  obtain rfl := lineage.unique lineage'
  have same : root types type = root types top := by
    rw [root_eq_of_mem_lineage lineage short member isRoot, root_of_isRoot isRoot]
  simp only [withIdentity, same, and_self]

theorem names_nodup (checked : Checked types) {type : ResourceType} (known : type ∈ types)
    (distinct : (type.fields.map Field.name).Nodup) :
    ((withIdentity types type).fields.map Field.name).Nodup := by
  have differs : (withIdentity types type).idField ∉ type.fields.map Field.name := by
    intro member
    obtain ⟨field, declared, same⟩ := List.mem_map.mp member
    exact checked.name_ne_identity known declared same
  unfold withIdentity at differs ⊢
  cases type.base with
  | none => exact List.nodup_cons.mpr ⟨differs, distinct⟩
  | some _ => exact distinct

end Checked

theorem names_nodup_of_build {schema : Schema} (built : build types = .ok schema)
    (distinct : ∀ type ∈ types, (type.fields.map Field.name).Nodup) :
    ∀ type ∈ schema.types, (type.fields.map Field.name).Nodup := by
  obtain ⟨checked, rfl⟩ := build_iff.mp built
  exact List.forall_mem_map.mpr fun type known => checked.names_nodup known (distinct type known)

theorem Coherent.declared_nodup {schema : Schema} (coherent : schema.Coherent)
    (distinct : ∀ type ∈ schema.types, (type.fields.map Field.name).Nodup)
    {type : ResourceType} {chain : List ResourceType}
    (lineage : Lineage schema.types type chain) (known : type ∈ schema.types) :
    (chain.flatMap fun declaring => declaring.fields.map Field.name).Nodup := by
  induction lineage with
  | root _ => simpa using distinct _ known
  | @step type parent base above isBase found rest ih =>
    rw [List.flatMap_cons]
    refine List.nodup_append'.mpr ⟨distinct type known, ih (mem_of_find? found), ?_⟩
    intro name isOwn isAbove
    obtain ⟨field, declared, rfl⟩ := List.mem_map.mp isOwn
    obtain ⟨ancestor, isAncestor, again⟩ := List.mem_flatMap.mp isAbove
    obtain ⟨other, declared', same⟩ := List.mem_map.mp again
    have once := coherent.declaredOnce type known above (.step isBase found rest) ancestor
      isAncestor field declared
    exact absurd same (by simpa [Field.find?] using List.find?_eq_none.mp once other declared')

end Schema

namespace Catalog

/-! ## Consistent catalogs -/

variable {types : List ResourceType} {schema : Schema}

/-- A type of a catalog is one that was declared, with the identity in front if it is a root. The
fields of a root are what comes of declaring them once more after the identity. -/
structure Identified (declared type : ResourceType) : Prop where
  name : type.name = declared.name
  element : type.element = declared.element
  base : type.base = declared.base
  identity : declared.base = none →
    type.idField = declared.idField ∧ type.idType = declared.idType
  fields : type.fields =
    if declared.base = none then
      ⟨declared.idField, .attribute declared.idType false⟩ :: declared.fields
    else declared.fields
  rebuilt : declared.base = none → type.fields =
    Field.declareAll [⟨declared.idField, .attribute declared.idType false⟩] declared.fields

structure Consistent (types : List ResourceType) (catalog : Catalog) : Prop where
  declared : List.Forall₂ Identified types catalog.resourceTypes
  typeFound : ∀ name type, catalog.type? name = some type ↔
    type ∈ catalog.resourceTypes ∧ type.name = name
  elementFound : ∀ element type, catalog.typeOfElement? element = some type ↔
    type ∈ catalog.resourceTypes ∧ type.element = element
  fieldFound : ∀ name fieldName field, catalog.declaredField? name fieldName = some field ↔
    ∃ type ∈ catalog.resourceTypes, type.name = name ∧ field ∈ type.fields ∧
      field.name = fieldName
  derivedFound : ∀ name type, type ∈ catalog.derivedTypes name ↔
    type ∈ catalog.resourceTypes ∧ type.base = some name
  derivedIncreasing : ∀ name, (catalog.derivedTypes name).Pairwise fun x y => x.name < y.name
  chain : ∀ type ∈ catalog.resourceTypes,
    Lineage catalog.resourceTypes type (catalog.baseChain type.name) ∧
      ((catalog.baseChain type.name).map ResourceType.name).Nodup
  derivesRefl : ∀ type ∈ catalog.resourceTypes, catalog.isSameOrDerived type.name type.name
  derivesAntisymm : ∀ low high, catalog.isSameOrDerived low high →
    catalog.isSameOrDerived high low → low = high
  derivesTrans : ∀ low middle high, catalog.isSameOrDerived low middle →
    catalog.isSameOrDerived middle high → catalog.isSameOrDerived low high
  identityShared : ∀ type ∈ catalog.resourceTypes, ∀ root ∈ catalog.baseChain type.name,
    root.base = none → type.idField = root.idField ∧ type.idType = root.idType
  identityFirst : ∀ root ∈ catalog.resourceTypes, root.base = none →
    root.fields.head? = some ⟨root.idField, .attribute root.idType false⟩
  identityOnce : ∀ type ∈ catalog.resourceTypes, type.base ≠ none →
    ∀ field ∈ type.fields, field.name ≠ type.idField
  declaredOnce : ∀ type ∈ catalog.resourceTypes,
    ((catalog.baseChain type.name).flatMap fun declaring =>
      declaring.fields.map Field.name).Nodup

theorem identified_withIdentity (checked : Schema.Checked types) {type : ResourceType}
    (known : type ∈ types) (distinct : (type.fields.map Field.name).Nodup) :
    Identified type (Schema.withIdentity types type) := by
  have fields : (Schema.withIdentity types type).fields =
      if type.base = none then
        ⟨type.idField, .attribute type.idType false⟩ :: type.fields
      else type.fields := by
    unfold Schema.withIdentity
    cases isBase : type.base with
    | none => simp [Schema.root_of_isRoot isBase]
    | some _ => simp
  refine ⟨rfl, rfl, rfl, ?_, fields, ?_⟩
  · intro isRoot
    simp [Schema.withIdentity, Schema.root_of_isRoot isRoot]
  · intro isRoot
    have nodup := checked.names_nodup known distinct
    rw [fields, if_pos isRoot] at nodup ⊢
    exact (Field.declareAll_eq_append [_] type.fields nodup).symm

theorem consistent_ofSchema (built : Schema.build types = .ok schema)
    (distinct : ∀ type ∈ types, (type.fields.map Field.name).Nodup) :
    (ofSchema schema).Consistent types := by
  have coherent := Schema.build_coherent built
  have distinct' := Schema.names_nodup_of_build built distinct
  obtain ⟨checked, rfl⟩ := Schema.build_iff.mp built
  constructor <;> simp only [resourceTypes_ofSchema, baseChain_ofSchema coherent,
    isSameOrDerived_ofSchema coherent, derivedTypes_ofSchema coherent]
  case declared =>
    rw [List.forall₂_map_right_iff, List.forall₂_same]
    exact fun type known => identified_withIdentity checked known (distinct type known)
  case typeFound => exact fun _ _ => type?_eq_some_iff coherent
  case elementFound => exact fun _ _ => typeOfElement?_eq_some_iff coherent
  case fieldFound => exact fun _ _ _ => declaredField?_eq_some_iff coherent distinct'
  case derivedFound => exact fun _ _ => Schema.mem_derivedTypes
  case derivedIncreasing => exact coherent.derivedTypes_increasing
  case chain =>
    intro type known
    have lineage := coherent.baseChain_lineage known
    exact ⟨lineage, lineage.names_nodup coherent.namesDistinct known⟩
  case derivesRefl => exact fun _ => coherent.isSameOrDerived_refl
  case derivesAntisymm => exact fun _ _ => coherent.isSameOrDerived_antisymm
  case derivesTrans => exact fun _ _ _ => coherent.isSameOrDerived_trans
  case identityShared =>
    intro type known top member isRoot
    obtain ⟨declared, isDeclared, rfl⟩ := List.mem_map.mp known
    obtain ⟨chain, lineage, _⟩ := checked.rooted declared isDeclared
    rw [coherent.baseChain_eq known (lineage.map _ (Schema.name_withIdentity types)
      (Schema.base_withIdentity types))] at member
    obtain ⟨above, isAbove, rfl⟩ := List.mem_map.mp member
    exact checked.identity_shared isDeclared lineage isAbove isRoot
  case identityFirst =>
    intro type known isRoot
    obtain ⟨declared, _, rfl⟩ := List.mem_map.mp known
    have isRoot : declared.base = none := isRoot
    simp [Schema.withIdentity, isRoot]
  case identityOnce =>
    intro type known isDerived field member
    obtain ⟨declared, isDeclared, rfl⟩ := List.mem_map.mp known
    rcases Schema.mem_fields_withIdentity member with own | ⟨isRoot, _⟩
    · exact checked.name_ne_identity isDeclared own
    · exact absurd isRoot isDerived
  case declaredOnce =>
    intro type known
    exact coherent.declared_nodup distinct' (coherent.baseChain_lineage known) known

/-- The catalog of a list of types, each with fields that were declared one after the other, is
consistent, and gives the answers of the schema of these types. -/
theorem build_consistent {catalog : Catalog} (built : build types = .ok catalog)
    (declared : ∀ type ∈ types, ∃ fields, type.fields = Field.declareAll [] fields) :
    catalog.Consistent types ∧
      ∃ schema, Schema.build types = .ok schema ∧ catalog.Answers schema := by
  have distinct : ∀ type ∈ types, (type.fields.map Field.name).Nodup := by
    intro type known
    obtain ⟨fields, isDeclared⟩ := declared type known
    exact isDeclared ▸ Field.declareAll_nodup [] fields List.nodup_nil
  unfold build at built
  split at built
  · cases built
  · rename_i schema isSchema
    cases built
    exact ⟨consistent_ofSchema isSchema distinct, schema, isSchema,
      answers_ofSchema (Schema.build_coherent isSchema)
        (Schema.names_nodup_of_build isSchema distinct)⟩

theorem build_consistent_works :
    ∃ catalog, build Schema.Works.declared = .ok catalog ∧
      catalog.Consistent Schema.Works.declared ∧
      (catalog.baseChain "audiobooks").map ResourceType.name =
        ["audiobooks", "recordings", "works"] ∧
      (catalog.derivedTypes "works").map ResourceType.name = ["books", "recordings"] := by
  have declared : ∀ type ∈ Schema.Works.declared,
      type.fields = Field.declareAll [] type.fields := by decide +kernel
  obtain ⟨catalog, built⟩ : ∃ catalog, build Schema.Works.declared = .ok catalog := ⟨_, rfl⟩
  obtain ⟨consistent, schema, isSchema, answers⟩ :=
    build_consistent built fun type known => ⟨type.fields, declared type known⟩
  refine ⟨catalog, built, consistent, ?_, ?_⟩
  · cases isSchema
    rw [answers.baseChain]
    rfl
  · cases isSchema
    rw [answers.derivedTypes, Schema.derivedTypes,
      List.map_mergeSort (s := fun x y => decide (x ≤ y)) fun _ _ _ _ => rfl]
    change (["recordings", "books"].mergeSort fun x y => decide (x ≤ y)) = ["books", "recordings"]
    simp [List.mergeSort]

end Catalog

end LayeredQuery
