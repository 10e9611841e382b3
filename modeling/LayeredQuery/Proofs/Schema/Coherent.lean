import LayeredQuery.Proofs.Schema.Checks
import LayeredQuery.Proofs.Schema.Lineage

/-!
# Coherent schemas

A schema that was built keeps what the checks have found: types and elements have distinct names,
every type has a lineage that the bounded walk reaches the end of, fields have public names and
known targets, and no type declares a field that a type above it declares. Whatever compiles
requests or runs plans rests on these facts and on nothing else about how the schema came to be.
-/

set_option autoImplicit false

namespace LayeredQuery

open ResourceType

namespace Schema

structure Coherent (schema : Schema) : Prop where
  namesDistinct : schema.types.Pairwise fun x y => x.name ≠ y.name
  elementsDistinct : schema.types.Pairwise fun x y => x.element ≠ y.element
  rooted : ∀ type ∈ schema.types,
    ∃ chain, Lineage schema.types type chain ∧ chain.length ≤ schema.types.length + 1
  declaredOnce : ∀ type ∈ schema.types, ∀ above, Lineage schema.types type (type :: above) →
    ∀ ancestor ∈ above, ∀ field ∈ type.fields, Field.find? field.name ancestor.fields = none
  targetsKnown : ∀ type ∈ schema.types, ∀ field ∈ type.fields, ∀ target,
    field.kind.target? = some target → (schema.type? target).isSome
  fieldsPublic : ∀ type ∈ schema.types, ∀ field ∈ type.fields, isPublicName field.name

def IdentitiesPublic (schema : Schema) : Prop :=
  ∀ type ∈ schema.types, isPublicName type.idField

/-! ## Types with their identity -/

theorem name_withIdentity (types : List ResourceType) (type : ResourceType) :
    (withIdentity types type).name = type.name := rfl

theorem base_withIdentity (types : List ResourceType) (type : ResourceType) :
    (withIdentity types type).base = type.base := rfl

theorem find?_withIdentity (types : List ResourceType) (name : String) :
    find? (types.map (withIdentity types)) name = (find? types name).map (withIdentity types) := by
  unfold find?
  rw [List.find?_map]
  rfl

theorem root_of_lineage {types : List ResourceType} {type : ResourceType}
    {chain : List ResourceType} (lineage : Lineage types type chain)
    (short : chain.length ≤ types.length + 1) : root types type = chain.getLastD type := by
  unfold root ResourceType.chain
  rw [lineage.chainWithin_eq types.length short]

theorem root_of_isRoot {types : List ResourceType} {type : ResourceType}
    (isRoot : type.base = none) : root types type = type := by
  rw [root_of_lineage (.root isRoot) (by simp)]
  rfl

theorem mem_fields_withIdentity {types : List ResourceType} {type : ResourceType} {field : Field}
    (member : field ∈ (withIdentity types type).fields) :
    field ∈ type.fields ∨
      (type.base = none ∧ field = ⟨type.idField, .attribute type.idType false⟩) := by
  unfold withIdentity at member
  cases base : type.base with
  | some _ => simpa [base] using member
  | none =>
    simp only [base, Option.isNone_none, if_true, List.mem_cons, root_of_isRoot base] at member
    rcases member with identity | own
    · exact .inr ⟨rfl, identity⟩
    · exact .inl own

theorem find?_fields_withIdentity {types : List ResourceType} {type : ResourceType}
    {name : String} (undeclared : type.declares name = false)
    (notIdentity : type.base = none → type.idField ≠ name) :
    Field.find? name (withIdentity types type).fields = none := by
  have own : Field.find? name type.fields = none := by
    simpa [ResourceType.declares] using undeclared
  unfold withIdentity
  cases base : type.base with
  | some _ => simpa [base] using own
  | none =>
    have differs := notIdentity base
    simp only [Option.isNone_none, if_true, root_of_isRoot base]
    unfold Field.find? at own ⊢
    rw [List.find?_cons_of_neg (by simpa using differs), own]

/-! ## Built schemas -/

section Built

variable {types : List ResourceType}

/-- What the checks have found when they let a list of types pass. -/
structure Checked (types : List ResourceType) : Prop where
  distinct : types.Pairwise fun x y => x.name ≠ y.name ∧ x.element ≠ y.element
  named : ∀ type ∈ types, checkNames type = .ok ()
  rooted : ∀ type ∈ types, ∃ chain, Lineage types type chain ∧ chain.length ≤ types.length + 1
  fields : ∀ type ∈ types, ∀ field ∈ type.fields,
    checkTarget types type field = .ok () ∧ isRedeclared types type field.name = false

theorem checked_iff : Checked types ↔ registerAll [] types = .ok () ∧
    checkBases types types = .ok () ∧ checkAllFields types types = .ok () := by
  simp only [registerAll_iff, checkBases_iff, checkBasesFrom_iff, checkAllFields_iff,
    checkFields_iff]
  constructor
  · exact fun checked => ⟨⟨checked.named, nofun, checked.distinct⟩, checked.rooted, checked.fields⟩
  · rintro ⟨⟨named, _, distinct⟩, rooted, fields⟩
    exact ⟨distinct, named, rooted, fields⟩

theorem build_iff {schema : Schema} : build types = .ok schema ↔
    Checked types ∧ schema = ⟨types.map (withIdentity types)⟩ := by
  rw [checked_iff, build]
  cases registerAll [] types <;> cases checkBases types types <;>
    cases checkAllFields types types <;> simp [eq_comm]

/-- A type with its identity declares nothing that a type above it declares. -/
theorem Checked.declaredOnce (checked : Checked types) {type ancestor : ResourceType}
    {above : List ResourceType} (known : type ∈ types)
    (lineage : Lineage types type (type :: above)) (member : ancestor ∈ above) {field : Field}
    (declared : field ∈ (withIdentity types type).fields) :
    Field.find? field.name (withIdentity types ancestor).fields = none := by
  obtain ⟨chain, lineage', short⟩ := checked.rooted type known
  obtain rfl := lineage.unique lineage'
  have own : field ∈ type.fields := by
    rcases mem_fields_withIdentity declared with own | ⟨isRoot, _⟩
    · exact own
    · cases lineage with
      | root _ => cases member
      | step derives _ _ => simp [isRoot] at derives
  have redeclared := (checked.fields type known field own).2
  unfold isRedeclared ResourceType.chain at redeclared
  rw [lineage.chainWithin_eq types.length short] at redeclared
  simp only [Bool.or_eq_false_iff, decide_eq_false_iff_not, List.tail_cons, List.any_eq_false]
    at redeclared
  refine find?_fields_withIdentity (by simpa using redeclared.2 ancestor member) ?_
  -- An ancestor without a base is the root, whose identity no type below declares.
  intro isRoot same
  have top := lineage.getLastD_eq (.root isRoot) (List.mem_cons_of_mem _ member)
  apply redeclared.1
  rw [root_of_lineage lineage short, top]
  exact same.symm

theorem build_coherent {schema : Schema} (built : build types = .ok schema) :
    schema.Coherent := by
  obtain ⟨checked, rfl⟩ := build_iff.mp built
  have unmapped : ∀ {type : ResourceType} {chain : List ResourceType}, type ∈ types →
      Lineage (types.map (withIdentity types)) (withIdentity types type) chain →
      ∃ original, Lineage types type original ∧ original.length ≤ types.length + 1 ∧
        chain = original.map (withIdentity types) := by
    intro type chain known lineage
    obtain ⟨original, lineage', short⟩ := checked.rooted type known
    have mapped := lineage'.map _ (name_withIdentity types) (base_withIdentity types)
    exact ⟨original, lineage', short, lineage.unique mapped⟩
  constructor
  · exact List.pairwise_map.mpr (checked.distinct.imp fun distinct => distinct.1)
  · exact List.pairwise_map.mpr (checked.distinct.imp fun distinct => distinct.2)
  · intro type member
    obtain ⟨original, known, rfl⟩ := List.mem_map.mp member
    obtain ⟨chain, lineage, short⟩ := checked.rooted original known
    exact ⟨chain.map (withIdentity types),
      lineage.map _ (name_withIdentity types) (base_withIdentity types), by simpa using short⟩
  · intro type member above lineage ancestor isAbove field declared
    obtain ⟨original, known, rfl⟩ := List.mem_map.mp member
    obtain ⟨chain, lineage', _, parts⟩ := unmapped known lineage
    obtain ⟨rest, rfl⟩ := lineage'.head
    rw [List.map_cons, List.cons.injEq] at parts
    obtain ⟨upper, isUpper, rfl⟩ := List.mem_map.mp (parts.2 ▸ isAbove)
    exact checked.declaredOnce known lineage' isUpper declared
  · intro type member field declared target isTarget
    obtain ⟨original, known, rfl⟩ := List.mem_map.mp member
    rcases mem_fields_withIdentity declared with own | ⟨_, rfl⟩
    · have passed := (checked.fields original known field own).1
      unfold checkTarget at passed
      simp only [isTarget] at passed
      unfold Schema.type?
      rw [find?_withIdentity]
      cases found : find? types target with
      | none => simp [found] at passed
      | some _ => rfl
    · simp [FieldKind.target?] at isTarget
  · intro type member field declared
    obtain ⟨original, known, rfl⟩ := List.mem_map.mp member
    obtain ⟨_, _, fields, identity⟩ := checkNames_iff.mp (checked.named original known)
    rcases mem_fields_withIdentity declared with own | ⟨_, rfl⟩
    · exact fields field own
    · exact identity

theorem build_identitiesPublic {schema : Schema} (built : build types = .ok schema) :
    schema.IdentitiesPublic := by
  obtain ⟨checked, rfl⟩ := build_iff.mp built
  refine List.forall_mem_map.mpr fun type known => ?_
  obtain ⟨chain, lineage, short⟩ := checked.rooted type known
  have isRoot : root types type ∈ types := by
    obtain ⟨above, rfl⟩ := lineage.head
    rw [root_of_lineage lineage short, List.getLastD_cons]
    exact lineage.mem_types known _ List.getLastD_mem_cons
  exact (checkNames_iff.mp (checked.named _ isRoot)).2.2.2

end Built

end Schema

end LayeredQuery
