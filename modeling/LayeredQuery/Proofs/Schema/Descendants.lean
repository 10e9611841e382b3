import Mathlib.Data.List.Nodup
import LayeredQuery.Proofs.Schema.Hierarchy

/-!
# Deriving and descendants

Deriving is the reflexive and transitive closure of having a base type. In a coherent schema the
bounded walk up decides it, and the bounded walk down meets every type below its start, each once:
a type that is some steps below is on that level, and on no other because its chain has one length.
-/

set_option autoImplicit false

namespace LayeredQuery

open ResourceType

namespace Schema

/-- A known type, or one whose base type derives from another. -/
inductive DerivesFrom (schema : Schema) : String → String → Prop
  | refl {name : String} (known : (schema.type? name).isSome) : DerivesFrom schema name name
  | step {name base top : String} {type : ResourceType} (found : schema.type? name = some type)
      (derives : type.base = some base) (above : DerivesFrom schema base top) :
      DerivesFrom schema name top

variable {schema : Schema}

namespace Coherent

theorem derivesFrom_of_lineage (coherent : schema.Coherent) {type : ResourceType}
    {chain : List ResourceType} (lineage : Lineage schema.types type chain)
    (known : type ∈ schema.types) : ∀ ancestor ∈ chain,
      schema.DerivesFrom type.name ancestor.name := by
  induction lineage with
  | root _ =>
    intro ancestor member
    rw [List.mem_singleton.mp member]
    exact .refl (coherent.type?_of_mem known ▸ rfl)
  | step derives found _ ih =>
    intro ancestor member
    rcases List.mem_cons.mp member with same | above
    · rw [same]
      exact .refl (coherent.type?_of_mem known ▸ rfl)
    · have upper := ih (mem_of_find? found) ancestor above
      rw [name_of_find? found] at upper
      exact .step (coherent.type?_of_mem known) derives upper

/-- The walk up from a type decides which types it derives from. -/
theorem isSameOrDerived_iff_derivesFrom (coherent : schema.Coherent) {name top : String} :
    schema.isSameOrDerived name top = true ↔ schema.DerivesFrom name top := by
  constructor
  · intro derived
    obtain ⟨type, found⟩ := type?_of_isSameOrDerived derived
    obtain ⟨ancestor, member, sameName⟩ := isSameOrDerived_iff.mp derived
    obtain rfl := name_of_type? found
    rw [← sameName]
    have known := mem_of_type? found
    exact coherent.derivesFrom_of_lineage (coherent.baseChain_lineage known) known ancestor member
  · intro derived
    induction derived with
    | @refl name known =>
      obtain ⟨type, found⟩ := Option.isSome_iff_exists.mp known
      obtain rfl := name_of_type? found
      exact coherent.isSameOrDerived_refl (mem_of_type? found)
    | @step name base top type found derives _ ih =>
      obtain ⟨parent, isParent⟩ := type?_of_isSameOrDerived ih
      obtain rfl := name_of_type? found
      obtain rfl := name_of_type? isParent
      have lineage := coherent.baseChain_lineage (mem_of_type? isParent)
      refine coherent.isSameOrDerived_trans
        ((coherent.mem_baseChain_iff (mem_of_type? isParent)).mp ?_) ih
      rw [coherent.baseChain_eq (mem_of_type? found) (.step derives isParent lineage)]
      exact List.mem_cons_of_mem _ lineage.mem_self

end Coherent

/-! ## Levels -/

theorem mem_derivedTypes {type : ResourceType} {base : String} :
    type ∈ schema.derivedTypes base ↔ type ∈ schema.types ∧ type.base = some base := by
  simp [derivedTypes]

theorem levelsBelow_nil (bound : Nat) : schema.levelsBelow bound [] = [] := by
  cases bound <;> rfl

theorem levelsBelow_succ (bound : Nat) (level : List ResourceType) :
    schema.levelsBelow (bound + 1) level =
      (level.flatMap fun type => schema.derivedTypes type.name) ++
        schema.levelsBelow bound (level.flatMap fun type => schema.derivedTypes type.name) := by
  rw [levelsBelow]
  split
  · rename_i isEmpty
    rw [isEmpty, levelsBelow_nil]
    rfl
  · rename_i isNext
    rw [isNext]

theorem mem_levelsBelow_of_mem {type parent : ResourceType} {level : List ResourceType}
    (bound : Nat) (member : parent ∈ level) (derived : type ∈ schema.derivedTypes parent.name) :
    type ∈ schema.levelsBelow (bound + 1) level := by
  rw [levelsBelow_succ]
  exact List.mem_append_left _ (List.mem_flatMap.mpr ⟨parent, member, derived⟩)

theorem mem_levelsBelow_of_derived {type parent : ResourceType}
    (derived : type ∈ schema.derivedTypes parent.name) {bound : Nat} {level : List ResourceType}
    (member : parent ∈ schema.levelsBelow bound level) :
    type ∈ schema.levelsBelow (bound + 1) level := by
  induction bound generalizing level with
  | zero => cases member
  | succ bound ih =>
    rw [levelsBelow_succ] at member
    rw [levelsBelow_succ]
    apply List.mem_append_right
    rcases List.mem_append.mp member with here | lower
    · exact mem_levelsBelow_of_mem bound here derived
    · exact ih lower

theorem mem_levelsBelow_of_lineage {type top : ResourceType} {chain : List ResourceType}
    (lineage : Lineage schema.types type chain) (known : type ∈ schema.types) {bound : Nat}
    (short : chain.length ≤ bound + 1) (member : top ∈ chain) :
    type = top ∨ type ∈ schema.levelsBelow bound [top] := by
  induction lineage generalizing bound with
  | root _ => exact .inl (List.mem_singleton.mp member).symm
  | @step type parent base above derives found rest ih =>
    rcases List.mem_cons.mp member with same | isAbove
    · exact .inl same.symm
    · right
      obtain ⟨upper, rfl⟩ := rest.head
      simp only [List.length_cons] at short ih
      obtain ⟨bound, rfl⟩ : ∃ fewer, bound = fewer + 1 := ⟨bound - 1, by omega⟩
      have derived : type ∈ schema.derivedTypes parent.name :=
        mem_derivedTypes.mpr ⟨known, by rw [derives, name_of_find? found]⟩
      have shorter : upper.length + 1 ≤ bound + 1 := by omega
      rcases ih (mem_of_find? found) shorter isAbove with same | lower
      · exact mem_levelsBelow_of_mem bound (List.mem_singleton.mpr same) derived
      · exact mem_levelsBelow_of_derived derived lower

namespace Coherent

/-- The walk down from a type meets every type that derives from it. -/
theorem mem_self_or_descendants (coherent : schema.Coherent) {type top : ResourceType}
    (known : type ∈ schema.types) (isTop : top ∈ schema.types)
    (derived : schema.isSameOrDerived type.name top.name = true) :
    type ∈ top :: schema.descendants top := by
  obtain ⟨chain, lineage, short⟩ := coherent.rooted type known
  have member := (coherent.mem_baseChain_iff isTop).mpr derived
  rw [coherent.baseChain_eq known lineage] at member
  exact List.mem_cons.mpr (mem_levelsBelow_of_lineage lineage known short member)

/-! ## Each type once -/

theorem types_nodup (coherent : schema.Coherent) : schema.types.Nodup :=
  coherent.namesDistinct.imp fun differ same => differ (congrArg ResourceType.name same)

theorem derivedTypes_nodup (coherent : schema.Coherent) (name : String) :
    (schema.derivedTypes name).Nodup :=
  (List.mergeSort_perm _ _).nodup_iff.mpr (coherent.types_nodup.filter _)

theorem derivedTypes_increasing (coherent : schema.Coherent) (name : String) :
    (schema.derivedTypes name).Pairwise fun x y => x.name < y.name := by
  have sorted : (schema.derivedTypes name).Pairwise fun x y => decide (x.name ≤ y.name) = true :=
    List.pairwise_mergeSort (fun x y z => by simpa using String.le_trans)
      (fun x y => by simpa using String.le_total x.name y.name) _
  have distinct : (schema.derivedTypes name).Pairwise fun x y => x.name ≠ y.name :=
    (List.mergeSort_perm _ _).symm.pairwise (coherent.namesDistinct.filter _) Ne.symm
  refine (sorted.and distinct).imp fun {x y} both => ?_
  exact String.not_le.mp fun le =>
    both.2 (String.le_antisymm (by simpa using both.1) le)

theorem baseChain_length_of_derived (coherent : schema.Coherent) {type parent : ResourceType}
    (known : parent ∈ schema.types) (derived : type ∈ schema.derivedTypes parent.name) :
    (schema.baseChain type.name).length = (schema.baseChain parent.name).length + 1 := by
  obtain ⟨isType, derives⟩ := mem_derivedTypes.mp derived
  rw [coherent.baseChain_eq isType
    (.step derives (coherent.type?_of_mem known) (coherent.baseChain_lineage known)),
    List.length_cons]

/-- Types with chains of one length, each once. -/
structure Level (schema : Schema) (length : Nat) (level : List ResourceType) : Prop where
  distinct : level.Nodup
  known : ∀ type ∈ level, type ∈ schema.types
  long : ∀ type ∈ level, (schema.baseChain type.name).length = length

theorem Level.next (coherent : schema.Coherent) {length : Nat} {level : List ResourceType}
    (isLevel : Level schema length level) :
    Level schema (length + 1) (level.flatMap fun type => schema.derivedTypes type.name) where
  distinct := by
    refine List.nodup_flatMap.mpr ⟨fun type _ => coherent.derivedTypes_nodup type.name, ?_⟩
    refine isLevel.distinct.imp_of_mem fun isFirst isSecond differ => ?_
    intro type derived derived'
    apply differ
    have sameBase := (mem_derivedTypes.mp derived).2.symm.trans (mem_derivedTypes.mp derived').2
    have found := coherent.type?_of_mem (isLevel.known _ isFirst)
    rw [Option.some.inj sameBase, coherent.type?_of_mem (isLevel.known _ isSecond)] at found
    exact (Option.some.inj found).symm
  known type member := by
    obtain ⟨parent, _, derived⟩ := List.mem_flatMap.mp member
    exact (mem_derivedTypes.mp derived).1
  long type member := by
    obtain ⟨parent, isParent, derived⟩ := List.mem_flatMap.mp member
    rw [coherent.baseChain_length_of_derived (isLevel.known parent isParent) derived,
      isLevel.long parent isParent]

theorem levelsBelow_nodup (coherent : schema.Coherent) (bound : Nat) {length : Nat}
    {level : List ResourceType} (isLevel : Level schema length level) :
    (schema.levelsBelow bound level).Nodup ∧ ∀ type ∈ schema.levelsBelow bound level,
      length < (schema.baseChain type.name).length := by
  induction bound generalizing length level with
  | zero => exact ⟨.nil, fun type member => by cases member⟩
  | succ bound ih =>
    have next := isLevel.next coherent
    obtain ⟨distinct, longer⟩ := ih next
    rw [levelsBelow_succ]
    constructor
    · refine List.nodup_append'.mpr ⟨next.distinct, distinct, ?_⟩
      intro type here lower
      have long := next.long type here
      have longer := longer type lower
      omega
    · intro type member
      rcases List.mem_append.mp member with here | lower
      · have long := next.long type here
        omega
      · have longer := longer type lower
        omega

/-- The walk down meets no type twice. -/
theorem self_descendants_nodup (coherent : schema.Coherent) {top : ResourceType}
    (known : top ∈ schema.types) : (top :: schema.descendants top).Nodup := by
  have start : Level schema (schema.baseChain top.name).length [top] := by
    refine ⟨List.nodup_singleton top, ?_, ?_⟩
    · exact List.forall_mem_singleton.mpr known
    · exact List.forall_mem_singleton.mpr rfl
  obtain ⟨distinct, longer⟩ := coherent.levelsBelow_nodup schema.types.length start
  refine List.nodup_cons.mpr ⟨fun member => ?_, distinct⟩
  exact Nat.lt_irrefl _ (longer top member)

end Coherent

end Schema

end LayeredQuery
