import Mathlib.Data.List.Nodup
import Mathlib.Logic.Relation
import LayeredQuery.Proofs.Schema.Hierarchy

/-!
# Walks along base types

The walks of a schema are bounded by the number of its types. Here are the same walks without a
bound: one that remembers the names of the types it has met and ends when it meets one again, and
one that just goes on to the next base type, for ever where base types are in a circle. Once the
names of types are distinct, the first one finds what the bounded check of base types finds; and
once the check has passed, the second one ends and gives what the bounded walk gives.
-/

set_option autoImplicit false

namespace LayeredQuery

namespace ResourceType

variable {types : List ResourceType}

def Derives (types : List ResourceType) (type parent : ResourceType) : Prop :=
  parent ∈ types ∧ type.base = some parent.name

theorem derives_of_find? {type parent : ResourceType} {base : String}
    (isBase : type.base = some base) (found : find? types base = some parent) :
    Derives types type parent :=
  ⟨mem_of_find? found, by rw [isBase, name_of_find? found]⟩

theorem Derives.find?_eq {type parent : ResourceType} (derives : Derives types type parent)
    (distinct : types.Pairwise fun x y => x.name ≠ y.name) :
    find? types parent.name = some parent :=
  find?_eq_some_of_mem ResourceType.name distinct derives.1

theorem eq_of_name_eq {type other : ResourceType}
    (distinct : types.Pairwise fun x y => x.name ≠ y.name) (known : type ∈ types)
    (isOther : other ∈ types) (same : type.name = other.name) : type = other := by
  have found := find?_eq_some_of_mem ResourceType.name distinct known
  rw [same, find?_eq_some_of_mem ResourceType.name distinct isOther] at found
  exact (Option.some.inj found).symm

/-! ## Lineages -/

namespace Lineage

variable {type ancestor : ResourceType} {above : List ResourceType}

theorem transGen_iff_mem (lineage : Lineage types type (type :: above))
    (distinct : types.Pairwise fun x y => x.name ≠ y.name) :
    Relation.TransGen (Derives types) type ancestor ↔ ancestor ∈ above := by
  generalize isChain : type :: above = chain at lineage
  induction lineage generalizing above with
  | root isRoot =>
    cases isChain
    constructor
    · intro derives
      obtain ⟨parent, step, _⟩ := Relation.TransGen.head'_iff.mp derives
      exact nomatch isRoot.symm.trans step.2
    · exact nofun
  | @step type parent base rest isBase found lineage ih =>
    cases isChain
    obtain ⟨upper, rfl⟩ := lineage.head
    have isNext {other : ResourceType} : Derives types type other ↔ other = parent := by
      constructor
      · intro derives
        have same : base = other.name := Option.some.inj (isBase.symm.trans derives.2)
        have found' := derives.find?_eq distinct
        rw [← same, found] at found'
        exact (Option.some.inj found').symm
      · rintro rfl
        exact derives_of_find? isBase found
    rw [Relation.TransGen.head'_iff, List.mem_cons, ← ih rfl]
    constructor
    · rintro ⟨other, step, later⟩
      obtain rfl := isNext.mp step
      exact Relation.reflTransGen_iff_eq_or_transGen.mp later
    · rintro (rfl | later)
      · exact ⟨ancestor, isNext.mpr rfl, .refl⟩
      · exact ⟨parent, isNext.mpr rfl, later.to_reflTransGen⟩

theorem base_getLastD {chain : List ResourceType} (lineage : Lineage types type chain) :
    (chain.getLastD type).base = none := by
  induction lineage with
  | root isRoot => exact isRoot
  | step isBase found rest ih =>
    obtain ⟨upper, rfl⟩ := rest.head
    exact ih

theorem notMem_above (lineage : Lineage types type (type :: above)) : type ∉ above := by
  intro member
  cases lineage with
  | root _ => cases member
  | step isBase found rest =>
    obtain ⟨below, upper, parts, again⟩ := rest.split type member
    have same := again.unique (.step isBase found rest)
    have shorter := congrArg List.length parts
    rw [same] at shorter
    simp only [List.length_append, List.length_cons] at shorter
    omega

theorem names_nodup {chain : List ResourceType} (lineage : Lineage types type chain)
    (distinct : types.Pairwise fun x y => x.name ≠ y.name) (known : type ∈ types) :
    (chain.map ResourceType.name).Nodup := by
  induction lineage with
  | root _ => exact List.nodup_singleton _
  | @step type parent base above isBase found rest ih =>
    have whole := Lineage.step isBase found rest
    refine List.nodup_cons.mpr ⟨fun again => ?_, ih (mem_of_find? found)⟩
    obtain ⟨other, isAbove, same⟩ := List.mem_map.mp again
    have isOther := whole.mem_types known other (List.mem_cons_of_mem _ isAbove)
    exact whole.notMem_above (eq_of_name_eq distinct isOther known same ▸ isAbove)

theorem reflTransGen_root_iff (lineage : Lineage types type (type :: above))
    (distinct : types.Pairwise fun x y => x.name ≠ y.name) :
    Relation.ReflTransGen (Derives types) type ancestor ∧ ancestor.base = none ↔
      ancestor = (type :: above).getLastD type := by
  have isMember : Relation.ReflTransGen (Derives types) type ancestor ↔
      ancestor ∈ type :: above := by
    rw [Relation.reflTransGen_iff_eq_or_transGen, lineage.transGen_iff_mem distinct, List.mem_cons]
  rw [isMember]
  constructor
  · rintro ⟨member, isRoot⟩
    exact (lineage.getLastD_eq (.root isRoot) member).symm
  · rintro rfl
    exact ⟨List.getLast_mem (List.cons_ne_nil type above), lineage.base_getLastD⟩

end Lineage

/-! ## Walking on without a bound -/

/-- A run of the walk that goes on to the next base type until there is none. Where base types are
in a circle, there is no such run. -/
inductive WalksUp (types : List ResourceType) : ResourceType → List ResourceType → Prop
  | done {type : ResourceType} (last : type.base.bind (find? types) = none) :
      WalksUp types type []
  | next {type parent : ResourceType} {above : List ResourceType}
      (isNext : type.base.bind (find? types) = some parent) (run : WalksUp types parent above) :
      WalksUp types type (parent :: above)

theorem walksUp_of_lineage {type : ResourceType} {chain : List ResourceType}
    (lineage : Lineage types type chain) : WalksUp types type chain.tail := by
  induction lineage with
  | root isRoot => exact .done (by rw [isRoot]; rfl)
  | step isBase found rest ih =>
    obtain ⟨upper, rfl⟩ := rest.head
    exact .next (by rw [isBase]; exact found) ih

end ResourceType

namespace Schema

open ResourceType

variable {types : List ResourceType} {start : String}

/-! ## Walking until a type is met again -/

def walkBases (types : List ResourceType) (start : String) (met : List String)
    (current : { type : ResourceType // type ∈ types }) : Except SchemaError Unit :=
  match current.1.base with
  | none => .ok ()
  | some base =>
    if current.1.name ∈ met then .error (.cyclicInheritance start)
    else
      match found : find? types base with
      | none => .error (.unknownBaseType current.1.name base)
      | some parent =>
        walkBases types start (current.1.name :: met) ⟨parent, mem_of_find? found⟩
termination_by unmet types met
decreasing_by exact unmet_cons_lt current.2 ‹_›

section Steps

variable {met : List String} {current parent : ResourceType} {base : String}

theorem checkBasesFrom_next {bound : Nat} (isBase : current.base = some base)
    (found : find? types base = some parent) :
    checkBasesFrom types start (bound + 1) current = checkBasesFrom types start bound parent := by
  rw [checkBasesFrom]
  simp only [isBase, found]

theorem walkBases_unknown (known : current ∈ types) (isBase : current.base = some base)
    (isNew : current.name ∉ met) (missing : find? types base = none) :
    walkBases types start met ⟨current, known⟩ = .error (.unknownBaseType current.name base) := by
  rw [walkBases]
  simp only [isBase, isNew, if_false]
  split
  · rfl
  · rename_i found
    cases missing.symm.trans found

theorem walkBases_next (known : current ∈ types) (isBase : current.base = some base)
    (isNew : current.name ∉ met) (found : find? types base = some parent) :
    walkBases types start met ⟨current, known⟩ =
      walkBases types start (current.name :: met) ⟨parent, mem_of_find? found⟩ := by
  rw [walkBases]
  simp only [isBase, isNew, if_false]
  split
  · rename_i missing
    cases missing.symm.trans found
  · rename_i found'
    cases found.symm.trans found'
    rfl

end Steps

theorem checkBasesFrom_of_circle {circle : List ResourceType}
    (closed : ∀ type ∈ circle, ∃ base parent, type.base = some base ∧
      find? types base = some parent ∧ parent ∈ circle)
    (bound : Nat) {current : ResourceType} (member : current ∈ circle) :
    checkBasesFrom types start bound current = .error (.cyclicInheritance start) := by
  obtain ⟨base, parent, isBase, found, isNext⟩ := closed current member
  induction bound generalizing current base parent with
  | zero => rw [checkBasesFrom, isBase]
  | succ bound ih =>
    rw [checkBasesFrom_next isBase found]
    obtain ⟨base, next, isBase, found, isNext'⟩ := closed parent isNext
    exact ih isNext base next isBase found isNext'

theorem checkBasesFrom_eq_walkBases_of_path (distinct : types.Pairwise fun x y => x.name ≠ y.name)
    (bound : Nat) (path : List ResourceType) {current : ResourceType} (known : current ∈ types)
    (isPath : ∀ type ∈ path, type ∈ types ∧ ∃ base parent, type.base = some base ∧
      find? types base = some parent ∧ parent ∈ current :: path)
    (enough : unmet types (path.map ResourceType.name) ≤ bound) :
    checkBasesFrom types start bound current =
      walkBases types start (path.map ResourceType.name) ⟨current, known⟩ := by
  induction bound using Nat.strongRecOn generalizing path current with
  | ind bound ih =>
    cases isBase : current.base with
    | none => simp only [checkBasesFrom, walkBases, isBase]
    | some base =>
      by_cases isMet : current.name ∈ path.map ResourceType.name
      · -- All types met so far, and the current one, are in the circle.
        obtain ⟨other, isOther, same⟩ := List.mem_map.mp isMet
        obtain rfl := eq_of_name_eq distinct (isPath other isOther).1 known same
        have closed : ∀ type ∈ path, ∃ base parent, type.base = some base ∧
            find? types base = some parent ∧ parent ∈ path := by
          intro type member
          obtain ⟨_, base, parent, isBase, found, isNext⟩ := isPath type member
          rcases List.mem_cons.mp isNext with isLast | earlier
          · exact ⟨base, parent, isBase, found, isLast ▸ isOther⟩
          · exact ⟨base, parent, isBase, found, earlier⟩
        rw [checkBasesFrom_of_circle closed bound isOther, walkBases]
        simp only [isBase, isMet, if_true]
      · have fewer := unmet_cons_lt known isMet
        obtain ⟨bound, rfl⟩ : ∃ less, bound = less + 1 := ⟨bound - 1, by omega⟩
        cases found : find? types base with
        | none =>
          rw [walkBases_unknown known isBase isMet found, checkBasesFrom]
          simp only [isBase, found]
        | some parent =>
          rw [walkBases_next known isBase isMet found, checkBasesFrom_next isBase found]
          have isPath' : ∀ type ∈ current :: path, type ∈ types ∧ ∃ base next,
              type.base = some base ∧ find? types base = some next ∧
                next ∈ parent :: current :: path := by
            intro type member
            rcases List.mem_cons.mp member with isLast | earlier
            · subst isLast
              exact ⟨known, base, parent, isBase, found, List.mem_cons_self⟩
            · obtain ⟨isType, base, next, isBase, found, isNext⟩ := isPath type earlier
              exact ⟨isType, base, next, isBase, found, List.mem_cons_of_mem _ isNext⟩
          exact ih bound (Nat.lt_succ_self bound) (current :: path) (mem_of_find? found) isPath'
            (Nat.le_of_lt_succ (Nat.lt_of_lt_of_le fewer enough))

/-- The bounded walk finds what the walk finds that remembers the types it has met. -/
theorem checkBasesFrom_eq_walkBases (distinct : types.Pairwise fun x y => x.name ≠ y.name)
    {type : ResourceType} (known : type ∈ types) :
    checkBasesFrom types start types.length type = walkBases types start [] ⟨type, known⟩ :=
  checkBasesFrom_eq_walkBases_of_path distinct types.length [] known nofun
    (List.length_filter_le _ _)

/-- Where all base types are known and none is in a circle, the walk comes to a root. -/
theorem walkBases_isOk (distinct : types.Pairwise fun x y => x.name ≠ y.name)
    (basesKnown : ∀ type ∈ types, ∀ base, type.base = some base → ∃ parent ∈ types,
      parent.name = base)
    (acyclic : ∀ type, ¬ Relation.TransGen (Derives types) type type)
    {met : List String} {current : { type : ResourceType // type ∈ types }}
    (below : ∀ name ∈ met, ∃ type ∈ types, type.name = name ∧
      Relation.TransGen (Derives types) type current.1) :
    walkBases types start met current = .ok () := by
  fun_induction walkBases types start met current with
  | case1 met current isRoot => rfl
  | case2 met current base isBase isMet =>
    obtain ⟨type, known, same, derives⟩ := below current.1.name isMet
    obtain rfl := eq_of_name_eq distinct known current.2 same
    exact absurd derives (acyclic _)
  | case3 met current base isBase isNew missing =>
    obtain ⟨parent, known, rfl⟩ := basesKnown current.1 current.2 base isBase
    rw [find?, find?_eq_some_of_mem ResourceType.name distinct known] at missing
    cases missing
  | case4 met current base isBase isNew parent found ih =>
    have derives := derives_of_find? isBase found
    refine ih fun name isMet => ?_
    rcases List.mem_cons.mp isMet with isLast | earlier
    · exact ⟨current.1, current.2, isLast.symm, .single derives⟩
    · obtain ⟨type, known, same, above⟩ := below name earlier
      exact ⟨type, known, same, above.tail derives⟩

end Schema

end LayeredQuery
