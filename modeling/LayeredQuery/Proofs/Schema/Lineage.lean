import LayeredQuery.Schema.Build

/-!
# Lineages

The lineage of a type is the type itself followed by its base types up to a root. As a relation it
needs no bound, and the bounded walks of a schema reach its end whenever the check of base types
lets them.
-/

set_option autoImplicit false

namespace LayeredQuery

namespace ResourceType

/-- A type followed by its base types, of which the last one has no base. -/
inductive Lineage (types : List ResourceType) : ResourceType → List ResourceType → Prop
  | root {type : ResourceType} (isRoot : type.base = none) : Lineage types type [type]
  | step {type parent : ResourceType} {base : String} {above : List ResourceType}
      (derives : type.base = some base) (found : find? types base = some parent)
      (rest : Lineage types parent above) : Lineage types type (type :: above)

variable {types : List ResourceType}

theorem mem_of_find? {name : String} {type : ResourceType} (found : find? types name = some type) :
    type ∈ types :=
  List.mem_of_find?_eq_some found

theorem name_of_find? {name : String} {type : ResourceType}
    (found : find? types name = some type) : type.name = name := by
  simpa using List.find?_some found

namespace Lineage

theorem head {type : ResourceType} {chain : List ResourceType}
    (lineage : Lineage types type chain) : ∃ above, chain = type :: above := by
  cases lineage with
  | root _ => exact ⟨[], rfl⟩
  | step _ _ _ => exact ⟨_, rfl⟩

theorem mem_self {type : ResourceType} {chain : List ResourceType}
    (lineage : Lineage types type chain) : type ∈ chain := by
  obtain ⟨above, rfl⟩ := lineage.head
  exact List.mem_cons_self

theorem mem_types {type : ResourceType} {chain : List ResourceType}
    (lineage : Lineage types type chain) (known : type ∈ types) :
    ∀ ancestor ∈ chain, ancestor ∈ types := by
  induction lineage with
  | root _ =>
    intro ancestor member
    rw [List.mem_singleton] at member
    exact member ▸ known
  | step _ found _ ih =>
    intro ancestor member
    rcases List.mem_cons.mp member with same | above
    · exact same ▸ known
    · exact ih (mem_of_find? found) ancestor above

/-- The lineage of a base type is the end of the lineages of the types that derive from it. -/
theorem split {type : ResourceType} {chain : List ResourceType}
    (lineage : Lineage types type chain) : ∀ ancestor ∈ chain,
      ∃ below above, chain = below ++ above ∧ Lineage types ancestor above := by
  induction lineage with
  | @root type isRoot =>
    intro ancestor member
    rw [List.mem_singleton] at member
    subst member
    exact ⟨[], [ancestor], rfl, .root isRoot⟩
  | @step type parent base above derives found rest ih =>
    intro ancestor member
    rcases List.mem_cons.mp member with same | later
    · subst same
      exact ⟨[], ancestor :: above, rfl, .step derives found rest⟩
    · obtain ⟨below, upper, parts, lineage⟩ := ih ancestor later
      exact ⟨type :: below, upper, by rw [parts, List.cons_append], lineage⟩

theorem unique {type : ResourceType} {chain other : List ResourceType}
    (lineage : Lineage types type chain) (second : Lineage types type other) : chain = other := by
  induction lineage generalizing other with
  | root isRoot =>
    cases second with
    | root _ => rfl
    | step derives _ _ => simp [isRoot] at derives
  | step derives found _ ih =>
    cases second with
    | root isRoot => simp [isRoot] at derives
    | step derives' found' rest' =>
      rw [derives] at derives'
      cases derives'
      rw [found] at found'
      cases found'
      rw [ih rest']

theorem getLastD_eq {type ancestor : ResourceType} {chain above : List ResourceType}
    (lineage : Lineage types type chain) (upper : Lineage types ancestor above)
    (member : ancestor ∈ chain) : chain.getLastD type = above.getLastD ancestor := by
  obtain ⟨below, found, parts, lineage'⟩ := lineage.split ancestor member
  obtain rfl := upper.unique lineage'
  obtain ⟨rest, rfl⟩ := upper.head
  rw [parts, List.getLastD_eq_getLast?, List.getLastD_eq_getLast?, List.getLast?_append]
  simp [List.getLast?_cons]

/-- The bounded walk gives the lineage when the bound is no smaller than its number of steps. -/
theorem chainWithin_eq {type : ResourceType} {chain : List ResourceType}
    (lineage : Lineage types type chain) (bound : Nat) (enough : chain.length ≤ bound + 1) :
    chainWithin types bound type = chain := by
  induction lineage generalizing bound with
  | root isRoot => cases bound <;> simp [chainWithin, isRoot]
  | step derives found rest ih =>
    obtain ⟨upper, rfl⟩ := rest.head
    cases bound with
    | zero => simp at enough
    | succ bound =>
      simp only [List.length_cons] at enough
      simp only [chainWithin, derives, found]
      rw [ih bound (by simp only [List.length_cons]; omega)]

theorem map {type : ResourceType} {chain : List ResourceType} (f : ResourceType → ResourceType)
    (sameName : ∀ type, (f type).name = type.name) (sameBase : ∀ type, (f type).base = type.base)
    (lineage : Lineage types type chain) : Lineage (types.map f) (f type) (chain.map f) := by
  induction lineage with
  | root isRoot => exact .root (by rw [sameBase, isRoot])
  | @step type parent base above derives found rest ih =>
    refine .step (by rw [sameBase, derives]) ?_ ih
    unfold find? at found ⊢
    rw [List.find?_map]
    simp only [Function.comp_def, sameName, found, Option.map_some]

end Lineage

end ResourceType

namespace Schema

open ResourceType

theorem checkBasesFrom_lineage {types : List ResourceType} {start : String} {bound : Nat}
    {current : ResourceType} (passed : checkBasesFrom types start bound current = .ok ()) :
    ∃ chain, Lineage types current chain ∧ chain.length ≤ bound + 1 := by
  induction bound generalizing current with
  | zero =>
    unfold checkBasesFrom at passed
    cases base : current.base with
    | none => exact ⟨[current], .root base, by simp⟩
    | some _ => simp [base] at passed
  | succ bound ih =>
    unfold checkBasesFrom at passed
    cases base : current.base with
    | none => exact ⟨[current], .root base, by simp⟩
    | some name =>
      simp only [base] at passed
      cases found : find? types name with
      | none => simp [found] at passed
      | some parent =>
        simp only [found] at passed
        obtain ⟨chain, lineage, short⟩ := ih passed
        exact ⟨current :: chain, .step base found lineage, by simp only [List.length_cons]; omega⟩

theorem checkBasesFrom_isOk {types : List ResourceType} {start : String} {bound : Nat}
    {current : ResourceType} {chain : List ResourceType} (lineage : Lineage types current chain)
    (enough : chain.length ≤ bound + 1) : checkBasesFrom types start bound current = .ok () := by
  induction lineage generalizing bound with
  | root isRoot => rw [checkBasesFrom, isRoot]
  | step derives found rest ih =>
    obtain ⟨upper, rfl⟩ := rest.head
    rw [List.length_cons, List.length_cons] at enough
    obtain ⟨bound, rfl⟩ : ∃ less, bound = less + 1 := ⟨bound - 1, by omega⟩
    unfold checkBasesFrom
    simp only [derives, found]
    exact ih (by rw [List.length_cons]; omega)

theorem checkBasesFrom_iff {types : List ResourceType} {start : String} {bound : Nat}
    {current : ResourceType} : checkBasesFrom types start bound current = .ok () ↔
      ∃ chain, Lineage types current chain ∧ chain.length ≤ bound + 1 :=
  ⟨checkBasesFrom_lineage, fun ⟨_, lineage, enough⟩ => checkBasesFrom_isOk lineage enough⟩

end Schema

end LayeredQuery
