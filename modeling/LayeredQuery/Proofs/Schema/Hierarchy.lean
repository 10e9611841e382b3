import LayeredQuery.Proofs.Schema.Coherent

/-!
# Hierarchies of coherent schemas

In a coherent schema the chain of a type ends with the chain of each type it derives from, so
deriving is transitive and a field found on a type is found on all types below it. The types found
on the way down all derive from where the way began.
-/

set_option autoImplicit false

namespace LayeredQuery

open ResourceType

/-! ## Looking up -/

theorem find?_eq_some_of_mem {α β : Type} [DecidableEq β] (key : α → β) {items : List α} {item : α}
    (distinct : items.Pairwise fun x y => key x ≠ key y) (member : item ∈ items) :
    items.find? (fun other => key other = key item) = some item := by
  induction items with
  | nil => cases member
  | cons first rest ih =>
    obtain ⟨differs, later⟩ := List.pairwise_cons.mp distinct
    rcases List.mem_cons.mp member with same | found
    · subst same
      exact List.find?_cons_of_pos (by simp)
    · rw [List.find?_cons_of_neg (by simpa using differs item found)]
      exact ih later found

theorem Field.mem_and_name_of_find? {name : String} {fields : List Field} {field : Field}
    (found : Field.find? name fields = some field) : field ∈ fields ∧ field.name = name :=
  ⟨List.mem_of_find?_eq_some found, by simpa using List.find?_some found⟩

namespace Schema

variable {schema : Schema}

theorem mem_of_type? {name : String} {type : ResourceType} (found : schema.type? name = some type) :
    type ∈ schema.types :=
  mem_of_find? found

theorem name_of_type? {name : String} {type : ResourceType}
    (found : schema.type? name = some type) : type.name = name :=
  name_of_find? found

theorem isSameOrDerived_iff {candidate base : String} :
    schema.isSameOrDerived candidate base = true ↔
      ∃ type ∈ schema.baseChain candidate, type.name = base := by
  simp [isSameOrDerived]

theorem type?_of_isSameOrDerived {candidate base : String}
    (derived : schema.isSameOrDerived candidate base = true) :
    ∃ type, schema.type? candidate = some type := by
  obtain ⟨_, member, _⟩ := isSameOrDerived_iff.mp derived
  unfold baseChain at member
  cases found : schema.type? candidate with
  | none => simp [found] at member
  | some type => exact ⟨type, rfl⟩

namespace Coherent

theorem type?_of_mem (coherent : schema.Coherent) {type : ResourceType}
    (member : type ∈ schema.types) : schema.type? type.name = some type :=
  find?_eq_some_of_mem ResourceType.name coherent.namesDistinct member

theorem typeOfElement?_of_mem (coherent : schema.Coherent) {type : ResourceType}
    (member : type ∈ schema.types) : schema.typeOfElement? type.element = some type :=
  find?_eq_some_of_mem ResourceType.element coherent.elementsDistinct member

/-! ## Base types -/

theorem baseChain_eq (coherent : schema.Coherent) {type : ResourceType}
    {chain : List ResourceType} (member : type ∈ schema.types)
    (lineage : Lineage schema.types type chain) : schema.baseChain type.name = chain := by
  obtain ⟨other, lineage', short⟩ := coherent.rooted type member
  obtain rfl := lineage.unique lineage'
  simp only [baseChain, coherent.type?_of_mem member]
  exact lineage.chainWithin_eq schema.types.length short

theorem baseChain_lineage (coherent : schema.Coherent) {type : ResourceType}
    (member : type ∈ schema.types) :
    Lineage schema.types type (schema.baseChain type.name) := by
  obtain ⟨chain, lineage, _⟩ := coherent.rooted type member
  rwa [coherent.baseChain_eq member lineage]

theorem mem_of_mem_baseChain (coherent : schema.Coherent) {name : String} {type : ResourceType}
    (member : type ∈ schema.baseChain name) : type ∈ schema.types := by
  unfold baseChain at member
  cases found : schema.type? name with
  | none => simp [found] at member
  | some start =>
    have known := mem_of_type? found
    have sameName := name_of_type? found
    subst sameName
    refine (coherent.baseChain_lineage known).mem_types known type ?_
    unfold baseChain
    simpa only [found] using member

theorem mem_baseChain_iff (coherent : schema.Coherent) {type : ResourceType} {candidate : String}
    (known : type ∈ schema.types) :
    type ∈ schema.baseChain candidate ↔ schema.isSameOrDerived candidate type.name = true := by
  rw [isSameOrDerived_iff]
  constructor
  · exact fun member => ⟨type, member, rfl⟩
  · rintro ⟨other, member, sameName⟩
    have found := coherent.type?_of_mem (coherent.mem_of_mem_baseChain member)
    rw [sameName, coherent.type?_of_mem known] at found
    exact Option.some.inj found ▸ member

theorem isSameOrDerived_refl (coherent : schema.Coherent) {type : ResourceType}
    (member : type ∈ schema.types) : schema.isSameOrDerived type.name type.name = true :=
  (coherent.mem_baseChain_iff member).mp (coherent.baseChain_lineage member).mem_self

theorem baseChain_split (coherent : schema.Coherent) {candidate : String} {base : ResourceType}
    (known : base ∈ schema.types) (derived : schema.isSameOrDerived candidate base.name = true) :
    ∃ below, schema.baseChain candidate = below ++ schema.baseChain base.name := by
  obtain ⟨type, found⟩ := type?_of_isSameOrDerived derived
  obtain rfl := name_of_type? found
  have member := (coherent.mem_baseChain_iff known).mpr derived
  have lineage := coherent.baseChain_lineage (mem_of_type? found)
  obtain ⟨below, above, parts, upper⟩ := lineage.split base member
  exact ⟨below, by rw [parts, coherent.baseChain_eq known upper]⟩

theorem isSameOrDerived_trans (coherent : schema.Coherent) {low middle high : String}
    (first : schema.isSameOrDerived low middle = true)
    (second : schema.isSameOrDerived middle high = true) :
    schema.isSameOrDerived low high = true := by
  obtain ⟨type, found⟩ := type?_of_isSameOrDerived second
  obtain rfl := name_of_type? found
  obtain ⟨below, parts⟩ := coherent.baseChain_split (mem_of_type? found) first
  obtain ⟨ancestor, member, sameName⟩ := isSameOrDerived_iff.mp second
  refine isSameOrDerived_iff.mpr ⟨ancestor, ?_, sameName⟩
  rw [parts]
  exact List.mem_append_right _ member

theorem isSameOrDerived_antisymm (coherent : schema.Coherent) {low high : String}
    (up : schema.isSameOrDerived low high = true)
    (down : schema.isSameOrDerived high low = true) : low = high := by
  obtain ⟨lower, foundLow⟩ := type?_of_isSameOrDerived up
  obtain ⟨upper, foundHigh⟩ := type?_of_isSameOrDerived down
  obtain rfl := name_of_type? foundLow
  obtain rfl := name_of_type? foundHigh
  -- Each chain ends with the other one, so they are one chain.
  obtain ⟨below, parts⟩ := coherent.baseChain_split (mem_of_type? foundHigh) up
  obtain ⟨above, parts'⟩ := coherent.baseChain_split (mem_of_type? foundLow) down
  obtain ⟨rest, isLow⟩ := (coherent.baseChain_lineage (mem_of_type? foundLow)).head
  obtain ⟨rest', isHigh⟩ := (coherent.baseChain_lineage (mem_of_type? foundHigh)).head
  have length := congrArg List.length parts
  have length' := congrArg List.length parts'
  rw [List.length_append] at length length'
  obtain rfl : below = [] := List.eq_nil_of_length_eq_zero (by omega)
  rw [List.nil_append, isLow, isHigh] at parts
  exact congrArg ResourceType.name (List.cons.inj parts).1

/-! ## Derived types -/

theorem isSameOrDerived_of_mem_derivedTypes (coherent : schema.Coherent)
    {type derived : ResourceType} (known : type ∈ schema.types)
    (member : derived ∈ schema.derivedTypes type.name) :
    derived ∈ schema.types ∧ schema.isSameOrDerived derived.name type.name = true := by
  simp only [derivedTypes, List.mem_mergeSort, List.mem_filter, decide_eq_true_eq] at member
  obtain ⟨isType, derives⟩ := member
  have lineage := Lineage.step derives (coherent.type?_of_mem known)
    (coherent.baseChain_lineage known)
  refine ⟨isType, (coherent.mem_baseChain_iff known).mp ?_⟩
  rw [coherent.baseChain_eq isType lineage]
  exact List.mem_cons_of_mem _ (coherent.baseChain_lineage known).mem_self

theorem mem_levelsBelow (coherent : schema.Coherent) (top : ResourceType) :
    ∀ (bound : Nat) (level : List ResourceType),
      (∀ type ∈ level, type ∈ schema.types ∧ schema.isSameOrDerived type.name top.name = true) →
      ∀ type ∈ schema.levelsBelow bound level,
        type ∈ schema.types ∧ schema.isSameOrDerived type.name top.name = true := by
  intro bound
  induction bound with
  | zero => intro level _ type member; cases member
  | succ bound ih =>
    intro level below
    have next : ∀ type ∈ level.flatMap fun type => schema.derivedTypes type.name,
        type ∈ schema.types ∧ schema.isSameOrDerived type.name top.name = true := by
      intro type member
      obtain ⟨parent, isParent, derived⟩ := List.mem_flatMap.mp member
      obtain ⟨known, derives⟩ := below parent isParent
      obtain ⟨isType, step⟩ := coherent.isSameOrDerived_of_mem_derivedTypes known derived
      exact ⟨isType, coherent.isSameOrDerived_trans step derives⟩
    intro type member
    rw [levelsBelow] at member
    split at member
    · cases member
    · rename_i first others isNext
      rw [isNext] at next
      rcases List.mem_append.mp member with here | lower
      · exact next type here
      · exact ih _ next type lower

theorem mem_descendants (coherent : schema.Coherent) {type derived : ResourceType}
    (known : type ∈ schema.types) (member : derived ∈ schema.descendants type) :
    derived ∈ schema.types ∧ schema.isSameOrDerived derived.name type.name = true := by
  refine coherent.mem_levelsBelow type schema.types.length [type] ?_ derived member
  intro start isStart
  rw [List.mem_singleton] at isStart
  subst isStart
  exact ⟨known, coherent.isSameOrDerived_refl known⟩

/-! ## Fields -/

/-- A field is declared by one type of a lineage at most, so the search up a lineage finds it. -/
theorem findSome?_of_declared (coherent : schema.Coherent) {type declaring : ResourceType}
    {chain : List ResourceType} {name : String} {field : Field}
    (lineage : Lineage schema.types type chain) (known : type ∈ schema.types)
    (member : declaring ∈ chain) (declared : Field.find? name declaring.fields = some field) :
    chain.findSome? (fun ancestor => Field.find? name ancestor.fields) = some field := by
  induction lineage with
  | root _ =>
    rw [List.mem_singleton] at member
    subst member
    simp [declared]
  | @step type parent base above derives found rest ih =>
    rcases List.mem_cons.mp member with same | isAbove
    · subst same
      simp [declared]
    · have undeclared : Field.find? name type.fields = none := by
        cases redeclared : Field.find? name type.fields with
        | none => rfl
        | some other =>
          obtain ⟨isField, sameName⟩ := Field.mem_and_name_of_find? redeclared
          have once := coherent.declaredOnce type known above (.step derives found rest)
            declaring isAbove other isField
          rw [sameName, declared] at once
          cases once
      rw [List.findSome?_cons, undeclared]
      exact ih (mem_of_find? found) isAbove

theorem field?_of_declared (coherent : schema.Coherent) {declaring : ResourceType}
    {name concrete : String} {field : Field} (known : declaring ∈ schema.types)
    (declared : Field.find? name declaring.fields = some field)
    (derived : schema.isSameOrDerived concrete declaring.name = true) :
    schema.field? concrete name = some field := by
  obtain ⟨type, found⟩ := type?_of_isSameOrDerived derived
  obtain rfl := name_of_type? found
  obtain ⟨below, parts⟩ := coherent.baseChain_split known derived
  refine coherent.findSome?_of_declared (coherent.baseChain_lineage (mem_of_type? found))
    (mem_of_type? found) ?_ declared
  rw [parts]
  exact List.mem_append_right _ (coherent.baseChain_lineage known).mem_self

theorem exists_declared_of_field? (coherent : schema.Coherent) {concrete name : String}
    {field : Field} (found : schema.field? concrete name = some field) :
    field.name = name ∧ ∃ declaring ∈ schema.types, field ∈ declaring.fields := by
  obtain ⟨declaring, member, declared⟩ := List.exists_of_findSome?_eq_some found
  obtain ⟨isField, sameName⟩ := Field.mem_and_name_of_find? declared
  exact ⟨sameName, declaring, coherent.mem_of_mem_baseChain member, isField⟩

end Coherent

end Schema

end LayeredQuery
