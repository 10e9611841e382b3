import LayeredQuery.Proofs.Meaning.Ends

/-!
# Routes along relationships

Names can be followed as relationships from one type to the next, whatever resources there are. A
chain that has a relationship to many before its last name crosses it, and has any number of ends
from there on.
-/

set_option autoImplicit false

namespace LayeredQuery

namespace Schema

def follow? (schema : Schema) : List String → ResourceType → Option ResourceType
  | [], owner => some owner
  | name :: rest, owner =>
    match schema.fieldOn? owner name with
    | none => none
    | some resolved =>
      match schema.targetOf? resolved with
      | none => none
      | some target => follow? schema rest target

/-- The last of the names stands for a field of the type that the names before it lead to. -/
def ArrivesAt (schema : Schema) (owner : ResourceType) (names : List String)
    (resolved : ResolvedField) : Prop :=
  ∃ before last between, names = before ++ [last] ∧ schema.follow? before owner = some between ∧
    schema.fieldOn? between last = some resolved

/-- Whether a name before the last stands for a relationship to many. -/
def crossesToMany (schema : Schema) : List String → ResourceType → Bool
  | [], _ => false
  | [_], _ => false
  | name :: next :: rest, owner =>
    match schema.fieldOn? owner name with
    | none => false
    | some resolved =>
      resolved.kind.isToMany ||
        match schema.targetOf? resolved with
        | none => false
        | some target => crossesToMany schema (next :: rest) target

variable {schema : Schema}

/-! ## Following names -/

theorem follow?_cons {owner target : ResourceType} {name : String} {resolved : ResolvedField}
    (found : schema.fieldOn? owner name = some resolved)
    (isTarget : schema.targetOf? resolved = some target) (rest : List String) :
    schema.follow? (name :: rest) owner = schema.follow? rest target := by
  simp only [follow?, found, isTarget]

theorem follow?_cons_iff {owner target : ResourceType} {name : String} {rest : List String} :
    schema.follow? (name :: rest) owner = some target ↔
      ∃ resolved middle, schema.fieldOn? owner name = some resolved ∧
        schema.targetOf? resolved = some middle ∧ schema.follow? rest middle = some target := by
  constructor
  · intro leads
    rw [follow?] at leads
    split at leads
    · cases leads
    · rename_i resolved found
      split at leads
      · cases leads
      · rename_i middle isTarget
        exact ⟨resolved, middle, found, isTarget, leads⟩
  · rintro ⟨resolved, middle, found, isTarget, leads⟩
    rw [follow?_cons found isTarget, leads]

theorem follow?_append (names others : List String) (owner : ResourceType) :
    schema.follow? (names ++ others) owner =
      (schema.follow? names owner).bind (schema.follow? others) := by
  induction names generalizing owner with
  | nil => rfl
  | cons name rest ih =>
    rw [List.cons_append, follow?, follow?]
    cases schema.fieldOn? owner name with
    | none => rfl
    | some resolved =>
      simp only
      cases schema.targetOf? resolved with
      | none => rfl
      | some target => exact ih target

theorem follow?_snoc {names : List String} {owner middle target : ResourceType} {name : String}
    {resolved : ResolvedField} (before : schema.follow? names owner = some middle)
    (found : schema.fieldOn? middle name = some resolved)
    (isTarget : schema.targetOf? resolved = some target) :
    schema.follow? (names ++ [name]) owner = some target := by
  rw [follow?_append, before, Option.bind_some, follow?_cons found isTarget, follow?]

theorem ArrivesAt.ne_nil {owner : ResourceType} {names : List String} {resolved : ResolvedField}
    (arrives : schema.ArrivesAt owner names resolved) : names ≠ [] := by
  obtain ⟨before, last, between, rfl, _⟩ := arrives
  simp

theorem ArrivesAt.follow? {owner target : ResourceType} {names : List String}
    {resolved : ResolvedField} (arrives : schema.ArrivesAt owner names resolved)
    (isTarget : schema.targetOf? resolved = some target) :
    schema.follow? names owner = some target := by
  obtain ⟨before, last, between, rfl, leads, found⟩ := arrives
  exact follow?_snoc leads found isTarget

theorem mem_of_targetOf? {resolved : ResolvedField} {target : ResourceType}
    (isTarget : schema.targetOf? resolved = some target) : target ∈ schema.types := by
  obtain ⟨name, _, known⟩ := Option.bind_eq_some_iff.mp isTarget
  exact mem_of_type? known

theorem mem_of_follow? {names : List String} {owner target : ResourceType}
    (known : owner ∈ schema.types) (leads : schema.follow? names owner = some target) :
    target ∈ schema.types := by
  induction names generalizing owner with
  | nil =>
    cases leads
    exact known
  | cons name rest ih =>
    obtain ⟨resolved, middle, _, isTarget, further⟩ := follow?_cons_iff.mp leads
    exact ih (mem_of_targetOf? isTarget) further

/-! ## Crossing relationships to many -/

theorem crossesToMany_cons_of_toMany {owner : ResourceType} {name next : String}
    {rest : List String} {resolved : ResolvedField}
    (found : schema.fieldOn? owner name = some resolved) (many : resolved.kind.isToMany = true) :
    schema.crossesToMany (name :: next :: rest) owner = true := by
  simp only [crossesToMany, found, many, Bool.true_or]

theorem crossesToMany_cons_of_toOne {owner target : ResourceType} {name next : String}
    {rest : List String} {resolved : ResolvedField}
    (found : schema.fieldOn? owner name = some resolved) (one : resolved.kind.isToMany = false)
    (isTarget : schema.targetOf? resolved = some target) :
    schema.crossesToMany (name :: next :: rest) owner =
      schema.crossesToMany (next :: rest) target := by
  simp only [crossesToMany, found, one, isTarget, Bool.false_or]

/-- A chain crosses a relationship to many where the names before it lead to a type on which it is
one, and other names come after it. -/
theorem crossesToMany_iff {names : List String} {owner : ResourceType} :
    schema.crossesToMany names owner = true ↔
      ∃ before name after between resolved, names = before ++ name :: after ∧ after ≠ [] ∧
        schema.follow? before owner = some between ∧
        schema.fieldOn? between name = some resolved ∧ resolved.kind.isToMany = true := by
  induction names generalizing owner with
  | nil => simp [crossesToMany]
  | cons name rest ih =>
    cases rest with
    | nil =>
      refine ⟨nofun, ?_⟩
      rintro ⟨before, _, after, _, _, parts, more, _⟩
      cases before with
      | nil => exact absurd (List.cons.inj parts).2.symm more
      | cons _ before => simp at parts
    | cons next rest =>
      constructor
      · intro crosses
        cases found : schema.fieldOn? owner name with
        | none => simp [crossesToMany, found] at crosses
        | some resolved =>
          simp only [crossesToMany, found, Bool.or_eq_true] at crosses
          rcases crosses with here | later
          · exact ⟨[], name, next :: rest, owner, resolved, rfl, nofun, rfl, found, here⟩
          · split at later
            · cases later
            · rename_i target isTarget
              obtain ⟨before, crossed, after, between, other, parts, more, leads, field⟩ :=
                ih.mp later
              exact ⟨name :: before, crossed, after, between, other, by rw [parts]; rfl, more,
                (follow?_cons found isTarget before).trans leads, field⟩
      · rintro ⟨before, crossed, after, between, other, parts, more, leads, field, many⟩
        cases before with
        | nil =>
          cases leads
          cases parts
          exact crossesToMany_cons_of_toMany field many
        | cons _ before =>
          obtain ⟨rfl, others⟩ := List.cons.inj parts
          obtain ⟨resolved, target, found, isTarget, further⟩ := follow?_cons_iff.mp leads
          simp only [crossesToMany, found, isTarget, Bool.or_eq_true]
          exact .inr (ih.mpr
            ⟨before, crossed, after, between, other, others, more, further, field, many⟩)

theorem Coherent.name_of_fieldOn? (coherent : schema.Coherent) {owner : ResourceType}
    {name : String} {resolved : ResolvedField} (known : owner ∈ schema.types)
    (found : schema.fieldOn? owner name = some resolved) : resolved.field.name = name :=
  (Field.mem_and_name_of_find? (coherent.fieldOn?_spec known found).2.1).2

/-- In a coherent schema every relationship leads to a known type. -/
theorem Coherent.exists_targetOf? (coherent : schema.Coherent) {owner : ResourceType}
    {name target : String} {resolved : ResolvedField} (known : owner ∈ schema.types)
    (found : schema.fieldOn? owner name = some resolved)
    (named : resolved.kind.target? = some target) :
    ∃ type, schema.targetOf? resolved = some type := by
  obtain ⟨declaringKnown, declared, _⟩ := coherent.fieldOn?_spec known found
  have isField := (Field.mem_and_name_of_find? declared).1
  have isKnown := coherent.targetsKnown _ declaringKnown _ isField target named
  obtain ⟨type, isType⟩ := Option.isSome_iff_exists.mp isKnown
  exact ⟨type, by rw [targetOf?, named, Option.bind_some, isType]⟩

end Schema

end LayeredQuery
