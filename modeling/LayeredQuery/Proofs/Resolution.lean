import LayeredQuery.Proofs.Evaluation.Faithful
import LayeredQuery.Proofs.Schema.Acceptance
import LayeredQuery.Proofs.Schema.Search

/-!
# What a name resolves to

A name is looked up on a type along the types above it and then by a search among the types below
it, and what comes out depends only on how many of all these types declare the name: none, exactly
one, or several. Both walks come to an end although nothing bounds them. The access to a field that
was found reads the member of every object whose type has the field, and gives null for those that
have a type without it.
-/

set_option autoImplicit false

namespace LayeredQuery

open ResourceType

namespace Schema

variable {schema : Schema} {owner : ResourceType} {name path : String}

/-- The types that declare a name, among a type, those it derives from and those that derive from
it. -/
def declaringTypes (schema : Schema) (owner : ResourceType) (name : String) : List ResourceType :=
  schema.types.filter fun type =>
    (schema.isSameOrDerived owner.name type.name || schema.isSameOrDerived type.name owner.name) &&
      type.declares name

/-- What a name resolves to on a type, given the types that declare it. -/
inductive Resolution (schema : Schema) (owner : ResourceType) (name path : String) :
    List ResourceType → Except CompileError ResolvedField → Prop
  | unknown : Resolution schema owner name path [] (.error (.unknownField owner.name path))
  | only {type : ResourceType} {field : Field} {viaDerived : Bool}
      (declared : Field.find? name type.fields = some field)
      (marked : viaDerived = true ↔
        type ≠ owner ∧ schema.isSameOrDerived type.name owner.name = true) :
      Resolution schema owner name path [type] (.ok ⟨field, type, viaDerived⟩)
  | ambiguous {declaring : List ResourceType} {names : List String} (several : 2 ≤ declaring.length)
      (listed : names.Perm (declaring.map ResourceType.name)) :
      Resolution schema owner name path declaring
        (.error (.unsupported path (.ambiguousField name owner.name names)))

/-! ## Declaring types -/

theorem derivedFields_declaring (schema : Schema) (owner : ResourceType) (name : String) :
    (schema.derivedFields owner name).map ResolvedField.declaring =
      (schema.descendants owner).filter fun type => type.declares name := by
  unfold derivedFields
  induction schema.descendants owner with
  | nil => rfl
  | cons type rest ih =>
    cases declared : Field.find? name type.fields <;>
      simp [ResolvedField.ofType?, ResourceType.declares, declared, ih]

theorem inheritedField?_eq_none_iff :
    schema.inheritedField? owner name = none ↔
      ∀ type ∈ schema.baseChain owner.name, type.declares name = false := by
  simp [inheritedField?, ResolvedField.ofType?, ResourceType.declares]

namespace Coherent

theorem mem_declaringTypes (coherent : schema.Coherent) {type : ResourceType} :
    type ∈ schema.declaringTypes owner name ↔ type ∈ schema.types ∧
      (schema.DerivesFrom owner.name type.name ∨ schema.DerivesFrom type.name owner.name) ∧
      type.declares name = true := by
  simp only [declaringTypes, List.mem_filter, Bool.and_eq_true, Bool.or_eq_true,
    coherent.isSameOrDerived_iff_derivesFrom]

/-- Where a type above the owner declares a name, no other type does. -/
theorem declaringTypes_of_above (coherent : schema.Coherent) (known : owner ∈ schema.types)
    {declaring : ResourceType} {field : Field} (above : declaring ∈ schema.baseChain owner.name)
    (declared : Field.find? name declaring.fields = some field) :
    schema.declaringTypes owner name = [declaring] := by
  have isType := coherent.mem_of_mem_baseChain above
  refine List.perm_singleton.mp ((List.perm_ext_iff_of_nodup (coherent.types_nodup.filter _)
    (List.nodup_singleton declaring)).mpr fun type => ?_)
  rw [List.mem_singleton, List.mem_filter, Bool.and_eq_true, Bool.or_eq_true]
  constructor
  · rintro ⟨isKnown, isUpper | isLower, declares⟩
    · obtain ⟨other, declared'⟩ := Option.isSome_iff_exists.mp declares
      exact coherent.declared_unique known ((coherent.mem_baseChain_iff isKnown).mpr isUpper) above
        declared' declared
    · obtain ⟨other, declared'⟩ := Option.isSome_iff_exists.mp declares
      have isUpper := (coherent.mem_baseChain_iff isType).mp above
      have isAbove : declaring ∈ schema.baseChain type.name :=
        (coherent.mem_baseChain_iff isType).mpr (coherent.isSameOrDerived_trans isLower isUpper)
      exact coherent.declared_unique isKnown (coherent.baseChain_lineage isKnown).mem_self isAbove
        declared' declared
  · rintro rfl
    refine ⟨isType, .inl ((coherent.mem_baseChain_iff isType).mp above), ?_⟩
    rw [ResourceType.declares, declared]
    rfl

/-- Where no type above the owner declares a name, the types that do are those the search meets. -/
theorem declaringTypes_of_below (coherent : schema.Coherent) (known : owner ∈ schema.types)
    (undeclared : ∀ type ∈ schema.baseChain owner.name, type.declares name = false) :
    ((schema.derivedFields owner name).map ResolvedField.declaring).Perm
      (schema.declaringTypes owner name) := by
  have distinct := (List.nodup_cons.mp (coherent.self_descendants_nodup known)).2
  rw [derivedFields_declaring]
  refine (List.perm_ext_iff_of_nodup (distinct.filter _) (coherent.types_nodup.filter _)).mpr
    fun type => ?_
  rw [List.mem_filter, List.mem_filter, Bool.and_eq_true, Bool.or_eq_true]
  constructor
  · rintro ⟨member, declares⟩
    obtain ⟨isKnown, isLower⟩ := coherent.mem_descendants known member
    exact ⟨isKnown, .inr isLower, declares⟩
  · rintro ⟨isKnown, isUpper | isLower, declares⟩
    · have missing := undeclared type ((coherent.mem_baseChain_iff isKnown).mpr isUpper)
      exact absurd declares (by simp [missing])
    · rcases List.mem_cons.mp (coherent.mem_self_or_descendants isKnown known isLower) with
        rfl | member
      · have missing := undeclared type (coherent.baseChain_lineage known).mem_self
        exact absurd declares (by simp [missing])
      · exact ⟨member, declares⟩

/-! ## Resolving -/

theorem resolve_resolution (coherent : schema.Coherent) (known : owner ∈ schema.types)
    (name path : String) :
    Resolution schema owner name path (schema.declaringTypes owner name)
      (schema.resolve owner name path) := by
  unfold resolve
  cases inherited : schema.inheritedField? owner name with
  | some resolved =>
    obtain ⟨declaring, above, isDeclared⟩ := List.exists_of_findSome?_eq_some inherited
    obtain ⟨rfl, notDerived, declared⟩ := ofType?_eq_some isDeclared
    rw [coherent.declaringTypes_of_above known above declared]
    obtain ⟨field, declaring, viaDerived⟩ := resolved
    subst notDerived
    refine .only declared ⟨nofun, fun ⟨differs, lower⟩ => absurd ?_ differs⟩
    have isType := coherent.mem_of_mem_baseChain above
    have upper := (coherent.mem_baseChain_iff isType).mp above
    exact eq_of_name_eq coherent.namesDistinct isType known
      (coherent.isSameOrDerived_antisymm lower upper)
  | none =>
    have undeclared := inheritedField?_eq_none_iff.mp inherited
    have declaring := coherent.declaringTypes_of_below known undeclared
    cases matched : schema.derivedFields owner name with
    | nil =>
      rw [matched] at declaring
      rw [List.nil_perm.mp declaring]
      exact .unknown
    | cons first others =>
      have isMatch : first ∈ schema.derivedFields owner name := matched ▸ List.mem_cons_self
      cases others with
      | nil =>
        rw [matched] at declaring
        rw [← List.singleton_perm.mp declaring]
        obtain ⟨type, member, isDeclared⟩ := List.mem_filterMap.mp isMatch
        obtain ⟨rfl, viaDerived, declared⟩ := ofType?_eq_some isDeclared
        obtain ⟨field, type, marked⟩ := first
        subst viaDerived
        have derived := (coherent.mem_descendants known member).2
        refine .only declared ⟨fun _ => ⟨?_, derived⟩, fun _ => rfl⟩
        rintro rfl
        exact (List.nodup_cons.mp (coherent.self_descendants_nodup known)).1 member
      | cons second others =>
        rw [matched] at declaring
        refine .ambiguous ?_ ?_
        · rw [← declaring.length_eq]
          simp
        · simpa [Function.comp_def] using declaring.map ResourceType.name

/-! ## Reading what was found -/

theorem derived_or_derived (coherent : schema.Coherent) {candidate : String}
    {first second : ResourceType} (isFirst : first ∈ schema.types)
    (isSecond : second ∈ schema.types)
    (derived : schema.isSameOrDerived candidate first.name = true)
    (derived' : schema.isSameOrDerived candidate second.name = true) :
    schema.isSameOrDerived first.name second.name = true ∨
      schema.isSameOrDerived second.name first.name = true := by
  obtain ⟨below, isChain⟩ := coherent.baseChain_split isFirst derived
  obtain ⟨below', isChain'⟩ := coherent.baseChain_split isSecond derived'
  have ends : schema.baseChain first.name <:+ schema.baseChain candidate :=
    ⟨below, isChain.symm⟩
  have ends' : schema.baseChain second.name <:+ schema.baseChain candidate :=
    ⟨below', isChain'.symm⟩
  rw [← coherent.mem_baseChain_iff isSecond, ← coherent.mem_baseChain_iff isFirst]
  rcases List.suffix_or_suffix_of_suffix ends ends' with upper | lower
  · exact .inr (upper.subset (coherent.baseChain_lineage isFirst).mem_self)
  · exact .inl (lower.subset (coherent.baseChain_lineage isSecond).mem_self)

/-- Where one type alone declares a name, the types below the owner that have the field are those
that derive from it. -/
theorem field?_isSome_iff (coherent : schema.Coherent) (known : owner ∈ schema.types)
    {declaring : ResourceType} (only : schema.declaringTypes owner name = [declaring])
    {concrete : String} (derived : schema.isSameOrDerived concrete owner.name = true) :
    (schema.field? concrete name).isSome = true ↔
      schema.isSameOrDerived concrete declaring.name = true := by
  constructor
  · intro isField
    obtain ⟨field, found⟩ := Option.isSome_iff_exists.mp isField
    obtain ⟨type, member, declared⟩ := List.exists_of_findSome?_eq_some found
    have isType := coherent.mem_of_mem_baseChain member
    have isAbove := (coherent.mem_baseChain_iff isType).mp member
    have isDeclaring : type ∈ schema.declaringTypes owner name := by
      rw [declaringTypes, List.mem_filter, Bool.and_eq_true, Bool.or_eq_true,
        ResourceType.declares, declared]
      exact ⟨isType, coherent.derived_or_derived known isType derived isAbove, rfl⟩
    rw [only, List.mem_singleton] at isDeclaring
    exact isDeclaring ▸ isAbove
  · intro isBelow
    have isDeclaring : declaring ∈ schema.declaringTypes owner name :=
      only ▸ List.mem_singleton.mpr rfl
    rw [declaringTypes, List.mem_filter, Bool.and_eq_true] at isDeclaring
    obtain ⟨field, declared⟩ := Option.isSome_iff_exists.mp isDeclaring.2.2
    rw [coherent.field?_of_declared isDeclaring.1 declared isBelow]
    rfl

theorem resolution_of_resolve (coherent : schema.Coherent) (known : owner ∈ schema.types)
    {resolved : ResolvedField} (found : schema.resolve owner name path = .ok resolved) :
    schema.declaringTypes owner name = [resolved.declaring] ∧ resolved.field.name = name ∧
      (resolved.viaDerived = false →
        schema.isSameOrDerived owner.name resolved.declaring.name = true) := by
  have only : schema.declaringTypes owner name = [resolved.declaring] := by
    have resolution := coherent.resolve_resolution known name path
    rw [found] at resolution
    generalize schema.declaringTypes owner name = declaring at resolution
    cases resolution
    rfl
  obtain ⟨_, declared, above⟩ := coherent.fieldOn?_spec known (fieldOn?_of_resolve found)
  exact ⟨only, (Field.mem_and_name_of_find? declared).2, above⟩

/-- What is read of a field that was found is the member of an object whose type has the field, and
null for an object of another type. -/
theorem read_eq (coherent : schema.Coherent) (known : owner ∈ schema.types)
    {resolved : ResolvedField} (found : schema.resolve owner name path = .ok resolved)
    {entries : List (String × Json)} {concrete : String}
    (tagged : Keyed.lookup? typeTag entries = some (.string concrete))
    (derived : schema.isSameOrDerived concrete owner.name = true) :
    schema.read resolved (.object entries) =
      if (schema.field? concrete name).isSome then (Json.object entries).member name
      else .null := by
  obtain ⟨only, sameName, above⟩ := coherent.resolution_of_resolve known found
  have hasField := coherent.field?_isSome_iff known only derived
  unfold read
  rw [isInstance_object tagged, sameName]
  cases via : resolved.viaDerived with
  | false => simp [hasField.mpr (coherent.isSameOrDerived_trans derived (above via))]
  | true =>
    cases below : schema.isSameOrDerived concrete resolved.declaring.name with
    | true => simp [hasField.mpr below]
    | false =>
      have lacks : ¬(schema.field? concrete name).isSome = true := by
        rw [hasField, below]
        exact Bool.false_ne_true
      rw [if_neg lacks]
      rfl

end Coherent

/-- A name resolves to what the types that declare it say, and its field is read from every object
of the owner. The walks that look for it end without a bound: the one along the base types, and the
search among the derived types, which finds no more and no less than the walk over all levels. -/
theorem resolve_exact {types : List ResourceType} {schema : Schema} {owner : ResourceType}
    (built : build types = .ok schema) (known : owner ∈ schema.types) (name path : String) :
    WalksUp schema.types owner (schema.baseChain owner.name).tail ∧
      (∀ found, Searches schema name (schema.derivedTypes owner.name) found ↔
        found = schema.derivedFields owner name) ∧
      (∀ type, type ∈ schema.declaringTypes owner name ↔ type ∈ schema.types ∧
        (schema.DerivesFrom owner.name type.name ∨ schema.DerivesFrom type.name owner.name) ∧
        type.declares name = true) ∧
      Resolution schema owner name path (schema.declaringTypes owner name)
        (schema.resolve owner name path) ∧
      ∀ resolved, schema.resolve owner name path = .ok resolved →
        ∀ (evaluator : Evaluator) (current : Expr) (env : Env) (entries : List (String × Json))
          (concrete : String), evaluator.schema = schema →
          evaluator.eval current env = .ok (.object entries) →
          Keyed.lookup? typeTag entries = some (.string concrete) →
          schema.isSameOrDerived concrete owner.name = true →
          evaluator.eval (resolved.access current) env =
            .ok (if (schema.field? concrete name).isSome then (Json.object entries).member name
              else .null) := by
  have coherent := build_coherent built
  refine ⟨walksUp_of_lineage (coherent.baseChain_lineage known), coherent.searches_iff known,
    fun _ => coherent.mem_declaringTypes, coherent.resolve_resolution known name path, ?_⟩
  rintro resolved found evaluator current env entries concrete rfl evaluated tagged derived
  have declaringKnown := (coherent.fieldOn?_spec known (fieldOn?_of_resolve found)).1
  rw [← coherent.read_eq known found tagged derived]
  exact Evaluator.eval_access (Evaluator.isInstance_eq coherent _ declaringKnown) evaluated
    (.inr ⟨entries, rfl⟩)

/-- The minutes of a work are those of the only type below it that has them, and an audiobook has
them too. -/
theorem resolve_exact_works :
    ∃ schema owner resolved, build Works.declared = .ok schema ∧
      schema.type? "works" = some owner ∧ schema.field? "works" "minutes" = none ∧
      schema.resolve owner "minutes" "minutes" = .ok resolved ∧
      ∀ store sorter, (Evaluator.plain schema store sorter).eval (resolved.access (.parameter "work"))
        [("work", .object [(typeTag, .string "audiobooks"), ("minutes", .number (.ofSize 95))])] =
          .ok (.number (.ofSize 95)) := by
  obtain ⟨schema, built⟩ : ∃ schema, build Works.declared = .ok schema := ⟨_, rfl⟩
  obtain ⟨owner, declaring, known, unknown, derived, isField, only⟩ :
      ∃ owner declaring, schema.type? "works" = some owner ∧
        schema.field? "works" "minutes" = none ∧
        schema.isSameOrDerived "audiobooks" owner.name = true ∧
        (schema.field? "audiobooks" "minutes").isSome = true ∧
        schema.declaringTypes owner "minutes" = [declaring] := by
    cases built
    exact ⟨_, _, rfl, rfl, rfl, rfl, rfl⟩
  obtain ⟨_, _, _, resolution, reads⟩ := resolve_exact built (mem_of_type? known) "minutes" "minutes"
  obtain ⟨resolved, found⟩ : ∃ resolved,
      schema.resolve owner "minutes" "minutes" = .ok resolved := by
    rw [only] at resolution
    generalize schema.resolve owner "minutes" "minutes" = result at resolution
    cases resolution with
    | only => exact ⟨_, rfl⟩
    | ambiguous several => simp at several
  refine ⟨schema, owner, resolved, built, known, unknown, found, fun store sorter => ?_⟩
  have evaluated := reads resolved found (Evaluator.plain schema store sorter) (.parameter "work")
    [("work", _)] [(typeTag, .string "audiobooks"), ("minutes", .number (.ofSize 95))]
    "audiobooks" rfl (Evaluator.eval_parameter "work" _) rfl derived
  rw [if_pos isField] at evaluated
  exact evaluated

end Schema

end LayeredQuery
