import LayeredQuery.Proofs.Compiler.Tracing.Layer
import LayeredQuery.Proofs.Filtering

/-!
# Errors about unknown fields lead to the culprit

Wherever in a request a name is unknown, in an include tree, a chain or a projection, behind any
number of conditions and nested layers, the path of the error leads there from the type of the
request, along one relationship after the other. The type that the error names is where the path
leads, and the last name of the path is the one that is unknown there.
-/

set_option autoImplicit false

namespace LayeredQuery

namespace Schema.Coherent

variable {schema : Schema} {owner : ResourceType} {name : String}

theorem field?_eq_none (coherent : schema.Coherent) (known : owner ∈ schema.types)
    (undeclared : schema.declaringTypes owner name = []) {other : ResourceType}
    (related : schema.DerivesFrom owner.name other.name ∨
      schema.DerivesFrom other.name owner.name) : schema.field? other.name name = none := by
  rw [field?, List.findSome?_eq_none_iff]
  intro declaring member
  cases declared : Field.find? name declaring.fields with
  | none => rfl
  | some field =>
    have isKnown := coherent.mem_of_mem_baseChain member
    have above := (coherent.mem_baseChain_iff isKnown).mp member
    have related' : schema.DerivesFrom owner.name declaring.name ∨
        schema.DerivesFrom declaring.name owner.name := by
      simp only [← coherent.isSameOrDerived_iff_derivesFrom] at related ⊢
      rcases related with upper | lower
      · exact .inl (coherent.isSameOrDerived_trans upper above)
      · exact coherent.derived_or_derived known isKnown lower above
    have isDeclaring : declaring ∈ schema.declaringTypes owner name :=
      coherent.mem_declaringTypes.mpr
        ⟨isKnown, related', by rw [ResourceType.declares, declared]; rfl⟩
    rw [undeclared] at isDeclaring
    cases isDeclaring

theorem resolve_eq_unknown (coherent : schema.Coherent) (known : owner ∈ schema.types)
    (undeclared : schema.declaringTypes owner name = []) (path : String) :
    schema.resolve owner name path = .error (.unknownField owner.name path) := by
  have resolution := coherent.resolve_resolution known name path
  rw [undeclared] at resolution
  generalize schema.resolve owner name path = result at resolution
  cases resolution with
  | unknown => rfl
  | ambiguous several _ => cases several

theorem isSegment_of_follow? (coherent : schema.Coherent) {names : List String}
    {target : ResourceType} (known : owner ∈ schema.types)
    (leads : schema.follow? names owner = some target) :
    ∀ name ∈ names, isSegment name = true := by
  induction names generalizing owner with
  | nil => exact fun name member => by cases member
  | cons name rest ih =>
    obtain ⟨resolved, middle, found, isTarget, further⟩ := follow?_cons_iff.mp leads
    exact List.forall_mem_cons.mpr
      ⟨isSegment_of_isPublicName (coherent.isPublicName_of_fieldOn? known found),
        ih (mem_of_targetOf? isTarget) further⟩

end Schema.Coherent

/-- When a traceable request fails for an unknown field, the pieces of the path of the error are
names that lead, one relationship after the other, from the type of the request to the type of the
error, and after them a name that does not resolve there: neither that type nor any type above or
below it has such a field. -/
theorem unknownField_leads {types : List ResourceType} {schema : Schema} {settings : Settings}
    {layer : Layer} {type path : String} (built : Schema.build types = .ok schema)
    (traceable : layer.isTraceable = true)
    (failed : Compiler.compile ⟨schema, settings⟩ layer = .error (.unknownField type path)) :
    ∃ top names name owner, schema.type? layer.type = some top ∧
      Text.pieces '.' path.toList = (names ++ [name]).map String.toList ∧
      schema.follow? names top = some owner ∧ schema.type? type = some owner ∧
      schema.resolve owner name path = .error (.unknownField type path) ∧
      ∀ other ∈ schema.types,
        schema.DerivesFrom owner.name other.name ∨ schema.DerivesFrom other.name owner.name →
        schema.field? other.name name = none := by
  have coherent : (Compiler.mk schema settings).schema.Coherent := Schema.build_coherent built
  have traced := Compiler.compileIn_traced coherent (Schema.build_identitiesPublic built) traceable
    Context.start _ _ (Prod.ext failed rfl)
  rcases traced with other | ⟨top, isTop, names, name, owner, rfl, segment, leads, rfl, undeclared⟩
  · cases other
  · have topKnown := Schema.mem_of_type? isTop
    have known := Schema.mem_of_follow? topKnown leads
    have segments := coherent.isSegment_of_follow? topKnown leads
    refine ⟨top, names, name, owner, isTop, ?_, leads, coherent.type?_of_mem known,
      coherent.resolve_eq_unknown known undeclared _,
      fun other _ related => coherent.field?_eq_none known undeclared related⟩
    refine Text.pieces_joined (by decide) (by simp) fun part member => ?_
    refine (isSegment_iff.mp ?_).2
    rcases List.mem_append.mp member with before | last
    · exact segments part before
    · exact List.mem_singleton.mp last ▸ segment

namespace Shelf

def marked : Layer :=
  ⟨"books", none, none, none, none, some [.nested "reviews"
    ⟨"reviews", none, some (.compare (.target (.field ⟨["mark"]⟩)) .equal (.constant (.int 3))),
      none, none, none⟩]⟩

end Shelf

theorem unknownField_leads_shelf :
    Shelf.marked.isTraceable = true ∧
      Compiler.compile ⟨Shelf.schema, ⟨32, false⟩⟩ Shelf.marked =
        .error (.unknownField "reviews" "reviews.mark") ∧
      ∃ books names name reviews, Shelf.schema.type? "books" = some books ∧
        Text.pieces '.' "reviews.mark".toList = (names ++ [name]).map String.toList ∧
        Shelf.schema.follow? names books = some reviews ∧
        Shelf.schema.type? "reviews" = some reviews ∧
        Shelf.schema.field? "reviews" name = none := by
  have built : Schema.build Shelf.declared = .ok Shelf.schema := rfl
  have traceable : Shelf.marked.isTraceable = true := by decide +kernel
  have failed : Compiler.compile ⟨Shelf.schema, ⟨32, false⟩⟩ Shelf.marked =
      .error (.unknownField "reviews" "reviews.mark") := eq_error_of_map (by decide +kernel)
  obtain ⟨books, names, name, reviews, isTop, pieces, leads, isType, _, unknown⟩ :=
    unknownField_leads built traceable failed
  refine ⟨traceable, failed, books, names, name, reviews, isTop, pieces, leads, isType, ?_⟩
  have named := Schema.name_of_type? isType
  rw [← named]
  refine unknown reviews (Schema.mem_of_type? isType) (.inl (.refl ?_))
  rw [named, isType]
  rfl

end LayeredQuery
