import LayeredQuery.Evaluation.Run
import LayeredQuery.Proofs.Compiler.Yields
import LayeredQuery.Proofs.Store.Resource

/-!
# Ends of chains

What a chain of names means for a value, without expressions and range variables: each name is
read from the value that the names before it lead to. A field of a derived type is null for what
is not of that type, members of null are null, and a relationship to many on the way leads on from
each of its resources. So a chain has any number of ends, and exactly one when it crosses
relationships to one only.
-/

set_option autoImplicit false

namespace LayeredQuery

namespace Json

def member (name : String) : Json → Json
  | .object entries => (Keyed.lookup? name entries).getD .null
  | _ => .null

/-- The resources that a relationship to many holds; null holds none. -/
def related : Json → List Json
  | .array items => items
  | _ => []

end Json

namespace Schema

def isInstance (schema : Schema) (type : String) (value : Json) : Bool :=
  match Evaluator.tagged? value with
  | none => false
  | some concrete => schema.isSameOrDerived concrete type

/-- The field a name stands for on a type: one of its own or of a base type, or else the only one
among its derived types. -/
def fieldOn? (schema : Schema) (owner : ResourceType) (name : String) : Option ResolvedField :=
  match schema.inheritedField? owner name with
  | some resolved => some resolved
  | none =>
    match schema.derivedFields owner name with
    | [resolved] => some resolved
    | _ => none

/-- The value of a field; one of a derived type is null for what is not of that type. -/
def read (schema : Schema) (resolved : ResolvedField) (value : Json) : Json :=
  if resolved.viaDerived && !schema.isInstance resolved.declaring.name value then .null
  else value.member resolved.field.name

def targetOf? (schema : Schema) (resolved : ResolvedField) : Option ResourceType :=
  resolved.kind.target?.bind schema.type?

/-- The field at the end of a chain, with each value the chain leads to. -/
def ends (schema : Schema) : List String → ResourceType → Json → List (ResolvedField × Json)
  | [], _, _ => []
  | [last], owner, value =>
    match schema.fieldOn? owner last with
    | none => []
    | some resolved => [(resolved, schema.read resolved value)]
  | name :: next :: rest, owner, value =>
    match schema.fieldOn? owner name with
    | none => []
    | some resolved =>
      match schema.targetOf? resolved with
      | none => []
      | some target =>
        if resolved.kind.isToMany then
          (schema.read resolved value).related.flatMap (ends schema (next :: rest) target)
        else ends schema (next :: rest) target (schema.read resolved value)

variable {schema : Schema}

/-! ## Resolved fields -/

theorem fieldOn?_of_resolve {owner : ResourceType} {name path : String} {resolved : ResolvedField}
    (found : schema.resolve owner name path = .ok resolved) :
    schema.fieldOn? owner name = some resolved := by
  unfold resolve at found
  unfold fieldOn?
  cases inherited : schema.inheritedField? owner name with
  | some own =>
    simp only [inherited, Except.ok.injEq] at found
    simp only [found]
  | none =>
    simp only [inherited] at found
    split at found
    · cases found
    · rename_i only isOnly
      cases found
      simp only [isOnly]
    · cases found

theorem ofType?_eq_some {name : String} {viaDerived : Bool} {type : ResourceType}
    {resolved : ResolvedField}
    (found : ResolvedField.ofType? name viaDerived type = some resolved) :
    resolved.declaring = type ∧ resolved.viaDerived = viaDerived ∧
      Field.find? name type.fields = some resolved.field := by
  unfold ResolvedField.ofType? at found
  obtain ⟨field, declared, rfl⟩ := Option.map_eq_some_iff.mp found
  exact ⟨rfl, rfl, declared⟩

theorem Coherent.fieldOn?_spec (coherent : schema.Coherent) {owner : ResourceType} {name : String}
    {resolved : ResolvedField} (known : owner ∈ schema.types)
    (found : schema.fieldOn? owner name = some resolved) :
    resolved.declaring ∈ schema.types ∧
      Field.find? name resolved.declaring.fields = some resolved.field ∧
      (resolved.viaDerived = false →
        schema.isSameOrDerived owner.name resolved.declaring.name = true) := by
  unfold fieldOn? at found
  split at found
  · rename_i inherited isInherited
    cases found
    obtain ⟨declaring, member, isDeclared⟩ := List.exists_of_findSome?_eq_some isInherited
    obtain ⟨rfl, _, declared⟩ := ofType?_eq_some isDeclared
    exact ⟨coherent.mem_of_mem_baseChain member, declared,
      fun _ => isSameOrDerived_iff.mpr ⟨_, member, rfl⟩⟩
  · split at found
    · rename_i only isOnly
      cases found
      have isMember : resolved ∈ schema.derivedFields owner name := by
        rw [isOnly]
        exact List.mem_singleton.mpr rfl
      obtain ⟨declaring, member, isDeclared⟩ := List.mem_filterMap.mp isMember
      obtain ⟨rfl, viaDerived, declared⟩ := ofType?_eq_some isDeclared
      refine ⟨(coherent.mem_descendants known member).1, declared, ?_⟩
      intro notDerived
      rw [viaDerived] at notDerived
      cases notDerived
    · cases found

theorem Coherent.isPublicName_of_fieldOn? (coherent : schema.Coherent) {owner : ResourceType}
    {name : String} {resolved : ResolvedField} (known : owner ∈ schema.types)
    (found : schema.fieldOn? owner name = some resolved) : isPublicName name = true := by
  obtain ⟨declaringKnown, declared, _⟩ := coherent.fieldOn?_spec known found
  obtain ⟨isField, sameName⟩ := Field.mem_and_name_of_find? declared
  rw [← sameName]
  exact coherent.fieldsPublic _ declaringKnown _ isField

/-! ## Reading -/

theorem isInstance_object {type concrete : String} {entries : List (String × Json)}
    (tagged : Keyed.lookup? typeTag entries = some (.string concrete)) :
    schema.isInstance type (.object entries) = schema.isSameOrDerived concrete type := by
  simp only [isInstance, Evaluator.tagged?, tagged]

/-- A field read from a resource holds what its kind asks for. -/
theorem Coherent.holds_read (coherent : schema.Coherent) {test : AttributeTest}
    (nullPasses : ∀ type, test type .null = true) {owner : ResourceType} {name : String}
    {resolved : ResolvedField} {value : Json} (known : owner ∈ schema.types)
    (found : schema.fieldOn? owner name = some resolved)
    (resource : schema.Resource test owner.name value) :
    schema.Holds test resolved.kind (schema.read resolved value) := by
  obtain ⟨declaringKnown, declared, above⟩ := coherent.fieldOn?_spec known found
  unfold read
  split
  · exact holds_null nullPasses _
  · rename_i reached
    rcases resource.cases_value with rfl | ⟨entries, concrete, rfl, tagged, derived, inner⟩
    · exact holds_null nullPasses _
    · have below : schema.isSameOrDerived concrete resolved.declaring.name = true := by
        cases via : resolved.viaDerived with
        | false => exact coherent.isSameOrDerived_trans derived (above via)
        | true => simpa [via, isInstance_object tagged] using reached
      have isField := coherent.field?_of_declared declaringKnown declared below
      have sameName := (Field.mem_and_name_of_find? declared).2
      rw [Json.member]
      cases present : Keyed.lookup? resolved.field.name entries with
      | none => exact holds_null nullPasses _
      | some held =>
        refine inner _ (Keyed.mem_of_lookup? present) resolved.field ?_
        rw [sameName]
        exact isField

end Schema

end LayeredQuery
