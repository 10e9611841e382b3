import LayeredQuery.Proofs.Compiler.Failures
import LayeredQuery.Proofs.Request.Traceable
import LayeredQuery.Proofs.Resolution

/-!
# Traced errors

An error about an unknown field is traced when its path leads to the fault: the names before the
last one lead along relationships to the type that the error names, and there the last one is
unknown. An error that arose behind a relationship is traced from there, and from the owner of the
relationship once the path of the relationship is put before its own.
-/

set_option autoImplicit false

namespace LayeredQuery

/-- Whatever a path tells of an unknown field is so. Other errors are always traced. -/
def Schema.Traced (schema : Schema) (top : ResourceType) : CompileError → Prop
  | .unknownField type path =>
    ∃ names name owner, path = Text.joined "." (names ++ [name]) ∧ isSegment name = true ∧
      schema.follow? names top = some owner ∧ owner.name = type ∧
      schema.declaringTypes owner name = []
  | _ => True

namespace CompileError

def isUnknownField : CompileError → Bool
  | .unknownField _ _ => true
  | _ => false

theorem nested_joined {names others : List String} (named : names ≠ [])
    (letters : Text.joined "." others ≠ "") :
    nested (Text.joined "." names) (Text.joined "." others) =
      Text.joined "." (names ++ others) := by
  have someOthers : others ≠ [] := by
    rintro rfl
    exact letters (Text.joined_nil ".")
  rw [nested, if_neg (by simpa using letters), Text.joined_append "." named someOthers]

end CompileError

namespace Schema

variable {schema : Schema} {top target : ResourceType} {error : CompileError}

theorem Traced.of_other (other : error.isUnknownField = false) : schema.Traced top error := by
  cases error with
  | unknownField _ _ => cases other
  | _ => trivial

theorem Traced.of_resolve (coherent : schema.Coherent) (known : top ∈ schema.types)
    {names : List String} {owner : ResourceType} {name : String} (segment : isSegment name = true)
    (leads : schema.follow? names top = some owner)
    (refused : schema.resolve owner name (Text.joined "." (names ++ [name])) = .error error) :
    schema.Traced top error := by
  have resolution := coherent.resolve_resolution (mem_of_follow? known leads) name
    (Text.joined "." (names ++ [name]))
  rw [refused] at resolution
  generalize isDeclaring : schema.declaringTypes owner name = declaring at resolution
  cases resolution with
  | unknown => exact ⟨names, name, owner, rfl, segment, leads, rfl, isDeclaring⟩
  | ambiguous _ _ => trivial

theorem Traced.of_chainFault (coherent : schema.Coherent) (known : top ∈ schema.types)
    {limit : Nat} {chain : Chain} (traceable : chain.isTraceable = true)
    (fault : schema.ChainFault limit top chain.names error) : schema.Traced top error := by
  cases fault with
  | unresolved parts leads refused =>
    refine .of_resolve coherent known ?_ leads refused
    rw [Chain.isTraceable, parts, List.all_append, List.all_cons, Bool.and_eq_true,
      Bool.and_eq_true] at traceable
    exact traceable.2.1
  | _ => trivial

/-- What is traced from the target of a relationship is traced from its owner. -/
theorem Traced.within {names : List String} (named : names ≠ [])
    (leads : schema.follow? names top = some target) (traced : schema.Traced target error) :
    schema.Traced top (error.within (Text.joined "." names)) := by
  cases error with
  | unknownField type path =>
    obtain ⟨inner, name, owner, rfl, segment, further, isOwner, unknown⟩ := traced
    refine ⟨names ++ inner, name, owner, ?_, segment, ?_, isOwner, unknown⟩
    · rw [CompileError.nested_joined named (joined_snoc_ne_empty segment), List.append_assoc]
    · rw [follow?_append, leads, Option.bind_some, further]
  | _ => trivial

theorem Traced.withReason {reason : Unsupported} (traced : schema.Traced top error) :
    schema.Traced top (error.withReason reason) := by
  cases error with
  | unsupported _ _ => trivial
  | _ => exact traced

end Schema

namespace Compiler

variable {compiler : Compiler}

theorem type_other {name : String} {error : CompileError}
    (failed : compiler.type name = .error error) : error.isUnknownField = false := by
  unfold Compiler.type at failed
  split at failed <;> cases failed
  rfl

theorem targetOf_other {resolved : ResolvedField} {path : String} {error : CompileError}
    (failed : compiler.targetOf resolved path = .error error) : error.isUnknownField = false := by
  unfold targetOf at failed
  split at failed
  · cases failed
    rfl
  · exact type_other failed

end Compiler

end LayeredQuery
