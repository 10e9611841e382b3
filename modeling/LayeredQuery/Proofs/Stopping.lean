import LayeredQuery.Proofs.Filtering
import LayeredQuery.Proofs.Json.Ordered
import LayeredQuery.Proofs.Store.Parts

/-!
# Loading stops at the first fault

A document is loaded type by type in the order of the names, and each type resource by resource.
Either all of it is stored, or what comes before the first part that is refused and nothing else: a
resource is tagged to its depths before any of it is stored.
-/

set_option autoImplicit false

namespace LayeredQuery

namespace Engine

/-- An engine that has stored the resources of some parts with their tags, and nothing but them. The
resources of each type come in their order after those that it had. -/
def Grown (engine : Engine) (parts : List LoadPart) (next : Engine) : Prop :=
  ∃ rows, List.Forall₂ engine.schema.StoredAs parts rows ∧
    next = ⟨engine.schema, engine.store.extend rows⟩ ∧
    ∀ type, next.store.items type = engine.store.items type ++ Store.ofType type rows

theorem load_of_object {text : String} {entries : List (String × Json)} (engine : Engine)
    (isObject : Json.ofText? text = some (.object entries)) :
    engine.load text = engine.loadAll 0 (loadParts entries) := by
  rw [load, isObject, ← loadEntries_eq_loadAll]

theorem grown_of_accepted {engine : Engine} {parts : List LoadPart} (rest : List LoadPart)
    (accepted : ∀ part ∈ parts, engine.refusal? part = none) :
    ∃ next, engine.Grown parts next ∧ (∀ part, next.refusal? part = engine.refusal? part) ∧
      engine.loadAll 0 (parts ++ rest) = next.loadAll parts.length rest := by
  obtain ⟨rows, stored, loaded⟩ := loadAll_of_accepted rest 0 accepted
  rw [Nat.zero_add] at loaded
  exact ⟨_, ⟨rows, stored, rfl, fun type => Store.items_extend rows type _⟩,
    refusal?_store engine _, loaded⟩

/-- Loading any text into any engine. A text that is no object changes nothing. Of an object, the
entries are taken in the order of their names, each with the last value written for its name. When
no part of them is refused, all are stored and counted. Otherwise the error is that of the first
part that is refused, and what is stored are the parts before it. -/
theorem load_stops (engine : Engine) (text : String) :
    ((∀ entries, Json.ofText? text ≠ some (.object entries)) →
      engine.load text = ⟨engine, .error .notADocument⟩) ∧
    ∀ entries, Json.ofText? text = some (.object entries) →
      (∃ written, Json.writtenEntries? text = some written ∧ Keyed.Increasing entries ∧
        ∀ name, Keyed.lookup? name entries = Json.last? name written) ∧
      ((∀ part ∈ loadParts entries, engine.refusal? part = none) →
        (engine.load text).count = .ok (loadParts entries).length ∧
        engine.Grown (loadParts entries) (engine.load text).engine) ∧
      ((∃ part ∈ loadParts entries, (engine.refusal? part).isSome) →
        ∃ before bad after error, loadParts entries = before ++ bad :: after ∧
          (∀ part ∈ before, engine.refusal? part = none) ∧ engine.refusal? bad = some error ∧
          (engine.load text).count = .error error ∧
          engine.Grown before (engine.load text).engine) := by
  refine ⟨?_, fun entries isObject => ⟨Json.ofText?_eq_object_iff.mp isObject, ?_, ?_⟩⟩
  · intro notObject
    unfold load
    split
    · rename_i entries isObject
      exact absurd isObject (notObject entries)
    · rfl
  · intro accepted
    obtain ⟨next, grown, _, loaded⟩ := grown_of_accepted [] accepted
    rw [List.append_nil] at loaded
    rw [load_of_object engine isObject, loaded]
    exact ⟨rfl, grown⟩
  · rintro ⟨part, member, refused⟩
    obtain ⟨error, first⟩ : ∃ error, (loadParts entries).findSome? engine.refusal? = some error :=
      Option.isSome_iff_exists.mp (List.findSome?_isSome_iff.mpr ⟨part, member, refused⟩)
    obtain ⟨before, bad, after, isParts, isRefused, accepted⟩ :=
      List.findSome?_eq_some_iff.mp first
    obtain ⟨next, grown, sameRefusals, loaded⟩ := grown_of_accepted (bad :: after) accepted
    have ended : engine.load text = ⟨next, .error error⟩ := by
      rw [load_of_object engine isObject, isParts, loaded,
        loadAll_of_refused ((sameRefusals bad).trans isRefused)]
    rw [ended]
    exact ⟨before, bad, after, error, isParts, accepted, isRefused, rfl, grown⟩

end Engine

namespace Shelf

def donations : String :=
  "\x7b\"reviews\":[\x7b\"stars\":3\x7d,[]],\"books\":0,\"books\":[\x7b\"title\":\"Emma\"\x7d]\x7d"

end Shelf

theorem Engine.load_stops_donations :
    ∃ entries before bad after, Json.ofText? Shelf.donations = some (.object entries) ∧
      loadParts entries = before ++ bad :: after ∧
      (ofSchema Shelf.schema).refusal? bad = some (.invalidData (.notAnObject "reviews")) ∧
      (ofSchema Shelf.schema).Grown before ((ofSchema Shelf.schema).load Shelf.donations).engine ∧
      ((ofSchema Shelf.schema).load Shelf.donations).engine.store.types = ["books", "reviews"] := by
  have ended : ((ofSchema Shelf.schema).load Shelf.donations).count =
      .error (.invalidData (.notAnObject "reviews")) := by decide +kernel
  obtain ⟨unchanged, ofObject⟩ := load_stops (ofSchema Shelf.schema) Shelf.donations
  obtain ⟨entries, isObject⟩ :
      ∃ entries, Json.ofText? Shelf.donations = some (.object entries) := by
    by_contra noObject
    rw [unchanged (not_exists.mp noObject)] at ended
    cases ended
  obtain ⟨_, stored, stopped⟩ := ofObject entries isObject
  have refused : ∃ part ∈ loadParts entries,
      ((ofSchema Shelf.schema).refusal? part).isSome := by
    by_contra allAccepted
    obtain ⟨counted, _⟩ := stored fun part member =>
      Option.not_isSome_iff_eq_none.mp fun isRefused => allAccepted ⟨part, member, isRefused⟩
    cases ended.symm.trans counted
  obtain ⟨before, bad, after, error, isParts, _, isRefused, failed, grown⟩ := stopped refused
  cases ended.symm.trans failed
  exact ⟨entries, before, bad, after, isObject, isParts, isRefused, grown, by decide +kernel⟩

end LayeredQuery
