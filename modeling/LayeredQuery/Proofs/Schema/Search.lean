import LayeredQuery.Proofs.Meaning.Ends
import LayeredQuery.Proofs.Schema.Descendants

/-!
# Searching below a type

The search for a name below a type takes types from the front of a queue. A type that declares the
name is a match and is not looked below; the types derived from any other join the queue at its end.
No bound ends the search and nothing remembers the types it has met.

In a coherent schema it comes to its end all the same, because the chains of the types in the queue
grow and none is longer than the schema has types, and its matches are those of the walk over all
levels: no type below a match declares the name again, so what is not looked at has nothing to add.
-/

set_option autoImplicit false

namespace LayeredQuery

open ResourceType

namespace Schema

/-- A run of the search from a queue to its end, with the matches in the order they are met. -/
inductive Searches (schema : Schema) (name : String) :
    List ResourceType → List ResolvedField → Prop
  | done : Searches schema name [] []
  | found {type : ResourceType} {rest : List ResourceType} {field : Field}
      {others : List ResolvedField} (declared : schema.declaredField? type.name name = some field)
      (run : Searches schema name rest others) :
      Searches schema name (type :: rest) (⟨field, type, true⟩ :: others)
  | further {type : ResourceType} {rest : List ResourceType} {others : List ResolvedField}
      (undeclared : schema.declaredField? type.name name = none)
      (run : Searches schema name (rest ++ schema.derivedTypes type.name) others) :
      Searches schema name (type :: rest) others

variable {schema : Schema} {name : String}

/-- A queue has one run at most. -/
theorem Searches.unique {queue : List ResourceType} {first second : List ResolvedField}
    (run : Searches schema name queue first) (other : Searches schema name queue second) :
    first = second := by
  induction run generalizing second with
  | done =>
    cases other
    rfl
  | found declared _ ih =>
    cases other with
    | found declared' run' =>
      cases declared.symm.trans declared'
      rw [ih run']
    | further undeclared _ => cases declared.symm.trans undeclared
  | further undeclared _ ih =>
    cases other with
    | found declared _ => cases undeclared.symm.trans declared
    | further _ run' => exact ih run'

/-! ## One level -/

def matchesOn (name : String) (level : List ResourceType) : List ResolvedField :=
  level.filterMap (ResolvedField.ofType? name true)

def unsearched (schema : Schema) (name : String) (level : List ResourceType) : List ResourceType :=
  level.flatMap fun type =>
    if type.declares name then [] else schema.derivedTypes type.name

namespace Coherent

theorem declaredField?_of_mem (coherent : schema.Coherent) {type : ResourceType}
    (known : type ∈ schema.types) (name : String) :
    schema.declaredField? type.name name = Field.find? name type.fields := by
  rw [declaredField?, coherent.type?_of_mem known, Option.bind_some]

theorem searches_level (coherent : schema.Coherent) {level next : List ResourceType}
    (known : ∀ type ∈ level, type ∈ schema.types) {others : List ResolvedField}
    (run : Searches schema name (next ++ schema.unsearched name level) others) :
    Searches schema name (level ++ next) (matchesOn name level ++ others) := by
  induction level generalizing next with
  | nil => simpa [unsearched, matchesOn] using run
  | cons type rest ih =>
    obtain ⟨isType, restKnown⟩ := List.forall_mem_cons.mp known
    have lookedUp := coherent.declaredField?_of_mem isType name
    cases declared : Field.find? name type.fields with
    | none =>
      rw [declared] at lookedUp
      have isMatch : matchesOn name (type :: rest) = matchesOn name rest := by
        simp [matchesOn, ResolvedField.ofType?, declared]
      have isBelow : schema.unsearched name (type :: rest) =
          schema.derivedTypes type.name ++ schema.unsearched name rest := by
        simp [unsearched, ResourceType.declares, declared]
      rw [isMatch]
      have later : Searches schema name (rest ++ (next ++ schema.derivedTypes type.name))
          (matchesOn name rest ++ others) :=
        ih restKnown (by rw [List.append_assoc, ← isBelow]; exact run)
      rw [← List.append_assoc] at later
      exact .further lookedUp later
    | some field =>
      rw [declared] at lookedUp
      have isMatch : matchesOn name (type :: rest) =
          ⟨field, type, true⟩ :: matchesOn name rest := by
        simp [matchesOn, ResolvedField.ofType?, declared]
      have isBelow : schema.unsearched name (type :: rest) = schema.unsearched name rest := by
        simp [unsearched, ResourceType.declares, declared]
      rw [isMatch]
      refine .found lookedUp (ih restKnown ?_)
      rw [← isBelow]
      exact run

end Coherent

/-! ## What is left out -/

/-- Neither a type nor any type that derives from it declares a name. -/
def Barren (schema : Schema) (name : String) (top : ResourceType) : Prop :=
  ∀ type ∈ schema.types, schema.isSameOrDerived type.name top.name = true →
    Field.find? name type.fields = none

/-- A level without some of its types, below which there is nothing to find. -/
inductive Thinned (schema : Schema) (name : String) :
    List ResourceType → List ResourceType → Prop
  | nil : Thinned schema name [] []
  | keep {type : ResourceType} {kept level : List ResourceType}
      (rest : Thinned schema name kept level) :
      Thinned schema name (type :: kept) (type :: level)
  | drop {type : ResourceType} {kept level : List ResourceType}
      (barren : schema.Barren name type) (rest : Thinned schema name kept level) :
      Thinned schema name kept (type :: level)

namespace Thinned

variable {kept level : List ResourceType}

theorem refl : ∀ level : List ResourceType, Thinned schema name level level
  | [] => .nil
  | _ :: rest => .keep (refl rest)

theorem sublist (thinned : Thinned schema name kept level) : kept.Sublist level := by
  induction thinned with
  | nil => exact .slnil
  | keep _ ih => exact ih.cons_cons _
  | drop _ _ ih => exact ih.cons _

theorem of_barren : ∀ {level : List ResourceType},
    (∀ type ∈ level, schema.Barren name type) → Thinned schema name [] level
  | [], _ => .nil
  | _ :: _, barren =>
    .drop (barren _ List.mem_cons_self) (of_barren fun type member =>
      barren type (List.mem_cons_of_mem _ member))

theorem append {kept' level' : List ResourceType} (thinned : Thinned schema name kept level)
    (other : Thinned schema name kept' level') :
    Thinned schema name (kept ++ kept') (level ++ level') := by
  induction thinned with
  | nil => exact other
  | keep _ ih => exact .keep ih
  | drop barren _ ih => exact .drop barren ih

theorem matchesOn_eq (coherent : schema.Coherent) (known : ∀ type ∈ level, type ∈ schema.types)
    (thinned : Thinned schema name kept level) : matchesOn name kept = matchesOn name level := by
  induction thinned with
  | nil => rfl
  | @keep type kept level _ ih =>
    have same := ih (List.forall_mem_cons.mp known).2
    unfold matchesOn at same ⊢
    rw [List.filterMap_cons, List.filterMap_cons, same]
  | @drop type kept level barren _ ih =>
    obtain ⟨isType, restKnown⟩ := List.forall_mem_cons.mp known
    have nothing := barren type isType (coherent.isSameOrDerived_refl isType)
    have same := ih restKnown
    unfold matchesOn at same ⊢
    rw [same, List.filterMap_cons_none]
    rw [ResolvedField.ofType?, nothing, Option.map_none]

end Thinned

namespace Coherent

theorem barren_of_derived (coherent : schema.Coherent) {type top : ResourceType}
    (known : top ∈ schema.types) (barren : schema.Barren name top)
    (derived : type ∈ schema.derivedTypes top.name) : schema.Barren name type := by
  intro other isOther below
  have above := (coherent.isSameOrDerived_of_mem_derivedTypes known derived).2
  exact barren other isOther (coherent.isSameOrDerived_trans below above)

/-- Of the types on the chain of a type, one at most declares a name. -/
theorem declared_unique (coherent : schema.Coherent) {type first second : ResourceType}
    {field other : Field} (known : type ∈ schema.types)
    (isFirst : first ∈ schema.baseChain type.name) (isSecond : second ∈ schema.baseChain type.name)
    (declared : Field.find? name first.fields = some field)
    (declared' : Field.find? name second.fields = some other) : first = second := by
  have lineage := coherent.baseChain_lineage known
  generalize schema.baseChain type.name = chain at lineage isFirst isSecond
  induction lineage with
  | root _ => rw [List.mem_singleton.mp isFirst, List.mem_singleton.mp isSecond]
  | @step type parent base above derives found rest ih =>
    have apart {upper : ResourceType} {own its : Field} (isAbove : upper ∈ above)
        (isOwn : Field.find? name type.fields = some own) :
        Field.find? name upper.fields ≠ some its := by
      obtain ⟨isField, sameName⟩ := Field.mem_and_name_of_find? isOwn
      have once := coherent.declaredOnce type known above (.step derives found rest) upper isAbove
        own isField
      rw [sameName] at once
      rw [once]
      exact nofun
    rcases List.mem_cons.mp isFirst with rfl | firstAbove
    · rcases List.mem_cons.mp isSecond with rfl | secondAbove
      · rfl
      · exact absurd declared' (apart secondAbove declared)
    · rcases List.mem_cons.mp isSecond with rfl | secondAbove
      · exact absurd declared (apart firstAbove declared')
      · exact ih (mem_of_find? found) firstAbove secondAbove

/-- Below a type that declares a name there is nothing more to find. -/
theorem barren_below_match (coherent : schema.Coherent) {type top : ResourceType}
    (known : top ∈ schema.types) (isMatch : top.declares name = true)
    (derived : type ∈ schema.derivedTypes top.name) : schema.Barren name type := by
  intro other isOther below
  obtain ⟨field, declared⟩ := Option.isSome_iff_exists.mp isMatch
  obtain ⟨isType, above⟩ := coherent.isSameOrDerived_of_mem_derivedTypes known derived
  cases again : Field.find? name other.fields with
  | none => rfl
  | some second =>
    have isTop : top ∈ schema.baseChain other.name :=
      (coherent.mem_baseChain_iff known).mpr (coherent.isSameOrDerived_trans below above)
    have same := coherent.declared_unique isOther
      (coherent.baseChain_lineage isOther).mem_self isTop again declared
    rw [same] at below
    have longer := coherent.baseChain_length_of_derived known derived
    obtain ⟨parts, isChain⟩ := coherent.baseChain_split isType below
    rw [isChain, List.length_append] at longer
    omega

theorem unsearched_thinned (coherent : schema.Coherent) {kept level : List ResourceType}
    (known : ∀ type ∈ level, type ∈ schema.types) (thinned : Thinned schema name kept level) :
    Thinned schema name (schema.unsearched name kept)
      (level.flatMap fun type => schema.derivedTypes type.name) := by
  induction thinned with
  | nil => exact .nil
  | @keep type kept level _ ih =>
    obtain ⟨isType, restKnown⟩ := List.forall_mem_cons.mp known
    rw [unsearched, List.flatMap_cons, List.flatMap_cons]
    refine Thinned.append ?_ (ih restKnown)
    cases isMatch : type.declares name with
    | false => exact .refl _
    | true => exact .of_barren fun _ => coherent.barren_below_match isType isMatch
  | @drop type kept level barren _ ih =>
    obtain ⟨isType, restKnown⟩ := List.forall_mem_cons.mp known
    rw [List.flatMap_cons]
    exact Thinned.append (.of_barren fun _ => coherent.barren_of_derived isType barren)
      (ih restKnown)

/-! ## All levels -/

/-- The chains of the types on a level are no longer than the schema has types, so levels come to
an end. -/
theorem derived_eq_nil_of_long (coherent : schema.Coherent) {length : Nat}
    {level : List ResourceType} (isLevel : Level schema length level)
    (long : schema.types.length + 1 ≤ length) :
    (level.flatMap fun type => schema.derivedTypes type.name) = [] := by
  have next := isLevel.next coherent
  refine List.eq_nil_iff_forall_not_mem.mpr fun type member => ?_
  obtain ⟨chain, lineage, short⟩ := coherent.rooted type (next.known type member)
  have isLong := next.long type member
  rw [coherent.baseChain_eq (next.known type member) lineage] at isLong
  omega

theorem searches_thinned (coherent : schema.Coherent) {kept level below : List ResourceType}
    (known : ∀ type ∈ level, type ∈ schema.types) (thinned : Thinned schema name kept level)
    (run : Searches schema name (schema.unsearched name kept) (matchesOn name below)) :
    Searches schema name kept (matchesOn name (level ++ below)) := by
  have keptKnown : ∀ type ∈ kept, type ∈ schema.types :=
    fun type member => known type (thinned.sublist.subset member)
  have found : matchesOn name (level ++ below) = matchesOn name kept ++ matchesOn name below := by
    rw [thinned.matchesOn_eq coherent known]
    exact List.filterMap_append
  have searched : Searches schema name (kept ++ []) (matchesOn name kept ++ matchesOn name below) :=
    coherent.searches_level keptKnown run
  rw [List.append_nil] at searched
  exact found ▸ searched

theorem searches_levels (coherent : schema.Coherent) (bound : Nat) {length : Nat}
    {kept level : List ResourceType} (isLevel : Level schema length level)
    (enough : schema.types.length + 1 ≤ length + bound)
    (thinned : Thinned schema name kept level) :
    Searches schema name kept (matchesOn name (level ++ schema.levelsBelow bound level)) := by
  induction bound generalizing length kept level with
  | zero =>
    have next := coherent.unsearched_thinned isLevel.known thinned
    rw [coherent.derived_eq_nil_of_long isLevel enough] at next
    have run : Searches schema name (schema.unsearched name kept) (matchesOn name []) := by
      rw [List.sublist_nil.mp next.sublist]
      exact .done
    exact coherent.searches_thinned isLevel.known thinned run
  | succ bound ih =>
    have next := coherent.unsearched_thinned isLevel.known thinned
    rw [levelsBelow_succ]
    exact coherent.searches_thinned isLevel.known thinned
      (ih (isLevel.next coherent) (by omega) next)

/-- The search below a type comes to its end, and finds what the walk over all levels finds. -/
theorem searches_iff (coherent : schema.Coherent) {owner : ResourceType}
    (known : owner ∈ schema.types) (found : List ResolvedField) :
    Searches schema name (schema.derivedTypes owner.name) found ↔
      found = schema.derivedFields owner name := by
  obtain ⟨fewer, count⟩ : ∃ fewer, schema.types.length = fewer + 1 :=
    Nat.exists_eq_add_one.mpr (List.length_pos_of_mem known)
  have start : Level schema (schema.baseChain owner.name).length [owner] :=
    ⟨List.nodup_singleton owner, List.forall_mem_singleton.mpr known,
      List.forall_mem_singleton.mpr rfl⟩
  have next := start.next coherent
  rw [List.flatMap_singleton] at next
  have isLong := List.length_pos_of_mem (coherent.baseChain_lineage known).mem_self
  have all : schema.derivedFields owner name = matchesOn name (schema.derivedTypes owner.name ++
      schema.levelsBelow fewer (schema.derivedTypes owner.name)) := by
    rw [derivedFields, descendants, count, levelsBelow_succ, List.flatMap_singleton]
    rfl
  have run : Searches schema name (schema.derivedTypes owner.name)
      (schema.derivedFields owner name) := by
    rw [all]
    exact coherent.searches_levels fewer next (by omega) (.refl _)
  exact ⟨fun other => other.unique run, fun same => same ▸ run⟩

end Coherent

end Schema

end LayeredQuery
