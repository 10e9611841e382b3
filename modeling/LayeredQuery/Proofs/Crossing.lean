import LayeredQuery.Proofs.Compiler.Failures
import LayeredQuery.Proofs.Filtering
import LayeredQuery.Proofs.Resolution

/-!
# What stands in the way of a single value

A sort key and a target of a comparison with another target need a single value. What stands in the
way of it is a relationship to many before the end of the chain, or a name that several derived
types declare. The lookup tells the two apart, but the clauses give both the one reason of their
own, so their error has the right path and need not have the right cause.
-/

set_option autoImplicit false

namespace LayeredQuery

/-- What stands in the way of a single value for the names of a chain, and the path at which it is
noticed: the whole chain for a relationship to many, and an ambiguous name itself. -/
inductive Schema.Obstructed (schema : Schema) (owner : ResourceType) (names : List String) :
    String → Prop
  | crossing (crosses : schema.crossesToMany names owner = true) :
      Obstructed schema owner names (Text.joined "." names)
  | ambiguous {before after : List String} {name : String} {between : ResourceType}
      (parts : names = before ++ name :: after)
      (leads : schema.follow? before owner = some between)
      (several : 2 ≤ (schema.declaringTypes between name).length) :
      Obstructed schema owner names (Text.joined "." (before ++ [name]))

/-- Where an error is about an unsupported query, its path and reason are as stated. -/
def CompileError.IfUnsupported (holds : String → Unsupported → Prop) : CompileError → Prop
  | .unsupported path reason => holds path reason
  | _ => True

theorem CompileError.IfUnsupported.imp {holds holds' : String → Unsupported → Prop}
    (weaker : ∀ path reason, holds path reason → holds' path reason) {error : CompileError}
    (stated : error.IfUnsupported holds) : error.IfUnsupported holds' := by
  cases error with
  | unsupported path reason => exact weaker path reason stated
  | _ => trivial

namespace Compiler

open Compile CompileError

variable {compiler : Compiler} {owner : ResourceType}

/-- A fault of a chain is about an unsupported query only where the chain is obstructed. -/
theorem obstructed_of_chainFault (coherent : compiler.schema.Coherent)
    (known : owner ∈ compiler.schema.types) {limit : Nat} {names : List String} {path : String}
    {reason : Unsupported}
    (fault : compiler.schema.ChainFault limit owner names (.unsupported path reason)) :
    compiler.schema.Obstructed owner names path := by
  cases fault with
  | crossing parts more leads found many =>
    exact .crossing (Schema.crossesToMany_iff.mpr ⟨_, _, _, _, _, parts, more, leads, found, many⟩)
  | @unresolved before after name between _ parts leads refused =>
    have resolution := coherent.resolve_resolution (Schema.mem_of_follow? known leads) name
      (Text.joined "." (before ++ [name]))
    rw [refused] at resolution
    generalize isDeclaring : compiler.schema.declaringTypes between name = declaring at resolution
    cases resolution with
    | ambiguous several _ =>
      rw [← isDeclaring] at several
      exact .ambiguous parts leads several

theorem singleValue_blames (coherent : compiler.schema.Coherent)
    (known : owner ∈ compiler.schema.types) (chain : Chain) (reason : Unsupported)
    (current : Expr) :
    (Compile.mapError (.withReason reason) (compiler.singleValue chain current owner)).FailsOnly
      (IfUnsupported fun path found =>
        found = reason ∧ compiler.schema.Obstructed owner chain.names path) := by
  refine .mapError ((singleValue_failsOnly coherent known chain current).weaken
    fun error fault => ?_)
  cases error with
  | unsupported path found => exact ⟨rfl, obstructed_of_chainFault coherent known fault⟩
  | _ => trivial

/-! ## Sort keys -/

/-- Why a sort key is not supported: its chain is obstructed, or it is a field and its chain ends
with a relationship to many. -/
inductive SortRefused (schema : Schema) (owner : ResourceType) (target : Target) :
    String → Unsupported → Prop
  | across {path : String} (obstructed : schema.Obstructed owner target.chain.names path) :
      SortRefused schema owner target path .sortAcrossToMany
  | on {resolved : ResolvedField} (isField : target = .field target.chain)
      (arrives : schema.ArrivesAt owner target.chain.names resolved)
      (many : resolved.kind.isToMany = true) :
      SortRefused schema owner target target.chain.text .sortOnToMany

theorem sortValue_refused (coherent : compiler.schema.Coherent)
    (known : owner ∈ compiler.schema.types) (target : Target) (current : Expr) :
    (compiler.sortValue target current owner).FailsOnly
      (IfUnsupported (SortRefused compiler.schema owner target)) := by
  refine sortValue_failsOnly (fun _ _ _ => trivial) ?_ fun resolved isField arrives many =>
    .on isField arrives many
  refine (singleValue_blames coherent known target.chain _ current).weaken
    fun _ => IfUnsupported.imp ?_
  rintro path _ ⟨rfl, obstructed⟩
  exact .across obstructed

theorem sortClause_refused (coherent : compiler.schema.Coherent)
    (known : owner ∈ compiler.schema.types) (source : Query) (sorting : Sorting) (v : Variable) :
    (compiler.sortClause source sorting v owner).FailsOnly
      (IfUnsupported fun path reason =>
        ∃ key ∈ sorting.keys, SortRefused compiler.schema owner key.target path reason) := by
  refine sortClause_failsOnly trivial fun key isKey => ?_
  refine (sortValue_refused coherent known key.target v.accessor).weaken
    fun _ => IfUnsupported.imp fun path reason refused => ?_
  exact ⟨key, isKey, refused⟩

/-! ## Comparisons -/

theorem compareTargets_refused (coherent : compiler.schema.Coherent)
    (known : owner ∈ compiler.schema.types) (left : Target) (relation : Relation) (right : Target)
    (current : Expr) :
    (compiler.compareTargets left relation right current owner).FailsOnly
      (IfUnsupported fun path reason => reason = .compareAcrossToMany ∧
        ∃ target ∈ [left, right], compiler.schema.Obstructed owner target.chain.names path) := by
  have refused : ∀ target ∈ [left, right], (compiler.scalar target current owner).FailsOnly
      (IfUnsupported fun path reason => reason = .compareAcrossToMany ∧
        ∃ target ∈ [left, right], compiler.schema.Obstructed owner target.chain.names path) := by
    intro target isOperand
    refine scalar_failsOnly (fun _ _ _ => trivial)
      ((singleValue_blames coherent known target.chain _ current).weaken
        fun _ => IfUnsupported.imp fun path reason found => ?_)
    exact ⟨found.1, target, isOperand, found.2⟩
  exact compareTargets_failsOnly (fun _ _ _ => trivial) (refused left (by simp))
    (refused right (by simp))

end Compiler

/-- Where sorting or a comparison of two targets is refused as unsupported, the chain of a key or of
an operand is obstructed at the path of the error, except for a key whose chain ends with a
relationship to many. The reason is that of the clause, whether the chain crosses a relationship to
many or has an ambiguous name. -/
theorem refused_obstructed {types : List ResourceType} {schema : Schema} {type : ResourceType}
    (built : Schema.build types = .ok schema) (known : type ∈ schema.types) (settings : Settings)
    {path : String} {reason : Unsupported} {before after : Context} :
    (∀ source sorting v,
      Compiler.sortClause ⟨schema, settings⟩ source sorting v type before =
        (.error (.unsupported path reason), after) →
      ∃ key ∈ sorting.keys, Compiler.SortRefused schema type key.target path reason) ∧
    ∀ left relation right current,
      Compiler.comparison ⟨schema, settings⟩ (.target left) relation (.target right) current type
        before = (.error (.unsupported path reason), after) →
      reason = .compareAcrossToMany ∧
        ∃ target ∈ [left, right], schema.Obstructed type target.chain.names path := by
  have coherent := Schema.build_coherent built
  refine ⟨fun source sorting v failed => ?_, fun left relation right current failed => ?_⟩
  · exact Compiler.sortClause_refused coherent known source sorting v before _ after failed
  · exact Compiler.compareTargets_refused coherent known left relation right current before _ after
      failed

theorem refused_obstructed_shelf :
    ∃ books after after', Shelf.schema.type? "books" = some books ∧
      Compiler.sortClause ⟨Shelf.schema, .default⟩ (.source "books" "Book")
        ⟨[⟨.field ⟨["reviews", "stars"]⟩, .descending⟩]⟩ ⟨"book", "Book"⟩ books .start =
          (.error (.unsupported "reviews.stars" .sortAcrossToMany), after) ∧
      Compiler.comparison ⟨Shelf.schema, .default⟩ (.target (.field ⟨["title"]⟩)) .equal
        (.target (.field ⟨["reviews", "stars"]⟩)) (.parameter "book") books .start =
          (.error (.unsupported "reviews.stars" .compareAcrossToMany), after') ∧
      Shelf.schema.Obstructed books ["reviews", "stars"] "reviews.stars" ∧
      ∃ target ∈ [Target.field ⟨["title"]⟩, .field ⟨["reviews", "stars"]⟩],
        Shelf.schema.Obstructed books target.chain.names "reviews.stars" := by
  have built : Schema.build Shelf.declared = .ok Shelf.schema := rfl
  obtain ⟨books, after, after', known, sorted, compared⟩ : ∃ books after after',
      Shelf.schema.type? "books" = some books ∧
      Compiler.sortClause ⟨Shelf.schema, .default⟩ (.source "books" "Book")
        ⟨[⟨.field ⟨["reviews", "stars"]⟩, .descending⟩]⟩ ⟨"book", "Book"⟩ books .start =
          (.error (.unsupported "reviews.stars" .sortAcrossToMany), after) ∧
      Compiler.comparison ⟨Shelf.schema, .default⟩ (.target (.field ⟨["title"]⟩)) .equal
        (.target (.field ⟨["reviews", "stars"]⟩)) (.parameter "book") books .start =
          (.error (.unsupported "reviews.stars" .compareAcrossToMany), after') :=
    ⟨_, _, _, rfl, rfl, rfl⟩
  have isType := Schema.mem_of_type? known
  obtain ⟨key, isKey, refused⟩ := (refused_obstructed built isType .default).1 _ _ _ sorted
  obtain ⟨_, operand⟩ := (refused_obstructed built isType .default).2 _ _ _ _ compared
  refine ⟨books, after, after', known, sorted, compared, ?_, operand⟩
  cases List.mem_singleton.mp isKey
  cases refused with
  | across obstructed => exact obstructed

namespace Media

def declared : List ResourceType :=
  [⟨"contentItems", "ContentItem", none, "id", .int, []⟩,
    ⟨"blogs", "Blog", some "contentItems", "id", .int, [⟨"url", .attribute .string false⟩]⟩,
    ⟨"videos", "Video", some "contentItems", "id", .int, [⟨"url", .attribute .string false⟩]⟩]

def byUrl : Sorting := ⟨[⟨.field ⟨["url"]⟩, .ascending⟩]⟩

end Media

/-- The address is ambiguous for contents, and nothing is crossed on the way to it. -/
theorem sortClause_blames_crossing :
    ∃ schema type after names, Schema.build Media.declared = .ok schema ∧
      schema.type? "contentItems" = some type ∧
      Compiler.sortClause ⟨schema, .default⟩ (.source "contentItems" "ContentItem") Media.byUrl
        ⟨"contentItem", "ContentItem"⟩ type .start =
          (.error (.unsupported "url" .sortAcrossToMany), after) ∧
      schema.crossesToMany ["url"] type = false ∧
      schema.resolve type "url" "url" =
        .error (.unsupported "url" (.ambiguousField "url" "contentItems" names)) ∧
      names.Perm ["blogs", "videos"] := by
  obtain ⟨schema, built⟩ : ∃ schema, Schema.build Media.declared = .ok schema := ⟨_, rfl⟩
  obtain ⟨type, known, named, crosses, declaring⟩ : ∃ type,
      schema.type? "contentItems" = some type ∧ type.name = "contentItems" ∧
      schema.crossesToMany ["url"] type = false ∧
      (schema.declaringTypes type "url").map ResourceType.name = ["blogs", "videos"] := by
    cases built
    exact ⟨_, rfl, rfl, rfl, rfl⟩
  have resolution := (Schema.build_coherent built).resolve_resolution (Schema.mem_of_type? known)
    "url" "url"
  obtain ⟨names, refused, listed⟩ : ∃ names, schema.resolve type "url" "url" =
      .error (.unsupported "url" (.ambiguousField "url" "contentItems" names)) ∧
      names.Perm ["blogs", "videos"] := by
    rw [← declaring, ← named]
    generalize schema.declaringTypes type "url" = types at declaring resolution
    generalize schema.resolve type "url" "url" = result at resolution
    cases resolution with
    | unknown => cases declaring
    | only => simp at declaring
    | ambiguous _ listed => exact ⟨_, rfl, listed⟩
  refine ⟨schema, type, .start, names, built, known, ?_, crosses, refused, listed⟩
  simp only [Compiler.sortClause, Media.byUrl, Compiler.orderByKeys, Compiler.sortValue,
    Compiler.singleValue, Compiler.singleValueFrom, Compiler.resolve, Chain.text,
    Text.joined_singleton, refused]
  rfl

end LayeredQuery
