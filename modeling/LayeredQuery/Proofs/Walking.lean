import LayeredQuery.Proofs.Compiler.Failures
import LayeredQuery.Proofs.Filtering

/-!
# The walk along a chain and its single value

Filters walk a chain and hand its end to a leaf, and sort keys look for the single value of a chain.
Where the chain crosses no relationship to many both come to the same: they fail for the same reason
at the same name, or the walk hands to its leaf just what the other one finds, as many levels deeper
as there are relationships on the way, and with no range variable of its own.
-/

set_option autoImplicit false

namespace LayeredQuery

namespace Compile

def below {α : Type} (levels : Nat) (computation : Compile α) : Compile α :=
  fun context =>
    let (result, after) := computation ⟨context.names, context.depth + levels⟩
    (result, ⟨after.names, after.depth - levels⟩)

theorem below_succ {α : Type} (levels : Nat) (computation : Compile α) (context : Context) :
    below (levels + 1) computation context =
      ((below levels computation ⟨context.names, context.depth + 1⟩).1,
        ⟨(below levels computation ⟨context.names, context.depth + 1⟩).2.names,
          Depth.leave (below levels computation ⟨context.names, context.depth + 1⟩).2.depth⟩) := by
  simp only [below, Depth.leave, Nat.add_assoc, Nat.add_comm 1 levels, Nat.sub_sub]

/-- A lookup that leaves its context alone, and a walk that fails just as it fails, or hands what it
finds to the leaf as its only effect. -/
def Hands (lookup : Compile (Expr × ResolvedField)) (walk : Leaf → Compile Expr) (path : String)
    (levels : Nat) (context : Context) : Prop :=
  (∃ error, lookup context = (.error error, context) ∧
      ∀ leaf, walk leaf context = (.error error, context)) ∨
    ∃ value resolved, lookup context = (.ok (value, resolved), context) ∧
      ∀ leaf, walk leaf context = below levels (leaf value resolved path) context

namespace Hands

variable {lookup : Compile (Expr × ResolvedField)} {walk : Leaf → Compile Expr} {path : String}
  {levels : Nat} {context : Context}

theorem fail (error : CompileError) :
    Hands (.fail error) (fun _ => .fail error) path levels context :=
  .inl ⟨error, rfl, fun _ => rfl⟩

theorem resolve {compiler : Compiler} {owner : ResourceType} {name at' : String}
    {next : ResolvedField → Compile (Expr × ResolvedField)}
    {walkNext : Leaf → ResolvedField → Compile Expr}
    (continued : ∀ resolved, compiler.schema.resolve owner name at' = .ok resolved →
      Hands (next resolved) (fun leaf => walkNext leaf resolved) path levels context) :
    Hands (compiler.resolve owner name at' >>= next)
      (fun leaf => compiler.resolve owner name at' >>= walkNext leaf) path levels context := by
  unfold Compiler.resolve
  cases found : compiler.schema.resolve owner name at' with
  | error error => exact fail error
  | ok resolved => exact continued resolved found

theorem deeper {limit : Nat} {at' : String}
    (inside : ∀ inner, Hands lookup walk path levels inner) :
    Hands (Compile.deeper limit at' lookup) (fun leaf => Compile.deeper limit at' (walk leaf)) path
      (levels + 1) context := by
  unfold Compile.deeper Depth.enter? Hands
  by_cases allowed : context.depth < limit
  · simp only [if_pos allowed]
    rcases inside ⟨context.names, context.depth + 1⟩ with
      ⟨error, failed, walkFails⟩ | ⟨value, resolved, found, hands⟩
    · refine .inl ⟨error, ?_, fun leaf => ?_⟩
      · simp only [failed, Depth.leave, Nat.add_sub_cancel]
      · simp only [walkFails leaf, Depth.leave, Nat.add_sub_cancel]
    · refine .inr ⟨value, resolved, ?_, fun leaf => ?_⟩
      · simp only [found, Depth.leave, Nat.add_sub_cancel]
      · rw [hands leaf, below_succ]
  · simp only [if_neg allowed]
    exact .inl ⟨_, rfl, fun _ => rfl⟩

end Hands

end Compile

namespace Compiler

variable {compiler : Compiler}

/-- The names left of a chain that crosses no relationship to many, of which `before` are behind. -/
theorem walkFrom_hands (coherent : compiler.schema.Coherent) {chain : Chain} :
    ∀ (names before : List String) (current : Expr) (owner : ResourceType) (context : Context),
      chain.names = before ++ names → owner ∈ compiler.schema.types →
      compiler.schema.crossesToMany names owner = false →
      Compile.Hands (compiler.singleValueFrom chain names before.length current owner)
        (fun leaf => compiler.walkFrom chain leaf names before.length current owner) chain.text
        (names.length - 1) context := by
  -- On the names left: each relationship takes one of them, and enters one level for it.
  intro names
  induction names with
  | nil => exact fun _ _ _ _ _ _ _ => .fail _
  | cons name rest ih =>
    intro before current owner context parts known single
    cases rest with
    | nil =>
      have whole : chain.textOfFirst (before.length + 1) = chain.text := by
        rw [Chain.textOfFirst, Chain.text, List.take_of_length_le (by simp [parts])]
      simp only [singleValueFrom, walkFrom, whole]
      exact .resolve fun resolved _ => .inr ⟨_, resolved, rfl, fun _ => rfl⟩
    | cons next rest =>
      simp only [singleValueFrom, walkFrom]
      refine .resolve fun resolved isResolved => ?_
      have found := Schema.fieldOn?_of_resolve isResolved
      cases kind : resolved.kind with
      | «attribute» _ _ => exact .fail _
      | toMany _ =>
        have many : resolved.kind.isToMany = true := by rw [kind]; rfl
        rw [Schema.crossesToMany_cons_of_toMany found many] at single
        cases single
      | toOne target =>
        have one : resolved.kind.isToMany = false := by rw [kind]; rfl
        have named : resolved.kind.target? = some target := by rw [kind]; rfl
        obtain ⟨type, isTarget, isTarget'⟩ := exists_targetOf coherent known found named
          (chain.textOfFirst (before.length + 1))
        rw [Schema.crossesToMany_cons_of_toOne found one isTarget'] at single
        simp only [isTarget]
        refine Compile.Hands.deeper fun inner => ?_
        have further := ih (before ++ [name]) (resolved.access current) type inner
          (by rw [parts, List.append_assoc]; rfl) (Schema.mem_of_targetOf? isTarget') single
        rw [List.length_append] at further
        exact further

end Compiler

/-- Where a chain crosses no relationship to many, its walk and its single value fail with the same
error before any leaf is reached, or the single value is what every leaf is given, at a depth of one
level more for each relationship and with the names of the context as they are. -/
theorem walk_hands_singleValue {types : List ResourceType} {schema : Schema} {owner : ResourceType}
    {chain : Chain} (built : Schema.build types = .ok schema) (known : owner ∈ schema.types)
    (single : schema.crossesToMany chain.names owner = false) (settings : Settings)
    (current : Expr) (context : Context) :
    (∃ error,
      Compiler.singleValue ⟨schema, settings⟩ chain current owner context =
        (.error error, context) ∧
      ∀ leaf, Compiler.walk ⟨schema, settings⟩ chain current owner leaf context =
        (.error error, context)) ∨
    ∃ value resolved,
      Compiler.singleValue ⟨schema, settings⟩ chain current owner context =
        (.ok (value, resolved), context) ∧
      ∀ leaf, Compiler.walk ⟨schema, settings⟩ chain current owner leaf context =
        Compile.below (chain.names.length - 1) (leaf value resolved chain.text) context :=
  Compiler.walkFrom_hands (Schema.build_coherent built) chain.names [] current owner context rfl
    known single

/-- The name of an author is one level away from a book: it is what the leaf gets within the
default limit, and neither is allowed to go there within a limit of none. -/
theorem walk_hands_singleValue_shelf :
    ∃ books, Shelf.schema.type? "books" = some books ∧
      (∀ leaf, Compiler.walk ⟨Shelf.schema, ⟨0, false⟩⟩ ⟨["author", "name"]⟩
        (.parameter "book") books leaf .start = (.error (.depthExceeded "author" 0), .start)) ∧
      ∃ resolved, ∀ leaf, Compiler.walk ⟨Shelf.schema, .default⟩ ⟨["author", "name"]⟩
        (.parameter "book") books leaf .start =
          Compile.below 1 (leaf (.member (.member (.parameter "book") "author") "name") resolved
            "author.name") .start := by
  have built : Schema.build Shelf.declared = .ok Shelf.schema := rfl
  obtain ⟨books, known, single, refused, resolved, accepted⟩ : ∃ books,
      Shelf.schema.type? "books" = some books ∧
      Shelf.schema.crossesToMany (Chain.mk ["author", "name"]).names books = false ∧
      (Compiler.singleValue ⟨Shelf.schema, ⟨0, false⟩⟩ ⟨["author", "name"]⟩
        (.parameter "book") books .start).1 = .error (.depthExceeded "author" 0) ∧
      ∃ resolved, (Compiler.singleValue ⟨Shelf.schema, .default⟩ ⟨["author", "name"]⟩
        (.parameter "book") books .start).1 =
          .ok (.member (.member (.parameter "book") "author") "name", resolved) :=
    ⟨_, rfl, by decide +kernel, rfl, _, rfl⟩
  have hands := fun settings => walk_hands_singleValue built (Schema.mem_of_type? known) single
    settings (.parameter "book") .start
  refine ⟨books, known, ?_, resolved, ?_⟩
  · rcases hands ⟨0, false⟩ with ⟨error, failed, walkFails⟩ | ⟨value, found, ended, _⟩
    · rw [failed] at refused
      cases refused
      exact walkFails
    · rw [ended] at refused
      cases refused
  · rcases hands .default with ⟨error, failed, _⟩ | ⟨value, found, ended, each⟩
    · rw [failed] at accepted
      cases accepted
    · rw [ended] at accepted
      cases accepted
      exact each

end LayeredQuery
