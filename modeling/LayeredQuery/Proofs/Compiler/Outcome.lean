import LayeredQuery.Compiler.Layer

/-!
# Outcomes of compilations

The outcome of a compilation in a context is the value that it ends with together with the context
after it, and nothing when it fails: which error it fails with, and what it has done before, is left
out. Outcomes are computed step by step, by one equation for each way of putting compilations
together, and two compilations agree when their outcomes do.
-/

set_option autoImplicit false

namespace LayeredQuery

namespace Compile

variable {α β : Type}

def outcome? (computation : Compile α) (context : Context) : Option (α × Context) :=
  match computation context with
  | (.ok value, after) => some (value, after)
  | (.error _, _) => none

theorem outcome?_eq_some {computation : Compile α} {before after : Context} {value : α} :
    outcome? computation before = some (value, after) ↔
      computation before = (.ok value, after) := by
  unfold outcome?
  rcases computation before with ⟨_ | _, _⟩ <;> simp

theorem toOption_fst (computation : Compile α) (context : Context) :
    (computation context).1.toOption = (outcome? computation context).map Prod.fst := by
  unfold outcome?
  rcases computation context with ⟨_ | _, _⟩ <;> rfl

@[simp]
theorem outcome?_bind (first : Compile α) (next : α → Compile β) (context : Context) :
    outcome? (first >>= next) context =
      (outcome? first context).bind fun ended => outcome? (next ended.1) ended.2 := by
  unfold outcome?
  rw [bind_apply]
  rcases first context with ⟨_ | _, _⟩ <;> rfl

@[simp]
theorem outcome?_ofExcept (result : Except CompileError α) (context : Context) :
    outcome? (ofExcept result) context = result.toOption.map fun value => (value, context) := by
  cases result <;> rfl

@[simp]
theorem outcome?_mapError (f : CompileError → CompileError) (computation : Compile α)
    (context : Context) : outcome? (mapError f computation) context =
      outcome? computation context := by
  unfold outcome? mapError
  rcases computation context with ⟨_ | _, _⟩ <;> rfl

theorem outcome?_deeper (limit : Nat) (path : String) (computation : Compile α)
    (context : Context) :
    outcome? (deeper limit path computation) context =
      (Depth.enter? limit context.depth).bind fun depth =>
        (outcome? computation ⟨context.names, depth⟩).map fun ended =>
          (ended.1, ⟨ended.2.names, Depth.leave ended.2.depth⟩) := by
  unfold outcome? deeper
  cases Depth.enter? limit context.depth with
  | none => rfl
  | some depth =>
    rcases ended : computation ⟨context.names, depth⟩ with ⟨_ | _, _⟩ <;> simp [ended]

theorem outcome?_withVariable (element : String) (computation : Variable → Compile α)
    (context : Context) :
    outcome? (withVariable element computation) context =
      (outcome? (computation (context.names.issue element).1)
          ⟨(context.names.issue element).2, context.depth⟩).map fun ended =>
        (ended.1, ⟨ended.2.names.release (context.names.issue element).1.name, ended.2.depth⟩) := by
  unfold outcome? withVariable
  rcases ended : computation (context.names.issue element).1
    ⟨(context.names.issue element).2, context.depth⟩ with ⟨_ | _, _⟩ <;> simp [ended]

/-! ## Steps back -/

theorem outcome?_of_deeper {limit : Nat} {path : String} {computation : Compile α}
    {before after : Context} {value : α}
    (ended : outcome? (deeper limit path computation) before = some (value, after)) :
    ∃ lower below, lower.names = before.names ∧ after.names = below.names ∧
      outcome? computation lower = some (value, below) := by
  rw [outcome?_deeper] at ended
  obtain ⟨depth, _, ended⟩ := Option.bind_eq_some_iff.mp ended
  obtain ⟨⟨value', below⟩, inner, same⟩ := Option.map_eq_some_iff.mp ended
  cases same
  exact ⟨⟨before.names, depth⟩, below, rfl, rfl, inner⟩

theorem outcome?_of_bind {first : Compile α} {next : α → Compile β} {before after : Context}
    {value : β} (ended : outcome? (first >>= next) before = some (value, after)) :
    ∃ middle between, outcome? first before = some (middle, between) ∧
      outcome? (next middle) between = some (value, after) := by
  rw [outcome?_bind] at ended
  obtain ⟨⟨middle, between⟩, begun, ended⟩ := Option.bind_eq_some_iff.mp ended
  exact ⟨middle, between, begun, ended⟩

/-! ## Agreement -/

/-- Whether two compilations come to the same in every context, where all failures are alike. -/
def Agrees (first second : Compile α) : Prop :=
  ∀ context, outcome? first context = outcome? second context

namespace Agrees

theorem refl (computation : Compile α) : Agrees computation computation :=
  fun _ => rfl

theorem bind {first second : Compile α} {next other : α → Compile β}
    (agree : Agrees first second) (continued : ∀ value, Agrees (next value) (other value)) :
    Agrees (first >>= next) (second >>= other) := by
  intro context
  rw [outcome?_bind, outcome?_bind, agree context]
  exact Option.bind_congr fun ended _ => continued ended.1 ended.2

theorem bind_first {first second : Compile α} {next : α → Compile β}
    (agree : Agrees first second) : Agrees (first >>= next) (second >>= next) :=
  agree.bind fun value => refl (next value)

theorem bind_next {first : Compile α} {next other : α → Compile β}
    (agree : ∀ value, Agrees (next value) (other value)) :
    Agrees (first >>= next) (first >>= other) :=
  (refl first).bind agree

theorem mapError {first second : Compile α} {f : CompileError → CompileError}
    (agree : Agrees first second) :
    Agrees (Compile.mapError f first) (Compile.mapError f second) := by
  intro context
  rw [outcome?_mapError, outcome?_mapError, agree context]

theorem deeper {first second : Compile α} {limit : Nat} {path : String}
    (agree : Agrees first second) :
    Agrees (Compile.deeper limit path first) (Compile.deeper limit path second) := by
  intro context
  simp only [outcome?_deeper, agree _]

theorem withVariable {first second : Variable → Compile α} {element : String}
    (agree : ∀ v, Agrees (first v) (second v)) :
    Agrees (Compile.withVariable element first) (Compile.withVariable element second) := by
  intro context
  simp only [outcome?_withVariable, agree _ _]

end Agrees

end Compile

/-! ## Bindings -/

theorem Compiler.forall_withIdentity {compiler : Compiler} {type : ResourceType}
    {bindings : List Binding} {P : Binding → Prop} (each : ∀ binding ∈ bindings, P binding)
    (identity : P (plainBinding type.idField)) :
    ∀ binding ∈ compiler.withIdentity type bindings, P binding := by
  unfold withIdentity
  split
  · exact List.forall_mem_append.mpr ⟨each, List.forall_mem_singleton.mpr identity⟩
  · exact each

def Compiler.boundValues (current : Expr) (pairs : List (Binding × ResolvedField)) :
    Compile (List (String × Expr)) :=
  .traverse
    (fun (binding, field) => do
      let value ← binding.value current field
      .done (binding.name, value))
    pairs

end LayeredQuery
