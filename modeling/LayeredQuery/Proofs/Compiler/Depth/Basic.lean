import LayeredQuery.Proofs.Compiler.Outcome
import LayeredQuery.Proofs.Plan.Points

/-!
# Depths of compilations

A compilation that is started at a depth ends at that depth, because every level entered is left
again. What is compiled one level deeper is compiled below the limit, so the depth bounds from above
how many lambdas and queries surround what is compiled, and how long its accessors are.
-/

set_option autoImplicit false

namespace LayeredQuery

namespace Compile

variable {α β : Type} {depth : Nat}

/-- A compilation that, started at a depth, ends at the same depth with a value of some kind. -/
def AtDepth (depth : Nat) (computation : Compile α) (kind : α → Prop) : Prop :=
  ∀ names value after, outcome? computation ⟨names, depth⟩ = some (value, after) →
    kind value ∧ after.depth = depth

namespace AtDepth

theorem done {kind : α → Prop} {value : α} (isKind : kind value) :
    AtDepth depth (.done value) kind := by
  intro names found after ended
  cases ended
  exact ⟨isKind, rfl⟩

theorem fail (error : CompileError) (kind : α → Prop) : AtDepth depth (.fail error) kind := by
  intro names found after ended
  cases ended

theorem ofExcept (result : Except CompileError α) :
    AtDepth depth (.ofExcept result) fun value => result = .ok value := by
  cases result with
  | error error => exact fail error _
  | ok value => exact done rfl

theorem weaken {computation : Compile α} {kind kind' : α → Prop}
    (here : AtDepth depth computation kind) (weaker : ∀ value, kind value → kind' value) :
    AtDepth depth computation kind' := by
  intro names value after ended
  obtain ⟨isKind, same⟩ := here names value after ended
  exact ⟨weaker value isKind, same⟩

theorem bind {first : Compile α} {next : α → Compile β} {kind : α → Prop} {kind' : β → Prop}
    (here : AtDepth depth first kind)
    (continued : ∀ value, kind value → AtDepth depth (next value) kind') :
    AtDepth depth (first >>= next) kind' := by
  intro names value after ended
  obtain ⟨middle, ⟨between, depth'⟩, begun, rest⟩ := outcome?_of_bind ended
  obtain ⟨isKind, same⟩ := here names middle _ begun
  cases same
  exact continued middle isKind between value after rest

theorem map {first : Compile α} {f : α → β} {kind : α → Prop} {kind' : β → Prop}
    (here : AtDepth depth first kind) (maps : ∀ value, kind value → kind' (f value)) :
    AtDepth depth (first >>= fun value => .done (f value)) kind' :=
  here.bind fun value isKind => done (maps value isKind)

theorem traverse {f : α → Compile β} {kind : β → Prop} {items : List α}
    (each : ∀ item ∈ items, AtDepth depth (f item) kind) :
    AtDepth depth (Compile.traverse f items) fun values => ∀ value ∈ values, kind value := by
  induction items with
  | nil => exact done fun value member => by cases member
  | cons item rest ih =>
    obtain ⟨here, later⟩ := List.forall_mem_cons.mp each
    refine here.bind fun value isKind => (ih later).map fun others areKind => ?_
    exact List.forall_mem_cons.mpr ⟨isKind, areKind⟩

theorem lookup {result : Except CompileError α} {next : α → Compile β} {kind : β → Prop}
    (continued : ∀ value, result = .ok value → AtDepth depth (next value) kind) :
    AtDepth depth (Compile.ofExcept result >>= next) kind :=
  (ofExcept result).bind continued

theorem mapError {f : CompileError → CompileError} {computation : Compile α} {kind : α → Prop}
    (here : AtDepth depth computation kind) :
    AtDepth depth (Compile.mapError f computation) kind := by
  intro names value after ended
  rw [outcome?_mapError] at ended
  exact here names value after ended

/-- A level is entered below the limit only, and left again. -/
theorem deeper {limit : Nat} {path : String} {computation : Compile α} {kind : α → Prop}
    (here : depth < limit → AtDepth (depth + 1) computation kind) :
    AtDepth depth (Compile.deeper limit path computation) kind := by
  intro names value after ended
  rw [outcome?_deeper] at ended
  obtain ⟨entered, isEntered, ended⟩ := Option.bind_eq_some_iff.mp ended
  obtain ⟨⟨value', ⟨names', depth'⟩⟩, inner, same⟩ := Option.map_eq_some_iff.mp ended
  cases same
  unfold Depth.enter? at isEntered
  split at isEntered
  · rename_i below
    cases isEntered
    obtain ⟨isKind, back⟩ := here below names value' _ inner
    cases back
    exact ⟨isKind, rfl⟩
  · cases isEntered

theorem withVariable {element : String} {computation : Variable → Compile α} {kind : α → Prop}
    (here : ∀ v, AtDepth depth (computation v) kind) :
    AtDepth depth (Compile.withVariable element computation) kind := by
  intro names value after ended
  rw [outcome?_withVariable] at ended
  obtain ⟨⟨value', inner⟩, body, same⟩ := Option.map_eq_some_iff.mp ended
  cases same
  exact here _ _ value' inner body

end AtDepth

end Compile

abbrev Expr.Within (limit : Nat) (around : Surroundings) (expression : Expr) : Prop :=
  (Point.expr around expression).Within limit

abbrev Query.Within (limit : Nat) (around : Surroundings) (query : Query) : Prop :=
  (Point.query around query).Within limit

theorem Surroundings.AtMost.limit {around : Surroundings} {depth limit : Nat}
    (few : around.AtMost (depth + 1) depth) (shallow : depth ≤ limit) :
    around.AtMost (limit + 1) limit :=
  few.mono (Nat.succ_le_succ shallow) shallow

theorem Surroundings.AtMost.entered {around : Surroundings} {depth : Nat}
    (few : around.AtMost (depth + 1) depth) : around.AtMost (depth + 1) (depth + 1) :=
  few.mono (Nat.le_refl _) (Nat.le_succ _)

theorem Surroundings.AtMost.loose {around : Surroundings} {depth : Nat}
    (few : around.AtMost depth depth) : around.AtMost (depth + 1) depth :=
  few.mono (Nat.le_succ _) (Nat.le_refl _)

theorem Variable.accessor_reaches (v : Variable) (length : Nat) : v.accessor.Reaches length :=
  .parameter length v.name

/-- Reading a field makes an accessor longer by one, through a cast or not. -/
theorem ResolvedField.access_reaches {current : Expr} {length : Nat}
    (reaches : current.Reaches length) (resolved : ResolvedField) :
    (resolved.access current).Reaches (length + 1) := by
  unfold ResolvedField.access
  split
  · exact .member _ (.cast _ reaches)
  · exact .member _ reaches

end LayeredQuery
