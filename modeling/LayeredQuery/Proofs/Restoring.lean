import LayeredQuery.Proofs.Compiler.Congruence

/-!
# Clauses restore their context

However a clause is compiled and wherever it fails, all the levels entered on the way are left again
and all the scopes opened on the way are ended, so it stops at the depth and inside of the scopes in
which it was started. The names given out on the way stay taken.
-/

set_option autoImplicit false

namespace LayeredQuery

/-- A context that is back at the depth and inside of the scopes of an earlier one, and that has
taken back no name. -/
structure Context.Restored (before after : Context) : Prop where
  depth : after.depth = before.depth
  active : after.names.active = before.names.active
  issued : before.names.issued ⊆ after.names.issued

namespace Context.Restored

theorem refl (context : Context) : context.Restored context :=
  ⟨rfl, rfl, List.Subset.refl _⟩

theorem trans {before between after : Context} (first : before.Restored between)
    (second : between.Restored after) : before.Restored after where
  depth := second.depth.trans first.depth
  active := second.active.trans first.active
  issued := List.Subset.trans first.issued second.issued

end Context.Restored

theorem Depth.leave_of_enter? {limit depth entered : Nat}
    (within : enter? limit depth = some entered) : leave entered = depth := by
  unfold enter? at within
  split at within
  · cases within
    exact Nat.add_sub_cancel depth 1
  · cases within

/-- A scope that is ended is taken out from between those around it and those inside of it, when none
of these has its name. -/
theorem ScopeNames.active_release {names : ScopeNames} {outer inner : List String} {name : String}
    (isActive : names.active = outer ++ name :: inner) (isLast : name ∉ inner) :
    (names.release name).active = outer ++ inner := by
  have notAhead : name ∉ inner.reverse := fun member => isLast (List.mem_reverse.mp member)
  unfold release
  rw [isActive, List.reverse_append, List.reverse_cons, List.append_assoc, List.singleton_append,
    List.erase_append_right _ notAhead, List.erase_cons_head, List.reverse_append,
    List.reverse_reverse, List.reverse_reverse]

namespace Compile

variable {α β : Type}

/-- A computation that restores every context, with success or not. -/
def Restores (computation : Compile α) : Prop :=
  ∀ before : Context, before.Restored (computation before).2

namespace Restores

theorem bind {first : Compile α} {next : α → Compile β} (here : Restores first)
    (continued : ∀ value, Restores (next value)) : Restores (first >>= next) := by
  intro before
  have back := here before
  rw [bind_apply]
  rcases ended : first before with ⟨_ | value, between⟩ <;> rw [ended] at back
  · exact back
  · exact back.trans (continued value between)

theorem mapError {f : CompileError → CompileError} {computation : Compile α}
    (here : Restores computation) : Restores (Compile.mapError f computation) := by
  intro before
  have back := here before
  unfold Compile.mapError
  rcases ended : computation before with ⟨_ | _, _⟩ <;> rw [ended] at back <;> exact back

theorem deeper {limit : Nat} (path : String) {computation : Compile α}
    (here : Restores computation) : Restores (Compile.deeper limit path computation) := by
  intro before
  unfold Compile.deeper
  cases entered : Depth.enter? limit before.depth with
  | none => exact .refl before
  | some depth =>
    have back := here ⟨before.names, depth⟩
    refine ⟨?_, back.active, back.issued⟩
    rw [← Depth.leave_of_enter? entered]
    exact congrArg Depth.leave back.depth

theorem withVariable (element : String) {computation : Variable → Compile α}
    (here : ∀ v, Restores (computation v)) :
    Restores (Compile.withVariable element computation) := by
  intro before
  have back := here (before.names.issue element).1 ⟨(before.names.issue element).2, before.depth⟩
  exact ⟨back.depth,
    (ScopeNames.active_release back.active List.not_mem_nil).trans (List.append_nil _),
    List.Subset.trans (List.subset_cons_self _ _) back.issued⟩

def congruence (limit : Nat) : Congruence limit limit where
  Related first _ := Restores first
  done _ := Context.Restored.refl
  fail _ := Context.Restored.refl
  bind := bind
  mapError _ := mapError
  deeper path := deeper path
  withVariable element := withVariable element

end Restores

end Compile

/-- Every clause, and a whole layer with all that it nests, leaves a context at the depth and inside
of the scopes in which it found it, and takes back no name. This is so when it succeeds and when it
fails, wherever that is. -/
theorem clauses_restore (compiler : Compiler) (before : Context) (source : Query)
    (type : ResourceType) (v : Variable) :
    (∀ tree, before.Restored (compiler.includeClause source tree type before).2) ∧
    (∀ filter, before.Restored (compiler.filterClause source filter v type before).2) ∧
    (∀ sorting, before.Restored (compiler.sortClause source sorting v type before).2) ∧
    (∀ selections, before.Restored (compiler.selectClause source selections v type before).2) ∧
    ∀ layer, before.Restored (compiler.applyLayer layer source type before).2 := by
  let R := Compile.Restores.congruence compiler.settings.maxDepth
  have included : ∀ tree, (compiler.includeClause source tree type).Restores := fun tree =>
    @Compiler.includeClause_alike compiler _ _ R tree type source
  have filtered : ∀ filter, (compiler.filterClause source filter v type).Restores := fun filter =>
    @Compiler.filterClause_alike compiler _ _ R filter v type source
  have sorted : ∀ sorting, (compiler.sortClause source sorting v type).Restores := fun sorting =>
    @Compiler.sortClause_alike compiler _ _ R sorting v type source
  have selected : ∀ selections, (compiler.selectClause source selections v type).Restores :=
    fun selections => @Compiler.selectClause_alike compiler _ _ R selections v type source
  have applied : ∀ layer, (compiler.applyLayer layer source type).Restores := fun layer =>
    @Compiler.applyLayer_alike compiler _ _ R layer type source
  exact ⟨fun tree => included tree before, fun filter => filtered filter before,
    fun sorting => sorted sorting before, fun selections => selected selections before,
    fun layer => applied layer before⟩

end LayeredQuery
