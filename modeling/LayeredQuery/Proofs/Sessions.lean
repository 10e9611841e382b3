import LayeredQuery.Proofs.Compiler.FreshNames
import LayeredQuery.Proofs.Restoring

/-!
# Sessions

Scopes can be ended and levels be left in any order, in which those inside of others need not go
first. Whatever the order is, a name is given out once, the names in force are those of the scopes
that have not ended, and the depth is the number of the levels that are held.
-/

set_option autoImplicit false

namespace LayeredQuery

/-! ## Holding -/

/-- What one kind of step ends and every other step leaves as it is, is held after some steps when
and only when it was held before them and none of them is of that kind. -/
theorem holds_foldl {σ ι : Type} {step : σ → ι → σ} {Holds : σ → Bool → Prop} {ending : ι}
    (each : ∀ state held s, Holds state held →
      ∃ held', Holds (step state s) held' ∧ (held' = true ↔ held = true ∧ ending ≠ s))
    (steps : List ι) {state : σ} {held : Bool} (holds : Holds state held) :
    ∃ held', Holds (steps.foldl step state) held' ∧
      (held' = true ↔ held = true ∧ ending ∉ steps) := by
  induction steps generalizing state held with
  | nil => exact ⟨held, holds, by simp⟩
  | cons s rest ih =>
    obtain ⟨between, here, begun⟩ := each state held s holds
    obtain ⟨last, final, ended⟩ := ih here
    exact ⟨last, final, by rw [ended, begun, and_assoc, List.mem_cons, not_or]⟩

theorem exists_parts {α : Type} {items : List α} {index : Nat} {item : α}
    (found : items[index]? = some item) (other : α) :
    ∃ before after, items = before ++ item :: after ∧
      items.set index other = before ++ other :: after := by
  obtain ⟨bound, rfl⟩ := List.getElem?_eq_some_iff.mp found
  obtain ⟨before, after, parted, -, replaced⟩ := List.exists_of_set bound
  exact ⟨before, after, parted, replaced⟩

/-! ## Scopes -/

namespace ScopeSession

variable {session : ScopeSession}

/-! ### Names -/

def givenNames (scopes : List (Variable × Bool)) : List String :=
  scopes.map fun scope => scope.1.name

def openNames (scopes : List (Variable × Bool)) : List String :=
  givenNames (scopes.filter fun scope => scope.2)

@[simp] theorem givenNames_append (scopes others : List (Variable × Bool)) :
    givenNames (scopes ++ others) = givenNames scopes ++ givenNames others :=
  List.map_append

@[simp] theorem givenNames_cons (v : Variable) (isOpen : Bool) (rest : List (Variable × Bool)) :
    givenNames ((v, isOpen) :: rest) = v.name :: givenNames rest := rfl

@[simp] theorem openNames_append (scopes others : List (Variable × Bool)) :
    openNames (scopes ++ others) = openNames scopes ++ openNames others := by
  simp [openNames]

@[simp] theorem openNames_open (v : Variable) (rest : List (Variable × Bool)) :
    openNames ((v, true) :: rest) = v.name :: openNames rest := rfl

@[simp] theorem openNames_ended (v : Variable) (rest : List (Variable × Bool)) :
    openNames ((v, false) :: rest) = openNames rest := rfl

theorem openNames_subset (scopes : List (Variable × Bool)) :
    openNames scopes ⊆ givenNames scopes :=
  List.map_subset _ (List.filter_subset_self _)

/-- What every step leaves true of the names. -/
structure Consistent (session : ScopeSession) : Prop where
  issued : session.names.issued = (givenNames session.scopes).reverse
  distinct : (givenNames session.scopes).Nodup
  active : session.names.active = openNames session.scopes

theorem Consistent.create (consistent : session.Consistent) (element : String) :
    (session.step (.create element)).Consistent := by
  have isFresh := ScopeNames.freshName_not_mem session.names.issued element
  have isNew : ScopeNames.freshName session.names.issued element ∉ givenNames session.scopes := by
    intro member
    rw [← List.mem_reverse, ← consistent.issued] at member
    exact isFresh member
  rw [step, ScopeNames.issue]
  refine ⟨?_, ?_, ?_⟩
  · rw [givenNames_append, List.reverse_append, ← consistent.issued]
    rfl
  · rw [givenNames_append]
    exact List.concat_eq_append ▸ consistent.distinct.concat isNew
  · rw [openNames_append, ← consistent.active]
    rfl

theorem Consistent.drop (consistent : session.Consistent) (index : Nat) :
    (session.step (.drop index)).Consistent := by
  rw [step]
  split
  · rename_i v found
    obtain ⟨outer, inner, parted, ended⟩ := exists_parts found (v, false)
    obtain ⟨issued, distinct, active⟩ := consistent
    rw [parted, givenNames_append, givenNames_cons] at issued distinct
    rw [parted, openNames_append, openNames_open] at active
    -- A release takes the last scope of a name, which is this one since no later one shares it.
    have isLast : v.name ∉ openNames inner := fun member =>
      (List.nodup_cons.mp distinct.of_append_right).1 (openNames_subset inner member)
    refine ⟨?_, ?_, ?_⟩
    · rwa [ended, givenNames_append, givenNames_cons]
    · rwa [ended, givenNames_append, givenNames_cons]
    · rw [ended, openNames_append, openNames_ended]
      exact ScopeNames.active_release active isLast
  · exact consistent

theorem run_consistent (steps : List ScopeStep) (consistent : session.Consistent) :
    (session.run steps).Consistent := by
  induction steps generalizing session with
  | nil => exact consistent
  | cons s rest ih =>
    cases s with
    | create element => exact ih (consistent.create element)
    | drop index => exact ih (consistent.drop index)

theorem start_consistent : start.Consistent :=
  ⟨rfl, List.nodup_nil, rfl⟩

/-! ### Open scopes -/

theorem run_append (session : ScopeSession) (before after : List ScopeStep) :
    session.run (before ++ after) = (session.run before).run after :=
  List.foldl_append

def creations : List ScopeStep → Nat
  | [] => 0
  | .create _ :: rest => creations rest + 1
  | .drop _ :: rest => creations rest

theorem length_scopes (steps : List ScopeStep) :
    (session.run steps).scopes.length = session.scopes.length + creations steps := by
  induction steps generalizing session with
  | nil => rfl
  | cons s rest ih =>
    cases s with
    | create element =>
      calc ((session.step (.create element)).run rest).scopes.length
          = (session.scopes ++ [_]).length + creations rest := ih
        _ = session.scopes.length + (creations rest + 1) := by
          rw [List.length_append, List.length_singleton, Nat.add_assoc, Nat.add_comm 1]
    | drop index =>
      have kept : (session.step (.drop index)).scopes.length = session.scopes.length := by
        rw [step]
        split
        · exact List.length_set
        · rfl
      exact ih.trans (congrArg (· + creations rest) kept)

/-- A scope keeps its variable, and it is open until it is dropped. -/
theorem scope_step {index : Nat} {v : Variable} (session : ScopeSession) (isOpen : Bool)
    (s : ScopeStep) (found : session.scopes[index]? = some (v, isOpen)) :
    ∃ isOpen', (session.step s).scopes[index]? = some (v, isOpen') ∧
      (isOpen' = true ↔ isOpen = true ∧ ScopeStep.drop index ≠ s) := by
  have within : index < session.scopes.length := (List.getElem?_eq_some_iff.mp found).1
  cases s with
  | create element =>
    refine ⟨isOpen, ?_, by simp⟩
    exact (List.getElem?_append_left within).trans found
  | drop other =>
    rw [step]
    by_cases same : index = other
    · subst same
      refine ⟨false, ?_, by simp⟩
      rw [found]
      cases isOpen with
      | false => exact found
      | true => exact List.getElem?_set_self within
    · refine ⟨isOpen, ?_, by simp [same]⟩
      split
      · exact (List.getElem?_set_ne (Ne.symm same)).trans found
      · exact found

theorem created_run (session : ScopeSession) (element : String) (after : List ScopeStep) :
    ∃ isOpen, ((session.step (.create element)).run after).scopes[session.scopes.length]? =
        some ((session.names.issue element).1, isOpen) ∧
      (isOpen = true ↔ .drop session.scopes.length ∉ after) := by
  have created : (session.step (.create element)).scopes[session.scopes.length]? =
      some ((session.names.issue element).1, true) := List.getElem?_concat_length
  obtain ⟨isOpen, found, unreleased⟩ := holds_foldl scope_step after created
  exact ⟨isOpen, found, unreleased.trans (and_iff_right rfl)⟩

/-- Whatever scopes are created and dropped, and in whatever order, no name is given out twice, and
as many are given out as scopes are created. The names in force are those of the scopes that were
not dropped since they were created, in the order of their creation. A scope has the name that was
next when it was created, and the search for a free name came to an end with it. -/
theorem run_givesOnce (steps : List ScopeStep) :
    (start.run steps).names.issued = (givenNames (start.run steps).scopes).reverse ∧
      (start.run steps).names.issued.Nodup ∧
      (start.run steps).names.issued.length = creations steps ∧
      (start.run steps).names.active = openNames (start.run steps).scopes ∧
      ∀ before element after, steps = before ++ .create element :: after →
        ∃ v isOpen, (start.run steps).scopes[creations before]? = some (v, isOpen) ∧
          v.element = element ∧ (isOpen = true ↔ .drop (creations before) ∉ after) ∧
          ScopeNames.IsNext (start.run before).names.issued element v.name ∧
          ScopeNames.Search (start.run before).names.issued (ScopeNames.baseName element) 1
            (ScopeNames.baseName element) v.name := by
  obtain ⟨issued, distinct, active⟩ := run_consistent steps start_consistent
  refine ⟨issued, ?_, ?_, active, ?_⟩
  · rw [issued]
    exact List.nodup_reverse.mpr distinct
  · rw [issued, List.length_reverse, givenNames, List.length_map, length_scopes]
    exact Nat.zero_add _
  · rintro before element after rfl
    have position : (start.run before).scopes.length = creations before :=
      (length_scopes before).trans (Nat.zero_add _)
    obtain ⟨isOpen, found, unreleased⟩ := created_run (start.run before) element after
    rw [position] at found unreleased
    rw [run_append]
    exact ⟨_, isOpen, found, rfl, unreleased, ScopeNames.freshName_isNext _ element,
      ScopeNames.freshName_search _ element⟩

def overItems : List ScopeStep :=
  [.create "Item2", .create "Item", .drop 0, .create "Item", .create "", .drop 1]

/-- The third scope takes neither the name of the second one nor that of the first, which was ended
by then. -/
theorem run_givesOnce_items :
    overItems = [.create "Item2", .create "Item", .drop 0] ++
        .create "Item" :: [.create "", .drop 1] ∧
      (start.run overItems).names.active = ["item3", "element"] ∧
      ∃ v, (start.run overItems).scopes[2]? = some (v, true) ∧ v.name = "item3" ∧
        ScopeNames.IsNext ["item", "item2"] "Item" v.name := by
  have parted : overItems = [.create "Item2", .create "Item", .drop 0] ++
      .create "Item" :: [.create "", .drop 1] := rfl
  obtain ⟨_, _, _, active, created⟩ := run_givesOnce overItems
  obtain ⟨v, isOpen, found, _, unreleased, isNext, _⟩ := created _ _ _ parted
  obtain rfl : isOpen = true := unreleased.mpr (by simp [creations])
  have third : (start.run overItems).scopes[2]? = some (⟨"item3", "Item"⟩, true) := by
    decide +kernel
  have earlier : (start.run [.create "Item2", .create "Item", .drop 0]).names.issued =
      ["item", "item2"] := by decide +kernel
  have same : v = ⟨"item3", "Item"⟩ :=
    congrArg Prod.fst (Option.some.inj (found.symm.trans third))
  rw [earlier] at isNext
  exact ⟨parted, active.trans (by decide +kernel), v, found, congrArg Variable.name same, isNext⟩

end ScopeSession

/-! ## Levels -/

namespace DepthSession

variable {limit index : Nat} {session : DepthSession}

/-! ### Steps -/

theorem step?_enter_eq_none_iff :
    session.step? limit .enter = none ↔ limit ≤ session.depth := by
  rw [step?, Depth.enter?, Option.map_eq_none_iff, ite_eq_right_iff]
  simp

theorem step_enter (below : session.depth < limit) :
    session.step limit .enter = ⟨session.depth + 1, session.levels ++ [true]⟩ := by
  rw [step, step?, Depth.enter?, if_pos below]
  rfl

theorem step_enter_full (full : limit ≤ session.depth) : session.step limit .enter = session := by
  rw [step, step?_enter_eq_none_iff.mpr full]
  rfl

theorem step_exit_held (found : session.levels[index]? = some true) :
    session.step limit (.exit index) =
      ⟨Depth.leave session.depth, session.levels.set index false⟩ := by
  rw [step, step?, found]
  rfl

theorem step_exit_over (notHeld : session.levels[index]? ≠ some true) :
    session.step limit (.exit index) = session := by
  rw [step, step?]
  split
  · rename_i found
    exact absurd found notHeld
  · rfl

theorem run_append (session : DepthSession) (before after : List DepthStep) :
    session.run limit (before ++ after) = (session.run limit before).run limit after :=
  List.foldl_append

/-! ### Depth -/

theorem depth_step_le (limit : Nat) (session : DepthSession) (s : DepthStep) :
    (session.step limit s).depth ≤ session.depth + 1 := by
  cases s with
  | enter =>
    by_cases below : session.depth < limit
    · exact Nat.le_of_eq (congrArg DepthSession.depth (step_enter below))
    · rw [step_enter_full (Nat.le_of_not_lt below)]
      exact Nat.le_succ _
  | exit index =>
    by_cases found : session.levels[index]? = some true
    · rw [step_exit_held found]
      exact Nat.le_trans (Nat.sub_le _ 1) (Nat.le_succ _)
    · rw [step_exit_over found]
      exact Nat.le_succ _

/-- A depth takes as many steps to be reached, so no run gets to one that is too great to be
counted. -/
theorem depth_run_le (steps : List DepthStep) :
    (session.run limit steps).depth ≤ session.depth + steps.length := by
  induction steps generalizing session with
  | nil => exact Nat.le_refl _
  | cons s rest ih =>
    have next := depth_step_le limit session s
    calc ((session.step limit s).run limit rest).depth
        ≤ (session.step limit s).depth + rest.length := ih
      _ ≤ session.depth + (rest.length + 1) := by omega

/-- What every step leaves true of the depth. -/
structure Exact (limit : Nat) (session : DepthSession) : Prop where
  counted : session.depth = session.levels.count true
  bounded : session.depth ≤ limit

theorem Exact.enter (kept : session.Exact limit) : (session.step limit .enter).Exact limit := by
  by_cases below : session.depth < limit
  · rw [step_enter below]
    refine ⟨?_, below⟩
    rw [List.count_append, ← kept.counted]
    rfl
  · rwa [step_enter_full (Nat.le_of_not_lt below)]

theorem count_set_held {levels : List Bool} (found : levels[index]? = some true) :
    (levels.set index false).count true + 1 = levels.count true := by
  obtain ⟨before, after, parted, ended⟩ := exists_parts found false
  rw [ended, parted, List.count_append, List.count_append, List.count_cons_self,
    List.count_cons_of_ne (by decide), Nat.add_assoc]

theorem Exact.leave_held (kept : session.Exact limit)
    (found : session.levels[index]? = some true) :
    Depth.leave session.depth + 1 = session.depth := by
  have counted := count_set_held found
  rw [← kept.counted] at counted
  exact Nat.sub_add_cancel (counted ▸ Nat.le_add_left 1 _)

theorem Exact.exit (kept : session.Exact limit) (index : Nat) :
    (session.step limit (.exit index)).Exact limit := by
  by_cases found : session.levels[index]? = some true
  · rw [step_exit_held found]
    have left := kept.leave_held found
    refine ⟨?_, Nat.le_trans (Nat.sub_le _ 1) kept.bounded⟩
    have counted := (count_set_held found).trans kept.counted.symm
    exact Nat.succ.inj (left.trans counted.symm)
  · rwa [step_exit_over found]

theorem run_exact (steps : List DepthStep) (kept : session.Exact limit) :
    (session.run limit steps).Exact limit := by
  induction steps generalizing session with
  | nil => exact kept
  | cons s rest ih =>
    cases s with
    | enter => exact ih kept.enter
    | exit index => exact ih (kept.exit index)

theorem start_exact (limit : Nat) : start.Exact limit :=
  ⟨rfl, Nat.zero_le limit⟩

/-! ### Levels held -/

theorem level_step (session : DepthSession) (held : Bool) (s : DepthStep)
    (found : session.levels[index]? = some held) :
    ∃ held', (session.step limit s).levels[index]? = some held' ∧
      (held' = true ↔ held = true ∧ DepthStep.exit index ≠ s) := by
  have within : index < session.levels.length := (List.getElem?_eq_some_iff.mp found).1
  cases s with
  | enter =>
    refine ⟨held, ?_, by simp⟩
    by_cases below : session.depth < limit
    · rw [step_enter below]
      exact (List.getElem?_append_left within).trans found
    · rwa [step_enter_full (Nat.le_of_not_lt below)]
  | exit other =>
    by_cases same : index = other
    · subst same
      refine ⟨false, ?_, by simp⟩
      cases held with
      | false => rwa [step_exit_over (by simp [found])]
      | true =>
        rw [step_exit_held found]
        exact List.getElem?_set_self within
    · refine ⟨held, ?_, by simp [same]⟩
      by_cases isHeld : session.levels[other]? = some true
      · rw [step_exit_held isHeld]
        exact (List.getElem?_set_ne (Ne.symm same)).trans found
      · rwa [step_exit_over isHeld]

theorem entered_run (below : session.depth < limit) (after : List DepthStep) :
    ∃ held, ((session.step limit .enter).run limit after).levels[session.levels.length]? =
        some held ∧ (held = true ↔ .exit session.levels.length ∉ after) := by
  have entered : (session.step limit .enter).levels[session.levels.length]? = some true := by
    rw [step_enter below]
    exact List.getElem?_concat_length
  obtain ⟨held, found, isHeld⟩ := holds_foldl level_step after entered
  exact ⟨held, found, isHeld.trans (and_iff_right rfl)⟩

/-- Under any limit, whatever levels are entered and left, and in whatever order, the depth is the
number of the levels that are held, and it is no more than the limit and the number of steps.
Entering is refused when and only when as many levels are held as the limit says, and all that
follows is then as if it had not been tried. A level that is entered is held until it is left, and
leaving it takes one off a depth above zero. -/
theorem run_counts (limit : Nat) (steps : List DepthStep) :
    (start.run limit steps).depth = (start.run limit steps).levels.count true ∧
      (start.run limit steps).depth ≤ limit ∧ (start.run limit steps).depth ≤ steps.length ∧
      ((start.run limit steps).step? limit .enter = none ↔
        (start.run limit steps).levels.count true = limit) ∧
      (∀ index, (start.run limit steps).levels[index]? = some true →
        ((start.run limit steps).step limit (.exit index)).depth + 1 =
          (start.run limit steps).depth) ∧
      ∀ before after, steps = before ++ .enter :: after →
        ((start.run limit before).levels.count true = limit →
          start.run limit steps = start.run limit (before ++ after)) ∧
        ((start.run limit before).levels.count true ≠ limit →
          ∃ held, (start.run limit steps).levels[(start.run limit before).levels.length]? =
              some held ∧
            (held = true ↔ .exit (start.run limit before).levels.length ∉ after)) := by
  have kept := run_exact steps (start_exact limit)
  refine ⟨kept.counted, kept.bounded, ?_, ?_, ?_, ?_⟩
  · exact Nat.le_trans (depth_run_le steps) (Nat.le_of_eq (Nat.zero_add _))
  · rw [step?_enter_eq_none_iff, ← kept.counted]
    exact ⟨Nat.le_antisymm kept.bounded, Nat.le_of_eq ∘ Eq.symm⟩
  · intro index found
    rw [step_exit_held found]
    exact kept.leave_held found
  · rintro before after rfl
    have earlier := run_exact before (start_exact limit)
    rw [← earlier.counted]
    refine ⟨fun full => ?_, fun notFull => ?_⟩
    · rw [run_append, run_append, run, List.foldl_cons, step_enter_full (Nat.le_of_eq full.symm)]
      rfl
    · rw [run_append]
      exact entered_run (Nat.lt_of_le_of_ne earlier.bounded notFull) after

def crossed : List DepthStep :=
  [.enter, .enter, .enter, .exit 0, .enter, .exit 1, .exit 0]

theorem run_counts_crossed :
    (start.run 2 [.enter, .enter]).levels.count true = 2 ∧
      start.run 2 crossed = start.run 2 [.enter, .enter, .exit 0, .enter, .exit 1, .exit 0] ∧
      (start.run 2 crossed).levels[2]? = some true ∧
      ((start.run 2 crossed).step 2 (.exit 2)).depth + 1 = (start.run 2 crossed).depth ∧
      (start.run 2 crossed).depth = 1 := by
  have full : (start.run 2 [.enter, .enter]).levels.count true = 2 := by decide
  obtain ⟨_, _, _, _, leaves, entered⟩ := run_counts 2 crossed
  have refused := (entered [.enter, .enter] [.exit 0, .enter, .exit 1, .exit 0] rfl).1 full
  obtain ⟨held, found, isHeld⟩ :=
    (entered [.enter, .enter, .enter, .exit 0] [.exit 1, .exit 0] rfl).2 (by decide)
  have position : (start.run 2 [.enter, .enter, .enter, .exit 0]).levels.length = 2 := rfl
  rw [position] at found isHeld
  obtain rfl : held = true := isHeld.mpr (by simp)
  exact ⟨full, refused, found, leaves 2 found, by decide⟩

end DepthSession

end LayeredQuery
