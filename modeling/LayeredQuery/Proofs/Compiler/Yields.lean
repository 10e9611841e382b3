import LayeredQuery.Proofs.Compiler.Outcome

/-!
# What a compilation can yield

A compilation yields a value when it ends with that value in some context. What it goes through on
the way has yielded values too, so a finished plan can be taken apart without following names and
depths: every rule below takes one step of a compilation back.
-/

set_option autoImplicit false

namespace LayeredQuery

theorem exists_eq_ok {ε α : Type} {result : Except ε α} (ended : result.isOk = true) :
    ∃ value, result = .ok value := by
  cases result with
  | error _ => cases ended
  | ok value => exact ⟨value, rfl⟩

theorem eq_error_of_map {ε α : Type} {result : Except ε α} {error : ε}
    (failed : result.map (fun _ => ()) = .error error) : result = .error error := by
  cases result with
  | error _ =>
    cases failed
    rfl
  | ok _ => cases failed

theorem eq_ok_of_toOption {ε α : Type} {result : Except ε α} {value : α}
    (ended : result.toOption = some value) : result = .ok value := by
  cases result with
  | error _ => cases ended
  | ok _ =>
    cases ended
    rfl

namespace Compile

variable {α β : Type}

def Yields (computation : Compile α) (value : α) : Prop :=
  ∃ before after, computation before = (.ok value, after)

theorem yields_iff {computation : Compile α} {value : α} :
    Yields computation value ↔
      ∃ before after, outcome? computation before = some (value, after) := by
  simp only [Yields, outcome?_eq_some]

theorem yields_done {expected value : α} (yielded : Yields (done expected) value) :
    expected = value := by
  obtain ⟨before, after, run⟩ := yielded
  cases run
  rfl

theorem not_yields_fail {error : CompileError} {value : α} : ¬ Yields (fail error) value := by
  rintro ⟨before, after, run⟩
  cases run

theorem yields_bind {first : Compile α} {next : α → Compile β} {value : β}
    (yielded : Yields (first >>= next) value) :
    ∃ middle, Yields first middle ∧ Yields (next middle) value := by
  obtain ⟨before, after, ended⟩ := yields_iff.mp yielded
  obtain ⟨middle, between, begun, ended⟩ := outcome?_of_bind ended
  exact ⟨middle, yields_iff.mpr ⟨before, between, begun⟩, yields_iff.mpr ⟨between, after, ended⟩⟩

theorem yields_ofExcept {result : Except CompileError α} {value : α}
    (yielded : Yields (ofExcept result) value) : result = .ok value := by
  cases result with
  | error _ => exact absurd yielded not_yields_fail
  | ok expected => rw [yields_done yielded]

theorem yields_mapError {f : CompileError → CompileError} {computation : Compile α} {value : α}
    (yielded : Yields (mapError f computation) value) : Yields computation value := by
  rw [yields_iff] at yielded ⊢
  simpa only [outcome?_mapError] using yielded

theorem yields_deeper {limit : Nat} {path : String} {computation : Compile α} {value : α}
    (yielded : Yields (deeper limit path computation) value) : Yields computation value := by
  obtain ⟨before, after, ended⟩ := yields_iff.mp yielded
  obtain ⟨lower, below, _, _, inner⟩ := outcome?_of_deeper ended
  exact yields_iff.mpr ⟨lower, below, inner⟩

theorem yields_withVariable {element : String} {computation : Variable → Compile α} {value : α}
    (yielded : Yields (withVariable element computation) value) :
    ∃ v, Yields (computation v) value := by
  obtain ⟨before, after, ended⟩ := yields_iff.mp yielded
  rw [outcome?_withVariable] at ended
  obtain ⟨⟨found, inner⟩, body, same⟩ := Option.map_eq_some_iff.mp ended
  cases same
  exact ⟨_, yields_iff.mpr ⟨_, inner, body⟩⟩

theorem yields_traverse {f : α → Compile β} {items : List α} :
    ∀ {values : List β}, Yields (traverse f items) values →
      ∀ item ∈ items, ∃ value ∈ values, Yields (f item) value := by
  induction items with
  | nil => exact fun _ item member => by cases member
  | cons item rest ih =>
    intro values yielded
    obtain ⟨value, here, yielded⟩ := yields_bind yielded
    obtain ⟨others, later, yielded⟩ := yields_bind yielded
    rw [← yields_done yielded]
    refine List.forall_mem_cons.mpr ⟨⟨value, List.mem_cons_self, here⟩, fun other member => ?_⟩
    obtain ⟨found, isOther, yieldsIt⟩ := ih later other member
    exact ⟨found, List.mem_cons_of_mem _ isOther, yieldsIt⟩

theorem exists_of_isOk {computation : Compile α} {context : Context}
    (ended : (computation context).1.isOk = true) :
    ∃ value after, computation context = (.ok value, after) := by
  obtain ⟨value, isValue⟩ := exists_eq_ok ended
  exact ⟨value, (computation context).2, Prod.ext isValue rfl⟩

end Compile

namespace Compiler

variable {compiler : Compiler}

theorem yields_resolve {owner : ResourceType} {name path : String} {resolved : ResolvedField}
    (yielded : (compiler.resolve owner name path).Yields resolved) :
    compiler.schema.resolve owner name path = .ok resolved :=
  Compile.yields_ofExcept yielded

theorem yields_deeper {α : Type} {path : String} {computation : Compile α} {value : α}
    (yielded : (compiler.deeper path computation).Yields value) : computation.Yields value :=
  Compile.yields_deeper yielded

theorem type?_of_type {name : String} {type : ResourceType}
    (found : compiler.type name = .ok type) : compiler.schema.type? name = some type := by
  unfold Compiler.type at found
  cases known : compiler.schema.type? name with
  | none => simp [known] at found
  | some other =>
    simp only [known, Except.ok.injEq] at found
    rw [found]

theorem target_of_targetOf {resolved : ResolvedField} {path : String} {target : ResourceType}
    (found : compiler.targetOf resolved path = .ok target) :
    ∃ name, resolved.kind.target? = some name ∧ compiler.schema.type? name = some target := by
  unfold targetOf at found
  cases named : resolved.kind.target? with
  | none => simp [named] at found
  | some name =>
    simp only [named] at found
    exact ⟨name, rfl, type?_of_type found⟩

end Compiler

end LayeredQuery
