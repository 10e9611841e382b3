import LayeredQuery.Evaluation.Run
import LayeredQuery.Proofs.Meaning.Filter

/-!
# Rules of evaluation

What an expression evaluates to once the values of its operands are known. Each rule says when its
step gives a value at all: a member needs an object or null, a type test needs an element type of
the schema, and a sequence of resources needs an array or null.
-/

set_option autoImplicit false

namespace LayeredQuery

theorem ok_bind {ε α β : Type} (value : α) (next : α → Except ε β) :
    (Except.ok value >>= next) = next value := rfl

theorem ok_of_bind {ε α β : Type} {first : Except ε α} {next : α → Except ε β} {result : β}
    (ran : (first >>= next) = .ok result) :
    ∃ value, first = .ok value ∧ next value = .ok result := by
  cases first with
  | error _ => cases ran
  | ok value => exact ⟨value, rfl, ran⟩

/-! ## Sorts that fail -/

theorem unlessDisordered_eq_ok {α : Type} {result : Option α} {value : α} :
    unlessDisordered result = .ok value ↔ result = some value := by
  cases result with
  | none => exact iff_of_false nofun nofun
  | some found =>
    exact ⟨fun same => congrArg some (Except.ok.inj same),
      fun same => congrArg Except.ok (Option.some.inj same)⟩

theorem eq_disordered {α : Type} {result : Option α} {error : RunError}
    (failed : unlessDisordered result = .error error) : error = .disordered := by
  cases result with
  | none => exact (Except.error.inj failed).symm
  | some _ => cases failed

/-- Runs that go wrong as sorts do go right with every sorter just when there is always something. -/
theorem disordered_or_ok {α : Type} {run : Sorter KeyedRow → Except RunError α}
    {found : Sorter KeyedRow → Option α}
    (runs : ∀ sorter, run sorter = unlessDisordered (found sorter)) :
    (∀ sorter error, run sorter = .error error → error = .disordered) ∧
      ((∀ sorter, ∃ value, run sorter = .ok value) ↔ ∀ sorter, (found sorter).isSome = true) := by
  refine ⟨fun sorter error failed => eq_disordered ((runs sorter).symm.trans failed), ?_⟩
  refine forall_congr' fun sorter => ?_
  rw [runs sorter, Option.isSome_iff_exists]
  exact exists_congr fun value => unlessDisordered_eq_ok

theorem unlessDisordered_bind {α β : Type} {result : Option α} {next : α → Except RunError β}
    {further : α → Option β}
    (each : ∀ value, result = some value → next value = unlessDisordered (further value)) :
    (unlessDisordered result >>= next) = unlessDisordered (result.bind further) := by
  cases result with
  | none => rfl
  | some value => exact each value rfl

theorem mapItems_eq_mapM {α β : Type} {f : α → Except RunError β} {g : α → Option β}
    {items : List α} (computed : ∀ item ∈ items, f item = unlessDisordered (g item)) :
    mapItems f items = unlessDisordered (items.mapM g) := by
  induction items with
  | nil => rfl
  | cons item rest ih =>
    obtain ⟨here, later⟩ := List.forall_mem_cons.mp computed
    rw [mapItems, here, ih later, List.mapM_cons]
    cases g item with
    | none => rfl
    | some value => cases rest.mapM g <;> rfl

/-! ## Lists of rows -/

theorem anyItem_eq {decide : Json → Except RunError Bool} {holds : Json → Bool} {items : List Json}
    (decided : ∀ item ∈ items, decide item = .ok (holds item)) :
    anyItem decide items = .ok (items.any holds) := by
  induction items with
  | nil => rfl
  | cons item rest ih =>
    obtain ⟨here, later⟩ := List.forall_mem_cons.mp decided
    rw [anyItem, here, List.any_cons]
    cases held : holds item with
    | true => rfl
    | false => simpa using ih later

theorem keepItems_eq {decide : Json → Except RunError Bool} {holds : Json → Bool}
    {items : List Json} (decided : ∀ item ∈ items, decide item = .ok (holds item)) :
    keepItems decide items = .ok (items.filter holds) := by
  induction items with
  | nil => rfl
  | cons item rest ih =>
    obtain ⟨here, later⟩ := List.forall_mem_cons.mp decided
    rw [keepItems, here, ih later, List.filter_cons]

theorem mapItems_eq {α β : Type} {f : α → Except RunError β} {g : α → β} {items : List α}
    (computed : ∀ item ∈ items, f item = .ok (g item)) :
    mapItems f items = .ok (items.map g) := by
  induction items with
  | nil => rfl
  | cons item rest ih =>
    obtain ⟨here, later⟩ := List.forall_mem_cons.mp computed
    rw [mapItems, here, ih later, List.map_cons]

/-! ## Values -/

theorem memberOf_eq {expression : Expr} {field : String} {value : Json}
    (readable : value = .null ∨ ∃ entries, value = .object entries) :
    Evaluator.memberOf expression field value = .ok (value.member field) := by
  rcases readable with rfl | ⟨entries, rfl⟩ <;> rfl

theorem sequence_eq {expression : Expr} {value : Json}
    (readable : value = .null ∨ ∃ items, value = .array items) :
    sequence expression value = .ok value.related := by
  rcases readable with rfl | ⟨items, rfl⟩ <;> rfl

theorem matchOf_eq {expression : Expr} {kind : TextMatch} {needle : String} {value : Json}
    (readable : value = .null ∨ ∃ text, value = .string text) :
    Evaluator.matchOf expression kind needle value = .ok (kind.holdsIn needle value) := by
  rcases readable with rfl | ⟨text, rfl⟩ <;> rfl

namespace Evaluator

variable {evaluator : Evaluator} {env : Env}

-- Added here, before the rules, the equations of `eval` are found once and not by every rule anew.
attribute [local simp] eval evalAll

theorem isIn_eq {value : Json} {literals : List Literal}
    (decided : ∀ literal ∈ literals, evaluator.holds .equal value literal.toJson =
      .ok (Relation.equal.holds value literal.toJson)) :
    evaluator.isIn value literals = .ok (Literal.anyEqual literals value) := by
  induction literals with
  | nil => rfl
  | cons literal rest ih =>
    obtain ⟨here, later⟩ := List.forall_mem_cons.mp decided
    unfold Literal.anyEqual at ih ⊢
    rw [isIn, here, List.any_cons]
    cases held : Relation.equal.holds value literal.toJson with
    | true => rfl
    | false => simpa using ih later

theorem isInstance_eq (coherent : evaluator.schema.Coherent) {type : ResourceType} (value : Json)
    (known : type ∈ evaluator.schema.types) :
    evaluator.isInstance type.element value =
      .ok (evaluator.schema.isInstance type.name value) := by
  unfold isInstance Schema.isInstance
  rw [coherent.typeOfElement?_of_mem known]
  cases tagged? value <;> rfl

/-! ## Expressions -/

theorem eval_parameter (name : String) (value : Json) :
    evaluator.eval (.parameter name) ((name, value) :: env) = .ok value := by
  simp [Keyed.lookup?]

theorem eval_member {target : Expr} {field : String} {value : Json}
    (evaluated : evaluator.eval target env = .ok value)
    (readable : value = .null ∨ ∃ entries, value = .object entries) :
    evaluator.eval (.member target field) env = .ok (value.member field) := by
  rw [eval, evaluated, ok_bind, memberOf_eq readable]

theorem eval_cast {operand : Expr} {element : String} {value : Json} {fits : Bool}
    (evaluated : evaluator.eval operand env = .ok value)
    (decided : evaluator.isInstance element value = .ok fits) :
    evaluator.eval (.cast operand element) env = .ok (if fits then value else .null) := by
  rw [eval, evaluated, ok_bind, decided, ok_bind]

theorem eval_access {schema : Schema} {resolved : ResolvedField} {current : Expr} {value : Json}
    (decided : evaluator.isInstance resolved.declaring.element value =
      .ok (schema.isInstance resolved.declaring.name value))
    (evaluated : evaluator.eval current env = .ok value)
    (readable : value = .null ∨ ∃ entries, value = .object entries) :
    evaluator.eval (resolved.access current) env = .ok (schema.read resolved value) := by
  unfold ResolvedField.access Schema.read
  cases resolved.viaDerived with
  | false => exact eval_member evaluated readable
  | true =>
    have narrowed := eval_cast evaluated decided
    cases fits : schema.isInstance resolved.declaring.name value with
    | true =>
      rw [fits] at narrowed
      exact eval_member narrowed readable
    | false =>
      rw [fits] at narrowed
      exact eval_member narrowed (.inl rfl)

theorem eval_typeIs {operand : Expr} {element : String} {value : Json} {fits : Bool}
    (evaluated : evaluator.eval operand env = .ok value)
    (decided : evaluator.isInstance element value = .ok fits) :
    evaluator.eval (.typeIs operand element) env = .ok (.bool fits) := by
  rw [eval, evaluated, ok_bind, decided, ok_bind]

theorem eval_compare {left right : Expr} {relation : Relation} {x y : Json} {related : Bool}
    (leftEvaluated : evaluator.eval left env = .ok x)
    (rightEvaluated : evaluator.eval right env = .ok y)
    (decided : evaluator.holds relation x y = .ok related) :
    evaluator.eval (.compare left relation right) env = .ok (.bool related) := by
  rw [eval, leftEvaluated, ok_bind, rightEvaluated, ok_bind, decided, ok_bind]

theorem eval_constant (literal : Literal) :
    evaluator.eval (.constant literal) env = .ok literal.toJson := by
  simp

theorem eval_not {operand : Expr} {held : Bool}
    (evaluated : evaluator.eval operand env = .ok (.bool held)) :
    evaluator.eval (.not operand) env = .ok (.bool !held) := by
  rw [eval, evaluated, ok_bind, truth, ok_bind]

theorem eval_matchText {operand : Expr} {kind : TextMatch} {needle : String} {value : Json}
    (evaluated : evaluator.eval operand env = .ok value)
    (readable : value = .null ∨ ∃ text, value = .string text) :
    evaluator.eval (.matchText operand kind needle) env =
      .ok (.bool (kind.holdsIn needle value)) := by
  rw [eval, evaluated, ok_bind, matchOf_eq readable, ok_bind]

theorem eval_inSet {operand : Expr} {literals : List Literal} {value : Json}
    (evaluated : evaluator.eval operand env = .ok value)
    (decided : ∀ literal ∈ literals, evaluator.holds .equal value literal.toJson =
      .ok (Relation.equal.holds value literal.toJson)) :
    evaluator.eval (.inSet operand literals) env =
      .ok (.bool (Literal.anyEqual literals value)) := by
  rw [eval, evaluated, ok_bind, isIn_eq decided, ok_bind]

theorem eval_any {source : Expr} {value : Json}
    (evaluated : evaluator.eval source env = .ok value)
    (readable : value = .null ∨ ∃ items, value = .array items) :
    evaluator.eval (.any source) env = .ok (.bool !value.related.isEmpty) := by
  rw [eval, evaluated, ok_bind, sequence_eq readable, ok_bind]

theorem eval_count {source : Expr} {value : Json}
    (evaluated : evaluator.eval source env = .ok value)
    (readable : value = .null ∨ ∃ items, value = .array items) :
    evaluator.eval (.count source) env = .ok (.number (.ofSize value.related.length)) := by
  rw [eval, evaluated, ok_bind, sequence_eq readable, ok_bind]

theorem test_eq {v : Variable} {body : Expr} {item : Json} {held : Bool}
    (evaluated : evaluator.eval body ((v.name, item) :: env) = .ok (.bool held)) :
    evaluator.test (v.lambda body) item env = .ok held := by
  rw [Variable.lambda, test, evaluated, ok_bind, truth]

theorem apply_eq (v : Variable) (body : Expr) (item : Json) :
    evaluator.apply (v.lambda body) item env = evaluator.eval body ((v.name, item) :: env) := by
  rw [Variable.lambda, apply]

theorem test_of_apply {predicate : Lambda} {item : Json} {held : Bool}
    (applied : evaluator.apply predicate item env = .ok (.bool held)) :
    evaluator.test predicate item env = .ok held := by
  obtain ⟨_, _, _⟩ := predicate
  rw [apply] at applied
  rw [test, applied, ok_bind, truth]

theorem eval_anyWhere {source : Expr} {v : Variable} {body : Expr} {value : Json}
    {holds : Json → Bool} (evaluated : evaluator.eval source env = .ok value)
    (readable : value = .null ∨ ∃ items, value = .array items)
    (decided : ∀ item ∈ value.related,
      evaluator.eval body ((v.name, item) :: env) = .ok (.bool (holds item))) :
    evaluator.eval (.anyWhere source (v.lambda body)) env =
      .ok (.bool (value.related.any holds)) := by
  rw [eval, evaluated, ok_bind, sequence_eq readable, ok_bind,
    anyItem_eq fun item member => test_eq (decided item member), ok_bind]

/-- A type test together with a predicate that is only asked where the test holds. -/
theorem eval_typeTest {operand body : Expr} {element : String} {value : Json}
    {fits held : Bool} (evaluated : evaluator.eval operand env = .ok value)
    (decided : evaluator.isInstance element value = .ok fits)
    (inner : fits = true → evaluator.eval body env = .ok (.bool held)) :
    evaluator.eval (.and [.typeIs operand element, body]) env = .ok (.bool (fits && held)) := by
  rw [eval, evalAll, eval_typeIs evaluated decided, ok_bind, truth, ok_bind]
  cases fits with
  | false => rfl
  | true =>
    rw [if_pos rfl, evalAll, inner rfl, ok_bind, truth, ok_bind]
    cases held <;> simp [ok_bind]

/-! ## Plans -/

theorem execute_select {input : Query} {selector : Lambda} {rows made : List Json}
    (reached : evaluator.run input = .ok rows)
    (selected : mapItems (fun row => evaluator.apply selector row []) rows = .ok made) :
    evaluator.execute (.select input selector) = .ok (made.map Json.untag) := by
  unfold run at reached
  rw [execute, run, runWith, reached, ok_bind, selected, ok_bind]
  rfl

end Evaluator

end LayeredQuery
