import LayeredQuery.Evaluation.InsertionSort
import LayeredQuery.Proofs.Evaluation.Comparison
import LayeredQuery.Proofs.Evaluation.Rules
import LayeredQuery.Proofs.Time.Instant

/-!
# Order of instants

A date-time constant is compared through its text, with strings that are instants as the instant
which that text names. This is the constant itself, also for a leap second and whatever the offset
of the string is, unless its year in universal time is written with a sign: then the text names
nothing, and the string is compared with it by code points.
-/

set_option autoImplicit false

namespace LayeredQuery

open LayeredQuery.Time

/-- The order in which a string that is an instant is held to stand to a date-time constant. -/
def Json.dateTimeOrder (text : String) (instant constant : Instant) : Ordering :=
  if constant.IsNamed then instant.order constant
  else if constant.HasPlainYear then instant.order constant.written
  else compare text constant.text

theorem Json.orderStrings_dateTime {text : String} {instant : Instant}
    (read : Instant.ofText? text = some instant) (constant : Instant) :
    orderStrings text constant.text = dateTimeOrder text instant constant := by
  unfold orderStrings dateTimeOrder
  rw [read, Instant.ofText?_text]
  by_cases plain : constant.HasPlainYear
  · rw [if_pos plain]
    by_cases named : constant.IsNamed
    · rw [if_pos named, Instant.written_eq_iff.mpr named.2]
    · rw [if_neg named, if_pos plain]
  · have unnamed : ¬constant.IsNamed := fun named => plain named.1
    rw [if_neg plain, if_neg unnamed, if_neg plain]

/-- The text of a date-time constant is read back as the constant exactly if it names it. A string
that is an instant is then compared with the constant as instants are. -/
theorem eval_compare_dateTime {text : String} {instant : Instant}
    (read : Instant.ofText? text = some instant) (constant : Instant) :
    (Instant.ofText? constant.text = some constant ↔ constant.IsNamed) ∧
      ∀ (schema : Schema) (store : Store) (sorter : Sorter KeyedRow) (operand : Expr) (env : Env)
        (relation : Relation),
        (Evaluator.plain schema store sorter).eval operand env = .ok (.string text) →
        (Evaluator.plain schema store sorter).eval
            (.compare operand relation (.constant (.dateTime constant))) env =
          .ok (.bool (relation.admits (Json.dateTimeOrder text instant constant))) := by
  refine ⟨Instant.ofText?_text_iff, ?_⟩
  intro schema store sorter operand env relation evaluated
  have compares := Json.comparesAs_orderStrings text constant.text
  rw [Json.orderStrings_dateTime read] at compares
  rw [← compares.related relation]
  exact Evaluator.eval_compare evaluated (Evaluator.eval_constant (.dateTime constant)) rfl

namespace Samples

def leapSecond : Instant :=
  ⟨Date.dayNumber ⟨2016, 12, 31⟩, 86399, billion, by decide, by decide⟩

/-- Half an hour into the year 10000, which is still in 9999 further west. -/
def afterYears : Instant :=
  ⟨Date.dayNumber ⟨10000, 1, 1⟩, 1800, 0, by decide, by decide⟩

end Samples

theorem eval_compare_dateTime_leap :
    Instant.ofText? Samples.leapSecond.text = some Samples.leapSecond ∧
      (Evaluator.plain ⟨[]⟩ .empty .standard).eval
          (.compare (.parameter "at") .less (.constant (.dateTime Samples.leapSecond)))
          [("at", .string "2017-01-01T00:59:59.5+01:00")] =
        .ok (.bool true) := by
  have read : Instant.ofText? "2017-01-01T00:59:59.5+01:00" =
      some ⟨Samples.leapSecond.day, 86399, 500000000, by decide, by decide⟩ := by decide +kernel
  obtain ⟨readBack, compared⟩ := eval_compare_dateTime read Samples.leapSecond
  have named : Samples.leapSecond.IsNamed := by decide +kernel
  refine ⟨readBack.mpr named, ?_⟩
  rw [compared ⟨[]⟩ .empty .standard (.parameter "at") _ .less (Evaluator.eval_parameter "at" _),
    Json.dateTimeOrder, if_pos named]
  rfl

/-- A moment thousands of years earlier is not held to be before a constant of the year 10000. -/
theorem eval_compare_dateTime_signed :
    ∃ instant, Instant.ofText? "2024-05-01T12:00:00Z" = some instant ∧
      instant.order Samples.afterYears = .lt ∧
      Instant.ofText? Samples.afterYears.text = none ∧
      (Evaluator.plain ⟨[]⟩ .empty .standard).eval
          (.compare (.parameter "at") .less (.constant (.dateTime Samples.afterYears)))
          [("at", .string "2024-05-01T12:00:00Z")] =
        .ok (.bool false) := by
  have read : Instant.ofText? "2024-05-01T12:00:00Z" =
      some ⟨Date.dayNumber ⟨2024, 5, 1⟩, 43200, 0, by decide, by decide⟩ := by decide +kernel
  have later : Relation.less.holds (.string "2024-05-01T12:00:00Z")
      (.string Samples.afterYears.text) = false := by decide +kernel
  refine ⟨_, read, by decide +kernel, by decide +kernel, ?_⟩
  exact Evaluator.eval_compare (Evaluator.eval_parameter "at" _)
    (Evaluator.eval_constant (.dateTime Samples.afterYears)) (congrArg Except.ok later)

end LayeredQuery
