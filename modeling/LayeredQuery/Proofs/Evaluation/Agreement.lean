import LayeredQuery.Proofs.Evaluation.Comparison
import LayeredQuery.Proofs.Json.Printer
import LayeredQuery.Proofs.Number.Zero

/-!
# Equality and order

Equality of two values should be their order's: they are equal where neither is before the other, so
one of two values of a kind is less, or they are equal. Truth values, numbers and strings are equal
by their order. Arrays and objects are equal as documents but ordered by their texts. Different
documents have different texts, so these two agree unless documents are equal that differ, and such
documents differ in the signs of zeros only.
-/

set_option autoImplicit false

namespace LayeredQuery

open LayeredQuery.Number

/-! ## Signs of zeros -/

namespace Json

def Numeric.plainZero : Numeric → Numeric
  | .int value inRange => .int value inRange
  | .float value => .float value.plainZero

mutual

/-- A document with the signs taken off its zeros, at any depth. -/
def plainZeros : Json → Json
  | .null => .null
  | .bool value => .bool value
  | .number value => .number value.plainZero
  | .string value => .string value
  | .array items => .array (plainItems items)
  | .object entries => .object (plainEntries entries)

def plainItems : List Json → List Json
  | [] => []
  | item :: rest => plainZeros item :: plainItems rest

def plainEntries : List (String × Json) → List (String × Json)
  | [] => []
  | (name, value) :: rest => (name, plainZeros value) :: plainEntries rest

end

theorem kindRank_plainZeros (x : Json) : x.plainZeros.kindRank = x.kindRank := by
  cases x <;> rfl

theorem Numeric.beq_iff (x y : Numeric) : x.beq y = true ↔ x.plainZero = y.plainZero := by
  cases x with
  | int i _ =>
    cases y with
    | int j _ => simp [Numeric.beq, plainZero]
    | float _ => simp [Numeric.beq, plainZero]
  | float a =>
    cases y with
    | int _ _ => simp [Numeric.beq, plainZero]
    | float b =>
      rw [Numeric.beq, beq_iff_eq, Binary64.order_eq_iff, plainZero, plainZero, Numeric.float.injEq]

mutual

/-- Documents are equal when they differ in the signs of zeros at most. -/
theorem beq_iff : ∀ x y : Json, beq x y = true ↔ x.plainZeros = y.plainZeros
  | .null, y => by cases y <;> simp [beq, plainZeros]
  | .bool a, y => by cases y <;> simp [beq, plainZeros]
  | .number a, y => by
    cases y with
    | number b => rw [beq, Numeric.beq_iff, plainZeros, plainZeros, Json.number.injEq]
    | _ => simp [beq, plainZeros]
  | .string a, y => by cases y <;> simp [beq, plainZeros]
  | .array xs, y => by
    cases y with
    | array ys => rw [beq, beqItems_iff xs ys, plainZeros, plainZeros, Json.array.injEq]
    | _ => simp [beq, plainZeros]
  | .object xs, y => by
    cases y with
    | object ys => rw [beq, beqEntries_iff xs ys, plainZeros, plainZeros, Json.object.injEq]
    | _ => simp [beq, plainZeros]

theorem beqItems_iff : ∀ xs ys : List Json, beqItems xs ys = true ↔ plainItems xs = plainItems ys
  | [], ys => by cases ys <;> simp [beqItems, plainItems]
  | x :: xs, ys => by
    cases ys with
    | nil => simp [beqItems, plainItems]
    | cons y ys =>
      rw [beqItems, Bool.and_eq_true, beq_iff x y, beqItems_iff xs ys, plainItems, plainItems,
        List.cons.injEq]

theorem beqEntries_iff : ∀ xs ys : List (String × Json),
    beqEntries xs ys = true ↔ plainEntries xs = plainEntries ys
  | [], ys => by cases ys <;> simp [beqEntries, plainEntries]
  | (name, x) :: xs, ys => by
    cases ys with
    | nil => simp [beqEntries, plainEntries]
    | cons entry ys =>
      obtain ⟨other, y⟩ := entry
      rw [beqEntries, Bool.and_eq_true, Bool.and_eq_true, beq_iff_eq, beq_iff x y,
        beqEntries_iff xs ys, plainEntries, plainEntries, List.cons.injEq, Prod.mk.injEq]

end

/-! ## Agreement -/

def isComposite : Json → Bool
  | .array _ => true
  | .object _ => true
  | _ => false

/-- Arrays or objects that differ in the signs of zeros and in nothing else. -/
def ZerosApart (x y : Json) : Prop :=
  x.isComposite = true ∧ x ≠ y ∧ x.plainZeros = y.plainZeros

/-- Equality and order of two values agree. -/
structure Agrees (x y : Json) : Prop where
  /-- Equal values are those that no sort tells apart. -/
  sorted : x.same y = true ↔ ∀ direction, sortOrder direction x y = .eq
  ordered : x ≠ .null → y ≠ .null → x.kindRank = y.kindRank →
    (x.same y = true ↔ order? x y = some .eq)
  single : x ≠ .null → y ≠ .null → x.kindRank = y.kindRank →
    [Relation.less, .equal, .greater].countP (fun relation => relation.holds x y) = 1

theorem kindRank_eq_zero_iff {x : Json} : x.kindRank = 0 ↔ x = .null := by
  cases x <;> simp [kindRank]

theorem ne_null_of_kinds {x y : Json} (kinds : x.kindRank = y.kindRank) (someX : x ≠ .null) :
    y ≠ .null :=
  fun null => someX (kindRank_eq_zero_iff.mp (kinds.trans (kindRank_eq_zero_iff.mpr null)))

theorem order?_composites {x y : Json} (composite : x.isComposite = true)
    (kinds : x.kindRank = y.kindRank) : order? x y = some (compare x.text y.text) := by
  cases x with
  | array _ => cases y with
    | array _ => rfl
    | _ => cases kinds
  | object _ => cases y with
    | object _ => rfl
    | _ => cases kinds
  | _ => cases composite

theorem same_composites {x y : Json} (composite : x.isComposite = true)
    (kinds : x.kindRank = y.kindRank) : x.same y = x.beq y := by
  cases x with
  | array _ => cases y with
    | array _ => rfl
    | _ => cases kinds
  | object _ => cases y with
    | object _ => rfl
    | _ => cases kinds
  | _ => cases composite

theorem same_scalars {x y : Json} (scalar : x.isComposite = false) (nonNull : x ≠ .null) :
    x.same y = (order? x y == some .eq) := by
  cases x with
  | null => exact absurd rfl nonNull
  | array _ => cases scalar
  | object _ => cases scalar
  | _ => cases y <;> rfl

theorem order?_eq_iff_of_composite {x y : Json} (composite : x.isComposite = true)
    (kinds : x.kindRank = y.kindRank) : order? x y = some .eq ↔ x = y := by
  rw [order?_composites composite kinds, Option.some.injEq, Std.compare_eq_iff_eq]
  exact ⟨text_injective, congrArg text⟩

theorem order?_of_kinds {x y : Json} (someX : x ≠ .null) (kinds : x.kindRank = y.kindRank) :
    ∃ order, order? x y = some order := by
  cases x with
  | null => exact absurd rfl someX
  | number a =>
    cases y with
    | number b => exact ⟨_, orderNumbers?_eq a b⟩
    | _ => cases kinds
  | _ =>
    cases y <;> first | exact ⟨_, rfl⟩ | cases kinds

/-- Values of one kind are equal by their order unless the signs of zeros set them apart. -/
theorem same_eq_of_not_zerosApart {x y : Json} (nonNull : x ≠ .null)
    (kinds : x.kindRank = y.kindRank) (notApart : ¬ZerosApart x y) :
    x.same y = (order? x y == some .eq) := by
  cases composite : x.isComposite with
  | false => exact same_scalars composite nonNull
  | true =>
    rw [same_composites composite kinds, Bool.eq_iff_iff, beq_iff, beq_iff_eq,
      order?_eq_iff_of_composite composite kinds]
    refine ⟨fun plain => ?_, congrArg plainZeros⟩
    exact Classical.byContradiction fun differ => notApart ⟨composite, differ, plain⟩

theorem agrees_of_comparesAs {x y : Json} {order : Ordering} (compares : ComparesAs x y order) :
    Agrees x y where
  sorted := by
    rw [compares.same, Ordering.isEq_iff_eq_eq]
    constructor
    · rintro rfl direction
      cases direction with
      | ascending => exact compares.ascending
      | descending => exact compares.descending
    · intro both
      exact compares.ascending.symm.trans (both .ascending)
  ordered _ _ _ := by
    rw [compares.same, compares.ordered, Option.some.injEq, Ordering.isEq_iff_eq_eq]
  single _ _ _ := by
    simp only [List.countP_cons, List.countP_nil, compares.related]
    cases order <;> rfl

theorem sortOrder_ne_eq_of_kinds {x y : Json} (kinds : x.kindRank ≠ y.kindRank)
    (direction : Direction) : sortOrder direction x y ≠ .eq := by
  by_cases someX : x = .null
  · subst someX
    have someY : y ≠ .null := fun null => kinds (null ▸ rfl)
    rw [sortOrder_null_left someY]
    exact nofun
  by_cases someY : y = .null
  · subst someY
    rw [sortOrder_null_right someX]
    exact nofun
  rw [sortOrder_eq someX someY]
  cases direction with
  | ascending =>
    rw [orderOrRank_of_ne kinds]
    exact fun equal => kinds (Nat.compare_eq_eq.mp equal)
  | descending =>
    rw [orderOrRank_of_ne kinds.symm]
    exact fun equal => kinds (Nat.compare_eq_eq.mp equal).symm

theorem agrees_of_kinds {x y : Json} (kinds : x.kindRank ≠ y.kindRank) : Agrees x y where
  sorted := by
    have differ : x.same y = false := by
      cases x <;> cases y <;> first | rfl | exact absurd rfl kinds
    rw [differ]
    exact iff_of_false nofun fun both => sortOrder_ne_eq_of_kinds kinds .ascending (both .ascending)
  ordered _ _ same := absurd same kinds
  single _ _ same := absurd same kinds

theorem agrees_null : Agrees .null .null where
  sorted := iff_of_true rfl fun _ => rfl
  ordered nonNull := absurd rfl nonNull
  single nonNull := absurd rfl nonNull

/-- Arrays or objects that the signs of zeros set apart are equal, but one is before the other. -/
theorem not_agrees_of_zerosApart {x y : Json} (apart : ZerosApart x y) : ¬Agrees x y := by
  intro agrees
  obtain ⟨composite, differ, plain⟩ := apart
  have kinds : x.kindRank = y.kindRank := by
    rw [← kindRank_plainZeros x, plain, kindRank_plainZeros]
  have someX : x ≠ .null := by
    rintro rfl
    cases composite
  have equal : x.same y = true := by rw [same_composites composite kinds, beq_iff, plain]
  have ordered := (agrees.ordered someX (ne_null_of_kinds kinds someX) kinds).mp equal
  exact differ ((order?_eq_iff_of_composite composite kinds).mp ordered)

/-- Equality and order of two values agree, unless they are arrays or objects that differ in the
signs of zeros and in nothing else. -/
theorem agrees_iff (x y : Json) : Agrees x y ↔ ¬ZerosApart x y := by
  refine ⟨fun agrees apart => not_agrees_of_zerosApart apart agrees, fun notApart => ?_⟩
  by_cases kinds : x.kindRank = y.kindRank
  · by_cases someX : x = .null
    · subst someX
      obtain rfl := kindRank_eq_zero_iff.mp kinds.symm
      exact agrees_null
    · obtain ⟨order, ordered⟩ := order?_of_kinds someX kinds
      exact agrees_of_comparesAs (comparesAs_of_order? someX (ne_null_of_kinds kinds someX) ordered
        (same_eq_of_not_zerosApart someX kinds notApart))
  · exact agrees_of_kinds kinds

namespace Samples

def listedZero : Json := .array [.number (.float (.zero false))]

def listedNegativeZero : Json := .array [.number (.float (.zero true))]

end Samples

theorem zeros_disagree :
    Samples.listedZero.same Samples.listedNegativeZero = true ∧
      order? Samples.listedZero Samples.listedNegativeZero = some .gt ∧
      sortOrder .ascending Samples.listedZero Samples.listedNegativeZero = .gt ∧
      sortOrder .descending Samples.listedZero Samples.listedNegativeZero = .lt ∧
      Relation.equal.holds Samples.listedZero Samples.listedNegativeZero = true ∧
      Relation.greater.holds Samples.listedZero Samples.listedNegativeZero = true ∧
      ¬Agrees Samples.listedZero Samples.listedNegativeZero := by
  have equal : Samples.listedZero.same Samples.listedNegativeZero = true := by decide +kernel
  have ordered : order? Samples.listedZero Samples.listedNegativeZero = some .gt := by
    decide +kernel
  refine ⟨equal, ordered, by decide +kernel, by decide +kernel, equal, by decide +kernel, ?_⟩
  intro agrees
  have both := (agrees.ordered nofun nofun rfl).mp equal
  rw [ordered] at both
  cases both

end Json

end LayeredQuery
