import LayeredQuery.Proofs.Evaluation.ValueOrder
import LayeredQuery.Proofs.Number.Whole
import LayeredQuery.Proofs.StableSort

/-!
# The order of a sort

A sort compares values of one kind by their order, values of different kinds by their kinds, and
puts null last. Any two values compare, and the other way round they compare the other way. A third
value in between can disagree with them, because the rule of a comparison depends on the pair: two
strings that are instants compare as such, but either of them compares by its text with a string
that is none, and two integers that compare as floats with a third number can be one float. Three
values that do not mix rules in this way are in order.
-/

set_option autoImplicit false

namespace LayeredQuery

open LayeredQuery.Number LayeredQuery.Time

namespace Json

/-! ## Numbers -/

/-- The value of the nearest float, in units of the least positive one. -/
def Numeric.approximate (x : Numeric) : Int :=
  ((nearest? x).map Binary64.scaled).getD 0

theorem nearest?_int (value : Int)
    (inRange : -0x8000000000000000 ≤ value ∧ value < 0x10000000000000000) :
    ∃ x, nearest? (.int value inRange) = some x ∧
      x.scaled = Binary64.nearestInt value * (1 <<< 1074 : Nat) := by
  have small : value.natAbs < 1 <<< 64 := by
    rw [Nat.one_shiftLeft]
    omega
  obtain ⟨x, rounds, sign, worth⟩ := Binary64.ofRatio?_whole (value < 0) small
  refine ⟨x, rounds, ?_⟩
  rw [Binary64.scaled, sign, worth, Binary64.shiftLeft_eq_mul, Binary64.nearestInt]
  simp only [decide_eq_true_eq]
  split
  · rw [Int.natCast_mul, Int.neg_mul]
  · rw [Int.natCast_mul]

theorem nearest?_eq (x : Numeric) :
    ∃ value, nearest? x = some value ∧ value.scaled = x.approximate := by
  have found : ∃ value, nearest? x = some value := by
    cases x with
    | float value => exact ⟨value, rfl⟩
    | int value inRange =>
      obtain ⟨x, found, _⟩ := nearest?_int value inRange
      exact ⟨x, found⟩
  obtain ⟨value, found⟩ := found
  exact ⟨value, found, by rw [Numeric.approximate, found]; rfl⟩

theorem approximate_int (value : Int)
    (inRange : -0x8000000000000000 ≤ value ∧ value < 0x10000000000000000) :
    (Numeric.int value inRange).approximate = Binary64.nearestInt value * (1 <<< 1074 : Nat) := by
  obtain ⟨x, found, worth⟩ := nearest?_int value inRange
  rw [Numeric.approximate, found]
  exact worth

theorem approximate_mono {low high : Int}
    {lowInRange : -0x8000000000000000 ≤ low ∧ low < 0x10000000000000000}
    {highInRange : -0x8000000000000000 ≤ high ∧ high < 0x10000000000000000} (le : low ≤ high) :
    (Numeric.int low lowInRange).approximate ≤ (Numeric.int high highInRange).approximate := by
  rw [approximate_int, approximate_int]
  exact Int.mul_le_mul_of_nonneg_right (Binary64.nearestInt_mono le) (Int.natCast_nonneg _)

/-- Numbers compare as integers when both are signed ones, and otherwise as their nearest
floats. -/
theorem orderNumbers?_eq (x y : Numeric) :
    orderNumbers? x y =
      some (match signed? x, signed? y with
        | some x, some y => compare x y
        | _, _ => compare x.approximate y.approximate) := by
  obtain ⟨a, foundX, worthX⟩ := nearest?_eq x
  obtain ⟨b, foundY, worthY⟩ := nearest?_eq y
  unfold orderNumbers?
  simp only [foundX, foundY, Binary64.order, worthX, worthY]
  cases signed? x <;> cases signed? y <;> rfl

theorem orderNumbers?_ne_gt_iff {x y : Numeric} :
    orderNumbers? x y ≠ some .gt ↔
      match signed? x, signed? y with
      | some x, some y => x ≤ y
      | _, _ => x.approximate ≤ y.approximate := by
  rw [orderNumbers?_eq, ne_eq, Option.some.injEq]
  split <;> exact Int.compare_ne_gt

theorem approximate_le_of_order {x y : Numeric} (le : orderNumbers? x y ≠ some .gt) :
    x.approximate ≤ y.approximate := by
  rw [orderNumbers?_ne_gt_iff] at le
  split at le
  · rename_i i j isX isY
    cases x with
    | float _ => cases isX
    | int _ _ =>
      cases y with
      | float _ => cases isY
      | int _ _ =>
        simp only [signed?, Option.ite_none_right_eq_some, Option.some.injEq] at isX isY
        exact approximate_mono (by omega)
  · exact le

/-- Whether the order of the outer two of three numbers goes by what the third does not see: both
are signed integers that as floats are one. -/
def mixesNumbers (x y z : Numeric) : Bool :=
  (signed? x).isSome && (signed? y).isNone && (signed? z).isSome && x.approximate == z.approximate

theorem orderNumbers?_trans {x y z : Numeric} (unmixed : mixesNumbers x y z = false)
    (first : orderNumbers? x y ≠ some .gt) (second : orderNumbers? y z ≠ some .gt) :
    orderNumbers? x z ≠ some .gt := by
  have asFloats : x.approximate ≤ z.approximate :=
    Int.le_trans (approximate_le_of_order first) (approximate_le_of_order second)
  cases isX : signed? x with
  | none => simpa [orderNumbers?_ne_gt_iff, isX] using asFloats
  | some i =>
    cases isZ : signed? z with
    | none => simpa [orderNumbers?_ne_gt_iff, isX, isZ] using asFloats
    | some k =>
      cases isY : signed? y with
      | some j =>
        simp only [orderNumbers?_ne_gt_iff, isX, isY, isZ] at first second ⊢
        exact Int.le_trans first second
      | none =>
        have apart : x.approximate ≠ z.approximate := by
          simpa [mixesNumbers, isX, isY, isZ] using unmixed
        intro later
        have back : orderNumbers? z x ≠ some .gt := by
          rw [orderNumbers?_swap x z, later]
          decide
        exact apart (Int.le_antisymm asFloats (approximate_le_of_order back))

/-! ## Strings -/

instance : Std.TransCmp Instant.order :=
  inferInstanceAs (Std.TransCmp (compareLex (compareOn Instant.day)
    (compareLex (compareOn Instant.second) (compareOn Instant.nano))))

/-- Whether two of three strings are instants and the third is none. -/
def mixesStrings (x y z : String) : Bool :=
  [x, y, z].countP (fun text => (Instant.ofText? text).isSome) == 2

theorem orderStrings_trans {x y z : String} (unmixed : mixesStrings x y z = false)
    (first : orderStrings x y ≠ .gt) (second : orderStrings y z ≠ .gt) :
    orderStrings x z ≠ .gt := by
  unfold mixesStrings at unmixed
  unfold orderStrings at first second ⊢
  cases isX : Instant.ofText? x <;> cases isY : Instant.ofText? y <;>
    cases isZ : Instant.ofText? z <;>
    simp only [isX, isY, isZ, List.countP_cons, List.countP_nil] at unmixed first second ⊢
  case some.some.some => exact ne_gt_trans first second
  case none.none.none => exact ne_gt_trans first second
  case none.none.some => exact ne_gt_trans first second
  case none.some.none => exact ne_gt_trans first second
  case some.none.none => exact ne_gt_trans first second
  all_goals cases unmixed

/-! ## Values of all kinds -/

/-- The order of two values, which goes by their kinds where these differ. -/
def orderOrRank (x y : Json) : Ordering :=
  (order? x y).getD (compare x.kindRank y.kindRank)

theorem orderOrRank_swap (x y : Json) : orderOrRank y x = (orderOrRank x y).swap := by
  unfold orderOrRank
  rw [order?_swap x y]
  cases order? x y with
  | none => exact Std.OrientedOrd.eq_swap
  | some order => rfl

theorem orderOrRank_of_ne {x y : Json} (differ : x.kindRank ≠ y.kindRank) :
    orderOrRank x y = compare x.kindRank y.kindRank := by
  have none : order? x y = none := by
    cases x <;> cases y <;> first | rfl | exact absurd rfl differ
  rw [orderOrRank, none, Option.getD_none]

theorem kindRank_le_of_order {x y : Json} (le : orderOrRank x y ≠ .gt) :
    x.kindRank ≤ y.kindRank := by
  by_cases same : x.kindRank = y.kindRank
  · exact Nat.le_of_eq same
  · rw [orderOrRank_of_ne same] at le
    exact Nat.compare_ne_gt.mp le

/-- Whether three values of one kind are compared by more than one rule, in a way that lets the
comparisons disagree. -/
def mixesRules : Json → Json → Json → Bool
  | .number x, .number y, .number z => mixesNumbers x y z
  | .string x, .string y, .string z => mixesStrings x y z
  | _, _, _ => false

theorem mixesRules_reverse (x y z : Json) : mixesRules z y x = mixesRules x y z := by
  cases x <;> cases y <;> cases z <;> try rfl
  case number.number.number x y z =>
    have sameFloat : (z.approximate == x.approximate) = (x.approximate == z.approximate) := BEq.comm
    simp only [mixesRules, mixesNumbers, sameFloat]
    cases (signed? x).isSome <;> cases (signed? y).isNone <;> cases (signed? z).isSome <;> rfl
  case string.string.string x y z =>
    exact congrArg (· == 2) ((List.reverse_perm [x, y, z]).countP_eq _)

theorem orderOrRank_number (x y : Numeric) :
    orderOrRank (.number x) (.number y) ≠ .gt ↔ orderNumbers? x y ≠ some .gt := by
  simp only [orderOrRank, order?, orderNumbers?_eq, Option.getD_some, ne_eq, Option.some.injEq]

theorem orderOrRank_trans {x y z : Json} (unmixed : mixesRules x y z = false)
    (first : orderOrRank x y ≠ .gt) (second : orderOrRank y z ≠ .gt) :
    orderOrRank x z ≠ .gt := by
  have lower := kindRank_le_of_order first
  have upper := kindRank_le_of_order second
  by_cases same : x.kindRank = z.kindRank
  · have sameY : x.kindRank = y.kindRank := by omega
    cases x with
    | null =>
      cases y with
      | null =>
        cases z with
        | null => exact nofun
        | _ => cases same
      | _ => cases sameY
    | bool _ =>
      cases y with
      | bool _ =>
        cases z with
        | bool _ => exact @ne_gt_trans Nat compare _ _ _ _ first second
        | _ => cases same
      | _ => cases sameY
    | number x =>
      cases y with
      | number y =>
        cases z with
        | number z =>
          exact (orderOrRank_number x z).mpr (orderNumbers?_trans unmixed
            ((orderOrRank_number x y).mp first) ((orderOrRank_number y z).mp second))
        | _ => cases same
      | _ => cases sameY
    | string _ =>
      cases y with
      | string _ =>
        cases z with
        | string _ => exact orderStrings_trans unmixed first second
        | _ => cases same
      | _ => cases sameY
    | array _ =>
      cases y with
      | array _ =>
        cases z with
        | array _ => exact @ne_gt_trans String compare _ _ _ _ first second
        | _ => cases same
      | _ => cases sameY
    | object _ =>
      cases y with
      | object _ =>
        cases z with
        | object _ => exact @ne_gt_trans String compare _ _ _ _ first second
        | _ => cases same
      | _ => cases sameY
  · rw [orderOrRank_of_ne same]
    exact Nat.compare_ne_gt.mpr (Nat.le_trans lower upper)

/-! ## Sorting by values -/

theorem sortOrder_eq {direction : Direction} {x y : Json} (someX : x ≠ .null) (someY : y ≠ .null) :
    sortOrder direction x y =
      match direction with
      | .ascending => orderOrRank x y
      | .descending => orderOrRank y x := by
  have plain : sortOrder direction x y =
      match direction with
      | .ascending => orderOrRank x y
      | .descending => (orderOrRank x y).swap := by
    cases x <;> cases y <;> first | rfl | exact absurd rfl someX | exact absurd rfl someY
  rw [plain]
  cases direction with
  | ascending => rfl
  | descending => exact (orderOrRank_swap x y).symm

theorem sortOrder_null_left {direction : Direction} {x : Json} (some : x ≠ .null) :
    sortOrder direction .null x = .gt := by
  cases x <;> first | rfl | exact absurd rfl some

theorem sortOrder_null_right {direction : Direction} {x : Json} (some : x ≠ .null) :
    sortOrder direction x .null = .lt := by
  cases x <;> first | rfl | exact absurd rfl some

theorem sortOrder_swap (direction : Direction) (x y : Json) :
    sortOrder direction y x = (sortOrder direction x y).swap := by
  by_cases someX : x = .null
  · subst someX
    by_cases someY : y = .null
    · subst someY
      rfl
    · rw [sortOrder_null_left someY, sortOrder_null_right someY, Ordering.swap_gt]
  by_cases someY : y = .null
  · subst someY
    rw [sortOrder_null_left someX, sortOrder_null_right someX, Ordering.swap_lt]
  rw [sortOrder_eq someX someY, sortOrder_eq someY someX]
  cases direction with
  | ascending => exact orderOrRank_swap x y
  | descending => exact orderOrRank_swap y x

theorem sortOrder_self (direction : Direction) (x : Json) : sortOrder direction x x = .eq := by
  have swapped := sortOrder_swap direction x x
  cases order : sortOrder direction x x with
  | eq => rfl
  | lt => simp [order] at swapped
  | gt => simp [order] at swapped

theorem sortOrder_trans {direction : Direction} {x y z : Json} (unmixed : mixesRules x y z = false)
    (first : sortOrder direction x y ≠ .gt) (second : sortOrder direction y z ≠ .gt) :
    sortOrder direction x z ≠ .gt := by
  by_cases someX : x = .null
  · subst someX
    have noY : y = .null :=
      Classical.byContradiction fun someY => first (sortOrder_null_left someY)
    exact noY ▸ second
  by_cases someZ : z = .null
  · subst someZ
    rw [sortOrder_null_right someX]
    exact nofun
  have someY : y ≠ .null := by
    rintro rfl
    exact second (sortOrder_null_left someZ)
  rw [sortOrder_eq someX someY] at first
  rw [sortOrder_eq someY someZ] at second
  rw [sortOrder_eq someX someZ]
  cases direction with
  | ascending => exact orderOrRank_trans unmixed first second
  | descending => exact orderOrRank_trans ((mixesRules_reverse x y z).trans unmixed) second first

theorem preorders_of_unmixed {direction : Direction} {values : List Json}
    (unmixed : ∀ x ∈ values, ∀ y ∈ values, ∀ z ∈ values, mixesRules x y z = false) :
    Preorders (sortOrder direction) values where
  self x _ := sortOrder_self direction x
  swap x _ y _ := sortOrder_swap direction x y
  trans x xMember y yMember z zMember := sortOrder_trans (unmixed x xMember y yMember z zMember)

/-- Any two values of a sort compare, the other way round the other way, and each is equal to
itself. They are in one order with a third value unless the three mix rules. -/
theorem sortOrder_preorder_of_unmixed (direction : Direction) (x y z : Json) :
    sortOrder direction x x = .eq ∧
      sortOrder direction y x = (sortOrder direction x y).swap ∧
      (mixesRules x y z = false → sortOrder direction x y ≠ .gt → sortOrder direction y z ≠ .gt →
        sortOrder direction x z ≠ .gt) :=
  ⟨sortOrder_self direction x, sortOrder_swap direction x y, sortOrder_trans⟩

namespace Samples

def beyondFloats : Json := .number (.int 9007199254740993 (by decide))

def powerOfTwo : Json := .number (.int 9007199254740992 (by decide))

def powerOfTwoAsFloat : Json := .number (.float ⟨false, 1 <<< 52, 1, by decide⟩)

def halfPastFour : Json := .number (.float ⟨false, 9 <<< 49, -50, by decide⟩)

def noon : Json := .string "2024-05-01T12:00:00Z"

def beforeNoon : Json := .string "2024-05-01T13:30:00+02:00"

def noSeconds : Json := .string "2024-05-01T12:30"

end Samples

theorem sortOrder_preorder_of_unmixed_numbers :
    sortOrder .ascending (.number (.ofSize 3)) Samples.halfPastFour ≠ .gt ∧
      sortOrder .ascending Samples.halfPastFour (.number (.ofSize 5)) ≠ .gt ∧
      sortOrder .ascending (.number (.ofSize 3)) (.number (.ofSize 5)) ≠ .gt := by
  have unmixed : mixesRules (.number (.ofSize 3)) Samples.halfPastFour (.number (.ofSize 5)) =
      false := by decide +kernel
  have first : sortOrder .ascending (.number (.ofSize 3)) Samples.halfPastFour ≠ .gt := by
    decide +kernel
  have second : sortOrder .ascending Samples.halfPastFour (.number (.ofSize 5)) ≠ .gt := by
    decide +kernel
  exact ⟨first, second, (sortOrder_preorder_of_unmixed .ascending _ _ _).2.2 unmixed first second⟩

/-- Two integers of which a float between them is both, and two instants with a text between them
that is none, are in no order, in either direction. -/
theorem sortOrder_disagrees :
    sortOrder .ascending Samples.beyondFloats Samples.powerOfTwoAsFloat = .eq ∧
      sortOrder .ascending Samples.powerOfTwoAsFloat Samples.powerOfTwo = .eq ∧
      sortOrder .ascending Samples.beyondFloats Samples.powerOfTwo = .gt ∧
      sortOrder .descending Samples.beforeNoon Samples.noSeconds = .lt ∧
      sortOrder .descending Samples.noSeconds Samples.noon = .lt ∧
      sortOrder .descending Samples.beforeNoon Samples.noon = .gt ∧
      ∀ direction, ¬ ∀ x y z, sortOrder direction x y ≠ .gt → sortOrder direction y z ≠ .gt →
        sortOrder direction x z ≠ .gt := by
  have byFloat : sortOrder .ascending Samples.beyondFloats Samples.powerOfTwoAsFloat = .eq ∧
      sortOrder .ascending Samples.powerOfTwoAsFloat Samples.powerOfTwo = .eq ∧
      sortOrder .ascending Samples.beyondFloats Samples.powerOfTwo = .gt := by decide +kernel
  have byText : sortOrder .descending Samples.beforeNoon Samples.noSeconds = .lt ∧
      sortOrder .descending Samples.noSeconds Samples.noon = .lt ∧
      sortOrder .descending Samples.beforeNoon Samples.noon = .gt := by decide +kernel
  refine ⟨byFloat.1, byFloat.2.1, byFloat.2.2, byText.1, byText.2.1, byText.2.2, ?_⟩
  intro direction transitive
  have notLater {order other : Ordering} (same : order = other) (le : other ≠ .gt) : order ≠ .gt :=
    same ▸ le
  cases direction with
  | ascending =>
    exact transitive _ _ _ (notLater byFloat.1 nofun) (notLater byFloat.2.1 nofun) byFloat.2.2
  | descending =>
    exact transitive _ _ _ (notLater byText.1 nofun) (notLater byText.2.1 nofun) byText.2.2

end Json

end LayeredQuery
