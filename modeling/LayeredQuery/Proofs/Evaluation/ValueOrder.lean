import LayeredQuery.Evaluation.ValueOrder

/-!
# Order of values from both sides

Exchanging two values turns their order around and leaves their equality as it is, so a relation of
two values is the reversed relation of the values exchanged. The numbers, instants and texts below
the values bring this from their own orders.
-/

set_option autoImplicit false

namespace LayeredQuery

open LayeredQuery.Number LayeredQuery.Time

theorem Number.Binary64.order_swap (x y : Binary64) : y.order x = (x.order y).swap :=
  Std.OrientedOrd.eq_swap

theorem Time.Instant.order_swap (x y : Instant) : y.order x = (x.order y).swap := by
  unfold Instant.order
  rw [Ordering.swap_then, Ordering.swap_then]
  congr 1
  · exact Std.OrientedOrd.eq_swap
  · congr 1
    · exact Std.OrientedOrd.eq_swap
    · exact Std.OrientedOrd.eq_swap

namespace Json

/-! ## Orders -/

theorem orderNumbers?_swap (x y : Numeric) :
    orderNumbers? y x = (orderNumbers? x y).map Ordering.swap := by
  unfold orderNumbers?
  cases signed? x with
  | some i =>
    cases signed? y with
    | some j => exact congrArg some Std.OrientedOrd.eq_swap
    | none =>
      cases nearest? x with
      | none => cases nearest? y <;> rfl
      | some a =>
        cases nearest? y with
        | none => rfl
        | some b => exact congrArg some (Binary64.order_swap a b)
  | none =>
    cases nearest? x with
    | none => cases nearest? y <;> cases signed? y <;> rfl
    | some a =>
      cases nearest? y with
      | none => cases signed? y <;> rfl
      | some b => cases signed? y <;> exact congrArg some (Binary64.order_swap a b)

theorem orderStrings_swap (x y : String) : orderStrings y x = (orderStrings x y).swap := by
  have byText : compare y x = (compare x y).swap := Std.OrientedOrd.eq_swap
  unfold orderStrings
  cases Instant.ofText? x with
  | none => cases Instant.ofText? y <;> exact byText
  | some a =>
    cases Instant.ofText? y with
    | none => exact byText
    | some b => exact Instant.order_swap a b

theorem order?_swap (x y : Json) : order? y x = (order? x y).map Ordering.swap := by
  cases x <;> cases y <;> try rfl
  case bool.bool => exact congrArg some Std.OrientedOrd.eq_swap
  case number.number x y => exact orderNumbers?_swap x y
  case string.string x y => exact congrArg some (orderStrings_swap x y)
  case array.array => exact congrArg some Std.OrientedOrd.eq_swap
  case object.object => exact congrArg some Std.OrientedOrd.eq_swap

theorem order?_swap_eq (x y : Json) (order : Ordering) :
    (order? y x == some order) = (order? x y == some order.swap) := by
  rw [order?_swap x y]
  cases order? x y with
  | none => rfl
  | some found => cases found <;> cases order <;> rfl

/-! ## Equality -/

theorem Numeric.beq_comm (x y : Numeric) : x.beq y = y.beq x := by
  cases x with
  | int i _ =>
    cases y with
    | int j _ => exact BEq.comm
    | float _ => rfl
  | float a =>
    cases y with
    | int _ _ => rfl
    | float b =>
      simp only [Numeric.beq]
      rw [Binary64.order_swap a b]
      cases a.order b <;> rfl

mutual

theorem beq_comm : ∀ x y : Json, beq x y = beq y x
  | .null, y => by cases y <;> rfl
  | .bool a, y => by
    cases y with
    | bool b => exact BEq.comm
    | _ => rfl
  | .number a, y => by
    cases y with
    | number b => exact Numeric.beq_comm a b
    | _ => rfl
  | .string a, y => by
    cases y with
    | string b => exact BEq.comm
    | _ => rfl
  | .array xs, y => by
    cases y with
    | array ys => exact beqItems_comm xs ys
    | _ => rfl
  | .object xs, y => by
    cases y with
    | object ys => exact beqEntries_comm xs ys
    | _ => rfl

theorem beqItems_comm : ∀ xs ys : List Json, beqItems xs ys = beqItems ys xs
  | [], ys => by cases ys <;> rfl
  | x :: xs, ys => by
    cases ys with
    | nil => rfl
    | cons y ys => rw [beqItems, beqItems, beq_comm x y, beqItems_comm xs ys]

theorem beqEntries_comm : ∀ xs ys : List (String × Json), beqEntries xs ys = beqEntries ys xs
  | [], ys => by cases ys <;> rfl
  | (name, x) :: xs, ys => by
    cases ys with
    | nil => rfl
    | cons entry ys =>
      obtain ⟨other, y⟩ := entry
      rw [beqEntries, beqEntries, beq_comm x y, beqEntries_comm xs ys, BEq.comm (a := name)]

end

theorem same_comm (x y : Json) : same x y = same y x := by
  have ordered := order?_swap_eq x y .eq
  cases x <;> cases y <;> try rfl
  case bool.bool => exact ordered.symm
  case number.number => exact ordered.symm
  case string.string => exact ordered.symm
  case array.array => exact beq_comm _ _
  case object.object => exact beq_comm _ _

end Json

/-! ## Relations -/

theorem Relation.reversed_holds (relation : Relation) (x y : Json) :
    relation.reversed.holds x y = relation.holds y x := by
  have nonNull : (!x.isNull && !y.isNull) = (!y.isNull && !x.isNull) := Bool.and_comm _ _
  cases relation with
  | equal => exact Json.same_comm x y
  | notEqual => exact congrArg not (Json.same_comm x y)
  | less =>
    simp only [reversed, holds, nonNull, Json.order?_swap_eq x y, Ordering.swap_lt]
  | lessOrEqual =>
    simp only [reversed, holds, nonNull, Json.order?_swap_eq x y, Ordering.swap_lt,
      Ordering.swap_eq]
  | greater =>
    simp only [reversed, holds, nonNull, Json.order?_swap_eq x y, Ordering.swap_gt]
  | greaterOrEqual =>
    simp only [reversed, holds, nonNull, Json.order?_swap_eq x y, Ordering.swap_gt,
      Ordering.swap_eq]

end LayeredQuery
