import LayeredQuery.Proofs.Evaluation.SortOrder

/-!
# Comparisons that go by an order

Two numbers or two strings are in some order, and everything that compares them goes by it: their
equality, each relation of a filter, and a sort in either direction.
-/

set_option autoImplicit false

namespace LayeredQuery

def Relation.admits : Relation → Ordering → Bool
  | .equal, order => order.isEq
  | .notEqual, order => order.isNe
  | .less, order => order.isLT
  | .lessOrEqual, order => order.isLE
  | .greater, order => order.isGT
  | .greaterOrEqual, order => order.isGE

namespace Json

/-- All comparisons of two values go by an order. -/
structure ComparesAs (x y : Json) (order : Ordering) : Prop where
  ordered : order? x y = some order
  same : x.same y = order.isEq
  related : ∀ relation : Relation, relation.holds x y = relation.admits order
  ascending : sortOrder .ascending x y = order
  descending : sortOrder .descending x y = order.swap

theorem comparesAs_of_order? {x y : Json} {order : Ordering} (someX : x ≠ .null) (someY : y ≠ .null)
    (ordered : order? x y = some order) (same : x.same y = (order? x y == some .eq)) :
    ComparesAs x y order := by
  have someX' : x.isNull = false := by cases x <;> first | rfl | exact absurd rfl someX
  have someY' : y.isNull = false := by cases y <;> first | rfl | exact absurd rfl someY
  have byOrder : orderOrRank x y = order := by rw [orderOrRank, ordered, Option.getD_some]
  refine ⟨ordered, ?_, fun relation => ?_, ?_, ?_⟩
  · rw [same, ordered]
    cases order <;> rfl
  · cases relation <;>
      simp only [Relation.holds, Relation.admits, same, ordered, someX', someY'] <;>
      cases order <;> rfl
  · rw [sortOrder_eq someX someY, byOrder]
  · rw [sortOrder_eq someX someY]
    exact (orderOrRank_swap x y).trans (congrArg Ordering.swap byOrder)

theorem comparesAs_of_orderNumbers? {x y : Numeric} {order : Ordering}
    (ordered : orderNumbers? x y = some order) : ComparesAs (.number x) (.number y) order :=
  comparesAs_of_order? nofun nofun ordered rfl

theorem comparesAs_orderStrings (x y : String) :
    ComparesAs (.string x) (.string y) (orderStrings x y) :=
  comparesAs_of_order? nofun nofun rfl rfl

end Json

end LayeredQuery
