/-!
# Sorters

A sort takes the comparison it is given at its word: it has to be a total preorder of the items. Of
such items a sorter gives the stable sort. Of others it may give any order of them, or end without
one.
-/

set_option autoImplicit false

namespace LayeredQuery

variable {α : Type}

/-- A comparison is a total preorder of some items. -/
structure Preorders (cmp : α → α → Ordering) (items : List α) : Prop where
  self : ∀ x ∈ items, cmp x x = .eq
  swap : ∀ x ∈ items, ∀ y ∈ items, cmp y x = (cmp x y).swap
  trans : ∀ x ∈ items, ∀ y ∈ items, ∀ z ∈ items,
    cmp x y ≠ .gt → cmp y z ≠ .gt → cmp x z ≠ .gt

instance (cmp : α → α → Ordering) (items : List α) : Decidable (Preorders cmp items) :=
  decidable_of_iff
    ((∀ x ∈ items, cmp x x = .eq) ∧ (∀ x ∈ items, ∀ y ∈ items, cmp y x = (cmp x y).swap) ∧
      ∀ x ∈ items, ∀ y ∈ items, ∀ z ∈ items, cmp x y ≠ .gt → cmp y z ≠ .gt → cmp x z ≠ .gt)
    ⟨fun laws => ⟨laws.1, laws.2.1, laws.2.2⟩, fun laws => ⟨laws.self, laws.swap, laws.trans⟩⟩

structure StableSort (cmp : α → α → Ordering) (items sorted : List α) : Prop where
  perm : sorted.Perm items
  ordered : sorted.Pairwise fun x y => cmp x y ≠ .gt
  stable : ∀ x ∈ items,
    (sorted.filter fun y => cmp x y == .eq) = items.filter fun y => cmp x y == .eq

structure Sorter (α : Type) where
  sort : (α → α → Ordering) → List α → Option (List α)
  perm : ∀ {cmp : α → α → Ordering} {items sorted : List α},
    sort cmp items = some sorted → sorted.Perm items
  stable : ∀ {cmp : α → α → Ordering} {items : List α}, Preorders cmp items →
    ∃ sorted, sort cmp items = some sorted ∧ StableSort cmp items sorted

namespace Preorders

variable {cmp : α → α → Ordering} {items others : List α}

theorem of_subset (preorders : Preorders cmp items) (subset : others ⊆ items) :
    Preorders cmp others where
  self x member := preorders.self x (subset member)
  swap x xMember y yMember := preorders.swap x (subset xMember) y (subset yMember)
  trans x xMember y yMember z zMember :=
    preorders.trans x (subset xMember) y (subset yMember) z (subset zMember)

theorem of_perm (preorders : Preorders cmp items) (perm : others.Perm items) :
    Preorders cmp others :=
  preorders.of_subset perm.subset

/-- Items that tie with one item tie with each other. -/
theorem tie_trans (preorders : Preorders cmp items) {x y z : α} (xMember : x ∈ items)
    (yMember : y ∈ items) (zMember : z ∈ items) (first : cmp x y = .eq) (second : cmp x z = .eq) :
    cmp y z = .eq := by
  have yx : cmp y x = .eq := by rw [preorders.swap x xMember y yMember, first]; rfl
  have zx : cmp z x = .eq := by rw [preorders.swap x xMember z zMember, second]; rfl
  have le := preorders.trans y yMember x xMember z zMember (by rw [yx]; exact nofun)
    (by rw [second]; exact nofun)
  have ge := preorders.trans z zMember x xMember y yMember (by rw [zx]; exact nofun)
    (by rw [first]; exact nofun)
  rw [preorders.swap y yMember z zMember] at ge
  cases order : cmp y z with
  | eq => rfl
  | lt => rw [order] at ge; exact absurd rfl ge
  | gt => exact absurd order le

end Preorders

end LayeredQuery
