import LayeredQuery.Evaluation.Sorter

/-!
# Sorting by insertion

Items are inserted one by one, each from behind into those that are sorted already. Nothing fails on
the way. An item passes only those it is less than, so it stays behind every item that it ties with,
and what comes out is the stable sort of items that the comparison preorders.
-/

set_option autoImplicit false

namespace LayeredQuery

variable {α : Type}

/-- Puts an item behind the last one that it is not less than. The list is backwards. -/
def insertBack (cmp : α → α → Ordering) (item : α) : List α → List α
  | [] => [item]
  | last :: before =>
    if cmp item last = .lt then last :: insertBack cmp item before else item :: last :: before

/-- Inserts items from the first one on. Both lists are backwards. -/
def insertAllBack (cmp : α → α → Ordering) : List α → List α
  | [] => []
  | last :: before => insertBack cmp last (insertAllBack cmp before)

def insertionSort (cmp : α → α → Ordering) (items : List α) : List α :=
  (insertAllBack cmp items.reverse).reverse

section

variable {cmp : α → α → Ordering} {item : α} {items sorted : List α}

theorem insertBack_perm (cmp : α → α → Ordering) (item : α) (sorted : List α) :
    (insertBack cmp item sorted).Perm (item :: sorted) := by
  induction sorted with
  | nil => exact .refl _
  | cons last before ih =>
    rw [insertBack]
    split
    · exact (ih.cons last).trans (.swap item last before)
    · exact .refl _

theorem insertAllBack_perm (cmp : α → α → Ordering) (items : List α) :
    (insertAllBack cmp items).Perm items := by
  induction items with
  | nil => exact .refl _
  | cons last before ih => exact (insertBack_perm cmp last _).trans (ih.cons last)

theorem insertionSort_perm (cmp : α → α → Ordering) (items : List α) :
    (insertionSort cmp items).Perm items :=
  (List.reverse_perm _).trans ((insertAllBack_perm cmp _).trans (List.reverse_perm _))

theorem insertBack_ordered (preorders : Preorders cmp (item :: sorted))
    (ordered : sorted.Pairwise fun x y => cmp y x ≠ .gt) :
    (insertBack cmp item sorted).Pairwise fun x y => cmp y x ≠ .gt := by
  induction sorted with
  | nil => exact List.pairwise_singleton _ _
  | cons last before ih =>
    obtain ⟨here, later⟩ := List.pairwise_cons.mp ordered
    have without : Preorders cmp (item :: before) :=
      preorders.of_subset (List.cons_subset_cons item (List.subset_cons_self last before))
    rw [insertBack]
    split
    · rename_i less
      refine List.pairwise_cons.mpr ⟨fun other member => ?_, ih without later⟩
      rcases List.mem_cons.mp ((insertBack_perm cmp item before).subset member) with rfl | old
      · rw [less]
        exact nofun
      · exact here other old
    · rename_i notLess
      have lastBefore : cmp last item ≠ .gt := by
        intro greater
        rw [preorders.swap last (.tail _ (.head _)) item (.head _), greater] at notLess
        exact notLess rfl
      refine List.pairwise_cons.mpr ⟨fun other member => ?_, ordered⟩
      rcases List.mem_cons.mp member with rfl | old
      · exact lastBefore
      · exact preorders.trans other (.tail _ (.tail _ old)) last (.tail _ (.head _)) item (.head _)
          (here other old) lastBefore

theorem filter_insertBack {ties : α → Bool}
    (still : ∀ last ∈ sorted, ties item = true → ties last = true → cmp item last ≠ .lt) :
    (insertBack cmp item sorted).filter ties = (item :: sorted).filter ties := by
  induction sorted with
  | nil => rfl
  | cons last before ih =>
    rw [insertBack]
    split
    · rename_i less
      have below := ih fun other member => still other (.tail _ member)
      have apart := still last (.head _)
      rw [List.filter_cons, below]
      cases isItem : ties item <;> cases isLast : ties last
      · simp [isItem, isLast]
      · simp [isItem, isLast]
      · simp [isItem, isLast]
      · exact absurd less (apart isItem isLast)
    · rfl

theorem insertAllBack_ordered (preorders : Preorders cmp items) :
    (insertAllBack cmp items).Pairwise fun x y => cmp y x ≠ .gt := by
  induction items with
  | nil => exact .nil
  | cons last before ih =>
    exact insertBack_ordered (preorders.of_perm ((insertAllBack_perm cmp before).cons last))
      (ih (preorders.of_subset (List.subset_cons_self last before)))

theorem filter_insertAllBack {ties : α → Bool}
    (still : ∀ x ∈ items, ∀ y ∈ items, ties x = true → ties y = true → cmp x y ≠ .lt) :
    (insertAllBack cmp items).filter ties = items.filter ties := by
  induction items with
  | nil => rfl
  | cons last before ih =>
    have below := ih fun x xMember y yMember => still x (.tail _ xMember) y (.tail _ yMember)
    rw [insertAllBack, filter_insertBack, List.filter_cons, below, List.filter_cons]
    intro other member
    exact still last (.head _) other (.tail _ ((insertAllBack_perm cmp before).subset member))

theorem insertionSort_stable (preorders : Preorders cmp items) :
    StableSort cmp items (insertionSort cmp items) where
  perm := insertionSort_perm cmp items
  ordered := List.pairwise_reverse.mpr
    (insertAllBack_ordered (preorders.of_perm (List.reverse_perm items)))
  stable x member := by
    rw [insertionSort, List.filter_reverse, filter_insertAllBack, List.filter_reverse,
      List.reverse_reverse]
    intro y yMember z zMember first second
    rw [preorders.tie_trans member (List.mem_reverse.mp yMember) (List.mem_reverse.mp zMember)
      (beq_iff_eq.mp first) (beq_iff_eq.mp second)]
    exact nofun

end

namespace Sorter

/-- A sorter that inserts up to twenty items one by one, whatever the comparison is. A longer list
has to come out in order. -/
def standard : Sorter α where
  sort cmp items :=
    let sorted := insertionSort cmp items
    if items.length ≤ 20 ∨ sorted.Pairwise fun x y => cmp x y ≠ .gt then some sorted else none
  perm {cmp items sorted} given := by
    dsimp only at given
    split at given
    · cases given
      exact insertionSort_perm cmp items
    · cases given
  stable {cmp items} preorders := by
    have stable := insertionSort_stable preorders
    exact ⟨_, if_pos (.inr stable.ordered), stable⟩

/-- The sorter that fails wherever it may. -/
def demanding : Sorter α where
  sort cmp items := if Preorders cmp items then some (insertionSort cmp items) else none
  perm {cmp items sorted} given := by
    split at given
    · cases given
      exact insertionSort_perm cmp items
    · cases given
  stable preorders := ⟨_, if_pos preorders, insertionSort_stable preorders⟩

theorem isSome_demanding_iff {cmp : α → α → Ordering} {items : List α} :
    (demanding.sort cmp items).isSome = true ↔ Preorders cmp items := by
  unfold demanding
  dsimp only
  split
  · rename_i preorders
    exact iff_of_true rfl preorders
  · rename_i refused
    exact iff_of_false nofun refused

end Sorter

end LayeredQuery
