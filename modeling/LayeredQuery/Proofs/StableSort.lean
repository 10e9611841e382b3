import Mathlib.Data.List.Basic
import LayeredQuery.Evaluation.Sorter

/-!
# Stable sorts

A stable sort of a list has the same items, puts none in front of one that comes before it, and
leaves items that compare as equal in the order they had. A comparison that is a total preorder of
the items has one stable sort only. Sorting by one comparison and then by another is sorting by the
second one first with ties broken by the first, so a list is sorted by any number of comparisons in
turn, from the least significant one to the most significant one.
-/

set_option autoImplicit false

namespace LayeredQuery

variable {α β : Type}

def sortedBy (cmp : α → α → Ordering) (items : List α) : List α :=
  items.mergeSort fun x y => cmp x y != .gt

/-- Compares by the first of some comparisons that tells two items apart. -/
def lexicographic : List (α → α → Ordering) → α → α → Ordering
  | [], _, _ => .eq
  | cmp :: rest, x, y => (cmp x y).then (lexicographic rest x y)

theorem lexicographic_append (cmps others : List (α → α → Ordering)) :
    lexicographic (cmps ++ others) = fun x y =>
      (lexicographic cmps x y).then (lexicographic others x y) := by
  funext x y
  induction cmps with
  | nil => rfl
  | cons cmp rest ih => rw [List.cons_append, lexicographic, lexicographic, ih, Ordering.then_assoc]

/-! ## Preorders -/

theorem ne_gt_trans {cmp : α → α → Ordering} [Std.TransCmp cmp] {x y z : α}
    (first : cmp x y ≠ .gt) (second : cmp y z ≠ .gt) : cmp x z ≠ .gt :=
  Ordering.isLE_iff_ne_gt.mp (Std.TransCmp.isLE_trans (Ordering.isLE_iff_ne_gt.mpr first)
    (Ordering.isLE_iff_ne_gt.mpr second))

namespace Preorders

variable {cmp first second : α → α → Ordering} {items others : List α}

theorem transCmp (preorders : Preorders cmp items) :
    Std.TransCmp fun x y : { x // x ∈ items } => cmp x.1 y.1 where
  eq_swap {x y} := preorders.swap y.1 y.2 x.1 x.2
  isLE_trans {x y z} lower upper := Ordering.isLE_iff_ne_gt.mpr
    (preorders.trans x.1 x.2 y.1 y.2 z.1 z.2 (Ordering.isLE_iff_ne_gt.mp lower)
      (Ordering.isLE_iff_ne_gt.mp upper))

theorem of_transCmp (lawful : Std.TransCmp fun x y : { x // x ∈ items } => cmp x.1 y.1) :
    Preorders cmp items where
  self x member :=
    @Std.ReflCmp.compare_self _ (fun x y : { x // x ∈ items } => cmp x.1 y.1) _ ⟨x, member⟩
  swap x xMember y yMember := lawful.eq_swap (a := ⟨y, yMember⟩) (b := ⟨x, xMember⟩)
  trans x xMember y yMember z zMember lower upper :=
    @ne_gt_trans { x // x ∈ items } _ lawful ⟨x, xMember⟩ ⟨y, yMember⟩ ⟨z, zMember⟩ lower upper

theorem comap {key : β → α} {rows : List β} (preorders : Preorders cmp (rows.map key)) :
    Preorders (fun x y => cmp (key x) (key y)) rows where
  self _ member := preorders.self _ (List.mem_map_of_mem member)
  swap _ xMember _ yMember :=
    preorders.swap _ (List.mem_map_of_mem xMember) _ (List.mem_map_of_mem yMember)
  trans _ xMember _ yMember _ zMember := preorders.trans _ (List.mem_map_of_mem xMember)
    _ (List.mem_map_of_mem yMember) _ (List.mem_map_of_mem zMember)

theorem map {key : β → α} {rows : List β}
    (preorders : Preorders (fun x y => cmp (key x) (key y)) rows) :
    Preorders cmp (rows.map key) where
  self := List.forall_mem_map.mpr preorders.self
  swap := List.forall_mem_map.mpr fun x xMember =>
    List.forall_mem_map.mpr (preorders.swap x xMember)
  trans := List.forall_mem_map.mpr fun x xMember => List.forall_mem_map.mpr fun y yMember =>
    List.forall_mem_map.mpr (preorders.trans x xMember y yMember)

theorem andThen (primary : Preorders first items) (tieBreaker : Preorders second items) :
    Preorders (fun x y => (first x y).then (second x y)) items :=
  have := primary.transCmp
  have := tieBreaker.transCmp
  .of_transCmp (inferInstanceAs (Std.TransCmp (compareLex
    (fun x y : { x // x ∈ items } => first x.1 y.1) fun x y => second x.1 y.1)))

theorem lexicographic {cmps : List (α → α → Ordering)}
    (preorders : ∀ cmp ∈ cmps, Preorders cmp items) :
    Preorders (lexicographic cmps) items := by
  induction cmps with
  | nil => exact ⟨fun _ _ => rfl, fun _ _ _ _ => rfl, fun _ _ _ _ _ _ _ _ => nofun⟩
  | cons cmp rest ih =>
    exact (preorders cmp List.mem_cons_self).andThen
      (ih fun other member => preorders other (List.mem_cons_of_mem _ member))

end Preorders

/-! ## The stable sort -/

theorem filter_mergeSort_of_pairwise {le : α → α → Bool}
    (trans : ∀ x y z, le x y = true → le y z = true → le x z = true)
    (total : ∀ x y, (le x y || le y x) = true) {p : α → Bool} {items : List α}
    (together : (items.filter p).Pairwise fun x y => le x y = true) :
    (items.mergeSort le).filter p = items.filter p := by
  have kept := (List.sublist_mergeSort trans total together List.filter_sublist).filter p
  rw [List.filter_filter] at kept
  simp only [Bool.and_self] at kept
  exact (kept.eq_of_length ((List.mergeSort_perm items le).filter p).length_eq.symm).symm

variable {cmp first second : α → α → Ordering} {items middle sorted other : List α}

/-- Sorting a list gives a stable sort of it. -/
theorem Preorders.stableSort_sortedBy (preorders : Preorders cmp items) :
    StableSort cmp items (sortedBy cmp items) := by
  -- Among the items alone the comparison is lawful everywhere.
  let le (x y : { x // x ∈ items }) : Bool := cmp x.1 y.1 != .gt
  have isLE (x y) : le x y = true ↔ cmp x.1 y.1 ≠ .gt := bne_iff_ne
  have trans : ∀ x y z, le x y = true → le y z = true → le x z = true := fun x y z lower upper =>
    (isLE x z).mpr (preorders.trans _ x.2 _ y.2 _ z.2 ((isLE x y).mp lower) ((isLE y z).mp upper))
  have total : ∀ x y, (le x y || le y x) = true := by
    intro x y
    have swapped := preorders.swap _ x.2 _ y.2
    simp only [le, swapped]
    cases cmp x.1 y.1 <;> rfl
  have attached : (items.attach.mergeSort le).map Subtype.val = sortedBy cmp items := by
    rw [List.map_mergeSort (s := fun x y => cmp x y != .gt) fun _ _ _ _ => rfl,
      List.attach_map_subtype_val]
    rfl
  refine ⟨List.mergeSort_perm _ _, ?_, ?_⟩
  · rw [← attached, List.pairwise_map]
    exact (List.pairwise_mergeSort trans total _).imp fun {x y} => (isLE x y).mp
  · intro x member
    let ties (y : α) : Bool := cmp x y == .eq
    have together : (items.attach.filter (ties ∘ Subtype.val)).Pairwise
        fun y z => le y z = true := by
      refine List.pairwise_of_forall_mem_list fun y yMember z zMember => (isLE y z).mpr ?_
      have tieY : cmp x y.1 = .eq := by simpa [ties] using (List.mem_filter.mp yMember).2
      have tieZ : cmp x z.1 = .eq := by simpa [ties] using (List.mem_filter.mp zMember).2
      rw [preorders.tie_trans member y.2 z.2 tieY tieZ]
      exact nofun
    calc
      (sortedBy cmp items).filter ties =
          ((items.attach.mergeSort le).filter (ties ∘ Subtype.val)).map Subtype.val := by
        rw [← attached, List.filter_map]
      _ = (items.attach.filter (ties ∘ Subtype.val)).map Subtype.val := by
        rw [filter_mergeSort_of_pairwise trans total together]
      _ = items.filter ties := by rw [← List.filter_map, List.attach_map_subtype_val]

namespace StableSort

/-- A list has one stable sort only. -/
theorem unique (preorders : Preorders cmp items) (first : StableSort cmp items sorted)
    (second : StableSort cmp items other) : sorted = other := by
  have members : ∀ x ∈ sorted, x ∈ items := fun x member => first.perm.subset member
  have ties : ∀ x ∈ sorted, (sorted.filter fun y => cmp x y == .eq) =
      other.filter fun y => cmp x y == .eq := fun x member =>
    (first.stable x (members x member)).trans (second.stable x (members x member)).symm
  have perm := first.perm.trans second.perm.symm
  have ordered := first.ordered
  have ordered' := second.ordered
  clear first second
  induction sorted generalizing other with
  | nil => exact (List.nil_perm.mp perm).symm
  | cons x rest ih =>
    cases other with
    | nil => exact absurd (List.perm_nil.mp perm) (List.cons_ne_nil _ _)
    | cons y later =>
      -- The heads come no later than each other, so they tie and the first of the ties is both.
      have xMember := members x List.mem_cons_self
      have yMember := members y (perm.mem_iff.mpr List.mem_cons_self)
      have upper : cmp x y ≠ .gt := by
        rcases List.mem_cons.mp (perm.mem_iff.mpr List.mem_cons_self) with same | isLater
        · rw [same, preorders.self x xMember]
          exact nofun
        · exact (List.pairwise_cons.mp ordered).1 y isLater
      have lower : cmp y x ≠ .gt := by
        rcases List.mem_cons.mp (perm.mem_iff.mp List.mem_cons_self) with same | isLater
        · rw [same, preorders.self y yMember]
          exact nofun
        · exact (List.pairwise_cons.mp ordered').1 x isLater
      have tie : cmp x y = .eq := by
        rw [preorders.swap x xMember y yMember] at lower
        cases order : cmp x y with
        | eq => rfl
        | lt => simp [order] at lower
        | gt => exact absurd order upper
      have heads := ties x List.mem_cons_self
      simp only [List.filter_cons, preorders.self x xMember, tie, beq_self_eq_true, if_true,
        List.cons.injEq] at heads
      obtain ⟨rfl, _⟩ := heads
      refine congrArg (x :: ·) (ih (fun z member => members z (List.mem_cons_of_mem _ member)) ?_
        perm.cons_inv (List.pairwise_cons.mp ordered).2 (List.pairwise_cons.mp ordered').2)
      intro z member
      have tails := ties z (List.mem_cons_of_mem _ member)
      rw [List.filter_cons, List.filter_cons] at tails
      split at tails
      · exact (List.cons.inj tails).2
      · exact tails

theorem comap {key : β → α} {back : α → β} {rows : List β} (left : ∀ row, back (key row) = row)
    (stable : StableSort cmp (rows.map key) sorted) :
    StableSort (fun x y => cmp (key x) (key y)) rows (sorted.map back) := by
  obtain ⟨others, rfl⟩ : ∃ others : List β, sorted = others.map key := by
    refine ⟨sorted.map back, ?_⟩
    rw [List.map_map]
    refine (List.map_id' _).symm.trans (List.map_congr_left fun item member => ?_)
    obtain ⟨row, _, rfl⟩ := List.mem_map.mp (stable.perm.subset member)
    rw [Function.comp, left]
  have unkeyed (rows : List β) : (rows.map key).map back = rows := by
    rw [List.map_map]
    exact (List.map_congr_left fun row _ => left row).trans (List.map_id' _)
  rw [unkeyed]
  refine ⟨?_, List.pairwise_map.mp stable.ordered, fun row member => ?_⟩
  · have perm := stable.perm.map back
    rwa [unkeyed, unkeyed] at perm
  · have ties := congrArg (List.map back) (stable.stable (key row) (List.mem_map_of_mem member))
    rwa [List.filter_map, List.filter_map, unkeyed, unkeyed] at ties

/-- A stable sort of a stable sort breaks its ties by the earlier one. -/
theorem andThen (preorders : Preorders first items) (tieBreaker : StableSort second items middle)
    (primary : StableSort first middle sorted) :
    StableSort (fun x y => (first x y).then (second x y)) items sorted where
  perm := primary.perm.trans tieBreaker.perm
  ordered := by
    rw [List.pairwise_iff_forall_sublist]
    intro x y pair
    have le := List.pairwise_iff_forall_sublist.mp primary.ordered pair
    cases order : first x y with
    | lt => exact nofun
    | gt => exact absurd order le
    | eq =>
      -- Two ties of the later sort stand as they stood before it.
      have xMember := primary.perm.subset (pair.subset List.mem_cons_self)
      have tied := pair.filter fun z => first x z == .eq
      have self := preorders.self x (tieBreaker.perm.subset xMember)
      rw [primary.stable x xMember, List.filter_cons, List.filter_cons, self, order] at tied
      exact List.pairwise_iff_forall_sublist.mp tieBreaker.ordered
        (tied.trans List.filter_sublist)
  stable x member := by
    have both (y : α) : ((first x y).then (second x y) == .eq) =
        ((first x y == .eq) && (second x y == .eq)) := by
      cases first x y <;> rfl
    have isMiddle := tieBreaker.perm.symm.subset member
    simp only [both]
    calc
      sorted.filter (fun y => (first x y == .eq) && (second x y == .eq)) =
          (middle.filter fun y => first x y == .eq).filter fun y => second x y == .eq := by
        rw [← primary.stable x isMiddle, List.filter_filter]
        simp only [Bool.and_comm]
      _ = (middle.filter fun y => second x y == .eq).filter fun y => first x y == .eq := by
        rw [List.filter_filter, List.filter_filter]
        simp only [Bool.and_comm]
      _ = items.filter fun y => (first x y == .eq) && (second x y == .eq) := by
        rw [tieBreaker.stable x member, List.filter_filter]

end StableSort

/-- Sorting by some comparisons in turn, the first of them last, is sorting by all of them. -/
theorem stableSort_foldr {cmps : List (α → α → Ordering)}
    (preorders : ∀ cmp ∈ cmps, Preorders cmp items) :
    StableSort (lexicographic cmps) items (cmps.foldr sortedBy items) := by
  induction cmps with
  | nil => exact ⟨.refl _, List.pairwise_of_forall fun _ _ => nofun, fun _ _ => rfl⟩
  | cons cmp rest ih =>
    have later := ih fun other member => preorders other (List.mem_cons_of_mem _ member)
    exact StableSort.andThen (preorders cmp List.mem_cons_self) later
      ((preorders cmp List.mem_cons_self).of_perm later.perm).stableSort_sortedBy

end LayeredQuery
