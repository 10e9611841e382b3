import Mathlib.Data.List.Forall2
import Mathlib.Logic.ExistsUnique
import LayeredQuery.Proofs.Compiler.Clauses
import LayeredQuery.Proofs.Filtering

/-!
# Pages partition the rows

The page with a number and a size runs to the rows at the positions from the size of the pages
before it up to the size of the pages with it. These sizes are unbounded: a count that has become
the greatest one is past the end of every list of rows that is short enough to be there. So every
row is on one page, and the pages put one after the other are the rows again.
-/

set_option autoImplicit false

namespace LayeredQuery

/-! ## Positions -/

def itemsBetween {α : Type} (first last : Nat) (items : List α) : List α :=
  (items.zipIdx.filter fun entry => first ≤ entry.2 && entry.2 < last).map Prod.fst

theorem filter_zipIdx {α : Type} (first last : Nat) (items : List α) : ∀ start : Nat,
    ((items.zipIdx start).filter fun entry => first ≤ entry.2 && entry.2 < last).map Prod.fst =
      (items.drop (first - start)).take (last - max first start) := by
  induction items with
  | nil => simp
  | cons item rest ih =>
    intro start
    rw [List.zipIdx_cons, List.filter_cons]
    by_cases early : start < first
    · have ahead : first - start = (first - (start + 1)) + 1 := by omega
      have sameMax : max first start = max first (start + 1) := by omega
      rw [if_neg (by simp; omega), ih, ahead, List.drop_succ_cons, sameMax]
    have begun : first - start = 0 := by omega
    have begunNext : first - (start + 1) = 0 := by omega
    by_cases late : last ≤ start
    · have beyond : last - max first start = 0 := by omega
      have beyondNext : last - max first (start + 1) = 0 := by omega
      rw [if_neg (by simp; omega), ih, beyond, beyondNext, List.take_zero, List.take_zero]
    · have further : last - max first start = (last - max first (start + 1)) + 1 := by omega
      rw [if_pos (by simp; omega), List.map_cons, ih, begun, begunNext, List.drop_zero,
        List.drop_zero, further, List.take_succ_cons]

theorem itemsBetween_eq {α : Type} (first last : Nat) (items : List α) :
    itemsBetween first last items = (items.drop first).take (last - first) := by
  rw [itemsBetween, filter_zipIdx, Nat.sub_zero, Nat.max_zero]

theorem itemsBetween_to_end {α : Type} (first : Nat) (items : List α) :
    itemsBetween first items.length items = items.drop first := by
  rw [itemsBetween_eq, ← List.length_drop, List.take_length]

theorem itemsBetween_past_end {α : Type} {first : Nat} (last : Nat) {items : List α}
    (past : items.length ≤ first) : itemsBetween first last items = [] := by
  rw [itemsBetween_eq, List.drop_of_length_le past, List.take_nil]

theorem flatMap_itemsBetween {α : Type} (size : Nat) (items : List α) (count : Nat) :
    (List.range count).flatMap (fun before =>
      itemsBetween (before * size) ((before + 1) * size) items) = items.take (count * size) := by
  induction count with
  | zero => simp
  | succ count ih =>
    have width : (count + 1) * size - count * size = size := by
      rw [Nat.succ_mul, Nat.add_sub_cancel_left]
    rw [List.range_succ, List.flatMap_append, ih, List.flatMap_singleton, itemsBetween_eq, width,
      Nat.succ_mul, List.take_add]

/-! ## Pages -/

namespace Page

/-- The window of a numbered page has the positions that the pages up to it add. -/
theorem window_ofNumber {α : Type} {number size : Nat} {items : List α} (counted : 1 ≤ number)
    (short : items.length ≤ greatestCount) :
    ∃ page, ofNumber number (some size) = .ok page ∧
      page.window items = itemsBetween ((number - 1) * size) (number * size) items := by
  refine ⟨_, if_neg (Nat.ne_of_gt counted), ?_⟩
  obtain ⟨before, rfl⟩ := Nat.exists_eq_add_of_le' counted
  rw [Nat.add_sub_cancel]
  by_cases representable : before * size ≤ greatestCount
  · have width : (before + 1) * size - before * size = size := by
      rw [Nat.succ_mul, Nat.add_sub_cancel_left]
    rw [window, Nat.min_eq_left representable, itemsBetween_eq, width]
  · -- The count has been cut down to the greatest one, which is past the end as well.
    have cut : min (before * size) greatestCount = greatestCount :=
      Nat.min_eq_right (Nat.le_of_not_le representable)
    rw [cut, itemsBetween_past_end _ (Nat.le_trans short (Nat.le_of_not_le representable)), window,
      List.drop_of_length_le short]
    exact List.take_nil

theorem window_ofNumber_unsized {α : Type} {number : Nat} {items : List α} (counted : 1 ≤ number)
    (short : items.length ≤ greatestCount) :
    ∃ page, ofNumber number none = .ok page ∧
      page.window items = if number = 1 then items else [] := by
  rw [ofNumber, if_neg (Nat.ne_of_gt counted)]
  by_cases first : number = 1
  · exact ⟨_, if_pos first, by rw [if_pos first]; rfl⟩
  · exact ⟨_, if_neg first, by rw [if_neg first]; exact List.drop_of_length_le short⟩

/-- A position is on the page whose number is one more than the pages that end before it. -/
theorem existsUnique_number {size position : Nat} (sized : 1 ≤ size)
    (small : position < greatestCount) :
    ∃! number, (1 ≤ number ∧ number ≤ greatestCount) ∧
      (number - 1) * size ≤ position ∧ position < number * size := by
  refine ⟨position / size + 1, ⟨⟨Nat.le_add_left 1 _, ?_⟩, ?_, ?_⟩, ?_⟩
  · have := Nat.div_le_self position size
    omega
  · exact Nat.div_mul_le_self position size
  · exact Nat.lt_mul_of_div_lt (Nat.lt_succ_self _) sized
  · rintro number ⟨⟨counted, _⟩, low, high⟩
    have : position / size = number - 1 :=
      Nat.div_eq_of_lt_le low (by rwa [Nat.sub_add_cancel counted])
    omega

end Page

/-! ## Queries -/

/-- A numbered page of a query, with or without a size, runs to the given rows. -/
def Evaluator.RunsPage (evaluator : Evaluator) (env : Env) (source : Query) (number : Nat)
    (size : Option Nat) (shown : List Json) : Prop :=
  ∃ page, Page.ofNumber number size = .ok page ∧
    evaluator.runWith (Compiler.pageClause source page) [] env = .ok shown

/-- What the pages of a query show of its rows. -/
structure Evaluator.Paginates (evaluator : Evaluator) (env : Env) (source : Query)
    (rows : List Json) : Prop where
  numbered : ∀ number size, 1 ≤ number → 1 ≤ size →
    evaluator.RunsPage env source number (some size)
      (itemsBetween ((number - 1) * size) (number * size) rows)
  onOnePage : ∀ size position, 1 ≤ size → position < rows.length →
    ∃! number, (1 ≤ number ∧ number ≤ Page.greatestCount) ∧
      (number - 1) * size ≤ position ∧ position < number * size
  together : ∀ size count pages, 1 ≤ size → rows.length ≤ count * size →
    List.Forall₂ (fun number shown => evaluator.RunsPage env source number (some size) shown)
      (List.range' 1 count) pages → pages.flatten = rows
  unsized : ∀ number, 1 ≤ number →
    evaluator.RunsPage env source number none (if number = 1 then rows else [])
  window : ∀ skip take,
    evaluator.runWith (Compiler.pageClause source ⟨skip, some take⟩) [] env =
      .ok (itemsBetween skip (skip + take) rows)
  openWindow : ∀ skip,
    evaluator.runWith (Compiler.pageClause source ⟨skip, none⟩) [] env =
      .ok (itemsBetween skip rows.length rows)

variable {evaluator : Evaluator} {env : Env} {source : Query} {rows : List Json}

theorem Evaluator.RunsPage.unique {number : Nat} {size : Option Nat} {shown other : List Json}
    (runs : evaluator.RunsPage env source number size shown)
    (runsOther : evaluator.RunsPage env source number size other) : shown = other := by
  obtain ⟨page, isPage, result⟩ := runs
  obtain ⟨page', isPage', result'⟩ := runsOther
  cases isPage.symm.trans isPage'
  cases result.symm.trans result'
  rfl

theorem runsPage_sized (reached : evaluator.runWith source [] env = .ok rows)
    (short : rows.length ≤ Page.greatestCount) {number : Nat} (size : Nat) (counted : 1 ≤ number) :
    evaluator.RunsPage env source number (some size)
      (itemsBetween ((number - 1) * size) (number * size) rows) := by
  obtain ⟨page, isPage, window⟩ := Page.window_ofNumber counted short
  exact ⟨page, isPage, window ▸ Compiler.runWith_pageClause page reached⟩

/-- The pages of one size, in their order, are all the rows. -/
theorem flatten_pages (reached : evaluator.runWith source [] env = .ok rows)
    (short : rows.length ≤ Page.greatestCount) {size count : Nat} {pages : List (List Json)}
    (enough : rows.length ≤ count * size)
    (arePages : List.Forall₂ (fun number shown =>
      evaluator.RunsPage env source number (some size) shown) (List.range' 1 count) pages) :
    pages.flatten = rows := by
  rw [List.range'_eq_map_range, List.forall₂_map_left_iff] at arePages
  have parts : List.Forall₂ (fun before shown =>
      itemsBetween (before * size) ((before + 1) * size) rows = shown) (List.range count)
      pages := by
    refine arePages.imp fun before shown runs => ?_
    have numbered := runsPage_sized reached short size (Nat.le_add_right 1 before)
    rw [Nat.add_sub_cancel_left, Nat.add_comm 1 before] at numbered
    rw [Nat.add_comm] at runs
    exact numbered.unique runs
  rw [← List.forall₂_map_left_iff (R := Eq), List.forall₂_eq_eq_eq] at parts
  rw [← parts, ← List.flatMap_def, flatMap_itemsBetween, List.take_of_length_le enough]

/-- The numbered pages of a query have its rows at the positions that the sizes of pages add up to,
each row is on exactly one of them, and together they are the rows. Without a size the first page
has all rows and the others have none, and a window has the rows from its start to its end. -/
theorem pageClause_paginates (reached : evaluator.runWith source [] env = .ok rows)
    (short : rows.length ≤ Page.greatestCount) : evaluator.Paginates env source rows where
  numbered _ size counted _ := runsPage_sized reached short size counted
  onOnePage _ _ sized small := Page.existsUnique_number sized (Nat.lt_of_lt_of_le small short)
  together _ _ _ _ enough arePages := flatten_pages reached short enough arePages
  unsized number counted := by
    obtain ⟨page, isPage, window⟩ := Page.window_ofNumber_unsized counted short
    exact ⟨page, isPage, window ▸ Compiler.runWith_pageClause page reached⟩
  window skip take := by
    have runs := Compiler.runWith_pageClause ⟨skip, some take⟩ reached
    rw [runs, itemsBetween_eq, Nat.add_sub_cancel_left]
    rfl
  openWindow skip := by
    have runs := Compiler.runWith_pageClause ⟨skip, none⟩ reached
    rw [runs, itemsBetween_to_end]
    rfl

namespace Shelf

def title (text : String) : Json := .ofEntries [("title", .string text)]

def novels : List Json := [title "Hard Times", title "Bleak House", title "Little Dorrit"]

end Shelf

/-- The last of three books is alone on the second page of two. On the third page of a size for
which the books before it are more than can be counted there is nothing. -/
theorem pageClause_paginates_novels :
    (Evaluator.plain Shelf.schema .empty .standard).RunsPage [("novels", .array Shelf.novels)]
        (.navigation (.parameter "novels") "Book") 2 (some 2) [Shelf.title "Little Dorrit"] ∧
      (Evaluator.plain Shelf.schema .empty .standard).RunsPage [("novels", .array Shelf.novels)]
        (.navigation (.parameter "novels") "Book") 3 (some 0x8000000000000000) [] := by
  have reached : (Evaluator.plain Shelf.schema .empty .standard).runWith
      (.navigation (.parameter "novels") "Book") [] [("novels", .array Shelf.novels)] =
        .ok Shelf.novels := rfl
  have paginates := pageClause_paginates reached (by decide)
  exact ⟨paginates.numbered 2 2 (by decide) (by decide),
    paginates.numbered 3 0x8000000000000000 (by decide) (by decide)⟩

end LayeredQuery
