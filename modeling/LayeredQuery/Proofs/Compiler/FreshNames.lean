import LayeredQuery.Compiler.ScopeNames
import Mathlib.Data.List.Nodup
import Mathlib.Data.List.Perm.Subperm
import Mathlib.Order.Bounds.Defs

/-!
# Fresh names

The name that a range variable is given was not given out before, whatever the element types were
called: numbered names of one base are distinct, so one more of them than there are names given out
cannot all be taken. So a search that goes on for as long as it meets names given out comes to an
end, and where it ends is the name that is given.
-/

set_option autoImplicit false

namespace LayeredQuery.ScopeNames

theorem numbered_injective {base : String} {m n : Nat} (same : numbered base m = numbered base n) :
    m = n := by
  have letters := congrArg String.toList same
  simp only [numbered, String.toList_append, List.append_cancel_left_eq] at letters
  have value := congrArg (Nat.ofDigitChars 10 · 0) letters
  simpa [Nat.toString_eq_ofList_toDigits] using value

theorem exists_free (issued : List String) (base : String) (number : Nat) :
    ∃ steps ≤ issued.length, numbered base (number + steps) ∉ issued := by
  by_contra none
  let tried := (List.range (issued.length + 1)).map fun steps => numbered base (number + steps)
  have taken : tried ⊆ issued := by
    intro name member
    obtain ⟨steps, within, rfl⟩ := List.mem_map.mp member
    by_contra free
    exact none ⟨steps, Nat.lt_succ_iff.mp (List.mem_range.mp within), free⟩
  have distinct : tried.Nodup := by
    refine List.Nodup.map (fun m n same => ?_) List.nodup_range
    have := numbered_injective same
    omega
  have short := (distinct.subperm taken).length_le
  simp only [tried, List.length_map, List.length_range] at short
  omega

/-! ## The search -/

/-- A search that stands at a number and at the name made last. A free name ends it, and a taken one
leads on to the next number, without any bound on their count. -/
inductive Search (issued : List String) (base : String) : Nat → String → String → Prop
  | free {number : Nat} {name : String} : name ∉ issued → Search issued base number name name
  | taken {number : Nat} {name found : String} : name ∈ issued →
      Search issued base (number + 1) (numbered base (number + 1)) found →
      Search issued base number name found

namespace Search

variable {issued : List String} {base name found : String} {number : Nat}

theorem not_mem (search : Search issued base number name found) : found ∉ issued := by
  induction search with
  | free isFree => exact isFree
  | taken _ _ ih => exact ih

theorem eq_of_not_mem (search : Search issued base number name found) (isFree : name ∉ issued) :
    found = name := by
  cases search with
  | free _ => rfl
  | taken isTaken _ => exact absurd isTaken isFree

/-- A search that leaves the name it stands at ends with the least number after its own that is
free. -/
theorem least (search : Search issued base number name found) (isTaken : name ∈ issued) :
    ∃ last, IsLeast {n | number < n ∧ numbered base n ∉ issued} last ∧
      found = numbered base last := by
  induction search with
  | free isFree => exact absurd isTaken isFree
  | @taken number _ found _ rest ih =>
    by_cases nextTaken : numbered base (number + 1) ∈ issued
    · obtain ⟨last, ⟨⟨above, isFree⟩, lowest⟩, same⟩ := ih nextTaken
      refine ⟨last, ⟨⟨Nat.lt_of_succ_lt above, isFree⟩, ?_⟩, same⟩
      rintro n ⟨after, freeToo⟩
      have apart : n ≠ number + 1 := fun same => freeToo (same ▸ nextTaken)
      exact lowest ⟨by omega, freeToo⟩
    · exact ⟨number + 1, ⟨⟨Nat.lt_succ_self _, nextTaken⟩, fun n after => after.1⟩,
        rest.eq_of_not_mem nextTaken⟩

end Search

/-- As many tries as lead to a free name do all of the search. -/
theorem firstFree_search {issued : List String} {base : String} {tries : Nat} :
    ∀ {number : Nat}, (∃ steps ≤ tries, numbered base (number + steps) ∉ issued) →
      Search issued base number (numbered base number) (firstFree issued base tries number) := by
  induction tries with
  | zero =>
    rintro number ⟨steps, within, isFree⟩
    obtain rfl : steps = 0 := by omega
    exact .free isFree
  | succ tries ih =>
    rintro number ⟨steps, within, isFree⟩
    rw [firstFree]
    by_cases isTaken : numbered base number ∈ issued
    · rw [if_pos (by simpa using isTaken)]
      cases steps with
      | zero => exact absurd isTaken isFree
      | succ steps =>
        refine .taken isTaken (ih ⟨steps, by omega, ?_⟩)
        rw [show number + 1 + steps = number + (steps + 1) by omega]
        exact isFree
    · rw [if_neg (by simpa using isTaken)]
      exact .free isTaken

theorem freshName_search (issued : List String) (element : String) :
    Search issued (baseName element) 1 (baseName element) (freshName issued element) := by
  unfold freshName
  by_cases isTaken : baseName element ∈ issued
  · rw [if_pos (by simpa using isTaken)]
    exact .taken isTaken (firstFree_search (exists_free issued (baseName element) 2))
  · rw [if_neg (by simpa using isTaken)]
    exact .free isTaken

theorem freshName_not_mem (issued : List String) (element : String) :
    freshName issued element ∉ issued :=
  (freshName_search issued element).not_mem

/-! ## The rule -/

/-- What the next variable of an element type is called: by its base name while that was not given
out, and by the base name with the least number from two upwards that is free afterwards. There is
one among as many numbers as names were given out. -/
inductive IsNext (issued : List String) (element : String) : String → Prop
  | base : baseName element ∉ issued → IsNext issued element (baseName element)
  | numbered {number : Nat} : baseName element ∈ issued →
      IsLeast {n | 2 ≤ n ∧ numbered (baseName element) n ∉ issued} number →
      number ≤ issued.length + 1 → IsNext issued element (numbered (baseName element) number)

theorem numbered_ne_base (base : String) (number : Nat) : numbered base number ≠ base := by
  intro same
  have letters := congrArg String.toList same
  simp [numbered, Nat.toDigits_ne_nil] at letters

theorem exists_free_number {issued : List String} {base : String} (isTaken : base ∈ issued) :
    ∃ number, (2 ≤ number ∧ numbered base number ∉ issued) ∧ number ≤ issued.length + 1 := by
  obtain ⟨steps, within, isFree⟩ := exists_free (issued.erase base) base 2
  rw [List.length_erase_of_mem isTaken] at within
  have nonempty := List.length_pos_of_mem isTaken
  refine ⟨2 + steps, ⟨Nat.le_add_right 2 steps, fun member => ?_⟩, by omega⟩
  exact isFree ((List.mem_erase_of_ne (numbered_ne_base base _)).mpr member)

theorem freshName_isNext (issued : List String) (element : String) :
    IsNext issued element (freshName issued element) := by
  have search := freshName_search issued element
  by_cases isTaken : baseName element ∈ issued
  · obtain ⟨last, least, same⟩ := search.least isTaken
    obtain ⟨number, isFree, within⟩ := exists_free_number isTaken
    rw [same]
    exact .numbered isTaken least (Nat.le_trans (least.2 isFree) within)
  · rw [search.eq_of_not_mem isTaken]
    exact .base isTaken

end LayeredQuery.ScopeNames
