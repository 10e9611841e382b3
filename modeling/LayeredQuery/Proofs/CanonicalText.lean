import LayeredQuery.Proofs.Request.Aligned
import LayeredQuery.Proofs.Request.Rearranged

/-!
# Texts of requests

The text of a request goes by what the request says and not by how it was put together, so requests
that are equal have the same text. Two things show in texts that equality passes over, the sign of a
zero among the floats and the order in which a layer lists its fields. Where the fields have public
names, a different order always shows.
-/

set_option autoImplicit false

namespace LayeredQuery

open Literal (signs)

theorem Layer.text_eq_of_beq {x y : Layer} (equal : x.beq y = true)
    (distinct : x.namesDistinct = true) (distinct' : y.namesDistinct = true)
    (sameListing : x.listing = y.listing) (sameSigns : signs x.constants = signs y.constants) :
    x.text = y.text := by
  obtain ⟨rfl, _⟩ := eq_of_beq x y equal distinct distinct' (congrArg (· ++ []) sameListing)
    (congrArg (· ++ []) sameSigns)
  rfl

/-- Requests that are equal have one text, of each kind and with all that is nested in them, if
zeros that stand in the same place have the same sign. Layers have to list their fields in one order
at every depth. If they do not, one of them comes to the text of the other once its fields are put
in that order. -/
theorem text_eq_of_equal :
    (∀ x y : Literal, x.beq y = true → x.isNegativeZero = y.isNegativeZero → x.text = y.text) ∧
    (∀ x y : Chain, (x == y) = true → x.text = y.text) ∧
    (∀ x y : Include, x.beq y = true → x.text = y.text) ∧
    (∀ x y : Filter, x.beq y = true → signs x.constants = signs y.constants → x.text = y.text) ∧
    (∀ x y : Sorting, (x == y) = true → x.text = y.text) ∧
    (∀ x y : Page, (x == y) = true → x.text = y.text) ∧
    ∀ x y : Layer, x.beq y = true → x.namesDistinct = true → y.namesDistinct = true →
      (x.listing = y.listing → signs x.constants = signs y.constants → x.text = y.text) ∧
      ∃ z : Layer, z.Reordered y ∧ z.listing = x.listing ∧ x.beq z = true ∧
        (signs x.constants = signs z.constants → x.text = z.text) := by
  refine ⟨?_, ?_, ?_, ?_, ?_, ?_, fun x y equal distinct distinct' => ⟨?_, ?_⟩⟩
  · intro x y equal sameSign
    rw [Literal.eq_of_beq equal sameSign]
  · intro x y equal
    rw [beq_iff_eq.mp equal]
  · intro x y equal
    rw [(Include.beq_iff x y).mp equal]
  · intro x y equal sameSigns
    obtain ⟨rfl, _⟩ := Filter.eq_of_beq x y equal (congrArg (· ++ []) sameSigns)
    rfl
  · intro x y equal
    rw [beq_iff_eq.mp equal]
  · intro x y equal
    rw [beq_iff_eq.mp equal]
  · exact Layer.text_eq_of_beq equal distinct distinct'
  · obtain ⟨z, rearranged⟩ := Layer.exists_rearranged x y equal distinct distinct'
    exact ⟨z, rearranged.reordered, rearranged.sameListing, rearranged.equal,
      Layer.text_eq_of_beq rearranged.equal distinct rearranged.distinct
        rearranged.sameListing.symm⟩

namespace Shelf

def nameFirst : Layer :=
  ⟨"people", none, none, none, none, some [.field "name", .field "penName"]⟩

def penNameFirst : Layer :=
  ⟨"people", none, none, none, none, some [.field "penName", .field "name"]⟩

def authored (author : Layer) : Layer :=
  ⟨"books", none, none, none, none, some [.field "title", .nested "author" author]⟩

def including (tree other : Include) : Layer :=
  { authored nameFirst with tree := some (tree.merge other) }

def editor : Include := ⟨[("editor", .empty)]⟩

def reviews : Include := ⟨[("reviews", .empty)]⟩

end Shelf

theorem text_eq_of_equal_merged :
    (Shelf.including Shelf.editor Shelf.reviews).beq
        (Shelf.including Shelf.reviews Shelf.editor) = true ∧
      (Shelf.including Shelf.editor Shelf.reviews).listing =
        (Shelf.including Shelf.reviews Shelf.editor).listing ∧
      (Shelf.including Shelf.editor Shelf.reviews).text =
        (Shelf.including Shelf.reviews Shelf.editor).text := by
  have equal : (Shelf.including Shelf.editor Shelf.reviews).beq
      (Shelf.including Shelf.reviews Shelf.editor) = true := by decide +kernel
  have sameListing : (Shelf.including Shelf.editor Shelf.reviews).listing =
      (Shelf.including Shelf.reviews Shelf.editor).listing := rfl
  obtain ⟨_, _, _, _, _, _, layers⟩ := text_eq_of_equal
  obtain ⟨sameText, _⟩ := layers _ _ equal (by decide +kernel) (by decide +kernel)
  exact ⟨equal, sameListing, sameText sameListing rfl⟩

/-- The order of fields shows in the text of a nested layer, and the sign of a zero in that of a
literal. -/
theorem text_ne_of_equal :
    ((Shelf.authored Shelf.nameFirst).beq (Shelf.authored Shelf.penNameFirst) = true ∧
      (Shelf.authored Shelf.nameFirst).text ≠ (Shelf.authored Shelf.penNameFirst).text) ∧
    (Literal.zero false).beq (Literal.zero true) = true ∧
      (Literal.zero false).text ≠ (Literal.zero true).text := by
  decide +kernel

/-- Of equal layers whose zeros have the same signs, just those have one text that list their fields
in one order at every depth. -/
theorem Layer.text_eq_iff {x y : Layer} (equal : x.beq y = true) (legible : x.Legible)
    (legible' : y.Legible) (sameSigns : signs x.constants = signs y.constants) :
    x.text = y.text ↔ x.listing = y.listing := by
  constructor
  · exact (text_aligned x y equal legible legible').told_of_eq
  · intro sameListing
    exact text_eq_of_beq equal legible.distinct legible'.distinct sameListing sameSigns

end LayeredQuery
