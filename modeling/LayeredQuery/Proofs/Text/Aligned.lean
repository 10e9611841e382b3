import Mathlib.Data.List.Forall2
import LayeredQuery.Text.Split

/-!
# Aligned texts

Two texts are aligned when they cannot start one longer text without ending at the same place in it.
Texts put together from aligned parts are aligned. Parts that are known to end at one place can tell
more about what was written, which the parts behind them may need.
-/

set_option autoImplicit false

namespace LayeredQuery.Text

/-- Where both texts start a longer one they end at the same place, and then `told` holds. -/
def Aligned (told : Prop) (text other : String) : Prop :=
  ∀ behind behind' : List Char,
    text.toList ++ behind = other.toList ++ behind' → behind = behind' ∧ told

namespace Aligned

variable {told toldLater : Prop} {text other later later' separator : String}

theorem refl (text : String) : Aligned True text text :=
  fun _ _ same => ⟨List.append_cancel_left same, trivial⟩

theorem told_of_eq (aligned : Aligned told text other) (same : text = other) : told :=
  (aligned [] [] (by rw [same])).2

theorem imp (aligned : Aligned told text other) (implies : told → toldLater) :
    Aligned toldLater text other :=
  fun behind behind' same => (aligned behind behind' same).imp_right implies

theorem assuming {fact : Prop}
    (follows : ∀ behind behind' : List Char,
      text.toList ++ behind = other.toList ++ behind' → fact)
    (aligned : fact → Aligned told text other) : Aligned told text other :=
  fun behind behind' same => aligned (follows behind behind' same) behind behind' same

/-- The later texts only have to be aligned if the first ones end at the same place. -/
theorem append (aligned : Aligned told text other)
    (alignedLater : told → Aligned toldLater later later') :
    Aligned toldLater (text ++ later) (other ++ later') := by
  intro behind behind' same
  rw [String.toList_append, String.toList_append, List.append_assoc, List.append_assoc] at same
  obtain ⟨sameLater, first⟩ := aligned _ _ same
  exact alignedLater first behind behind' sameLater

theorem prepend (front : String) (aligned : Aligned told text other) :
    Aligned told (front ++ text) (front ++ other) :=
  (refl front).append fun _ => aligned

theorem close (aligned : Aligned told text other) (back : String) :
    Aligned told (text ++ back) (other ++ back) :=
  aligned.append fun first => (refl back).imp fun _ => first

theorem of_heads {c c' : Char} {rest rest' : List Char} (starts : text.toList = c :: rest)
    (starts' : other.toList = c' :: rest') (different : c ≠ c') : Aligned told text other := by
  intro behind behind' same
  rw [starts, starts'] at same
  exact absurd (List.cons.inj same).1 different

theorem joined {parts others : List String} (separator : String)
    (each : List.Forall₂ (Aligned True) parts others) :
    Aligned True (Text.joined separator parts) (Text.joined separator others) := by
  induction each with
  | nil => exact refl _
  | cons here later ih =>
    cases later with
    | nil => simpa only [joined_singleton] using here
    | cons _ _ =>
      rw [joined_cons_cons, joined_cons_cons]
      exact (here.close separator).append fun _ => ih

theorem joined_concat {parts others : List String} (separator : String)
    (each : List.Forall₂ (Aligned True) parts others) (last : Aligned told text other) :
    Aligned told (Text.joined separator (parts ++ [text]))
      (Text.joined separator (others ++ [other])) := by
  induction each with
  | nil => simpa only [List.nil_append, joined_singleton] using last
  | cons here later ih =>
    cases later with
    | nil =>
      simp only [List.nil_append, List.cons_append, joined_cons_cons, joined_singleton] at ih ⊢
      exact (here.close separator).append fun _ => ih
    | cons _ _ =>
      simp only [List.cons_append, joined_cons_cons] at ih ⊢
      exact (here.close separator).append fun _ => ih

end Aligned

/-- Words of some characters end where others come. -/
theorem eq_of_append_cons {isPart : Char → Bool} {word word' : List Char}
    (parts : ∀ c ∈ word, isPart c = true) (parts' : ∀ c ∈ word', isPart c = true) {c c' : Char}
    (ends : isPart c = false) (ends' : isPart c' = false) {rest rest' : List Char}
    (same : word ++ c :: rest = word' ++ c' :: rest') :
    word = word' ∧ c :: rest = c' :: rest' := by
  have split : ∀ {word : List Char} {c : Char} (rest : List Char), (∀ d ∈ word, isPart d = true) →
      isPart c = false → (word ++ c :: rest).takeWhile isPart = word := by
    intro word c rest parts ends
    rw [List.takeWhile_append_of_pos parts, List.takeWhile_cons_of_neg (by simp [ends]),
      List.append_nil]
  obtain rfl : word = word' := by
    rw [← split rest parts ends, same, split rest' parts' ends']
  exact ⟨rfl, List.append_cancel_left same⟩

end LayeredQuery.Text
