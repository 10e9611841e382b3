import Mathlib.Data.List.TakeWhile
import LayeredQuery.Proofs.Request.Chain
import LayeredQuery.Proofs.Schema.Acceptance
import LayeredQuery.Text.Blank

/-!
# Lists in text

Include trees and sort keys are written as parts with commas between them, and are read by cutting
the text at commas, taking blanks off the parts and leaving out the empty ones. A part comes back as
it was written when it is not empty and has neither commas nor blanks in it. That is so for what
public names spell: their characters are letters, digits, underscores and hyphens only.
-/

set_option autoImplicit false

namespace LayeredQuery

namespace Text

def listed (text : String) : List (List Char) :=
  ((pieces ',' text.toList).map trim).filter fun part => !part.isEmpty

/-- Whether a text can stand in a list as it is. -/
def Plain (text : String) : Prop :=
  ∀ c ∈ text.toList, c ≠ ',' ∧ isBlank c = false

instance (text : String) : Decidable (Plain text) :=
  List.decidableBAll _ _

theorem trimStart_of_plain {text : List Char} (plain : ∀ c ∈ text, isBlank c = false) :
    trimStart text = text := by
  cases text with
  | nil => rfl
  | cons c rest => simp [trimStart, plain c List.mem_cons_self]

theorem trim_of_plain {text : List Char} (plain : ∀ c ∈ text, isBlank c = false) :
    trim text = text := by
  have reversed : ∀ c ∈ text.reverse, isBlank c = false := fun c member =>
    plain c (List.mem_reverse.mp member)
  rw [trim, trimStart_of_plain plain, trimStart_of_plain reversed, List.reverse_reverse]

/-- Parts that can stand in a list are read back from it. -/
theorem listed_joined {parts : List String} (nonempty : ∀ part ∈ parts, part.toList ≠ [])
    (plain : ∀ part ∈ parts, Plain part) : listed (joined "," parts) = parts.map String.toList := by
  by_cases noParts : parts = []
  · subst noParts
    rw [joined_nil]
    rfl
  · have noCommas : ∀ part ∈ parts, ',' ∉ part.toList := fun part member isIn =>
      (plain part member ',' isIn).1 rfl
    have trimmed : (parts.map String.toList).map trim = parts.map String.toList := by
      rw [List.map_map]
      refine List.map_congr_left fun part member => ?_
      exact trim_of_plain fun c isIn => (plain part member c isIn).2
    rw [listed, pieces_joined (by decide) noParts noCommas, trimmed]
    apply List.filter_eq_self.mpr
    intro piece member
    obtain ⟨part, isPart, rfl⟩ := List.mem_map.mp member
    simpa using nonempty part isPart

theorem Plain.append {text other : String} (plain : Plain text) (plain' : Plain other) :
    Plain (text ++ other) := by
  intro c member
  rw [String.toList_append] at member
  rcases List.mem_append.mp member with inText | inOther
  · exact plain c inText
  · exact plain' c inOther

theorem mem_joined {between : String} {parts : List String} {c : Char}
    (member : c ∈ (joined between parts).toList) :
    c ∈ between.toList ∨ ∃ part ∈ parts, c ∈ part.toList := by
  induction parts with
  | nil => simp [joined_nil] at member
  | cons part rest ih =>
    cases rest with
    | nil =>
      rw [joined_singleton] at member
      exact .inr ⟨part, List.mem_cons_self, member⟩
    | cons next rest =>
      simp only [joined_cons_cons, String.toList_append, List.mem_append] at member
      rcases member with (inPart | inBetween) | later
      · exact .inr ⟨part, List.mem_cons_self, inPart⟩
      · exact .inl inBetween
      · rcases ih later with inBetween | ⟨other, isOther, inOther⟩
        · exact .inl inBetween
        · exact .inr ⟨other, List.mem_cons_of_mem _ isOther, inOther⟩

theorem toList_joined_cons (between part : String) (parts : List String) :
    ∃ later, (joined between (part :: parts)).toList = part.toList ++ later := by
  cases parts with
  | nil => exact ⟨[], by rw [joined_singleton, List.append_nil]⟩
  | cons next rest =>
    refine ⟨between.toList ++ (joined between (next :: rest)).toList, ?_⟩
    rw [joined_cons_cons, String.toList_append, String.toList_append, List.append_assoc]

theorem isBlank_of_isAlphanum {c : Char} (letterOrDigit : c.isAlphanum = true) :
    isBlank c = false := by
  have between : 48 ≤ c.toNat ∧ c.toNat ≤ 122 := by
    have classes := (isAlphanum_iff c).mp letterOrDigit
    simp only [IsLetter, IsDigit, Char.le_def, UInt32.le_iff_toNat_le] at classes
    change ((65 ≤ c.toNat ∧ c.toNat ≤ 90) ∨ (97 ≤ c.toNat ∧ c.toNat ≤ 122)) ∨
      (48 ≤ c.toNat ∧ c.toNat ≤ 57) at classes
    omega
  simp only [isBlank, blankRanges, List.any_cons, List.any_nil, Bool.or_false,
    Bool.or_eq_false_iff, Bool.and_eq_false_iff, decide_eq_false_iff_not]
  omega

end Text

/-! ## Chains of public names -/

theorem head_of_isPublicName {name : String} (isPublic : isPublicName name = true) :
    ∃ c rest, name.toList = c :: rest ∧ c.isAlpha = true := by
  cases letters : name.toList with
  | nil => exact absurd letters (toList_ne_nil_of_isPublicName isPublic)
  | cons c rest =>
    simp only [isPublicName, letters, Bool.and_eq_true] at isPublic
    exact ⟨c, rest, rfl, isPublic.1⟩

namespace Chain

structure IsPublic (chain : Chain) : Prop where
  named : chain.names ≠ []
  arePublic : ∀ name ∈ chain.names, isPublicName name = true

variable {chain : Chain}

theorem IsPublic.ofText_text (isPublic : chain.IsPublic) : Chain.ofText chain.text = chain :=
  ofText_joined isPublic.named isPublic.arePublic

theorem IsPublic.char_of_mem_text (isPublic : chain.IsPublic) {c : Char}
    (member : c ∈ chain.text.toList) :
    c.isAlphanum = true ∨ c = '_' ∨ c = '-' ∨ c = '.' := by
  rcases Text.mem_joined member with stop | ⟨name, isName, inName⟩
  · exact .inr (.inr (.inr (List.mem_singleton.mp stop)))
  · by_contra others
    simp only [not_or, Bool.not_eq_true] at others
    obtain ⟨notAlphanum, notUnderscore, notHyphen, _⟩ := others
    refine not_mem_of_isPublicName (isPublic.arePublic name isName) ?_ inName
    simp [notAlphanum, notUnderscore, notHyphen]

theorem IsPublic.plain (isPublic : chain.IsPublic) : Text.Plain chain.text := by
  intro c member
  rcases isPublic.char_of_mem_text member with alphanum | rfl | rfl | rfl
  · refine ⟨?_, Text.isBlank_of_isAlphanum alphanum⟩
    rintro rfl
    cases alphanum
  all_goals decide

theorem IsPublic.bracket_not_mem_text (isPublic : chain.IsPublic) : '(' ∉ chain.text.toList := by
  intro member
  rcases isPublic.char_of_mem_text member with alphanum | same | same | same
  · cases alphanum
  all_goals cases same

theorem IsPublic.text_head (isPublic : chain.IsPublic) :
    ∃ c rest, chain.text.toList = c :: rest ∧ c.isAlpha = true := by
  obtain ⟨names⟩ := chain
  obtain ⟨named, arePublic⟩ := isPublic
  cases names with
  | nil => exact absurd rfl named
  | cons name others =>
    obtain ⟨c, rest, letters, isLetter⟩ := head_of_isPublicName (arePublic name List.mem_cons_self)
    obtain ⟨later, joined⟩ := Text.toList_joined_cons "." name others
    refine ⟨c, rest ++ later, ?_, isLetter⟩
    rw [text, joined, letters, List.cons_append]

theorem IsPublic.text_ne_nil (isPublic : chain.IsPublic) : chain.text.toList ≠ [] := by
  obtain ⟨c, rest, letters, _⟩ := isPublic.text_head
  simp [letters]

end Chain

end LayeredQuery
