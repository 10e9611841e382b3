import LayeredQuery.Evaluation.ValueOrder
import LayeredQuery.Proofs.Number.Layout

/-!
# Texts of documents

The compact text of a document determines the document. A text ends where its kind says: a string at
its closing quote, an array or an object at its bracket, and a number before the first character
that no number has. So where two texts with something after them are the same, the documents are the
same and so is what comes after. Only what can stand after a value in a text comes after a number.
-/

set_option autoImplicit false

namespace LayeredQuery

open LayeredQuery.Text LayeredQuery.Number

namespace Json

/-! ## Strings -/

def shortEscape? : Char → Option Char
  | '"' => some '"'
  | '\\' => some '\\'
  | 'b' => some '\x08'
  | 'f' => some '\x0c'
  | 'n' => some '\n'
  | 'r' => some '\r'
  | 't' => some '\t'
  | _ => none

/-- The three ways to write a character in a string. -/
inductive Written (c : Char) : List Char → Prop
  | plain (noQuote : c ≠ '"') (noBackslash : c ≠ '\\') : Written c [c]
  | short (letter : Char) (means : shortEscape? letter = some c) : Written c ['\\', letter]
  | control (small : c.toNat < 0x20) : Written c (controlEscape c)

theorem written_escapedChar (c : Char) : Written c (escapedChar c) := by
  unfold escapedChar
  split_ifs with quote backslash backspace feed line carriage tab small
  · subst quote
    exact .short _ rfl
  · subst backslash
    exact .short _ rfl
  · subst backspace
    exact .short _ rfl
  · subst feed
    exact .short _ rfl
  · subst line
    exact .short _ rfl
  · subst carriage
    exact .short _ rfl
  · subst tab
    exact .short _ rfl
  · exact .control small
  · exact .plain quote backslash

theorem controlEscape_injective {x y : Char} (small : x.toNat < 0x20) (small' : y.toNat < 0x20)
    {r s : List Char} (same : controlEscape x ++ r = controlEscape y ++ s) : x = y ∧ r = s := by
  unfold controlEscape at same
  rw [List.append_assoc, List.append_assoc] at same
  obtain ⟨digits, rest⟩ := List.append_inj (List.append_cancel_left same)
    (by rw [length_fixedWidth, length_fixedWidth])
  have codes := fixedWidth_injective (by decide) (by decide) (small.trans (by decide))
    (small'.trans (by decide)) digits
  exact ⟨Char.toNat_inj.mp codes, rest⟩

theorem Written.split {x y : Char} {xs ys r s : List Char} (xWritten : Written x xs)
    (yWritten : Written y ys) (same : xs ++ r = ys ++ s) : x = y ∧ r = s := by
  cases xWritten with
  | plain _ noBackslash =>
    cases yWritten with
    | plain => exact List.cons.inj same
    | short => exact absurd (List.cons.inj same).1 noBackslash
    | control => exact absurd (List.cons.inj same).1 noBackslash
  | short letter means =>
    cases yWritten with
    | plain _ noBackslash => exact absurd (List.cons.inj same).1.symm noBackslash
    | short letter' means' =>
      obtain ⟨rfl, rest⟩ := List.cons.inj (List.cons.inj same).2
      exact ⟨Option.some.inj (means.symm.trans means'), rest⟩
    | control =>
      obtain ⟨rfl, _⟩ := List.cons.inj (List.cons.inj same).2
      cases means
  | control small =>
    cases yWritten with
    | plain _ noBackslash => exact absurd (List.cons.inj same).1.symm noBackslash
    | short letter' means' =>
      obtain ⟨rfl, _⟩ := List.cons.inj (List.cons.inj same).2
      cases means'
    | control small' => exact controlEscape_injective small small' same

theorem Written.ne_quote {c : Char} {written r s : List Char} (isWritten : Written c written) :
    written ++ r ≠ '"' :: s := by
  intro same
  cases isWritten with
  | plain noQuote => exact noQuote (List.cons.inj same).1
  | short => exact absurd (List.cons.inj same).1 (by decide)
  | control => exact absurd (List.cons.inj same).1 (by decide)

theorem escaped_split : ∀ {xs ys r s : List Char},
    xs.flatMap escapedChar ++ '"' :: r = ys.flatMap escapedChar ++ '"' :: s → xs = ys ∧ r = s := by
  intro xs
  induction xs with
  | nil =>
    intro ys r s same
    cases ys with
    | nil => exact ⟨rfl, (List.cons.inj same).2⟩
    | cons y ys =>
      rw [List.flatMap_cons, List.append_assoc] at same
      exact absurd same.symm (written_escapedChar y).ne_quote
  | cons x xs ih =>
    intro ys r s same
    rw [List.flatMap_cons, List.append_assoc] at same
    cases ys with
    | nil => exact absurd same (written_escapedChar x).ne_quote
    | cons y ys =>
      rw [List.flatMap_cons, List.append_assoc] at same
      obtain ⟨rfl, others⟩ := (written_escapedChar x).split (written_escapedChar y) same
      obtain ⟨rfl, rest⟩ := ih others
      exact ⟨rfl, rest⟩

theorem stringText_split {x y : String} {r s : List Char}
    (same : (stringText x).toList ++ r = (stringText y).toList ++ s) : x = y ∧ r = s := by
  simp only [stringText, String.toList_ofList, List.append_assoc, List.singleton_append] at same
  obtain ⟨chars, rest⟩ := escaped_split (List.cons.inj same).2
  exact ⟨String.toList_injective chars, rest⟩

/-! ## Numbers -/

theorem toList_intText (value : Int) : (toString value).toList =
    if value < 0 then '-' :: Nat.toDigits 10 value.natAbs else Nat.toDigits 10 value.natAbs := by
  rw [Int.toString_eq_repr, Int.repr_eq_if]
  by_cases negative : value < 0
  · have size : (-value).toNat = value.natAbs := by omega
    rw [if_neg (by omega), if_pos negative, String.toList_append, Nat.toList_repr, size]
    rfl
  · have size : value.toNat = value.natAbs := by omega
    rw [if_pos (by omega), if_neg negative, Nat.toList_repr, size]

theorem isDigit_of_mem_toDigits {n : Nat} : ∀ c ∈ Nat.toDigits 10 n, c.isDigit = true :=
  fun _ member => Nat.isDigit_of_mem_toDigits (by decide) (by decide) member

theorem digit_or_minus_of_mem_intText {value : Int} :
    ∀ c ∈ (toString value).toList, c.isDigit = true ∨ c = '-' := by
  intro c member
  rw [toList_intText] at member
  split at member
  · rcases List.mem_cons.mp member with sign | digit
    · exact .inr sign
    · exact .inl (isDigit_of_mem_toDigits c digit)
  · exact .inl (isDigit_of_mem_toDigits c member)

theorem toDigits_injective {n m : Nat} (same : Nat.toDigits 10 n = Nat.toDigits 10 m) : n = m := by
  rw [← decimal_toDigits n, same, decimal_toDigits]

theorem minus_ne_toDigits {n : Nat} {digits : List Char} : '-' :: digits ≠ Nat.toDigits 10 n := by
  intro same
  have digit := @isDigit_of_mem_toDigits n '-' (same ▸ List.mem_cons_self)
  cases digit

theorem intText_injective {x y : Int} (same : (toString x).toList = (toString y).toList) :
    x = y := by
  rw [toList_intText, toList_intText] at same
  split at same <;> split at same
  · have := toDigits_injective (List.cons.inj same).2
    omega
  · exact absurd same minus_ne_toDigits
  · exact absurd same.symm minus_ne_toDigits
  · have := toDigits_injective same
    omega

theorem intText_ne_floatText (value : Int) (x : Binary64) :
    (toString value).toList ≠ (documentLayout.write x).toList := by
  intro same
  have integer := @digit_or_minus_of_mem_intText value
  rw [same] at integer
  rcases Layout.mark_mem_documentLayout x with point | power
  · exact absurd (integer '.' point) (by decide)
  · exact absurd (integer 'e' power) (by decide)

theorem Numeric.text_injective {x y : Numeric} (same : x.text.toList = y.text.toList) : x = y := by
  cases x with
  | int i inRange =>
    cases y with
    | int j inRange' =>
      obtain rfl := intText_injective same
      rfl
    | float b => exact absurd same (intText_ne_floatText i b)
  | float a =>
    cases y with
    | int j inRange => exact absurd same.symm (intText_ne_floatText j a)
    | float b =>
      exact congrArg Numeric.float (documentLayout.write_injective (String.toList_injective same))

theorem Numeric.isNumeralChar_of_mem_text (x : Numeric) :
    ∀ c ∈ x.text.toList, Layout.isNumeralChar c = true := by
  cases x with
  | int value _ =>
    intro c member
    rcases digit_or_minus_of_mem_intText c member with digit | rfl
    · exact Layout.isNumeralChar_of_isDigit digit
    · rfl
  | float value => exact documentLayout.isNumeralChar_of_mem_write value

/-! ## Documents -/

/-- Whether a text is nothing that a number could go on with: empty, or what stands after a value in
an array or an object. -/
def endsValue : List Char → Bool
  | [] => true
  | c :: _ => c = ',' || c = ']' || c = '\x7d'

theorem takeWhile_of_endsValue {rest : List Char} (ends : endsValue rest = true) :
    rest.takeWhile Layout.isNumeralChar = [] := by
  cases rest with
  | nil => rfl
  | cons c rest =>
    unfold endsValue at ends
    simp only [Bool.or_eq_true, decide_eq_true_eq] at ends
    rcases ends with (rfl | rfl) | rfl <;> rfl

/-- The text of a number is read off the front of what ends it. -/
theorem Numeric.takeWhile_text (x : Numeric) {rest : List Char} (ends : endsValue rest = true) :
    (x.text.toList ++ rest).takeWhile Layout.isNumeralChar = x.text.toList := by
  rw [List.takeWhile_append_of_pos x.isNumeralChar_of_mem_text, takeWhile_of_endsValue ends,
    List.append_nil]

theorem Numeric.text_split {x y : Numeric} {r s : List Char} (rEnds : endsValue r = true)
    (sEnds : endsValue s = true) (same : x.text.toList ++ r = y.text.toList ++ s) :
    x = y ∧ r = s := by
  have texts : x.text.toList = y.text.toList := by
    rw [← x.takeWhile_text rEnds, same, y.takeWhile_text sEnds]
  rw [texts] at same
  exact ⟨text_injective texts, List.append_cancel_left same⟩

def kindOfLead? (c : Char) : Option Nat :=
  if c = 'n' then some 0
  else if c = 't' ∨ c = 'f' then some 1
  else if Layout.isNumeralChar c then some 2
  else if c = '"' then some 3
  else if c = '[' then some 4
  else if c = '\x7b' then some 5
  else none

theorem kindOfLead?_of_isNumeralChar {c : Char} (numeral : Layout.isNumeralChar c = true) :
    kindOfLead? c = some 2 := by
  unfold kindOfLead?
  split_ifs with null truth
  · subst null
    cases numeral
  · rcases truth with rfl | rfl <;> cases numeral
  · rfl

theorem Numeric.text_ne_nil (x : Numeric) : x.text.toList ≠ [] := by
  cases x with
  | int value _ =>
    intro none
    have text := toList_intText value
    rw [show toString value = (Numeric.int value ‹_›).text from rfl, none] at text
    split at text
    · cases text
    · exact Nat.toDigits_ne_nil text.symm
  | float value =>
    intro none
    rcases Layout.mark_mem_documentLayout value with point | power
    · exact absurd (none ▸ point : '.' ∈ []) List.not_mem_nil
    · exact absurd (none ▸ power : 'e' ∈ []) List.not_mem_nil

/-- The first character of a text tells the kind of the document. -/
theorem text_lead (x : Json) :
    ∃ c rest, x.text.toList = c :: rest ∧ kindOfLead? c = some x.kindRank := by
  cases x with
  | null => exact ⟨'n', _, by rw [text]; rfl, rfl⟩
  | bool value =>
    cases value with
    | false => exact ⟨'f', _, by rw [text]; rfl, rfl⟩
    | true => exact ⟨'t', _, by rw [text]; rfl, rfl⟩
  | number value =>
    obtain ⟨c, rest, cons⟩ := List.exists_cons_of_ne_nil value.text_ne_nil
    refine ⟨c, rest, by rw [text, cons], kindOfLead?_of_isNumeralChar ?_⟩
    exact value.isNumeralChar_of_mem_text c (cons ▸ List.mem_cons_self)
  | string value =>
    exact ⟨'"', _, by rw [text, stringText, String.toList_ofList]; rfl, rfl⟩
  | array items =>
    refine ⟨'[', (joined "," (itemTexts items)).toList ++ [']'], ?_, rfl⟩
    simp [text]
  | object entries =>
    refine ⟨'\x7b', (joined "," (entryTexts entries)).toList ++ ['\x7d'], ?_, rfl⟩
    simp [text]

theorem kindRank_of_text {x y : Json} {r s : List Char}
    (same : x.text.toList ++ r = y.text.toList ++ s) : x.kindRank = y.kindRank := by
  obtain ⟨c, _, xLead, xKind⟩ := text_lead x
  obtain ⟨d, _, yLead, yKind⟩ := text_lead y
  rw [xLead, yLead] at same
  obtain ⟨rfl, _⟩ := List.cons.inj same
  exact Option.some.inj (xKind.symm.trans yKind)

theorem text_ne_bracket {x : Json} {r s : List Char} : x.text.toList ++ r ≠ ']' :: s := by
  intro same
  obtain ⟨c, _, lead, kind⟩ := text_lead x
  rw [lead] at same
  obtain ⟨rfl, _⟩ := List.cons.inj same
  cases kind

def itemsTail : List Json → List Char
  | [] => [']']
  | item :: rest => ',' :: ((text item).toList ++ itemsTail rest)

def entryText (name : String) (value : Json) : List Char :=
  (stringText name).toList ++ ':' :: (text value).toList

def entriesTail : List (String × Json) → List Char
  | [] => ['\x7d']
  | (name, value) :: rest => ',' :: (entryText name value ++ entriesTail rest)

theorem toList_joined_itemTexts (items : List Json) : ∀ item : Json,
    (joined "," (itemTexts (item :: items))).toList ++ [']'] =
      (text item).toList ++ itemsTail items := by
  induction items with
  | nil =>
    intro item
    rw [itemTexts, itemTexts, joined_singleton, itemsTail]
  | cons next rest ih =>
    intro item
    have further := ih next
    rw [itemTexts] at further
    rw [itemTexts, itemTexts, joined_cons_cons, String.toList_append, String.toList_append,
      List.append_assoc, further, itemsTail]
    simp

theorem toList_array_cons (item : Json) (items : List Json) :
    (text (.array (item :: items))).toList = '[' :: ((text item).toList ++ itemsTail items) := by
  rw [text, String.toList_append, String.toList_append, ← toList_joined_itemTexts]
  simp

theorem toList_joined_entryTexts (entries : List (String × Json)) :
    ∀ (name : String) (value : Json),
      (joined "," (entryTexts ((name, value) :: entries))).toList ++ ['\x7d'] =
        entryText name value ++ entriesTail entries := by
  have text_entry (name : String) (value : Json) :
      (stringText name ++ ":" ++ text value).toList = entryText name value := by
    simp [entryText]
  induction entries with
  | nil =>
    intro name value
    rw [entryTexts, entryTexts, joined_singleton, entriesTail, text_entry]
  | cons entry rest ih =>
    obtain ⟨next, nextValue⟩ := entry
    intro name value
    have further := ih next nextValue
    rw [entryTexts] at further
    rw [entryTexts, entryTexts, joined_cons_cons, String.toList_append, String.toList_append,
      text_entry, List.append_assoc, further, entriesTail]
    simp

theorem toList_object_cons (name : String) (value : Json) (entries : List (String × Json)) :
    (text (.object ((name, value) :: entries))).toList =
      '\x7b' :: (entryText name value ++ entriesTail entries) := by
  rw [text, String.toList_append, String.toList_append, ← toList_joined_entryTexts]
  simp

theorem endsValue_itemsTail (items : List Json) (r : List Char) :
    endsValue (itemsTail items ++ r) = true := by
  cases items <;> rfl

theorem endsValue_entriesTail (entries : List (String × Json)) (r : List Char) :
    endsValue (entriesTail entries ++ r) = true := by
  cases entries <;> rfl

theorem toList_array_nil : (text (.array [])).toList = ['[', ']'] := by
  rw [text, itemTexts]
  rfl

theorem toList_object_nil : (text (.object [])).toList = ['\x7b', '\x7d'] := by
  rw [text, entryTexts]
  rfl

theorem entryText_ne_brace {name : String} {value : Json} {r s : List Char} :
    entryText name value ++ r ≠ '\x7d' :: s := by
  intro same
  rw [entryText, stringText, String.toList_ofList] at same
  exact absurd (List.cons.inj same).1 (by decide)

theorem boolText_split {a b : Bool} {r s : List Char}
    (same : (text (.bool a)).toList ++ r = (text (.bool b)).toList ++ s) : a = b ∧ r = s := by
  cases a <;> cases b <;> simp [text] at same ⊢
  all_goals exact same

theorem entryText_split {name other : String} {x y : Json} {r s : List Char}
    (same : entryText name x ++ r = entryText other y ++ s) :
    name = other ∧ x.text.toList ++ r = y.text.toList ++ s := by
  rw [entryText, entryText, List.append_assoc, List.append_assoc] at same
  obtain ⟨names, values⟩ := stringText_split same
  exact ⟨names, (List.cons.inj values).2⟩

mutual

/-- Documents whose texts begin alike are the same where both texts end there, and so is what
follows them. -/
theorem text_split : ∀ (x y : Json) {r s : List Char}, endsValue r = true → endsValue s = true →
    x.text.toList ++ r = y.text.toList ++ s → x = y ∧ r = s
  | .null, y, r, s => by
    intro _ _ same
    cases y with
    | null => exact ⟨rfl, List.append_cancel_left same⟩
    | _ => cases kindRank_of_text same
  | .bool a, y, r, s => by
    intro _ _ same
    cases y with
    | bool b =>
      obtain ⟨rfl, rest⟩ := boolText_split same
      exact ⟨rfl, rest⟩
    | _ => cases kindRank_of_text same
  | .number a, y, r, s => by
    intro rEnds sEnds same
    cases y with
    | number b =>
      rw [text, text] at same
      obtain ⟨rfl, rest⟩ := Numeric.text_split rEnds sEnds same
      exact ⟨rfl, rest⟩
    | _ => cases kindRank_of_text same
  | .string a, y, r, s => by
    intro _ _ same
    cases y with
    | string b =>
      rw [text, text] at same
      obtain ⟨rfl, rest⟩ := stringText_split same
      exact ⟨rfl, rest⟩
    | _ => cases kindRank_of_text same
  | .array [], y, r, s => by
    intro _ _ same
    cases y with
    | array ys =>
      cases ys with
      | nil => exact ⟨rfl, List.append_cancel_left same⟩
      | cons y ys =>
        simp only [toList_array_nil, toList_array_cons, List.cons_append, List.append_assoc] at same
        exact absurd (List.cons.inj same).2.symm text_ne_bracket
    | _ => cases kindRank_of_text same
  | .array (x :: xs), y, r, s => by
    intro _ _ same
    cases y with
    | array ys =>
      rw [toList_array_cons, List.cons_append, List.append_assoc] at same
      cases ys with
      | nil =>
        rw [toList_array_nil] at same
        exact absurd (List.cons.inj same).2 text_ne_bracket
      | cons y ys =>
        rw [toList_array_cons, List.cons_append, List.append_assoc] at same
        obtain ⟨rfl, others⟩ := text_split x y (endsValue_itemsTail xs r) (endsValue_itemsTail ys s)
          (List.cons.inj same).2
        obtain ⟨rfl, rest⟩ := itemsTail_split xs ys others
        exact ⟨rfl, rest⟩
    | _ => cases kindRank_of_text same
  | .object [], y, r, s => by
    intro _ _ same
    cases y with
    | object ys =>
      cases ys with
      | nil => exact ⟨rfl, List.append_cancel_left same⟩
      | cons entry ys =>
        obtain ⟨other, y⟩ := entry
        simp only [toList_object_nil, toList_object_cons, List.cons_append, List.append_assoc]
          at same
        exact absurd (List.cons.inj same).2.symm entryText_ne_brace
    | _ => cases kindRank_of_text same
  | .object ((name, x) :: xs), y, r, s => by
    intro _ _ same
    cases y with
    | object ys =>
      rw [toList_object_cons, List.cons_append, List.append_assoc] at same
      cases ys with
      | nil =>
        rw [toList_object_nil] at same
        exact absurd (List.cons.inj same).2 entryText_ne_brace
      | cons entry ys =>
        obtain ⟨other, y⟩ := entry
        rw [toList_object_cons, List.cons_append, List.append_assoc] at same
        obtain ⟨rfl, values⟩ := entryText_split (List.cons.inj same).2
        obtain ⟨rfl, others⟩ := text_split x y (endsValue_entriesTail xs r)
          (endsValue_entriesTail ys s) values
        obtain ⟨rfl, rest⟩ := entriesTail_split xs ys others
        exact ⟨rfl, rest⟩
    | _ => cases kindRank_of_text same

theorem itemsTail_split : ∀ (xs ys : List Json) {r s : List Char},
    itemsTail xs ++ r = itemsTail ys ++ s → xs = ys ∧ r = s
  | [], ys, r, s => by
    intro same
    cases ys with
    | nil => exact ⟨rfl, (List.cons.inj same).2⟩
    | cons y ys => exact absurd (List.cons.inj same).1 (by decide)
  | x :: xs, ys, r, s => by
    intro same
    cases ys with
    | nil => exact absurd (List.cons.inj same).1 (by decide)
    | cons y ys =>
      rw [itemsTail, itemsTail, List.cons_append, List.cons_append, List.append_assoc,
        List.append_assoc] at same
      obtain ⟨rfl, others⟩ := text_split x y (endsValue_itemsTail xs r) (endsValue_itemsTail ys s)
        (List.cons.inj same).2
      obtain ⟨rfl, rest⟩ := itemsTail_split xs ys others
      exact ⟨rfl, rest⟩

theorem entriesTail_split : ∀ (xs ys : List (String × Json)) {r s : List Char},
    entriesTail xs ++ r = entriesTail ys ++ s → xs = ys ∧ r = s
  | [], ys, r, s => by
    intro same
    cases ys with
    | nil => exact ⟨rfl, (List.cons.inj same).2⟩
    | cons entry ys => exact absurd (List.cons.inj same).1 (by decide)
  | (name, x) :: xs, ys, r, s => by
    intro same
    cases ys with
    | nil => exact absurd (List.cons.inj same).1 (by decide)
    | cons entry ys =>
      obtain ⟨other, y⟩ := entry
      rw [entriesTail, entriesTail, List.cons_append, List.cons_append, List.append_assoc,
        List.append_assoc] at same
      obtain ⟨rfl, values⟩ := entryText_split (List.cons.inj same).2
      obtain ⟨rfl, others⟩ := text_split x y (endsValue_entriesTail xs r)
        (endsValue_entriesTail ys s) values
      obtain ⟨rfl, rest⟩ := entriesTail_split xs ys others
      exact ⟨rfl, rest⟩

end

/-- Different documents have different texts. -/
theorem text_injective {x y : Json} (same : x.text = y.text) : x = y :=
  (text_split x y (r := []) (s := []) rfl rfl (by rw [same])).1

end Json

end LayeredQuery
