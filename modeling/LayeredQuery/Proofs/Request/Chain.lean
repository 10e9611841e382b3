import LayeredQuery.Request.Target
import LayeredQuery.Schema.Build

/-!
# Texts of chains

Text put together from parts with a separator between them falls into the same parts again when no
part contains the separator. Public names contain no full stop, so the names of a chain can be read
back from its text.
-/

set_option autoImplicit false

namespace LayeredQuery

namespace Text

theorem pieces_of_not_mem {separator : Char} {text : List Char} (absent : separator ∉ text) :
    pieces separator text = [text] := by
  induction text with
  | nil => rfl
  | cons c rest ih =>
    obtain ⟨here, later⟩ := List.ne_and_not_mem_of_not_mem_cons absent
    rw [pieces, if_neg (Ne.symm here), ih later]

theorem pieces_append {separator : Char} {front : List Char} (absent : separator ∉ front)
    (rest : List Char) :
    pieces separator (front ++ separator :: rest) = front :: pieces separator rest := by
  induction front with
  | nil => simp [pieces]
  | cons c front ih =>
    obtain ⟨here, later⟩ := List.ne_and_not_mem_of_not_mem_cons absent
    rw [List.cons_append, pieces, if_neg (Ne.symm here), ih later]

theorem pieces_joined {separator : Char} {between : String} (single : between.toList = [separator])
    {parts : List String} (someParts : parts ≠ [])
    (absent : ∀ part ∈ parts, separator ∉ part.toList) :
    pieces separator (joined between parts).toList = parts.map String.toList := by
  induction parts with
  | nil => exact absurd rfl someParts
  | cons part rest ih =>
    obtain ⟨here, later⟩ := List.forall_mem_cons.mp absent
    cases rest with
    | nil => rw [joined_singleton, pieces_of_not_mem here, List.map_cons, List.map_nil]
    | cons next rest =>
      rw [joined_cons_cons, String.toList_append, String.toList_append, single, List.append_assoc,
        List.singleton_append, pieces_append here, ih (List.cons_ne_nil _ _) later]
      rfl

theorem joined_append (between : String) {front back : List String} (someFront : front ≠ [])
    (someBack : back ≠ []) :
    joined between (front ++ back) = joined between front ++ between ++ joined between back := by
  induction front with
  | nil => exact absurd rfl someFront
  | cons part rest ih =>
    cases rest with
    | nil =>
      obtain ⟨next, others, rfl⟩ := List.exists_cons_of_ne_nil someBack
      rw [List.singleton_append, joined_cons_cons, joined_singleton]
    | cons next rest =>
      rw [List.cons_append, List.cons_append, joined_cons_cons, ← List.cons_append,
        ih (List.cons_ne_nil _ _), joined_cons_cons]
      simp only [String.append_assoc]

end Text

theorem Chain.textOfFirst_eq {chain : Chain} {before after : List String} {name : String}
    (parts : chain.names = before ++ name :: after) :
    chain.textOfFirst (before.length + 1) = Text.joined "." (before ++ [name]) := by
  rw [Chain.textOfFirst, parts, List.take_append, List.take_of_length_le (Nat.le_succ _),
    Nat.add_sub_cancel_left]
  rfl

def Target.chain : Target → Chain
  | .field chain => chain
  | .count chain => chain

/-! ## Public names -/

theorem not_mem_of_isPublicName {name : String} {c : Char} (isPublic : isPublicName name = true)
    (other : (c.isAlphanum || c = '_' || c = '-') = false) : c ∉ name.toList := by
  unfold isPublicName at isPublic
  intro member
  cases letters : name.toList with
  | nil => rw [letters] at member; cases member
  | cons first rest =>
    simp only [letters, Bool.and_eq_true, List.all_eq_true] at isPublic
    rw [letters] at member
    rcases List.mem_cons.mp member with same | later
    · subst same
      simp [Char.isAlphanum, isPublic.1] at other
    · have allowed := isPublic.2 c later
      rw [other] at allowed
      cases allowed

theorem toList_ne_nil_of_isPublicName {name : String} (isPublic : isPublicName name = true) :
    name.toList ≠ [] := by
  intro empty
  simp [isPublicName, empty] at isPublic

/-- A chain of public names is read back from its text. -/
theorem Chain.ofText_joined {names : List String} (named : names ≠ [])
    (arePublic : ∀ name ∈ names, isPublicName name = true) :
    Chain.ofText (Text.joined "." names) = ⟨names⟩ := by
  have noStops : ∀ name ∈ names, '.' ∉ name.toList := fun name member =>
    not_mem_of_isPublicName (arePublic name member) (by decide)
  have noneEmpty : (names.map String.toList).filter (fun piece => !piece.isEmpty) =
      names.map String.toList := by
    refine List.filter_eq_self.mpr fun piece member => ?_
    obtain ⟨name, isName, rfl⟩ := List.mem_map.mp member
    have letters := toList_ne_nil_of_isPublicName (arePublic name isName)
    simpa using letters
  unfold Chain.ofText
  rw [Text.pieces_joined (by decide) named noStops, noneEmpty, List.map_map]
  simp

end LayeredQuery
