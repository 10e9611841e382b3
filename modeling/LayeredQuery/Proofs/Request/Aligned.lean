import LayeredQuery.Proofs.Request.Chain
import LayeredQuery.Proofs.Request.Equality
import LayeredQuery.Proofs.Text.Aligned

/-!
# Texts of equal requests

The texts of equal requests are aligned: they differ first where a zero has a sign in one of them
only, or where projections list different fields. As public names end where a punctuation mark
comes, the texts of equal layers show the order of the fields at every depth.
-/

set_option autoImplicit false

namespace LayeredQuery

open LayeredQuery.Number LayeredQuery.Text

/-! ## Filters -/

theorem Literal.filterText_aligned {x y : Literal} (equal : x.beq y = true) :
    Aligned True x.filterText y.filterText := by
  rcases eq_or_zeros_of_beq equal with rfl | ⟨negative, rfl, rfl⟩
  · exact .refl _
  · have unsigned : (zero false).filterText.toList = ['0'] := rfl
    have signed : (zero true).filterText.toList = ['-', '0'] := rfl
    cases negative with
    | false => exact .of_heads unsigned signed (by decide)
    | true => exact .of_heads signed unsigned (by decide)

theorem Literal.filterTexts_aligned {xs ys : List Literal} (equal : beqAll xs ys = true) :
    List.Forall₂ (Aligned True) (xs.map filterText) (ys.map filterText) := by
  induction xs generalizing ys with
  | nil =>
    cases ys with
    | nil => exact .nil
    | cons _ _ => cases equal
  | cons x rest ih =>
    cases ys with
    | nil => cases equal
    | cons y others =>
      obtain ⟨equalHere, equalLater⟩ := Bool.and_eq_true_iff.mp equal
      exact .cons (filterText_aligned equalHere) (ih equalLater)

theorem Operand.text_aligned {x y : Operand} (equal : x.beq y = true) :
    Aligned True x.text y.text := by
  cases x with
  | target t =>
    cases y with
    | target u =>
      rw [beq_iff_eq.mp equal]
      exact .refl _
    | constant _ => cases equal
  | constant value =>
    cases y with
    | target _ => cases equal
    | constant other => exact Literal.filterText_aligned equal

namespace Filter

mutual

theorem text_aligned : ∀ x y : Filter, x.beq y = true → Aligned True x.text y.text
  | .compare left relation right, y, equal => by
    cases y <;> first | cases equal | skip
    case compare left' relation' right' =>
      simp only [beq, Bool.and_eq_true, beq_iff_eq] at equal
      obtain ⟨⟨equalLeft, rfl⟩, equalRight⟩ := equal
      rw [text, text]
      have head := (Operand.text_aligned equalLeft).prepend (relation.keyword ++ "(")
      exact ((head.close ",").append fun _ => Operand.text_aligned equalRight).close ")"
  | .logical connective terms, y, equal => by
    cases y <;> first | cases equal | skip
    case logical connective' terms' =>
      simp only [beq, Bool.and_eq_true, beq_iff_eq] at equal
      obtain ⟨rfl, equalTerms⟩ := equal
      rw [text, text]
      exact ((Aligned.joined "," (texts_aligned terms terms' equalTerms)).prepend _).close ")"
  | .not term, y, equal => by
    cases y <;> first | cases equal | skip
    case not term' =>
      rw [text, text]
      exact ((text_aligned term term' equal).prepend _).close ")"
  | .matchText chain kind value, y, equal => by
    cases y <;> first | cases equal | skip
    case matchText chain' kind' value' =>
      simp only [beq, Bool.and_eq_true, beq_iff_eq] at equal
      obtain ⟨⟨rfl, rfl⟩, rfl⟩ := equal
      exact .refl _
  | .oneOf chain values, y, equal => by
    cases y <;> first | cases equal | skip
    case oneOf chain' values' =>
      simp only [beq, Bool.and_eq_true, beq_iff_eq] at equal
      obtain ⟨rfl, equalValues⟩ := equal
      have parts := List.Forall₂.cons (.refl chain.text) (Literal.filterTexts_aligned equalValues)
      rw [text, text]
      exact ((Aligned.joined "," parts).prepend _).close ")"
  | .has chain, y, equal => by
    cases y <;> first | cases equal | skip
    case has chain' =>
      rw [beq_iff_eq.mp equal]
      exact .refl _
  | .hasWhere chain filter, y, equal => by
    cases y <;> first | cases equal | skip
    case hasWhere chain' filter' =>
      simp only [beq, Bool.and_eq_true, beq_iff_eq] at equal
      obtain ⟨rfl, equalFilter⟩ := equal
      rw [text, text]
      exact ((text_aligned filter filter' equalFilter).prepend _).close ")"
  | .isType chain type, y, equal => by
    cases y <;> first | cases equal | skip
    case isType chain' type' =>
      simp only [beq, Bool.and_eq_true, beq_iff_eq] at equal
      obtain ⟨rfl, rfl⟩ := equal
      exact .refl _
  | .isTypeWhere chain type filter, y, equal => by
    cases y <;> first | cases equal | skip
    case isTypeWhere chain' type' filter' =>
      simp only [beq, Bool.and_eq_true, beq_iff_eq] at equal
      obtain ⟨⟨rfl, rfl⟩, equalFilter⟩ := equal
      rw [text, text]
      exact ((text_aligned filter filter' equalFilter).prepend _).close ")"

theorem texts_aligned : ∀ xs ys : List Filter, beqAll xs ys = true →
    List.Forall₂ (Aligned True) (texts xs) (texts ys)
  | [], ys, equal => by
    cases ys with
    | nil => exact .nil
    | cons _ _ => cases equal
  | x :: xs, ys, equal => by
    cases ys with
    | nil => cases equal
    | cons y ys =>
      obtain ⟨equalHere, equalLater⟩ := Bool.and_eq_true_iff.mp equal
      exact .cons (text_aligned x y equalHere) (texts_aligned xs ys equalLater)

end

end Filter

/-! ## Names in projections -/

def isNameChar (c : Char) : Bool :=
  c.isAlphanum || c = '_' || c = '-'

theorem isNameChar_of_mem {name : String} (isPublic : isPublicName name = true) :
    ∀ c ∈ name.toList, isNameChar c = true := by
  intro c member
  by_contra other
  exact not_mem_of_isPublicName isPublic (Bool.not_eq_true _ ▸ other) member

namespace Layer

theorem selectionText_append {selection : Selection} {c : Char} (behind : List Char)
    (ends : isNameChar c = false) :
    ∃ c' behind', (selectionText selection).toList ++ c :: behind =
      selection.name.toList ++ c' :: behind' ∧ isNameChar c' = false := by
  cases selection with
  | field name => exact ⟨c, behind, rfl, ends⟩
  | nested name layer =>
    refine ⟨':', ' ' :: ((text layer).toList ++ c :: behind), ?_, by decide⟩
    simp [selectionText, Selection.name]

theorem joined_append (text : String) (texts : List String) (behind : List Char) :
    ∃ c behind', (Text.joined ", " (text :: texts) ++ " \x7d").toList ++ behind =
      text.toList ++ c :: behind' ∧ isNameChar c = false := by
  cases texts with
  | nil => exact ⟨' ', '\x7d' :: behind, by simp [joined_singleton], by decide⟩
  | cons next rest =>
    refine ⟨',', ' ' :: ((Text.joined ", " (next :: rest) ++ " \x7d").toList ++ behind), ?_,
      by decide⟩
    simp [joined_cons_cons]

theorem name_eq_of_joined {x y : Selection} (isPublic : isPublicName x.name = true)
    (isPublic' : isPublicName y.name = true) {texts texts' : List String}
    {behind behind' : List Char}
    (same : (Text.joined ", " (selectionText x :: texts) ++ " \x7d").toList ++ behind =
      (Text.joined ", " (selectionText y :: texts') ++ " \x7d").toList ++ behind') :
    x.name = y.name := by
  obtain ⟨_, _, isJoined, ends⟩ := joined_append (selectionText x) texts behind
  obtain ⟨_, _, isJoined', ends'⟩ := joined_append (selectionText y) texts' behind'
  obtain ⟨_, _, isText, ends⟩ := selectionText_append _ ends
  obtain ⟨_, _, isText', ends'⟩ := selectionText_append _ ends'
  rw [isJoined, isJoined', isText, isText'] at same
  exact String.toList_inj.mp (eq_of_append_cons (isNameChar_of_mem isPublic)
    (isNameChar_of_mem isPublic') ends ends' same).1

/-! ## Parts of layers -/

def clauseTexts (tree : Option Include) (filter : Option Filter) (sort : Option Sorting)
    (page : Option Page) : List String :=
  optionalPart "include" Include.text tree ++ optionalPart "filter" Filter.text filter
    ++ optionalPart "sort" Sorting.text sort ++ optionalPart "pagination" Page.text page

theorem optionalPart_refl {α : Type} (label : String) (text : α → String) (value : Option α) :
    List.Forall₂ (Aligned True) (optionalPart label text value) (optionalPart label text value) :=
  List.forall₂_same.mpr fun part _ => .refl part

theorem clauseTexts_aligned {filter filter' : Option Filter}
    (equal : beqOption Filter.beq filter filter' = true) (tree : Option Include)
    (sort : Option Sorting) (page : Option Page) :
    List.Forall₂ (Aligned True) (clauseTexts tree filter sort page)
      (clauseTexts tree filter' sort page) := by
  have filters : List.Forall₂ (Aligned True) (optionalPart "filter" Filter.text filter)
      (optionalPart "filter" Filter.text filter') := by
    cases filter with
    | none =>
      cases filter' with
      | none => exact .nil
      | some _ => cases equal
    | some f =>
      cases filter' with
      | none => cases equal
      | some g => exact .cons ((Filter.text_aligned f g equal).prepend _) .nil
  exact List.rel_append (List.rel_append (List.rel_append (optionalPart_refl _ _ tree) filters)
    (optionalPart_refl _ _ sort)) (optionalPart_refl _ _ page)

def textOfParts (type : String) (parts : List String) : String :=
  if parts.isEmpty then "QueryLayer<" ++ type ++ ">"
  else "QueryLayer<" ++ type ++ ">" ++ " " ++ braced parts "; "

theorem text_eq (type : String) (tree : Option Include) (filter : Option Filter)
    (sort : Option Sorting) (page : Option Page) (projection : Option (List Selection)) :
    text ⟨type, tree, filter, sort, page, projection⟩ =
      textOfParts type (clauseTexts tree filter sort page ++ projectionText projection) := by
  rw [text]
  rfl

theorem textOfParts_of_ne_nil (type : String) {parts : List String} (someParts : parts ≠ []) :
    textOfParts type parts = "QueryLayer<" ++ type ++ ">" ++ " " ++ braced parts "; " := by
  rw [textOfParts, if_neg (by rwa [List.isEmpty_iff])]

theorem braced_aligned {told : Prop} {parts others : List String} {separator : String}
    (aligned : Aligned told (Text.joined separator parts) (Text.joined separator others)) :
    Aligned told (braced parts separator) (braced others separator) :=
  (aligned.prepend _).close _

theorem textOfParts_aligned {parts others : List String} (type : String)
    (each : List.Forall₂ (Aligned True) parts others) :
    Aligned True (textOfParts type parts) (textOfParts type others) := by
  cases each with
  | nil => exact .refl _
  | cons here later =>
    rw [textOfParts_of_ne_nil type (List.cons_ne_nil _ _),
      textOfParts_of_ne_nil type (List.cons_ne_nil _ _)]
    exact (braced_aligned (Aligned.joined "; " (.cons here later))).prepend _

theorem textOfParts_concat_aligned {told : Prop} {parts others : List String}
    {last last' : String} (type : String) (each : List.Forall₂ (Aligned True) parts others)
    (aligned : Aligned told last last') :
    Aligned told (textOfParts type (parts ++ [last])) (textOfParts type (others ++ [last'])) := by
  rw [textOfParts_of_ne_nil type (List.append_ne_nil_of_right_ne_nil _ (List.cons_ne_nil _ _)),
    textOfParts_of_ne_nil type (List.append_ne_nil_of_right_ne_nil _ (List.cons_ne_nil _ _))]
  exact (braced_aligned (Aligned.joined_concat "; " each aligned)).prepend _

end Layer

/-! ## Layers -/

/-- Selections of different names that are public, and so in all layers in them. -/
structure Selection.Legible (selections : List Selection) : Prop where
  distinct : Selection.Distinct selections
  arePublic : ∀ name ∈ Selection.listings selections, isPublicName name = true

structure Layer.Legible (layer : Layer) : Prop where
  distinct : layer.namesDistinct = true
  arePublic : ∀ name ∈ layer.listing, isPublicName name = true

namespace Selection.Legible

variable {selection : Selection} {rest : List Selection}

theorem name (legible : Legible (selection :: rest)) : isPublicName selection.name = true := by
  obtain ⟨below, isBelow⟩ := selection.listing_eq
  refine legible.arePublic _ (List.mem_append_left _ ?_)
  rw [isBelow]
  exact List.mem_cons_self

theorem tail (legible : Legible (selection :: rest)) : Legible rest where
  distinct := legible.distinct.tail
  arePublic := fun name member => legible.arePublic name (List.mem_append_right _ member)

theorem layer {name : String} {layer : Layer} (legible : Legible (.nested name layer :: rest)) :
    layer.Legible where
  distinct := legible.distinct.head.2
  arePublic := fun other member =>
    legible.arePublic other (List.mem_append_left _ (List.mem_cons_of_mem _ member))

end Selection.Legible

namespace Layer

theorem Legible.selections {type : String} {tree : Option Include} {filter : Option Filter}
    {sort : Option Sorting} {page : Option Page} {selections : List Selection}
    (legible : Legible ⟨type, tree, filter, sort, page, some selections⟩) :
    Selection.Legible selections :=
  ⟨Selection.projectionDistinct_iff.mp legible.distinct, legible.arePublic⟩

mutual

/-- What tells the texts of equal layers apart is the order of the fields, or the sign of a zero. -/
theorem text_aligned : ∀ x y : Layer, x.beq y = true → x.Legible → y.Legible →
    Aligned (x.listing = y.listing) x.text y.text
  | ⟨type, tree, filter, sort, page, projection⟩,
    ⟨type', tree', filter', sort', page', projection'⟩, equal, legible, legible' => by
    simp only [beq, Bool.and_eq_true, beq_iff_eq] at equal
    obtain ⟨⟨⟨⟨⟨rfl, equalTrees⟩, equalFilters⟩, rfl⟩, rfl⟩, equalProjections⟩ := equal
    obtain rfl := Include.eq_of_beqOption equalTrees
    have clauses := clauseTexts_aligned equalFilters tree sort page
    have unlisted := textOfParts_aligned type (List.rel_append clauses .nil)
    rw [text_eq, text_eq]
    cases projection with
    | none =>
      cases projection' with
      | some _ => cases equalProjections
      | none => exact unlisted.imp fun _ => rfl
    | some xs =>
      cases projection' with
      | none => cases equalProjections
      | some ys =>
        simp only [beqProjection, Bool.and_eq_true, beq_iff_eq] at equalProjections
        obtain ⟨sameLength, equalSelections⟩ := equalProjections
        cases xs with
        | nil =>
          obtain rfl := List.length_eq_zero_iff.mp sameLength.symm
          exact unlisted.imp fun _ => rfl
        | cons x xs =>
          cases ys with
          | nil => cases sameLength
          | cons y ys =>
            have listed := selectionTexts_aligned (x :: xs) (y :: ys) sameLength
              (List.cons_ne_nil _ _) equalSelections legible.selections legible'.selections
            refine textOfParts_concat_aligned type clauses ?_
            simp only [braced, String.append_assoc]
            exact (listed.prepend _).prepend _

theorem selectionTexts_aligned : ∀ xs ys : List Selection, xs.length = ys.length → xs ≠ [] →
    beqSelections xs ys = true → Selection.Legible xs → Selection.Legible ys →
    Aligned (Selection.listings xs = Selection.listings ys)
      (Text.joined ", " (selectionTexts xs) ++ " \x7d")
      (Text.joined ", " (selectionTexts ys) ++ " \x7d")
  | [], _, _, someXs, _, _, _ => absurd rfl someXs
  | x :: xs, [], sameLength, _, _, _, _ => by cases sameLength
  | x :: xs, y :: ys, sameLength, _, equal, legible, legible' => by
    rw [selectionTexts, selectionTexts]
    -- Where the texts start one longer text the first names in them are the same, and only then has
    -- the first selection its equal in the first of the others.
    refine .assuming (fun _ _ => name_eq_of_joined legible.name legible'.name) fun sameName => ?_
    obtain ⟨equalHere, equalLater⟩ := Bool.and_eq_true_iff.mp equal
    have here := selectionText_aligned x y (beqSelection_head legible'.distinct sameName equalHere)
      legible legible'
    cases xs with
    | nil =>
      obtain rfl := List.length_eq_zero_iff.mp (Nat.succ.inj sameLength).symm
      simp only [selectionTexts, joined_singleton]
      refine (here.close _).imp fun sameListing => ?_
      rw [Selection.listings, Selection.listings.eq_def [y], sameListing]
    | cons x' xs =>
      cases ys with
      | nil => cases sameLength
      | cons y' ys =>
        have later := selectionTexts_aligned (x' :: xs) (y' :: ys) (Nat.succ.inj sameLength)
          (List.cons_ne_nil _ _)
          (beqSelections_tail (sameName ▸ legible.distinct.head.1) equalLater) legible.tail
          legible'.tail
        simp only [selectionTexts, joined_cons_cons, String.append_assoc] at later ⊢
        refine here.append fun sameListing => (later.prepend ", ").imp fun sameLater => ?_
        rw [Selection.listings, sameListing, sameLater, ← Selection.listings]

theorem selectionText_aligned : ∀ (x y : Selection) {xs ys : List Selection},
    beqSelection x [y] = true → Selection.Legible (x :: xs) → Selection.Legible (y :: ys) →
    Aligned (x.listing = y.listing) (selectionText x) (selectionText y)
  | .field name, y, _, _, equal, _, _ => by
    cases y with
    | nested _ _ => cases equal
    | field name' =>
      obtain rfl := name_eq_of_beqSelection equal
      exact (Aligned.refl _).imp fun _ => rfl
  | .nested name layer, y, _, _, equal, legible, legible' => by
    cases y with
    | field _ => cases equal
    | nested name' layer' =>
      obtain ⟨rfl, equalLayers⟩ := beqSelection_nested_iff.mp equal
      have nested := text_aligned layer layer' equalLayers legible.layer legible'.layer
      exact (nested.prepend _).imp fun sameListing => by
        rw [Selection.listing, Selection.listing, sameListing]

end

end Layer

end LayeredQuery
