import LayeredQuery.Proofs.Number.Zero
import LayeredQuery.Proofs.Request.Include
import LayeredQuery.Proofs.Request.Reordering

/-!
# Equality of requests

Requests that are equal are the same but for two things: the signs of zeros among their constants,
and the order in which the projections of layers list their fields. Sets of literals and the trees
of included relationships are kept in one order, so the order in which they were given does not
show.
-/

set_option autoImplicit false

namespace LayeredQuery

open LayeredQuery.Number LayeredQuery.Time

/-! ## Literals -/

theorem Time.Instant.eq_of_order {x y : Instant} (equal : x.order y = .eq) : x = y := by
  obtain ⟨day, second, nano, _, _⟩ := x
  obtain ⟨day', second', nano', _, _⟩ := y
  simp only [Instant.order, Ordering.then_eq_eq, Std.compare_eq_iff_eq] at equal
  obtain ⟨rfl, rfl, rfl⟩ := equal
  rfl

theorem Uuid.eq_of_order {x y : Uuid} (equal : x.order y = .eq) : x = y := by
  obtain ⟨value, _⟩ := x
  obtain ⟨value', _⟩ := y
  simp only [Uuid.order, Std.compare_eq_iff_eq] at equal
  subst equal
  rfl

theorem Number.Extended.eq_or_zeros_of_order {x y : Extended} (equal : x.order y = .eq) :
    x = y ∨ ∃ negative, x = .finite (.zero negative) ∧ y = .finite (.zero !negative) := by
  cases x with
  | finite a =>
    cases y with
    | finite b =>
      rcases Binary64.eq_or_zeros_of_order equal with rfl | ⟨negative, rfl, rfl⟩
      · exact .inl rfl
      · exact .inr ⟨negative, rfl, rfl⟩
    | infinite negative => cases negative <;> cases equal
  | infinite negative =>
    cases y with
    | finite b => cases negative <;> cases equal
    | infinite negative' =>
      cases negative <;> cases negative' <;> first | exact .inl rfl | cases equal

namespace Literal

def isNegativeZero : Literal → Bool
  | .float (.finite value) => value.isZero && value.negative
  | _ => false

def zero (negative : Bool) : Literal :=
  .float (.finite (.zero negative))

theorem eq_or_zeros_of_beq {x y : Literal} (equal : x.beq y = true) :
    x = y ∨ ∃ negative, x = zero negative ∧ y = zero !negative := by
  rw [beq, beq_iff_eq] at equal
  cases x <;> cases y <;> first | cases equal | skip
  case null.null => exact .inl rfl
  case bool.bool a b =>
    cases a <;> cases b <;> first | exact .inl rfl | cases equal
  case int.int a b =>
    rw [order, Std.compare_eq_iff_eq] at equal
    exact .inl (by rw [Int64.toInt_inj.mp equal])
  case float.float a b =>
    rcases Extended.eq_or_zeros_of_order equal with rfl | ⟨negative, rfl, rfl⟩
    · exact .inl rfl
    · exact .inr ⟨negative, rfl, rfl⟩
  case string.string a b =>
    rw [order, Std.compare_eq_iff_eq] at equal
    exact .inl (by rw [equal])
  case dateTime.dateTime a b => exact .inl (by rw [Instant.eq_of_order equal])
  case uuid.uuid a b => exact .inl (by rw [Uuid.eq_of_order equal])

theorem eq_of_beq {x y : Literal} (equal : x.beq y = true)
    (sameSign : x.isNegativeZero = y.isNegativeZero) : x = y := by
  rcases eq_or_zeros_of_beq equal with same | ⟨negative, rfl, rfl⟩
  · exact same
  · cases negative <;> cases sameSign

/-- For each of some constants, whether it is the zero with a sign. -/
def signs (constants : List Literal) : List Bool :=
  constants.map isNegativeZero

theorem signs_append (xs ys : List Literal) : signs (xs ++ ys) = signs xs ++ signs ys :=
  List.map_append

theorem eq_of_beqAll {xs ys : List Literal} (equal : beqAll xs ys = true) {later later' : List Bool}
    (same : signs xs ++ later = signs ys ++ later') : xs = ys ∧ later = later' := by
  induction xs generalizing ys with
  | nil =>
    cases ys with
    | nil => exact ⟨rfl, same⟩
    | cons _ _ => cases equal
  | cons x rest ih =>
    cases ys with
    | nil => cases equal
    | cons y others =>
      obtain ⟨equalHere, equalLater⟩ := Bool.and_eq_true_iff.mp equal
      obtain ⟨sameHere, sameLater⟩ := List.cons.inj same
      obtain ⟨rfl, rfl⟩ := ih equalLater sameLater
      exact ⟨by rw [eq_of_beq equalHere sameHere], rfl⟩

end Literal

/-! ## Filters -/

namespace Operand

def constants : Operand → List Literal
  | .target _ => []
  | .constant value => [value]

theorem eq_of_beq {x y : Operand} (equal : x.beq y = true) {later later' : List Bool}
    (same : Literal.signs x.constants ++ later = Literal.signs y.constants ++ later') :
    x = y ∧ later = later' := by
  cases x with
  | target t =>
    cases y with
    | target u => exact ⟨by rw [beq_iff_eq.mp equal], same⟩
    | constant _ => cases equal
  | constant value =>
    cases y with
    | target _ => cases equal
    | constant other =>
      obtain ⟨sameHere, sameLater⟩ := List.cons.inj same
      exact ⟨by rw [Literal.eq_of_beq equal sameHere], sameLater⟩

end Operand

namespace Filter

mutual

def constants : Filter → List Literal
  | .compare left _ right => left.constants ++ right.constants
  | .logical _ terms => allConstants terms
  | .not term => constants term
  | .matchText _ _ value => [.string value]
  | .oneOf _ values => values
  | .has _ => []
  | .hasWhere _ filter => constants filter
  | .isType _ _ => []
  | .isTypeWhere _ _ filter => constants filter

def allConstants : List Filter → List Literal
  | [] => []
  | filter :: rest => constants filter ++ allConstants rest

end

open Literal (signs signs_append)

mutual

/-- Equal filters are the same if the signs of zeros are. -/
theorem eq_of_beq : ∀ (x y : Filter) {later later' : List Bool}, x.beq y = true →
    signs x.constants ++ later = signs y.constants ++ later' → x = y ∧ later = later'
  | .compare left relation right, y, _, _, equal, same => by
    cases y <;> first | cases equal | skip
    case compare left' relation' right' =>
      obtain ⟨equal, equalRight⟩ := Bool.and_eq_true_iff.mp equal
      obtain ⟨equalLeft, sameRelation⟩ := Bool.and_eq_true_iff.mp equal
      rw [constants, constants, signs_append, signs_append, List.append_assoc,
        List.append_assoc] at same
      obtain ⟨rfl, sameRight⟩ := Operand.eq_of_beq equalLeft same
      obtain ⟨rfl, sameLater⟩ := Operand.eq_of_beq equalRight sameRight
      exact ⟨by rw [beq_iff_eq.mp sameRelation], sameLater⟩
  | .logical connective terms, y, _, _, equal, same => by
    cases y <;> first | cases equal | skip
    case logical connective' terms' =>
      obtain ⟨sameConnective, equalTerms⟩ := Bool.and_eq_true_iff.mp equal
      obtain ⟨rfl, sameLater⟩ := eq_of_beqAll terms terms' equalTerms same
      exact ⟨by rw [beq_iff_eq.mp sameConnective], sameLater⟩
  | .not term, y, _, _, equal, same => by
    cases y <;> first | cases equal | skip
    case not term' =>
      obtain ⟨rfl, sameLater⟩ := eq_of_beq term term' equal same
      exact ⟨rfl, sameLater⟩
  | .matchText chain kind value, y, _, _, equal, same => by
    cases y <;> first | cases equal | skip
    case matchText chain' kind' value' =>
      simp only [beq, Bool.and_eq_true, beq_iff_eq] at equal
      obtain ⟨⟨rfl, rfl⟩, rfl⟩ := equal
      exact ⟨rfl, (List.cons.inj same).2⟩
  | .oneOf chain values, y, _, _, equal, same => by
    cases y <;> first | cases equal | skip
    case oneOf chain' values' =>
      obtain ⟨sameChain, equalValues⟩ := Bool.and_eq_true_iff.mp equal
      obtain ⟨rfl, sameLater⟩ := Literal.eq_of_beqAll equalValues same
      exact ⟨by rw [beq_iff_eq.mp sameChain], sameLater⟩
  | .has chain, y, _, _, equal, same => by
    cases y <;> first | cases equal | skip
    case has chain' => exact ⟨by rw [beq_iff_eq.mp equal], same⟩
  | .hasWhere chain filter, y, _, _, equal, same => by
    cases y <;> first | cases equal | skip
    case hasWhere chain' filter' =>
      obtain ⟨sameChain, equalFilter⟩ := Bool.and_eq_true_iff.mp equal
      obtain ⟨rfl, sameLater⟩ := eq_of_beq filter filter' equalFilter same
      exact ⟨by rw [beq_iff_eq.mp sameChain], sameLater⟩
  | .isType chain type, y, _, _, equal, same => by
    cases y <;> first | cases equal | skip
    case isType chain' type' =>
      simp only [beq, Bool.and_eq_true, beq_iff_eq] at equal
      obtain ⟨rfl, rfl⟩ := equal
      exact ⟨rfl, same⟩
  | .isTypeWhere chain type filter, y, _, _, equal, same => by
    cases y <;> first | cases equal | skip
    case isTypeWhere chain' type' filter' =>
      obtain ⟨sameHead, equalFilter⟩ := Bool.and_eq_true_iff.mp equal
      simp only [Bool.and_eq_true, beq_iff_eq] at sameHead
      obtain ⟨rfl, rfl⟩ := sameHead
      obtain ⟨rfl, sameLater⟩ := eq_of_beq filter filter' equalFilter same
      exact ⟨rfl, sameLater⟩

theorem eq_of_beqAll : ∀ (xs ys : List Filter) {later later' : List Bool}, beqAll xs ys = true →
    signs (allConstants xs) ++ later = signs (allConstants ys) ++ later' → xs = ys ∧ later = later'
  | [], ys, _, _, equal, same => by
    cases ys with
    | nil => exact ⟨rfl, same⟩
    | cons _ _ => cases equal
  | x :: xs, ys, _, _, equal, same => by
    cases ys with
    | nil => cases equal
    | cons y ys =>
      obtain ⟨equalHere, equalLater⟩ := Bool.and_eq_true_iff.mp equal
      rw [allConstants, allConstants, signs_append, signs_append, List.append_assoc,
        List.append_assoc] at same
      obtain ⟨rfl, sameRest⟩ := eq_of_beq x y equalHere same
      obtain ⟨rfl, sameLater⟩ := eq_of_beqAll xs ys equalLater sameRest
      exact ⟨rfl, sameLater⟩

end

end Filter

/-! ## What projections list -/

mutual

/-- The names of all selections in a layer, at any depth, in the order in which they are written. -/
def Layer.listing : Layer → List String
  | ⟨_, _, _, _, _, projection⟩ => Layer.projectionListing projection

def Layer.projectionListing : Option (List Selection) → List String
  | none => []
  | some selections => Selection.listings selections

def Selection.listings : List Selection → List String
  | [] => []
  | selection :: rest => Selection.listing selection ++ Selection.listings rest

def Selection.listing : Selection → List String
  | .field name => [name]
  | .nested name layer => name :: Layer.listing layer

end

mutual

/-- The constants of all filters in a layer in the order in which they are written. -/
def Layer.constants : Layer → List Literal
  | ⟨_, _, filter, _, _, projection⟩ =>
    filter.elim [] Filter.constants ++ Layer.projectionConstants projection

def Layer.projectionConstants : Option (List Selection) → List Literal
  | none => []
  | some selections => Selection.allConstants selections

def Selection.allConstants : List Selection → List Literal
  | [] => []
  | selection :: rest => Selection.constants selection ++ Selection.allConstants rest

def Selection.constants : Selection → List Literal
  | .field _ => []
  | .nested _ layer => Layer.constants layer

end

/-! ## Selections that have equals -/

namespace Layer

theorem beqSelection_iff {selection : Selection} {others : List Selection} :
    beqSelection selection others = true ↔
      ∃ other ∈ others, beqSelection selection [other] = true := by
  cases selection <;> simp [beqSelection]

theorem beqSelections_iff {selections others : List Selection} :
    beqSelections selections others = true ↔
      ∀ selection ∈ selections, beqSelection selection others = true := by
  induction selections with
  | nil => simp [beqSelections]
  | cons selection rest ih => simp [beqSelections, ih]

theorem beqSelection_nested_iff {name name' : String} {layer layer' : Layer} :
    beqSelection (.nested name layer) [.nested name' layer'] = true ↔
      name = name' ∧ layer.beq layer' = true := by
  simp only [beqSelection, List.any_cons, List.any_nil, Bool.or_false, Bool.and_eq_true, beq_iff_eq]
  exact and_congr_left' eq_comm

theorem name_eq_of_beqSelection {selection other : Selection}
    (equal : beqSelection selection [other] = true) : selection.name = other.name := by
  cases selection with
  | field name =>
    cases other with
    | field name' =>
      simp only [beqSelection, List.any_cons, List.any_nil, Bool.or_false, beq_iff_eq] at equal
      exact equal.symm
    | nested _ _ => cases equal
  | nested name layer =>
    cases other with
    | field _ => cases equal
    | nested name' layer' => exact (beqSelection_nested_iff.mp equal).1

variable {selection other : Selection} {selections others : List Selection}

theorem beqSelection_head (distinct : Selection.Distinct (other :: others))
    (sameName : selection.name = other.name)
    (equal : beqSelection selection (other :: others) = true) :
    beqSelection selection [other] = true := by
  obtain ⟨found, member, equalFound⟩ := beqSelection_iff.mp equal
  rcases List.mem_cons.mp member with rfl | later
  · exact equalFound
  · have taken : found.name ∈ others.map Selection.name := List.mem_map_of_mem later
    rw [← name_eq_of_beqSelection equalFound, sameName] at taken
    exact absurd taken distinct.head.1

theorem beqSelections_tail (isNew : other.name ∉ selections.map Selection.name)
    (equal : beqSelections selections (other :: others) = true) :
    beqSelections selections others = true := by
  refine beqSelections_iff.mpr fun selection member => ?_
  obtain ⟨found, isFound, equalFound⟩ :=
    beqSelection_iff.mp (beqSelections_iff.mp equal selection member)
  refine beqSelection_iff.mpr ⟨found, ?_, equalFound⟩
  rcases List.mem_cons.mp isFound with rfl | later
  · have taken : selection.name ∈ selections.map Selection.name := List.mem_map_of_mem member
    rw [name_eq_of_beqSelection equalFound] at taken
    exact absurd taken isNew
  · exact later

end Layer

theorem Selection.listing_eq (selection : Selection) :
    ∃ below, selection.listing = selection.name :: below := by
  cases selection with
  | field name => exact ⟨[], rfl⟩
  | nested name layer => exact ⟨layer.listing, rfl⟩

/-! ## Layers -/

open Literal (signs signs_append)

theorem Filter.eq_of_beqOption {x y : Option Filter} {later later' : List Bool}
    (equal : Layer.beqOption Filter.beq x y = true)
    (same : signs (x.elim [] constants) ++ later = signs (y.elim [] constants) ++ later') :
    x = y ∧ later = later' := by
  cases x with
  | none =>
    cases y with
    | none => exact ⟨rfl, same⟩
    | some _ => cases equal
  | some filter =>
    cases y with
    | none => cases equal
    | some filter' =>
      obtain ⟨rfl, sameLater⟩ := eq_of_beq filter filter' equal same
      exact ⟨rfl, sameLater⟩

theorem Include.eq_of_beqOption {x y : Option Include}
    (equal : Layer.beqOption Include.beq x y = true) : x = y := by
  cases x with
  | none =>
    cases y with
    | none => rfl
    | some _ => cases equal
  | some tree =>
    cases y with
    | none => cases equal
    | some tree' => rw [(Include.beq_iff tree tree').mp equal]

namespace Layer

mutual

/-- Equal layers are the same if they list their fields in the same order and the signs of zeros
are the same. -/
theorem eq_of_beq : ∀ (x y : Layer) {names names' : List String} {later later' : List Bool},
    x.beq y = true → x.namesDistinct = true → y.namesDistinct = true →
    x.listing ++ names = y.listing ++ names' →
    signs x.constants ++ later = signs y.constants ++ later' →
    x = y ∧ names = names' ∧ later = later'
  | ⟨type, tree, filter, sort, page, projection⟩,
    ⟨type', tree', filter', sort', page', projection'⟩, _, _, _, _, equal, distinct, distinct',
    sameNames, sameSigns => by
    simp only [beq, Bool.and_eq_true, beq_iff_eq] at equal
    obtain ⟨⟨⟨⟨⟨rfl, equalTrees⟩, equalFilters⟩, rfl⟩, rfl⟩, equalProjections⟩ := equal
    rw [constants, constants, signs_append, signs_append, List.append_assoc,
      List.append_assoc] at sameSigns
    obtain rfl := Include.eq_of_beqOption equalTrees
    obtain ⟨rfl, sameRest⟩ := Filter.eq_of_beqOption equalFilters sameSigns
    obtain ⟨rfl, sameLater⟩ := eq_of_beqProjection projection projection' equalProjections distinct
      distinct' sameNames sameRest
    exact ⟨rfl, sameLater⟩

theorem eq_of_beqProjection : ∀ (xs ys : Option (List Selection)) {names names' : List String}
    {later later' : List Bool}, beqProjection xs ys = true → projectionDistinct xs = true →
    projectionDistinct ys = true → projectionListing xs ++ names = projectionListing ys ++ names' →
    signs (projectionConstants xs) ++ later = signs (projectionConstants ys) ++ later' →
    xs = ys ∧ names = names' ∧ later = later'
  | none, ys, _, _, _, _, equal, _, _, sameNames, sameSigns => by
    cases ys with
    | none => exact ⟨rfl, sameNames, sameSigns⟩
    | some _ => cases equal
  | some xs, ys, _, _, _, _, equal, distinct, distinct', sameNames, sameSigns => by
    cases ys with
    | none => cases equal
    | some ys =>
      simp only [beqProjection, Bool.and_eq_true, beq_iff_eq] at equal
      obtain ⟨rfl, sameLater⟩ := eq_of_beqSelections xs ys equal.1 equal.2
        (Selection.projectionDistinct_iff.mp distinct)
        (Selection.projectionDistinct_iff.mp distinct') sameNames sameSigns
      exact ⟨rfl, sameLater⟩

theorem eq_of_beqSelections : ∀ (xs ys : List Selection) {names names' : List String}
    {later later' : List Bool}, xs.length = ys.length → beqSelections xs ys = true →
    Selection.Distinct xs → Selection.Distinct ys →
    Selection.listings xs ++ names = Selection.listings ys ++ names' →
    signs (Selection.allConstants xs) ++ later = signs (Selection.allConstants ys) ++ later' →
    xs = ys ∧ names = names' ∧ later = later'
  | [], ys, _, _, _, _, sameLength, _, _, _, sameNames, sameSigns => by
    obtain rfl := List.length_eq_zero_iff.mp sameLength.symm
    exact ⟨rfl, sameNames, sameSigns⟩
  | x :: xs, ys, _, _, _, _, sameLength, equal, distinct, distinct', sameNames, sameSigns => by
    cases ys with
    | nil => cases sameLength
    | cons y ys =>
      obtain ⟨equalHere, equalLater⟩ := Bool.and_eq_true_iff.mp equal
      rw [Selection.listings, Selection.listings, List.append_assoc, List.append_assoc] at sameNames
      rw [Selection.allConstants, Selection.allConstants, signs_append, signs_append,
        List.append_assoc, List.append_assoc] at sameSigns
      -- The listings start with the names of the first selections, so these are each other's equals.
      have sameName : x.name = y.name := by
        obtain ⟨below, isBelow⟩ := x.listing_eq
        obtain ⟨below', isBelow'⟩ := y.listing_eq
        rw [isBelow, isBelow'] at sameNames
        exact (List.cons.inj sameNames).1
      obtain ⟨rfl, restNames, restSigns⟩ := eq_of_beqSelection x y
        (beqSelection_head distinct' sameName equalHere) distinct.head.2 distinct'.head.2 sameNames
        sameSigns
      obtain ⟨rfl, sameLater⟩ := eq_of_beqSelections xs ys (Nat.succ.inj sameLength)
        (beqSelections_tail distinct.head.1 equalLater) distinct.tail distinct'.tail restNames
        restSigns
      exact ⟨rfl, sameLater⟩

theorem eq_of_beqSelection : ∀ (x y : Selection) {names names' : List String}
    {later later' : List Bool}, beqSelection x [y] = true → Selection.layerDistinct x = true →
    Selection.layerDistinct y = true → x.listing ++ names = y.listing ++ names' →
    signs x.constants ++ later = signs y.constants ++ later' →
    x = y ∧ names = names' ∧ later = later'
  | .field name, y, _, _, _, _, equal, _, _, sameNames, sameSigns => by
    cases y with
    | nested _ _ => cases equal
    | field name' =>
      obtain ⟨rfl, sameLater⟩ := List.cons.inj sameNames
      exact ⟨rfl, sameLater, sameSigns⟩
  | .nested name layer, y, _, _, _, _, equal, inner, inner', sameNames, sameSigns => by
    cases y with
    | field _ => cases equal
    | nested name' layer' =>
      obtain ⟨rfl, equalLayers⟩ := beqSelection_nested_iff.mp equal
      obtain ⟨_, below⟩ := List.cons.inj sameNames
      obtain ⟨rfl, sameLater⟩ := eq_of_beq layer layer' equalLayers inner inner' below sameSigns
      exact ⟨rfl, sameLater⟩

end

end Layer

end LayeredQuery
