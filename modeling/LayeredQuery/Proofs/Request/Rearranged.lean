import LayeredQuery.Proofs.Request.Equality

/-!
# Layers brought into the order of others

Of two equal layers either one can be brought into the order of the other: its selections are put in
another order at each depth and nothing else is done to it.
-/

set_option autoImplicit false

namespace LayeredQuery

namespace Layer

/-- What another layer becomes when its selections are put in the order of a layer. -/
structure Rearranged (layer other rearranged : Layer) : Prop where
  reordered : rearranged.Reordered other
  sameListing : rearranged.listing = layer.listing
  equal : layer.beq rearranged = true
  distinct : rearranged.namesDistinct = true

structure RearrangedSelection (selection other rearranged : Selection) : Prop where
  reordered : rearranged.Reordered other
  sameListing : rearranged.listing = selection.listing
  equal : beqSelection selection [rearranged] = true
  distinct : Selection.layerDistinct rearranged = true

structure RearrangedSelections (selections others rearranged : List Selection) : Prop where
  reordered : ∃ matched, Selection.Match rearranged matched ∧ matched.Perm others
  sameListing : Selection.listings rearranged = Selection.listings selections
  sameNames : rearranged.map Selection.name = selections.map Selection.name
  equal : beqSelections selections rearranged = true
  distinct : Selection.Distinct rearranged

theorem RearrangedSelection.cons {x y z : Selection} {xs before after zs : List Selection}
    (here : RearrangedSelection x y z) (isNew : x.name ∉ xs.map Selection.name)
    (later : RearrangedSelections xs (before ++ after) zs) :
    RearrangedSelections (x :: xs) (before ++ y :: after) (z :: zs) where
  reordered := by
    obtain ⟨matched, each, rearranged⟩ := later.reordered
    exact ⟨y :: matched, .cons here.reordered each,
      (rearranged.cons y).trans List.perm_middle.symm⟩
  sameListing := by
    rw [Selection.listings, Selection.listings, here.sameListing, later.sameListing]
  sameNames := by
    rw [List.map_cons, List.map_cons, later.sameNames, name_eq_of_beqSelection here.equal]
  equal := by
    refine beqSelections_iff.mpr (List.forall_mem_cons.mpr ⟨?_, ?_⟩)
    · exact beqSelection_iff.mpr ⟨z, List.mem_cons_self, here.equal⟩
    · intro selection member
      obtain ⟨found, isFound, equal⟩ :=
        beqSelection_iff.mp (beqSelections_iff.mp later.equal selection member)
      exact beqSelection_iff.mpr ⟨found, List.mem_cons_of_mem _ isFound, equal⟩
  distinct := by
    refine ⟨List.nodup_cons.mpr ⟨?_, later.distinct.names⟩, ?_⟩
    · rwa [later.sameNames, ← name_eq_of_beqSelection here.equal]
    · rw [Selection.layersDistinct, here.distinct, later.distinct.inner]
      rfl

theorem beqSelections_mono {selections others more : List Selection}
    (included : ∀ other ∈ others, other ∈ more) (equal : beqSelections selections others = true) :
    beqSelections selections more = true := by
  refine beqSelections_iff.mpr fun selection member => ?_
  obtain ⟨found, isFound, equalFound⟩ :=
    beqSelection_iff.mp (beqSelections_iff.mp equal selection member)
  exact beqSelection_iff.mpr ⟨found, included found isFound, equalFound⟩

mutual

/-- Each of two equal layers can be brought into the order of the other. -/
theorem exists_rearranged : ∀ x y : Layer, x.beq y = true → x.namesDistinct = true →
    y.namesDistinct = true → ∃ z, Rearranged x y z
  | ⟨type, tree, filter, sort, page, projection⟩,
    ⟨type', tree', filter', sort', page', projection'⟩, equal, distinct, distinct' => by
    simp only [beq, Bool.and_eq_true, beq_iff_eq] at equal
    obtain ⟨⟨⟨⟨⟨rfl, equalTrees⟩, equalFilters⟩, rfl⟩, rfl⟩, equalProjections⟩ := equal
    cases projection with
    | none =>
      cases projection' with
      | some _ => cases equalProjections
      | none =>
        refine ⟨⟨type, tree', filter', sort, page, none⟩, .layer .none, rfl, ?_, rfl⟩
        simp [beq, equalTrees, equalFilters, beqProjection]
    | some xs =>
      cases projection' with
      | none => cases equalProjections
      | some ys =>
        simp only [beqProjection, Bool.and_eq_true, beq_iff_eq] at equalProjections
        obtain ⟨sameLength, equalSelections⟩ := equalProjections
        obtain ⟨zs, rearranged⟩ := exists_rearrangedSelections xs ys sameLength equalSelections
          (Selection.projectionDistinct_iff.mp distinct)
          (Selection.projectionDistinct_iff.mp distinct')
        obtain ⟨matched, each, perm⟩ := rearranged.reordered
        have sameLength' : xs.length = zs.length := by
          simpa using (congrArg List.length rearranged.sameNames).symm
        refine ⟨⟨type, tree', filter', sort, page, some zs⟩, .layer (.some each perm),
          rearranged.sameListing, ?_, Selection.projectionDistinct_iff.mpr rearranged.distinct⟩
        simp [beq, equalTrees, equalFilters, beqProjection, sameLength', rearranged.equal]

theorem exists_rearrangedSelections : ∀ xs ys : List Selection, xs.length = ys.length →
    beqSelections xs ys = true → Selection.Distinct xs → Selection.Distinct ys →
    ∃ zs, RearrangedSelections xs ys zs
  | [], ys, sameLength, _, distinct, _ => by
    obtain rfl := List.length_eq_zero_iff.mp sameLength.symm
    exact ⟨[], ⟨[], .nil, .nil⟩, rfl, rfl, rfl, distinct⟩
  | x :: xs, ys, sameLength, equal, distinct, distinct' => by
    obtain ⟨equalHere, equalLater⟩ := Bool.and_eq_true_iff.mp equal
    obtain ⟨y, member, equalY⟩ := beqSelection_iff.mp equalHere
    obtain ⟨before, after, rfl⟩ := List.append_of_mem member
    -- The equal of the first selection can stand anywhere among the others; what is left of them has
    -- the equals of the rest.
    have toFront : (before ++ y :: after).Perm (y :: (before ++ after)) := List.perm_middle
    have distinctFront := distinct'.perm toFront
    have equalRest : beqSelections xs (before ++ after) = true :=
      beqSelections_tail (name_eq_of_beqSelection equalY ▸ distinct.head.1)
        (beqSelections_mono (fun _ => toFront.mem_iff.mp) equalLater)
    obtain ⟨z, here⟩ := exists_rearrangedSelection x y equalY distinct.head.2 distinctFront.head.2
    obtain ⟨zs, later⟩ := exists_rearrangedSelections xs (before ++ after)
      (Nat.succ.inj (sameLength.trans toFront.length_eq)) equalRest distinct.tail distinctFront.tail
    exact ⟨z :: zs, here.cons distinct.head.1 later⟩

theorem exists_rearrangedSelection : ∀ x y : Selection, beqSelection x [y] = true →
    Selection.layerDistinct x = true → Selection.layerDistinct y = true →
    ∃ z, RearrangedSelection x y z
  | .field name, y, equal, _, _ => by
    cases y with
    | nested _ _ => cases equal
    | field name' =>
      obtain rfl : name = name' := name_eq_of_beqSelection equal
      exact ⟨.field name, .field name, rfl, equal, rfl⟩
  | .nested name layer, y, equal, inner, inner' => by
    cases y with
    | field _ => cases equal
    | nested name' layer' =>
      obtain ⟨rfl, equalLayers⟩ := beqSelection_nested_iff.mp equal
      obtain ⟨z, rearranged⟩ := exists_rearranged layer layer' equalLayers inner inner'
      refine ⟨.nested name z, .nested name rearranged.reordered, ?_,
        beqSelection_nested_iff.mpr ⟨rfl, rearranged.equal⟩, rearranged.distinct⟩
      rw [Selection.listing, Selection.listing, rearranged.sameListing]

end

end Layer

end LayeredQuery
