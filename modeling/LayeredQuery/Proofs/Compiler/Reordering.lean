import Mathlib.Data.List.Nodup
import Mathlib.Data.Option.Basic
import LayeredQuery.Proofs.Compiler.Layer
import LayeredQuery.Proofs.Compiler.Outcome
import LayeredQuery.Proofs.Request.Reordering

/-!
# Compiling reordered layers

Resolving the names of a projection gives out no variable and goes no deeper, so it fails or not
whatever their order, and the sort by distinct names puts what was resolved into one order. From
there on two compilations run in step, with nested layers in step by induction.
-/

set_option autoImplicit false

namespace LayeredQuery

namespace Compiler

open Compile

variable {compiler : Compiler}

structure BindingAgrees (binding other : Binding) : Prop where
  sameName : binding.name = other.name
  values : ∀ current resolved,
    Agrees (binding.value current resolved) (other.value current resolved)

/-- Bindings that agree one by one with others after a change of their order. -/
def BindingsAgree (bindings others : List Binding) : Prop :=
  ∃ pairs : List (Binding × Binding), pairs.map Prod.fst = bindings ∧
    (pairs.map Prod.snd).Perm others ∧ ∀ pair ∈ pairs, BindingAgrees pair.1 pair.2

theorem BindingAgrees.refl (binding : Binding) : BindingAgrees binding binding :=
  ⟨rfl, fun _ _ => Agrees.refl _⟩

/-! ## The identity -/

theorem names_of_pairs {pairs : List (Binding × Binding)}
    (agree : ∀ pair ∈ pairs, BindingAgrees pair.1 pair.2) :
    (pairs.map Prod.fst).map Binding.name = (pairs.map Prod.snd).map Binding.name := by
  rw [List.map_map, List.map_map]
  exact List.map_congr_left fun pair member => (agree pair member).sameName

theorem BindingsAgree.withIdentity {bindings others : List Binding}
    (agree : BindingsAgree bindings others) (type : ResourceType) :
    BindingsAgree (compiler.withIdentity type bindings) (compiler.withIdentity type others) := by
  obtain ⟨pairs, rfl, rearranged, each⟩ := agree
  have present : (pairs.map Prod.fst).any (fun binding => binding.name = type.idField) =
      others.any fun binding => binding.name = type.idField := by
    have names := congrArg (List.any · fun name => decide (name = type.idField))
      (names_of_pairs each)
    simp only [List.any_map] at names
    rw [← rearranged.any_eq, List.any_map, List.any_map]
    exact names
  unfold Compiler.withIdentity
  rw [present]
  split
  · refine ⟨pairs ++ [(plainBinding type.idField, plainBinding type.idField)], ?_, ?_, ?_⟩
    · rw [List.map_append]
      rfl
    · rw [List.map_append]
      exact rearranged.append_right _
    · intro pair member
      rcases List.mem_append.mp member with selected | identity
      · exact each pair selected
      · rw [List.mem_singleton.mp identity]
        exact BindingAgrees.refl _
  · exact ⟨pairs, rfl, rearranged, each⟩

theorem names_withIdentity_nodup {bindings : List Binding}
    (distinct : (bindings.map Binding.name).Nodup) (type : ResourceType) :
    ((compiler.withIdentity type bindings).map Binding.name).Nodup := by
  unfold withIdentity
  split
  · rename_i added
    rw [Bool.and_eq_true, Bool.not_eq_true', List.any_eq_false] at added
    rw [List.map_append, List.map_singleton, ← List.concat_eq_append]
    refine distinct.concat fun member => ?_
    obtain ⟨binding, isBinding, sameName⟩ := List.mem_map.mp member
    exact added.2 binding isBinding (decide_eq_true sameName)
  · exact distinct

/-! ## Resolving -/

def fieldOf? (compiler : Compiler) (type : ResourceType) (binding : Binding) :
    Option ResolvedField :=
  (compiler.schema.resolve type binding.name binding.name).toOption

def resolvedOf (compiler : Compiler) (type : ResourceType) (bindings : List Binding) :
    List (Binding × ResolvedField) :=
  bindings.filterMap fun binding =>
    (compiler.fieldOf? type binding).map fun field => (binding, field)

theorem outcome?_resolveBindings (type : ResourceType) (bindings : List Binding)
    (context : Context) :
    outcome? (compiler.resolveBindings type bindings) context =
      if bindings.all fun binding => (compiler.fieldOf? type binding).isSome then
        some (compiler.resolvedOf type bindings, context)
      else none := by
  induction bindings with
  | nil => rfl
  | cons binding rest ih =>
    rw [resolveBindings, outcome?_bind, resolve, outcome?_ofExcept, ← fieldOf?]
    cases found : compiler.fieldOf? type binding with
    | none => simp [found]
    | some field =>
      simp only [Option.map_some, Option.bind_some, outcome?_bind, ih, List.all_cons, found,
        Option.isSome_some, Bool.true_and]
      split
      · have resolved : compiler.resolvedOf type (binding :: rest) =
            (binding, field) :: compiler.resolvedOf type rest := by
          simp [resolvedOf, found]
        rw [resolved]
        rfl
      · rfl

theorem resolvedOf_agree {bindings others : List Binding} (agree : BindingsAgree bindings others)
    (type : ResourceType) :
    ∃ triples : List ((Binding × Binding) × ResolvedField),
      triples.map (fun triple => (triple.1.1, triple.2)) = compiler.resolvedOf type bindings ∧
      (triples.map fun triple => (triple.1.2, triple.2)).Perm (compiler.resolvedOf type others) ∧
      ∀ triple ∈ triples, BindingAgrees triple.1.1 triple.1.2 := by
  obtain ⟨pairs, rfl, rearranged, each⟩ := agree
  refine ⟨pairs.filterMap fun pair =>
    (compiler.fieldOf? type pair.1).map fun field => (pair, field), ?_, ?_, ?_⟩
  · simp only [resolvedOf, List.map_filterMap, List.filterMap_map, Option.map_map,
      Function.comp_def]
  · refine List.Perm.trans (List.Perm.of_eq ?_) (rearranged.filterMap _)
    rw [List.map_filterMap, List.filterMap_map]
    refine List.filterMap_congr fun pair member => ?_
    simp only [Option.map_map, Function.comp_def, fieldOf?, (each pair member).sameName]
  · intro triple member
    obtain ⟨pair, isPair, found⟩ := List.mem_filterMap.mp member
    obtain ⟨field, _, rfl⟩ := Option.map_eq_some_iff.mp found
    exact each pair isPair

theorem all_resolve {bindings others : List Binding} (agree : BindingsAgree bindings others)
    (type : ResourceType) :
    (bindings.all fun binding => (compiler.fieldOf? type binding).isSome) =
      others.all fun binding => (compiler.fieldOf? type binding).isSome := by
  obtain ⟨pairs, rfl, rearranged, each⟩ := agree
  have names := congrArg
    (List.all · fun name => (compiler.schema.resolve type name name).toOption.isSome)
    (names_of_pairs each)
  rw [← rearranged.all_eq]
  simpa only [List.all_map, fieldOf?, Function.comp_def] using names

theorem names_resolvedOf (type : ResourceType) (bindings : List Binding) :
    ((compiler.resolvedOf type bindings).map fun pair => pair.1.name).Sublist
      (bindings.map Binding.name) := by
  induction bindings with
  | nil => exact .slnil
  | cons binding rest ih =>
    unfold resolvedOf at ih ⊢
    rw [List.filterMap_cons]
    cases compiler.fieldOf? type binding with
    | none => exact ih.cons _
    | some field => exact ih.cons_cons _

/-! ## Sorting -/

def sortedOf (compiler : Compiler) (type : ResourceType) (bindings : List Binding) :
    List (Binding × ResolvedField) :=
  (compiler.resolvedOf type bindings).mergeSort fun x y =>
    bindsBefore type.idField x.1.name y.1.name

/-- A sort by distinct names gives one order, whatever order it starts from. -/
theorem mergeSort_eq_of_perm {idField : String} {resolved others : List (Binding × ResolvedField)}
    (rearranged : resolved.Perm others)
    (distinct : (resolved.map fun pair => pair.1.name).Nodup) :
    resolved.mergeSort (fun x y => bindsBefore idField x.1.name y.1.name) =
      others.mergeSort fun x y => bindsBefore idField x.1.name y.1.name := by
  have sorted (pairs : List (Binding × ResolvedField)) :
      (pairs.mergeSort fun x y => bindsBefore idField x.1.name y.1.name).Pairwise
        fun x y => bindsBefore idField x.1.name y.1.name = true :=
    List.pairwise_mergeSort (fun x y z => bindsBefore_trans idField x.1.name y.1.name z.1.name)
      (fun x y => bindsBefore_total idField x.1.name y.1.name) pairs
  refine List.Perm.eq_of_pairwise ?_ (sorted resolved) (sorted others)
    ((List.mergeSort_perm _ _).trans (rearranged.trans (List.mergeSort_perm _ _).symm))
  intro x y isFirst isSecond before after
  refine List.inj_on_of_nodup_map distinct (List.mem_mergeSort.mp isFirst)
    (rearranged.mem_iff.mpr (List.mem_mergeSort.mp isSecond)) ?_
  exact bindsBefore_antisymm before after

theorem sortedOf_agree {bindings others : List Binding} (agree : BindingsAgree bindings others)
    (distinct : (bindings.map Binding.name).Nodup) (type : ResourceType) :
    ∃ triples : List ((Binding × Binding) × ResolvedField),
      triples.map (fun triple => (triple.1.1, triple.2)) = compiler.sortedOf type bindings ∧
      triples.map (fun triple => (triple.1.2, triple.2)) = compiler.sortedOf type others ∧
      ∀ triple ∈ triples, BindingAgrees triple.1.1 triple.1.2 := by
  obtain ⟨triples, isResolved, rearranged, each⟩ := compiler.resolvedOf_agree agree type
  refine ⟨triples.mergeSort fun x y => bindsBefore type.idField x.1.1.name y.1.1.name, ?_, ?_, ?_⟩
  · rw [sortedOf, ← isResolved]
    exact List.map_mergeSort fun _ _ _ _ => rfl
  · have names : (triples.map fun triple => (triple.1.2, triple.2)).map (fun pair => pair.1.name) =
        (compiler.resolvedOf type bindings).map fun pair => pair.1.name := by
      rw [← isResolved, List.map_map, List.map_map]
      exact List.map_congr_left fun triple member => (each triple member).sameName.symm
    have once := distinct.sublist (compiler.names_resolvedOf type bindings)
    rw [sortedOf, ← mergeSort_eq_of_perm rearranged (names ▸ once)]
    refine List.map_mergeSort fun x isFirst y isSecond => ?_
    rw [(each x isFirst).sameName, (each y isSecond).sameName]
  · exact fun triple member => each triple (List.mem_mergeSort.mp member)

/-! ## Projections -/

theorem outcome?_record (bindings : List Binding) (current : Expr) (type : ResourceType)
    (context : Context) :
    outcome? (compiler.record bindings current type) context =
      if (compiler.withIdentity type bindings).all fun binding =>
          (compiler.fieldOf? type binding).isSome then
        (outcome? (boundValues current
          (compiler.sortedOf type (compiler.withIdentity type bindings))) context).map
          fun ended => (.record type.element ended.1, ended.2)
      else none := by
  rw [record, outcome?_bind, outcome?_resolveBindings]
  split
  · rw [Option.bind_some, outcome?_bind, Option.map_eq_bind]
    rfl
  · rfl

theorem boundValues_agrees (current : Expr) :
    ∀ {triples : List ((Binding × Binding) × ResolvedField)},
      (∀ triple ∈ triples, BindingAgrees triple.1.1 triple.1.2) →
      Agrees (boundValues current (triples.map fun triple => (triple.1.1, triple.2)))
        (boundValues current (triples.map fun triple => (triple.1.2, triple.2)))
  | [], _ => Agrees.refl _
  | triple :: rest, each => by
    obtain ⟨here, later⟩ := List.forall_mem_cons.mp each
    refine Agrees.bind ?_ fun entry => (boundValues_agrees current later).bind_first
    refine (here.values current triple.2).bind fun value => ?_
    rw [here.sameName]
    exact Agrees.refl _

theorem record_agrees {bindings others : List Binding} (agree : BindingsAgree bindings others)
    (distinct : (bindings.map Binding.name).Nodup) (current : Expr) (type : ResourceType) :
    Agrees (compiler.record bindings current type) (compiler.record others current type) := by
  have agree : BindingsAgree (compiler.withIdentity type bindings)
      (compiler.withIdentity type others) := agree.withIdentity type
  obtain ⟨triples, isSorted, isSorted', each⟩ :=
    sortedOf_agree agree (names_withIdentity_nodup distinct type) type
  intro context
  rw [outcome?_record, outcome?_record, all_resolve agree type, ← isSorted, ← isSorted',
    boundValues_agrees current each context]

/-! ## Nested layers -/

def BodiesAgree : Option (Expr → ResourceType → Compile Expr) →
    Option (Expr → ResourceType → Compile Expr) → Prop :=
  Option.Rel fun body other => ∀ current type, Agrees (body current type) (other current type)

theorem nestedValue_agrees {layer other : Layer} (sameType : layer.type = other.type)
    (sameClauses : hasClauses layer = hasClauses other)
    {apply apply' : Query → ResourceType → Compile Query}
    (applied : ∀ source type, Agrees (apply source type) (apply' source type))
    {body? other? : Option (Expr → ResourceType → Compile Expr)}
    (bodies : BodiesAgree body? other?) (accessor : Expr) (resolved : ResolvedField) :
    Agrees (compiler.nestedValue layer apply body? accessor resolved)
      (compiler.nestedValue other apply' other? accessor resolved) := by
  unfold nestedValue
  rw [sameType, sameClauses]
  cases resolved.kind with
  | «attribute» _ _ => exact Agrees.refl _
  | toOne _ =>
    refine Agrees.bind_next fun target => ?_
    split
    · exact Agrees.refl _
    · cases bodies with
      | none => exact Agrees.refl _
      | some bodiesAgree =>
        exact (bodiesAgree _ target).mapError.bind_first.deeper
  | toMany _ =>
    exact Agrees.bind_next fun target => (applied _ target).mapError.bind_first.deeper

/-! ## Layers -/

mutual

/-- A layer and one that reorders it make the same of a source, or both nothing. -/
theorem applyLayer_agrees : ∀ (layer : Layer) {other : Layer}, layer.Reordered other →
    layer.namesDistinct = true → ∀ (source : Query) (type : ResourceType),
      Agrees (compiler.applyLayer layer source type) (compiler.applyLayer other source type)
  | ⟨name, tree, filter, sort, page, projection⟩, _, .layer projections, distinct =>
    fun source type => by
    have bodies := projectionBody_agrees projection projections distinct
    simp only [applyLayer]
    generalize compiler.projectionBody projection = body? at bodies ⊢
    generalize compiler.projectionBody _ = other? at bodies ⊢
    split
    · -- All clauses before the projection are the same in both layers.
      refine Agrees.bind_next fun included => Agrees.bind_next fun filtered => ?_
      refine Agrees.bind_next fun sorted => Agrees.bind_next fun paged => ?_
      cases bodies with
      | none => exact Agrees.refl _
      | some agree => exact Agrees.withVariable fun v => (agree _ type).bind_first
    · exact Agrees.refl _

theorem layerBody_agrees : ∀ (layer : Layer) {other : Layer}, layer.Reordered other →
    layer.namesDistinct = true → BodiesAgree (compiler.layerBody layer) (compiler.layerBody other)
  | ⟨_, _, _, _, _, projection⟩, _, .layer projections, distinct => by
    rw [layerBody, layerBody]
    exact projectionBody_agrees projection projections distinct

theorem projectionBody_agrees : ∀ (projection : Option (List Selection))
    {other : Option (List Selection)}, Layer.ProjectionReordered projection other →
    Layer.projectionDistinct projection = true →
    BodiesAgree (compiler.projectionBody projection) (compiler.projectionBody other)
  | none, _, .none, _ => by
    rw [projectionBody]
    exact .none
  | some selections, some others, .some each rearranged, distinct => by
    rw [Layer.projectionDistinct, Bool.and_eq_true, decide_eq_true_eq] at distinct
    obtain ⟨pairs, firsts, seconds, agree⟩ := bindings_agree selections each distinct.2
    have matched : (pairs.map Prod.snd).Perm (compiler.bindings others) := by
      rw [seconds, bindings_eq_map, bindings_eq_map]
      exact rearranged.map _
    have sameEmpty : selections.isEmpty = others.isEmpty := by
      rw [Bool.eq_iff_iff, List.isEmpty_iff_length_eq_zero, List.isEmpty_iff_length_eq_zero,
        each.length_eq, rearranged.length_eq]
    rw [projectionBody, projectionBody, sameEmpty]
    split
    · exact .none
    · exact .some fun current type => record_agrees ⟨pairs, firsts, matched, agree⟩
        (names_bindings selections ▸ distinct.1) current type

theorem bindings_agree : ∀ (selections : List Selection) {matched : List Selection},
    Selection.Match selections matched → Selection.layersDistinct selections = true →
    ∃ pairs : List (Binding × Binding), pairs.map Prod.fst = compiler.bindings selections ∧
      pairs.map Prod.snd = compiler.bindings matched ∧
      ∀ pair ∈ pairs, BindingAgrees pair.1 pair.2
  | [], _, .nil, _ => ⟨[], by rw [bindings]; rfl, by rw [bindings]; rfl,
      fun pair member => by cases member⟩
  | selection :: rest, matched :: others, .cons here later, distinct => by
    rw [Selection.layersDistinct, Bool.and_eq_true] at distinct
    obtain ⟨pairs, firsts, seconds, agree⟩ := bindings_agree rest later distinct.2
    refine ⟨(compiler.binding selection, compiler.binding matched) :: pairs, ?_, ?_, ?_⟩
    · rw [bindings, ← firsts, List.map_cons]
    · rw [bindings, ← seconds, List.map_cons]
    · exact List.forall_mem_cons.mpr ⟨binding_agrees selection here distinct.1, agree⟩

theorem binding_agrees : ∀ (selection : Selection) {matched : Selection},
    selection.Reordered matched → selection.layerDistinct = true →
    BindingAgrees (compiler.binding selection) (compiler.binding matched)
  | .field name, _, .field _, _ => BindingAgrees.refl _
  | .nested name layer, .nested _ other, .nested _ layers, distinct => by
    have applied := applyLayer_agrees layer layers distinct
    have bodies := layerBody_agrees layer layers distinct
    rw [binding, binding]
    refine ⟨rfl, nestedValue_agrees ?_ ?_ applied bodies⟩
    · cases layers
      rfl
    · cases layers
      rfl

end

end Compiler

end LayeredQuery
