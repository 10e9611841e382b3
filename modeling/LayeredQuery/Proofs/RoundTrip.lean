import LayeredQuery.Proofs.Request.Built
import LayeredQuery.Proofs.Request.Listing
import LayeredQuery.Request.Sorting

/-!
# Requests are read back from their text

Include trees and sort keys are read from the text they are written as. Sort keys are written in
their own order. The chains of a tree are written in the order of their texts, which is not the order
they have in the tree, but reading only looks at which chains there are.
-/

set_option autoImplicit false

namespace LayeredQuery

/-! ## Include trees -/

namespace Include

def IsPublic (tree : Include) : Prop :=
  ∀ path ∈ tree.pathSet, ∀ name ∈ path, isPublicName name = true

variable {tree other : Include}

theorem isPublic_iff :
    tree.IsPublic ↔ ∀ leaf ∈ tree.paths, ∀ name ∈ leaf, isPublicName name = true := by
  constructor
  · exact fun isPublic leaf isLeaf => isPublic leaf (mem_pathSet_of_leaf isLeaf)
  · intro leaves path member name inPath
    obtain ⟨_, leaf, isLeaf, before⟩ := mem_pathSet_iff_leaf.mp member
    exact leaves leaf isLeaf name (before.subset inPath)

theorem IsPublic.of_mem_toChains (isPublic : tree.IsPublic) {chain : Chain}
    (member : chain ∈ tree.toChains) : chain.IsPublic := by
  obtain ⟨names, isPath, rfl⟩ := List.mem_map.mp member
  exact ⟨ne_nil_of_mem_paths tree names isPath, isPublic_iff.mp isPublic names isPath⟩

def chainTexts (tree : Include) : List String :=
  (tree.toChains.map Chain.text).mergeSort fun x y => x ≤ y

theorem mem_chainTexts {text : String} :
    text ∈ tree.chainTexts ↔ ∃ chain ∈ tree.toChains, chain.text = text := by
  rw [chainTexts, List.mem_mergeSort, List.mem_map]

theorem ofText_eq_ofChains (isPublic : tree.IsPublic) :
    ofText tree.text = ofChains (tree.chainTexts.map Chain.ofText) := by
  have listed : Text.listed tree.text = tree.chainTexts.map String.toList := by
    apply Text.listed_joined
    · intro text member
      obtain ⟨chain, isChain, rfl⟩ := mem_chainTexts.mp member
      exact (isPublic.of_mem_toChains isChain).text_ne_nil
    · intro text member
      obtain ⟨chain, isChain, rfl⟩ := mem_chainTexts.mp member
      exact (isPublic.of_mem_toChains isChain).plain
  calc ofText tree.text
      = ofChains ((Text.listed tree.text).map fun part => Chain.ofText (String.ofList part)) := rfl
    _ = ofChains (tree.chainTexts.map Chain.ofText) := by simp [listed, Function.comp_def]

/-- The chains that the texts of the leaves are read as are the chains of the leaves. -/
theorem mem_chainTexts_ofText (isPublic : tree.IsPublic) (chain : Chain) :
    chain ∈ tree.toChains ↔ chain ∈ tree.chainTexts.map Chain.ofText := by
  rw [List.mem_map]
  constructor
  · intro member
    exact ⟨chain.text, mem_chainTexts.mpr ⟨chain, member, rfl⟩,
      (isPublic.of_mem_toChains member).ofText_text⟩
  · rintro ⟨text, member, rfl⟩
    obtain ⟨chain, isChain, rfl⟩ := mem_chainTexts.mp member
    rw [(isPublic.of_mem_toChains isChain).ofText_text]
    exact isChain

theorem ofText_text (ordered : tree.isOrdered = true) (isPublic : tree.IsPublic) :
    ofText tree.text = .ok tree := by
  have named : ∀ chain ∈ tree.toChains, chain.isEmpty = false := fun chain member => by
    simpa [Chain.isEmpty] using (isPublic.of_mem_toChains member).named
  calc ofText tree.text
      = ofChains (tree.chainTexts.map Chain.ofText) := ofText_eq_ofChains isPublic
    _ = ofChains tree.toChains := (ofChains_congr named (mem_chainTexts_ofText isPublic)).symm
    _ = .ok tree.leafTree := ofChains_toChains tree
    _ = .ok tree := by rw [leafTree_eq tree ordered]

/-- A built tree of public names is read back from its text, so the texts of two such trees are the
same just when the trees are. -/
theorem text_readsBack (built : tree.Built) (built' : other.Built) (isPublic : tree.IsPublic)
    (isPublic' : other.IsPublic) :
    ofText tree.text = .ok tree ∧ (tree.text = other.text ↔ tree = other) := by
  have read := ofText_text built.isOrdered isPublic
  refine ⟨read, ?_, congrArg text⟩
  intro same
  have read' := ofText_text built'.isOrdered isPublic'
  rw [← same, read] at read'
  exact Except.ok.inj read'

namespace Articles

def grouped : Include :=
  ⟨[("author", ⟨[("articles", .empty)]⟩), ("author-groups", .empty)]⟩

end Articles

theorem text_readsBack_articles :
    Articles.grouped.Built ∧ Articles.managed.Built ∧ Articles.grouped.IsPublic ∧
    Articles.managed.IsPublic ∧ ofText Articles.grouped.text = .ok Articles.grouped ∧
    (Articles.grouped.text = Articles.managed.text ↔ Articles.grouped = Articles.managed) := by
  have built : Articles.grouped.Built := built_iff_isOrdered.mpr (by decide)
  have isPublic : Articles.grouped.IsPublic := isPublic_iff.mpr (by decide)
  have isPublic' : Articles.managed.IsPublic := isPublic_iff.mpr (by decide)
  exact ⟨built, Articles.managed_built, isPublic, isPublic',
    text_readsBack built Articles.managed_built isPublic isPublic'⟩

end Include

/-! ## Sort keys -/

namespace Target

variable {target : Target}

theorem counted?_of_not_mem {text : List Char} (absent : '(' ∉ text) : counted? text = none := by
  rw [counted?]
  cases found : "count(".toList.isPrefixOf? text with
  | none => rfl
  | some rest =>
    have whole := List.isPrefixOf?_eq_some_iff_append_eq.mp found
    exact absurd (whole ▸ List.mem_append_left rest (by decide)) absent

theorem counted?_brackets (inner : List Char) :
    counted? ("count(".toList ++ inner ++ [')']) = some inner := by
  have inBrackets : "count(".toList.isPrefixOf? ("count(".toList ++ inner ++ [')']) =
      some (inner ++ [')']) :=
    List.isPrefixOf?_eq_some_iff_append_eq.mpr (List.append_assoc _ _ _).symm
  rw [counted?, inBrackets]
  exact List.isSuffixOf?_eq_some_iff_append_eq.mpr rfl

theorem ofText_text (isPublic : target.chain.IsPublic) : ofText target.text.toList = target := by
  cases target with
  | field chain =>
    have absent : '(' ∉ chain.text.toList := isPublic.bracket_not_mem_text
    rw [text, ofText, counted?_of_not_mem absent]
    exact congrArg Target.field (String.ofList_toList ▸ isPublic.ofText_text)
  | count chain =>
    have brackets : (Target.count chain).text.toList =
        "count(".toList ++ chain.text.toList ++ [')'] := by
      rw [text, String.toList_append, String.toList_append]
      rfl
    rw [brackets, ofText, counted?_brackets]
    exact congrArg Target.count (String.ofList_toList ▸ isPublic.ofText_text)

theorem text_plain (isPublic : target.chain.IsPublic) : Text.Plain target.text := by
  cases target with
  | field chain => exact isPublic.plain
  | count chain =>
    have opening : Text.Plain "count(" := by decide
    have closing : Text.Plain ")" := by decide
    exact (opening.append isPublic.plain).append closing

theorem text_head (isPublic : target.chain.IsPublic) :
    ∃ c rest, target.text.toList = c :: rest ∧ c.isAlpha = true := by
  cases target with
  | field chain => exact isPublic.text_head
  | count chain =>
    rw [text, String.toList_append, String.toList_append]
    exact ⟨'c', _, rfl, by decide⟩

end Target

namespace SortKey

variable {key : SortKey}

theorem ofText_of_ne_hyphen {c : Char} (other : c ≠ '-') (rest : List Char) :
    ofText (c :: rest) = ⟨Target.ofText (c :: rest), .ascending⟩ := by
  unfold ofText
  split
  · rename_i same
    exact absurd (List.cons.inj same).1 other
  · rfl

theorem ofText_text (isPublic : key.target.chain.IsPublic) : ofText key.text.toList = key := by
  have read := Target.ofText_text isPublic
  obtain ⟨target, direction⟩ := key
  cases direction with
  | ascending =>
    obtain ⟨c, rest, letters, isLetter⟩ := Target.text_head isPublic
    have notHyphen : c ≠ '-' := by
      rintro rfl
      cases isLetter
    rw [letters] at read
    calc ofText (text ⟨target, .ascending⟩).toList
        = ofText (c :: rest) := congrArg ofText letters
      _ = ⟨target, .ascending⟩ := by rw [ofText_of_ne_hyphen notHyphen, read]
  | descending =>
    rw [text, String.toList_append]
    exact congrArg (SortKey.mk · .descending) read

theorem text_plain (isPublic : key.target.chain.IsPublic) : Text.Plain key.text := by
  obtain ⟨target, direction⟩ := key
  cases direction with
  | ascending => exact Target.text_plain isPublic
  | descending =>
    have hyphen : Text.Plain "-" := by decide
    exact hyphen.append (Target.text_plain isPublic)

theorem text_ne_nil (isPublic : key.target.chain.IsPublic) : key.text.toList ≠ [] := by
  obtain ⟨target, direction⟩ := key
  cases direction with
  | ascending =>
    obtain ⟨c, rest, letters, _⟩ := Target.text_head isPublic
    simp [text, letters]
  | descending => simp [text]

end SortKey

/-- Sort keys of public names are read back from their text. -/
theorem Sorting.text_roundTrips {sort : Sorting}
    (arePublic : ∀ key ∈ sort.keys, key.target.chain.IsPublic) : Sorting.ofText sort.text = sort := by
  have listed : Text.listed sort.text = (sort.keys.map SortKey.text).map String.toList := by
    apply Text.listed_joined
    · exact List.forall_mem_map.mpr fun key member => SortKey.text_ne_nil (arePublic key member)
    · exact List.forall_mem_map.mpr fun key member => SortKey.text_plain (arePublic key member)
  have keys : (Text.listed sort.text).map SortKey.ofText = sort.keys := by
    rw [listed, List.map_map, List.map_map]
    refine (List.map_congr_left fun key member => ?_).trans (List.map_id _)
    exact SortKey.ofText_text (arePublic key member)
  exact congrArg Sorting.mk keys

namespace Articles

def byCount : Sorting :=
  ⟨[⟨.count ⟨["counter-parts"]⟩, .descending⟩, ⟨.field ⟨["count"]⟩, .ascending⟩,
    ⟨.field ⟨["author", "pen-name"]⟩, .descending⟩]⟩

end Articles

example : Articles.byCount.text = "-count(counter-parts),count,-author.pen-name" := by
  decide +kernel

theorem Sorting.text_roundTrips_articles :
    (∀ key ∈ Articles.byCount.keys, key.target.chain.IsPublic) ∧
    Sorting.ofText Articles.byCount.text = Articles.byCount := by
  have arePublic : ∀ key ∈ Articles.byCount.keys, key.target.chain.IsPublic := by
    intro key member
    refine ⟨?_, ?_⟩ <;> revert key <;> decide
  exact ⟨arePublic, Sorting.text_roundTrips arePublic⟩

end LayeredQuery
