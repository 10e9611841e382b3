import LayeredQuery.Proofs.Request.PathSet

/-!
# Trees that are built

Requests get their trees from the ways to make trees: from elements, from names, from text, from
chains, as the union of others, or as the empty tree. All of these give ordered trees, and give
every ordered tree. On ordered trees union is a semilattice, since it is one on their sets of paths.
-/

set_option autoImplicit false

namespace LayeredQuery

namespace Include

/-- The trees that come out when the ways to make trees are given nothing but such trees. -/
inductive Built : Include → Prop
  | empty : Built .empty
  | ofElements {elements : List (String × Include)} {tree : Include}
      (each : ∀ element ∈ elements, Built element.2) (made : ofElements elements = .ok tree) :
      Built tree
  | ofNames {names : List String} {tree : Include} (made : ofNames names = .ok tree) : Built tree
  | ofText {text : String} {tree : Include} (made : ofText text = .ok tree) : Built tree
  | ofChains {chains : List Chain} {tree : Include} (made : ofChains chains = .ok tree) : Built tree
  | merge {tree other : Include} (first : Built tree) (second : Built other) :
      Built (tree.merge other)

theorem Built.isOrdered {tree : Include} (built : tree.Built) : tree.isOrdered = true := by
  induction built with
  | empty => rfl
  | ofElements _ made ordered => exact isOrdered_of_ofElements ordered made
  | ofNames made =>
    refine isOrdered_of_ofElements ?_ made
    intro element member
    obtain ⟨name, _, rfl⟩ := List.mem_map.mp member
    rfl
  | ofText made => exact isOrdered_of_ofChains made
  | ofChains made => exact isOrdered_of_ofChains made
  | merge _ _ ordered ordered' => exact isOrdered_merge _ _ ordered ordered'

/-- Every ordered tree is built, from the chains of its leaves. -/
theorem built_iff_isOrdered {tree : Include} : tree.Built ↔ tree.isOrdered = true := by
  constructor
  · exact Built.isOrdered
  · intro ordered
    apply Built.ofChains
    rw [ofChains_toChains, leafTree_eq tree ordered]

namespace Articles

def managed : Include :=
  ⟨[("author", ⟨[("manager", .empty)]⟩), ("tags", .empty)]⟩

theorem managed_built : managed.Built :=
  built_iff_isOrdered.mpr (by decide)

end Articles

/-! ## Parts -/

/-- A tree stands somewhere in another one: it is that tree, or stands in what is below one of its
elements. -/
inductive Within (part : Include) : Include → Prop
  | self : Within part part
  | inside {elements : List (String × Include)} {element : String × Include}
      (member : element ∈ elements) (within : Within part element.2) : Within part ⟨elements⟩

theorem Within.isOrdered {part tree : Include} (within : part.Within tree)
    (ordered : tree.isOrdered = true) : part.isOrdered = true := by
  induction within with
  | self => exact ordered
  | inside member _ ih =>
    rw [Include.isOrdered] at ordered
    exact ih ((elementsOrdered_iff.mp ordered).2 _ member)

theorem keys_nodup {tree : Include} (ordered : tree.isOrdered = true) :
    (Keyed.keys tree.elements).Nodup := by
  obtain ⟨elements⟩ := tree
  exact (elementsOrdered_iff.mp ordered).1.nodup

/-! ## The semilattice of ordered trees -/

section Laws

variable {tree other third : Include}

theorem merge_comm (ordered : tree.isOrdered = true) (ordered' : other.isOrdered = true) :
    tree.merge other = other.merge tree := by
  apply eq_of_pathSet_eq
  · exact isOrdered_merge tree other ordered ordered'
  · exact isOrdered_merge other tree ordered' ordered
  · rw [pathSet_merge, pathSet_merge, Set.union_comm]

theorem merge_assoc (ordered : tree.isOrdered = true) (ordered' : other.isOrdered = true)
    (ordered'' : third.isOrdered = true) :
    (tree.merge other).merge third = tree.merge (other.merge third) := by
  apply eq_of_pathSet_eq
  · exact isOrdered_merge _ third (isOrdered_merge tree other ordered ordered') ordered''
  · exact isOrdered_merge tree _ ordered (isOrdered_merge other third ordered' ordered'')
  · simp only [pathSet_merge, Set.union_assoc]

theorem merge_self (ordered : tree.isOrdered = true) : tree.merge tree = tree := by
  apply eq_of_pathSet_eq (isOrdered_merge tree tree ordered ordered) ordered
  rw [pathSet_merge, Set.union_self]

theorem merge_empty : tree.merge empty = tree := by
  obtain ⟨elements⟩ := tree
  rw [empty, merge, mergeElements, Include.elements]

theorem empty_merge (ordered : tree.isOrdered = true) : empty.merge tree = tree := by
  rw [merge_comm rfl ordered, merge_empty]

end Laws

theorem ofElements_congr {elements others : List (String × Include)}
    (each : ∀ element ∈ elements, element.2.isOrdered = true)
    (same : ∀ element, element ∈ elements ↔ element ∈ others) :
    ofElements elements = ofElements others := by
  have each' : ∀ element ∈ others, element.2.isOrdered = true := fun element member =>
    each element ((same element).mpr member)
  have sameEmpty : elements.isEmpty = others.isEmpty := by
    rw [Bool.eq_iff_iff, List.isEmpty_iff, List.isEmpty_iff, List.eq_nil_iff_forall_not_mem,
      List.eq_nil_iff_forall_not_mem]
    exact forall_congr' fun element => not_congr (same element)
  have sameTree : (⟨mergeElements [] elements⟩ : Include) = ⟨mergeElements [] others⟩ := by
    apply eq_of_pathSet_eq
    · exact elementsOrdered_merge elements [] rfl each
    · exact elementsOrdered_merge others [] rfl each'
    · ext path
      simp only [pathSet, Set.mem_ofPred_eq, hasPath_mergeElements, hasPath_congr same]
  rw [ofElements, ofElements, sameEmpty, sameTree]

/-! ## Trees of chains -/

/-- The paths of a tree of chains are the ways to go along one of them. -/
theorem mem_pathSet_mergePaths {chains : List Chain} {path : List String} :
    path ∈ (empty.mergePaths chains).pathSet ↔
      path ≠ [] ∧ ∃ chain ∈ chains, path <+: chain.names := by
  rw [pathSet, Set.mem_ofPred_eq, hasPath_mergePaths]
  refine and_congr_right fun named => or_iff_right ?_
  cases path with
  | nil => exact absurd rfl named
  | cons name rest => simp [empty]

theorem ofChains_eq {chains : List Chain} (named : ∀ chain ∈ chains, chain.isEmpty = false) :
    ofChains chains = .ok (empty.mergePaths chains) :=
  mergeChains_eq named empty

theorem isOrdered_mergePaths {chains : List Chain}
    (named : ∀ chain ∈ chains, chain.isEmpty = false) :
    (empty.mergePaths chains).isOrdered = true :=
  isOrdered_of_ofChains (ofChains_eq named)

theorem ofChains_error_iff {chains : List Chain} :
    (∃ fault, ofChains chains = .error fault) ↔ ∃ chain ∈ chains, chain.isEmpty = true := by
  constructor
  · rintro ⟨fault, refused⟩
    apply Classical.byContradiction
    intro named
    simp only [not_exists, not_and, Bool.not_eq_true] at named
    rw [ofChains_eq named] at refused
    cases refused
  · intro unnamed
    exact ⟨_, mergeChains_refused unnamed empty⟩

/-- The order and the repetition of chains do not matter to the tree that they make. -/
theorem ofChains_congr {chains others : List Chain}
    (named : ∀ chain ∈ chains, chain.isEmpty = false)
    (same : ∀ chain, chain ∈ chains ↔ chain ∈ others) : ofChains chains = ofChains others := by
  have named' : ∀ chain ∈ others, chain.isEmpty = false := fun chain member =>
    named chain ((same chain).mpr member)
  rw [ofChains_eq named, ofChains_eq named']
  refine congrArg Except.ok ?_
  apply eq_of_pathSet_eq (isOrdered_mergePaths named) (isOrdered_mergePaths named')
  ext path
  simp only [mem_pathSet_mergePaths, same]

end Include

end LayeredQuery
