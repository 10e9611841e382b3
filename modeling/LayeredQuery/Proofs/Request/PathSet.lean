import Mathlib.Data.List.Pairwise
import Mathlib.Data.List.Sort
import Mathlib.Data.Set.Basic
import LayeredQuery.Proofs.Request.Ordered

/-!
# Trees as sets of paths

A tree stands for the set of the paths from its root to each of its relationships. The union of two
trees has the paths of both. Every path goes on to a leaf, and in an ordered tree none goes on from
a leaf, so the chains of the leaves can be told from the set of paths alone and an ordered tree is
determined by it.
-/

set_option autoImplicit false

namespace LayeredQuery

namespace Include

/-- Whether a path leads from the root of a tree to a relationship that is included there. Nothing
has to be included for the path that stays at the root. -/
def HasPath : Include → List String → Prop
  | _, [] => True
  | ⟨elements⟩, name :: rest => ∃ below, (name, below) ∈ elements ∧ HasPath below rest

def pathSet (tree : Include) : Set (List String) :=
  {path | path ≠ [] ∧ tree.HasPath path}

section Elements

variable {elements others : List (String × Include)} {path : List String}

@[simp] theorem hasPath_nil (tree : Include) : tree.HasPath [] := by
  cases tree
  trivial

@[simp] theorem hasPath_cons {name : String} {rest : List String} :
    HasPath ⟨elements⟩ (name :: rest) ↔
      ∃ below, (name, below) ∈ elements ∧ below.HasPath rest := .rfl

theorem HasPath.mono (found : HasPath ⟨elements⟩ path) (subset : elements ⊆ others) :
    HasPath ⟨others⟩ path := by
  cases path with
  | nil => trivial
  | cons name rest =>
    obtain ⟨below, member, onwards⟩ := found
    exact ⟨below, subset member, onwards⟩

theorem hasPath_elements_cons (element : String × Include) :
    HasPath ⟨element :: elements⟩ path ↔ HasPath ⟨[element]⟩ path ∨ HasPath ⟨elements⟩ path := by
  cases path with
  | nil => simp
  | cons name rest => simp [or_and_right, exists_or]

/-- Elements that are the same, in whatever order and however often, have the same paths. -/
theorem hasPath_congr (same : ∀ element, element ∈ elements ↔ element ∈ others) :
    HasPath ⟨elements⟩ path ↔ HasPath ⟨others⟩ path :=
  ⟨fun found => found.mono fun element => (same element).mp,
    fun found => found.mono fun element => (same element).mpr⟩

end Elements

/-! ## Paths of a union -/

theorem hasPath_singleton_union {name : String} {merged old below : Include}
    (union : ∀ path, merged.HasPath path ↔ old.HasPath path ∨ below.HasPath path)
    (path : List String) :
    HasPath ⟨[(name, merged)]⟩ path ↔
      HasPath ⟨[(name, old)]⟩ path ∨ HasPath ⟨[(name, below)]⟩ path := by
  cases path with
  | nil => simp
  | cons first rest => simp [union, and_or_left]

/-- An element adds its paths when it has those of the element whose place it takes. -/
theorem hasPath_insert {name : String} {merged : Include} {elements : List (String × Include)}
    (kept : ∀ old, Keyed.lookup? name elements = some old →
      ∀ path, old.HasPath path → merged.HasPath path) (path : List String) :
    HasPath ⟨Keyed.insert name merged elements⟩ path ↔
      HasPath ⟨elements⟩ path ∨ HasPath ⟨[(name, merged)]⟩ path := by
  cases path with
  | nil => simp
  | cons first rest =>
    constructor
    · rintro ⟨below, member, onwards⟩
      rcases Keyed.mem_of_mem_insert member with new | old
      · exact .inr ⟨below, List.mem_singleton.mpr new, onwards⟩
      · exact .inl ⟨below, old, onwards⟩
    · rintro (⟨below, member, onwards⟩ | new)
      · rcases Keyed.mem_insert_or_lookup? name merged member with stays | ⟨rfl, found⟩
        · exact ⟨below, stays, onwards⟩
        · exact ⟨merged, Keyed.mem_insert_self _ _ _, kept below found rest onwards⟩
      · exact new.mono (by simpa using Keyed.mem_insert_self name merged elements)

theorem hasPath_insert_new {name : String} {elements : List (String × Include)}
    (absent : Keyed.lookup? name elements = none) (below : Include) (path : List String) :
    HasPath ⟨Keyed.insert name below elements⟩ path ↔
      HasPath ⟨elements⟩ path ∨ HasPath ⟨[(name, below)]⟩ path := by
  apply hasPath_insert
  intro old found
  rw [absent] at found
  cases found

theorem hasPath_insert_union {name : String} {merged old below : Include}
    {elements : List (String × Include)} (found : Keyed.lookup? name elements = some old)
    (union : ∀ path, merged.HasPath path ↔ old.HasPath path ∨ below.HasPath path)
    (path : List String) :
    HasPath ⟨Keyed.insert name merged elements⟩ path ↔
      HasPath ⟨elements⟩ path ∨ HasPath ⟨[(name, below)]⟩ path := by
  have kept : ∀ old', Keyed.lookup? name elements = some old' →
      ∀ path, old'.HasPath path → merged.HasPath path := by
    intro old' isOld path onwards
    rw [found] at isOld
    cases isOld
    exact (union path).mpr (.inl onwards)
  have already : HasPath ⟨[(name, old)]⟩ path → HasPath ⟨elements⟩ path := fun onwards =>
    onwards.mono (by simpa using Keyed.mem_of_lookup? found)
  rw [hasPath_insert kept, hasPath_singleton_union union, ← or_assoc,
    or_iff_left_of_imp already]

mutual

theorem hasPath_merge : ∀ (tree other : Include) (path : List String),
    (tree.merge other).HasPath path ↔ tree.HasPath path ∨ other.HasPath path
  | ⟨into⟩, ⟨elements⟩, path => by
    rw [merge]
    exact hasPath_mergeElements elements into path

theorem hasPath_mergeElements : ∀ (elements into : List (String × Include)) (path : List String),
    HasPath ⟨mergeElements into elements⟩ path ↔
      HasPath ⟨into⟩ path ∨ HasPath ⟨elements⟩ path
  | [], into, path => by
    cases path <;> simp [mergeElements]
  | (name, below) :: rest, into, path => by
    rw [mergeElements, hasPath_mergeElements rest, hasPath_elements_cons, ← or_assoc]
    refine or_congr_left ?_
    cases found : Keyed.lookup? name into with
    | none => exact hasPath_insert_new found below path
    | some old => exact hasPath_insert_union found (hasPath_merge old below) path

end

theorem pathSet_merge (tree other : Include) :
    (tree.merge other).pathSet = tree.pathSet ∪ other.pathSet := by
  ext path
  simp only [pathSet, Set.mem_ofPred_eq, Set.mem_union, hasPath_merge, and_or_left]

theorem hasPath_ofPath (names path : List String) :
    (ofPath names).HasPath path ↔ path <+: names := by
  induction names generalizing path with
  | nil => cases path <;> simp [ofPath, empty]
  | cons name rest ih =>
    cases path with
    | nil => simp
    | cons first others => simp [ofPath, ih, List.cons_prefix_cons]

theorem hasPath_mergePaths {chains : List Chain} {path : List String} : ∀ {tree : Include},
    (tree.mergePaths chains).HasPath path ↔
      tree.HasPath path ∨ ∃ chain ∈ chains, path <+: chain.names := by
  induction chains with
  | nil => simp [mergePaths]
  | cons chain rest ih =>
    intro tree
    rw [mergePaths_cons, ih, hasPath_merge, hasPath_ofPath]
    simp only [List.mem_cons, exists_eq_or_imp, or_assoc]

/-! ## Leaves -/

mutual

/-- Every path of a tree goes on to a leaf. -/
theorem hasPath_iff_leaf : ∀ (tree : Include) (path : List String),
    tree.HasPath path ↔ path = [] ∨ ∃ leaf ∈ tree.paths, path <+: leaf
  | ⟨elements⟩, path => by
    rw [paths]
    exact hasPath_iff_elementLeaf elements path

theorem hasPath_iff_elementLeaf : ∀ (elements : List (String × Include)) (path : List String),
    HasPath ⟨elements⟩ path ↔ path = [] ∨ ∃ leaf ∈ elementPaths elements, path <+: leaf
  | [], path => by
    cases path <;> simp [elementPaths]
  | (name, below) :: rest, path => by
    have inner := fun path => hasPath_iff_leaf below path
    have later := hasPath_iff_elementLeaf rest path
    rw [hasPath_elements_cons, later, elementPaths]
    cases path with
    | nil => simp
    | cons first onwards =>
      split
      · -- Nothing is below the first element, so it is a leaf.
        rename_i noPaths
        simp [inner, noPaths]
      · -- It is no leaf, so the path that ends at it goes on to one.
        rename_i leaf others isPaths
        have goesOn : (onwards = [] ∨ ∃ leaf ∈ below.paths, onwards <+: leaf) ↔
            ∃ leaf ∈ below.paths, onwards <+: leaf := by
          refine or_iff_right_of_imp ?_
          rintro rfl
          exact ⟨leaf, isPaths ▸ List.mem_cons_self, List.nil_prefix⟩
        simp [inner, goesOn, ← isPaths, or_and_right, exists_or, and_left_comm]

end

theorem mem_pathSet_iff_leaf {tree : Include} {path : List String} :
    path ∈ tree.pathSet ↔ path ≠ [] ∧ ∃ leaf ∈ tree.paths, path <+: leaf := by
  rw [pathSet, Set.mem_ofPred_eq, hasPath_iff_leaf]
  exact and_congr_right fun named => or_iff_right named

theorem mem_pathSet_of_leaf {tree : Include} {leaf : List String} (isLeaf : leaf ∈ tree.paths) :
    leaf ∈ tree.pathSet :=
  mem_pathSet_iff_leaf.mpr ⟨ne_nil_of_mem_paths tree leaf isLeaf, leaf, isLeaf, List.prefix_refl _⟩

instance : Std.Symm Apart :=
  ⟨fun _ _ apart => ⟨apart.2, apart.1⟩⟩

theorem leaf_eq_of_prefix {tree : Include} (ordered : tree.isOrdered = true)
    {leaf other : List String} (isLeaf : leaf ∈ tree.paths) (isLeaf' : other ∈ tree.paths)
    (before : leaf <+: other) : leaf = other := by
  apply Classical.byContradiction
  intro differ
  have apart := (paths_apart tree ordered).forall isLeaf isLeaf' differ
  exact apart.1 before

theorem mem_paths_iff {tree : Include} (ordered : tree.isOrdered = true) {path : List String} :
    path ∈ tree.paths ↔
      path ∈ tree.pathSet ∧ ∀ longer ∈ tree.pathSet, path <+: longer → longer = path := by
  constructor
  · intro isLeaf
    refine ⟨mem_pathSet_of_leaf isLeaf, fun longer found before => ?_⟩
    obtain ⟨_, leaf, isLeaf', onwards⟩ := mem_pathSet_iff_leaf.mp found
    have same := leaf_eq_of_prefix ordered isLeaf isLeaf' (before.trans onwards)
    subst same
    exact onwards.eq_of_length_le before.length_le
  · rintro ⟨found, last⟩
    obtain ⟨_, leaf, isLeaf, before⟩ := mem_pathSet_iff_leaf.mp found
    rw [← last leaf (mem_pathSet_of_leaf isLeaf) before]
    exact isLeaf

/-- Ordered trees with the same paths are the same tree. -/
theorem eq_of_pathSet_eq {tree other : Include} (ordered : tree.isOrdered = true)
    (ordered' : other.isOrdered = true) (same : tree.pathSet = other.pathSet) : tree = other := by
  have sameLeaves : tree.paths = other.paths := by
    apply (paths_increasing tree ordered).eq_of_mem_iff (paths_increasing other ordered')
    intro path
    rw [mem_paths_iff ordered, mem_paths_iff ordered', same]
  calc tree = tree.leafTree := (leafTree_eq tree ordered).symm
    _ = other.leafTree := by simp only [leafTree, toChains, sameLeaves]
    _ = other := leafTree_eq other ordered'

end Include

end LayeredQuery
