import LayeredQuery.Request.Include

/-!
# Trees and the chains of their leaves

Every leaf of a tree has a chain of at least one name, so the chains of a tree always make a tree
again. The tree they make is the union of one path for each leaf. Chains of which one has no name
make none.
-/

set_option autoImplicit false

namespace LayeredQuery

namespace Include

/-! ## Equality -/

mutual

theorem beq_iff : ∀ tree other : Include, tree.beq other = true ↔ tree = other
  | ⟨elements⟩, ⟨others⟩ => by
    rw [beq, beqElements_iff elements others, mk.injEq]

theorem beqElements_iff : ∀ elements others : List (String × Include),
    beqElements elements others = true ↔ elements = others
  | [], [] => by simp [beqElements]
  | [], _ :: _ => by simp [beqElements]
  | _ :: _, [] => by simp [beqElements]
  | (_, below) :: rest, (_, below') :: others => by
    simp [beqElements, beq_iff below below', beqElements_iff rest others]

end

/-! ## Chains -/

def mergePaths (tree : Include) (chains : List Chain) : Include :=
  chains.foldl (fun merged chain => merged.merge (ofPath chain.names)) tree

/-- The tree that the chains of the leaves of a tree make. -/
def leafTree (tree : Include) : Include :=
  empty.mergePaths tree.toChains

theorem mergeChains_eq {chains : List Chain} (named : ∀ chain ∈ chains, chain.isEmpty = false) :
    ∀ tree : Include, mergeChains tree chains = .ok (tree.mergePaths chains) := by
  induction chains with
  | nil => intro tree; rfl
  | cons chain rest ih =>
    obtain ⟨here, later⟩ := List.forall_mem_cons.mp named
    intro tree
    rw [mergeChains, here, ih later]
    rfl

theorem mergeChains_refused {chains : List Chain} (unnamed : ∃ chain ∈ chains, chain.isEmpty = true) :
    ∀ tree : Include, mergeChains tree chains = .error ⟨"include", .emptyIncludeChain⟩ := by
  induction chains with
  | nil =>
    obtain ⟨chain, member, _⟩ := unnamed
    cases member
  | cons chain rest ih =>
    intro tree
    rw [mergeChains]
    split
    · rfl
    · rename_i named
      refine ih ?_ _
      obtain ⟨other, member, isEmpty⟩ := unnamed
      rcases List.mem_cons.mp member with rfl | later
      · exact absurd isEmpty named
      · exact ⟨other, later, isEmpty⟩

theorem elementPaths_eq_nil {elements : List (String × Include)} :
    elementPaths elements = [] ↔ elements = [] := by
  cases elements with
  | nil => simp [elementPaths]
  | cons element rest =>
    obtain ⟨name, below⟩ := element
    rw [elementPaths]
    split <;> simp

theorem paths_eq_nil {tree : Include} : tree.paths = [] ↔ tree.isEmpty = true := by
  obtain ⟨elements⟩ := tree
  rw [paths, elementPaths_eq_nil]
  simp [isEmpty, Include.elements]

mutual

theorem ne_nil_of_mem_paths : ∀ (tree : Include), ∀ names ∈ tree.paths, names ≠ []
  | ⟨elements⟩ => by
    rw [paths]
    exact ne_nil_of_mem_elementPaths elements

theorem ne_nil_of_mem_elementPaths :
    ∀ (elements : List (String × Include)), ∀ names ∈ elementPaths elements, names ≠ []
  | [] => by
    intro names member
    cases member
  | (name, below) :: rest => by
    have later := ne_nil_of_mem_elementPaths rest
    rw [elementPaths]
    split
    · exact List.forall_mem_cons.mpr ⟨List.cons_ne_nil _ _, later⟩
    · intro names member
      rcases List.mem_append.mp member with here | inRest
      · obtain ⟨path, _, rfl⟩ := List.mem_map.mp here
        exact List.cons_ne_nil _ _
      · exact later names inRest

end

/-- The chains of the leaves of a tree make a tree. -/
theorem ofChains_toChains (tree : Include) : ofChains tree.toChains = .ok tree.leafTree := by
  refine mergeChains_eq ?_ empty
  intro chain member
  obtain ⟨names, isPath, rfl⟩ := List.mem_map.mp member
  have named := ne_nil_of_mem_paths tree names isPath
  simpa [Chain.isEmpty] using named

end Include

end LayeredQuery
