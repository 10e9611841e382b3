import LayeredQuery.Proofs.Request.Built

/-!
# Trees and the chains of their leaves are inverse

A built tree is made again by the chains of its leaves. A list of chains comes back, from the leaves
of the tree it makes, without the chains that others go on from and without repetitions, in
lexicographic order. So lists of chains have trees for normal forms.
-/

set_option autoImplicit false

namespace LayeredQuery

namespace Include

theorem mem_toChains {tree : Include} {chain : Chain} :
    chain ∈ tree.toChains ↔ chain.names ∈ tree.paths := by
  unfold toChains
  constructor
  · intro member
    obtain ⟨names, isPath, rfl⟩ := List.mem_map.mp member
    exact isPath
  · intro isPath
    exact List.mem_map.mpr ⟨chain.names, isPath, rfl⟩

/-- The leaves of a tree of chains are those of the chains that no other one goes on from. -/
theorem mem_toChains_mergePaths {chains : List Chain}
    (named : ∀ chain ∈ chains, chain.isEmpty = false) {chain : Chain} :
    chain ∈ (empty.mergePaths chains).toChains ↔
      chain ∈ chains ∧ ∀ longer ∈ chains, chain.names <+: longer.names → longer = chain := by
  have inSet : ∀ other ∈ chains, other.names ∈ (empty.mergePaths chains).pathSet := by
    intro other member
    refine mem_pathSet_mergePaths.mpr ⟨?_, other, member, List.prefix_refl _⟩
    have isNamed := named other member
    simpa [Chain.isEmpty] using isNamed
  rw [mem_toChains, mem_paths_iff (isOrdered_mergePaths named)]
  constructor
  · rintro ⟨found, last⟩
    obtain ⟨_, other, member, before⟩ := mem_pathSet_mergePaths.mp found
    have same : other = chain :=
      congrArg Chain.mk (last other.names (inSet other member) before)
    subst same
    refine ⟨member, fun longer member' before' => ?_⟩
    exact congrArg Chain.mk (last longer.names (inSet longer member') before')
  · rintro ⟨member, last⟩
    refine ⟨inSet chain member, fun path found before => ?_⟩
    obtain ⟨_, other, member', before'⟩ := mem_pathSet_mergePaths.mp found
    have same := last other member' (before.trans before')
    subst same
    exact before'.eq_of_length_le before.length_le

/-- The chains of the leaves of a built tree make that tree. Chains of at least one name each make a
tree whose leaves are the chains that no other one goes on from, in strictly increasing order of
their names, and chains fail to make a tree only when one of them has no name. -/
theorem ofChains_leaves {tree : Include} (built : tree.Built) (chains : List Chain) :
    ofChains tree.toChains = .ok tree ∧
    ((∀ chain ∈ chains, chain.isEmpty = false) →
      ∃ made, ofChains chains = .ok made ∧
        made.toChains.Pairwise (fun chain later => chain.names < later.names) ∧
        ∀ chain, chain ∈ made.toChains ↔
          chain ∈ chains ∧ ∀ longer ∈ chains, chain.names <+: longer.names → longer = chain) ∧
    ((∃ fault, ofChains chains = .error fault) ↔ ∃ chain ∈ chains, chain.isEmpty = true) := by
  refine ⟨?_, ?_, ofChains_error_iff⟩
  · rw [ofChains_toChains, leafTree_eq tree built.isOrdered]
  · intro named
    refine ⟨empty.mergePaths chains, ofChains_eq named, ?_, fun chain =>
      mem_toChains_mergePaths named⟩
    exact List.pairwise_map.mpr (paths_increasing _ (isOrdered_mergePaths named))

namespace Articles

def chains : List Chain :=
  [⟨["tags"]⟩, ⟨["author"]⟩, ⟨["author", "manager"]⟩, ⟨["tags"]⟩, ⟨["author", ""]⟩]

end Articles

theorem ofChains_leaves_articles :
    Articles.managed.Built ∧ (∀ chain ∈ Articles.chains, chain.isEmpty = false) ∧
    ofChains Articles.managed.toChains = .ok Articles.managed ∧
    ∃ made, ofChains Articles.chains = .ok made ∧
      made.toChains.Pairwise (fun chain later => chain.names < later.names) ∧
      ⟨["tags"]⟩ ∈ made.toChains ∧ ⟨["author", ""]⟩ ∈ made.toChains ∧
      ⟨["author"]⟩ ∉ made.toChains := by
  have named : ∀ chain ∈ Articles.chains, chain.isEmpty = false := by decide
  obtain ⟨again, makes, _⟩ := ofChains_leaves Articles.managed_built Articles.chains
  obtain ⟨made, isMade, increasing, leaves⟩ := makes named
  refine ⟨Articles.managed_built, named, again, made, isMade, increasing, ?_, ?_, ?_⟩
  · exact (leaves _).mpr (by decide)
  · exact (leaves _).mpr (by decide)
  · intro member
    have last := ((leaves _).mp member).2 ⟨["author", "manager"]⟩ (by decide) (by decide)
    exact absurd last (by decide)

end Include

end LayeredQuery
