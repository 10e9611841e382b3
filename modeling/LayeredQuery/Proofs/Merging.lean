import LayeredQuery.Proofs.Request.Built

/-!
# Include trees are sets of paths

What a built tree includes is a set of paths that is closed under going back towards the root, and
nothing else about the tree matters: trees are equal when their sets of paths are, and merging two
trees is the union of the sets.
-/

set_option autoImplicit false

namespace LayeredQuery

namespace Include

/-- In a built tree siblings have distinct names at every level. Merging unites sets of paths, and
trees are equal just when these sets are, so merging is commutative, associative and idempotent with
the empty tree as identity. A tree made of elements is the same for elements in another order or
repeated. -/
theorem merge_semilattice {tree other third : Include} {elements others : List (String × Include)}
    (built : tree.Built) (built' : other.Built) (built'' : third.Built)
    (each : ∀ element ∈ elements, element.2.Built)
    (same : ∀ element, element ∈ elements ↔ element ∈ others) :
    (∀ part : Include, part.Within tree → (Keyed.keys part.elements).Nodup) ∧
    (tree.merge other).pathSet = tree.pathSet ∪ other.pathSet ∧
    (tree.beq other = true ↔ tree.pathSet = other.pathSet) ∧
    tree.merge other = other.merge tree ∧
    (tree.merge other).merge third = tree.merge (other.merge third) ∧
    tree.merge tree = tree ∧ tree.merge empty = tree ∧ empty.merge tree = tree ∧
    ofElements elements = ofElements others := by
  have ordered := built.isOrdered
  have ordered' := built'.isOrdered
  refine ⟨?_, pathSet_merge tree other, ?_, merge_comm ordered ordered',
    merge_assoc ordered ordered' built''.isOrdered, merge_self ordered, merge_empty,
    empty_merge ordered, ?_⟩
  · intro part within
    exact keys_nodup (within.isOrdered ordered)
  · rw [beq_iff]
    constructor
    · exact congrArg pathSet
    · exact eq_of_pathSet_eq ordered ordered'
  · exact ofElements_congr (fun element member => (each element member).isOrdered) same

namespace Articles

def written : Include :=
  ⟨[("author", ⟨[("articles", .empty)]⟩)]⟩

def revised : Include :=
  ⟨[("revisions", .empty)]⟩

theorem written_built : written.Built :=
  built_iff_isOrdered.mpr (by decide)

theorem revised_built : revised.Built :=
  built_iff_isOrdered.mpr (by decide)

end Articles

theorem merge_semilattice_articles :
    Articles.managed.Built ∧ Articles.written.Built ∧ Articles.revised.Built ∧
    (Articles.managed.merge Articles.written).pathSet =
      Articles.managed.pathSet ∪ Articles.written.pathSet ∧
    (Articles.managed.merge Articles.written).merge Articles.revised =
      Articles.managed.merge (Articles.written.merge Articles.revised) ∧
    Articles.managed.merge Articles.written = Articles.written.merge Articles.managed ∧
    ofElements [("author", Articles.managed), ("author", Articles.written)] =
      ofElements [("author", Articles.written), ("author", Articles.managed),
        ("author", Articles.written)] := by
  have each : ∀ element ∈ [("author", Articles.managed), ("author", Articles.written)],
      element.2.Built := by
    simp [Articles.managed_built, Articles.written_built]
  have same : ∀ element : String × Include,
      element ∈ [("author", Articles.managed), ("author", Articles.written)] ↔
        element ∈ [("author", Articles.written), ("author", Articles.managed),
          ("author", Articles.written)] := by
    intro element
    simp only [List.mem_cons, List.not_mem_nil, or_false]
    exact ⟨fun member => member.symm.imp_right .inl,
      fun member => member.elim .inr (·.elim .inl .inr)⟩
  obtain ⟨_, union, _, comm, assoc, _, _, _, elements⟩ := merge_semilattice Articles.managed_built
    Articles.written_built Articles.revised_built each same
  exact ⟨Articles.managed_built, Articles.written_built, Articles.revised_built, union, assoc, comm,
    elements⟩

end Include

end LayeredQuery
