import LayeredQuery.Proofs.Request.Include

/-!
# Ordered trees

A tree is ordered when siblings have distinct names and stand in the order of their names, at every
depth. All ways to make a tree of others give ordered trees. An ordered tree is the tree that the
chains of its leaves make: each chain either starts a new element after those before it, or goes on
in the last one. None of its chains continues another, and they stand in lexicographic order.
-/

set_option autoImplicit false

namespace LayeredQuery

namespace Keyed

variable {α : Type} {key : String} {value : α} {entries : List (String × α)}

theorem insert_append_of_last (last : ∀ entry ∈ entries, entry.1 < key)
    (rest : List (String × α)) :
    insert key value (entries ++ rest) = entries ++ insert key value rest := by
  induction entries with
  | nil => rfl
  | cons entry entries ih =>
    obtain ⟨before, later⟩ := List.forall_mem_cons.mp last
    obtain ⟨name, old⟩ := entry
    have other : key ≠ name := fun same => String.lt_irrefl key (same ▸ before)
    have notBefore : ¬ key < name := fun after => String.lt_asymm before after
    rw [List.cons_append, insert, if_neg other, if_neg notBefore, ih later, List.cons_append]

theorem insert_of_last (last : ∀ entry ∈ entries, entry.1 < key) :
    insert key value entries = entries ++ [(key, value)] := by
  simpa [insert] using insert_append_of_last last []

theorem insert_append_singleton (last : ∀ entry ∈ entries, entry.1 < key) (old : α) :
    insert key value (entries ++ [(key, old)]) = entries ++ [(key, value)] := by
  rw [insert_append_of_last last]
  simp [insert]

theorem lookup?_of_last (last : ∀ entry ∈ entries, entry.1 < key) :
    lookup? key entries = none := by
  apply lookup?_eq_none_iff.mpr
  intro member
  obtain ⟨entry, isEntry, rfl⟩ := List.mem_map.mp member
  exact String.lt_irrefl _ (last entry isEntry)

theorem lookup?_append_singleton (last : ∀ entry ∈ entries, entry.1 < key) :
    lookup? key (entries ++ [(key, value)]) = some value := by
  rw [lookup?_append, lookup?_of_last last]
  simp [lookup?]

end Keyed

namespace Include

mutual

/-- Whether siblings stand in the order of their names, each name once, at every depth. -/
def isOrdered : Include → Bool
  | ⟨elements⟩ => elementsOrdered elements

def elementsOrdered : List (String × Include) → Bool
  | [] => true
  | (name, below) :: rest =>
    rest.all (fun other => name < other.1) && below.isOrdered && elementsOrdered rest

end

def Precede (front rest : List (String × Include)) : Prop :=
  ∀ entry ∈ front, ∀ other ∈ rest, entry.1 < other.1

theorem elementsOrdered_cons {name : String} {below : Include} {rest : List (String × Include)} :
    elementsOrdered ((name, below) :: rest) = true ↔
      (∀ other ∈ rest, name < other.1) ∧ below.isOrdered = true ∧
        elementsOrdered rest = true := by
  simp [elementsOrdered, and_assoc]

theorem elementsOrdered_iff {elements : List (String × Include)} :
    elementsOrdered elements = true ↔
      Keyed.Increasing elements ∧ ∀ element ∈ elements, element.2.isOrdered = true := by
  induction elements with
  | nil => simp [elementsOrdered, Keyed.Increasing, Keyed.keys]
  | cons element rest ih =>
    obtain ⟨name, below⟩ := element
    rw [elementsOrdered_cons, ih, Keyed.increasing_cons, List.forall_mem_cons]
    constructor
    · rintro ⟨first, inner, later, others⟩
      exact ⟨⟨first, later⟩, inner, others⟩
    · rintro ⟨⟨first, later⟩, inner, others⟩
      exact ⟨first, inner, later, others⟩

/-! ## Trees made of others -/

theorem elementsOrdered_insert {name : String} {below : Include}
    {elements : List (String × Include)} (inner : below.isOrdered = true)
    (ordered : elementsOrdered elements = true) :
    elementsOrdered (Keyed.insert name below elements) = true := by
  obtain ⟨increasing, each⟩ := elementsOrdered_iff.mp ordered
  refine elementsOrdered_iff.mpr ⟨increasing.insert name below, fun element member => ?_⟩
  rcases Keyed.mem_of_mem_insert member with rfl | old
  · exact inner
  · exact each element old

mutual

/-- The union of ordered trees is ordered. -/
theorem isOrdered_merge : ∀ (tree other : Include), tree.isOrdered = true →
    other.isOrdered = true → (tree.merge other).isOrdered = true
  | ⟨into⟩, ⟨elements⟩, first, second => by
    rw [merge, isOrdered]
    exact elementsOrdered_merge elements into first (elementsOrdered_iff.mp second).2

theorem elementsOrdered_merge : ∀ elements into : List (String × Include),
    elementsOrdered into = true → (∀ element ∈ elements, element.2.isOrdered = true) →
    elementsOrdered (mergeElements into elements) = true
  | [], into, first, _ => by
    rw [mergeElements]
    exact first
  | (name, below) :: rest, into, first, second => by
    obtain ⟨here, later⟩ := List.forall_mem_cons.mp second
    rw [mergeElements]
    refine elementsOrdered_merge rest _ (elementsOrdered_insert ?_ first) later
    cases found : Keyed.lookup? name into with
    | none => exact here
    | some old =>
      have member := Keyed.mem_of_lookup? found
      exact isOrdered_merge old below ((elementsOrdered_iff.mp first).2 _ member) here

end

theorem isOrdered_of_ofElements {elements : List (String × Include)} {tree : Include}
    (each : ∀ element ∈ elements, element.2.isOrdered = true)
    (made : ofElements elements = .ok tree) : tree.isOrdered = true := by
  unfold ofElements at made
  split at made
  · cases made
  · cases made
    exact elementsOrdered_merge elements [] rfl each

theorem isOrdered_ofPath (names : List String) : (ofPath names).isOrdered = true := by
  induction names with
  | nil => rfl
  | cons name rest ih =>
    rw [ofPath, isOrdered, elementsOrdered_cons]
    exact ⟨List.forall_mem_nil _, ih, rfl⟩

theorem isOrdered_of_mergeChains {chains : List Chain} :
    ∀ {into tree : Include}, into.isOrdered = true → mergeChains into chains = .ok tree →
      tree.isOrdered = true := by
  induction chains with
  | nil =>
    intro into tree ordered made
    cases made
    exact ordered
  | cons chain rest ih =>
    intro into tree ordered made
    rw [mergeChains] at made
    split at made
    · cases made
    · exact ih (isOrdered_merge into _ ordered (isOrdered_ofPath chain.names)) made

theorem isOrdered_of_ofChains {chains : List Chain} {tree : Include}
    (made : ofChains chains = .ok tree) : tree.isOrdered = true :=
  isOrdered_of_mergeChains rfl made

/-! ## The tree of the leaves -/

theorem empty_merge_ofPath (names : List String) : empty.merge (ofPath names) = ofPath names := by
  cases names with
  | nil => rfl
  | cons name rest => rfl

theorem merge_ofPath_cons {front : List (String × Include)} {name : String}
    (last : ∀ entry ∈ front, entry.1 < name) (rest : List String) :
    merge ⟨front⟩ (ofPath (name :: rest)) = ⟨front ++ [(name, ofPath rest)]⟩ := by
  rw [ofPath, merge, mergeElements, Include.elements, Keyed.lookup?_of_last last, mergeElements,
    Keyed.insert_of_last last]

theorem merge_ofPath_last {front : List (String × Include)} {name : String}
    (last : ∀ entry ∈ front, entry.1 < name) (below : Include) (rest : List String) :
    merge ⟨front ++ [(name, below)]⟩ (ofPath (name :: rest)) =
      ⟨front ++ [(name, below.merge (ofPath rest))]⟩ := by
  rw [ofPath, merge, mergeElements, Include.elements, Keyed.lookup?_append_singleton last,
    mergeElements, Keyed.insert_append_singleton last]

theorem mergePaths_cons (tree : Include) (names : List String) (chains : List Chain) :
    tree.mergePaths (⟨names⟩ :: chains) = (tree.merge (ofPath names)).mergePaths chains := rfl

theorem mergePaths_append (tree : Include) (chains others : List Chain) :
    tree.mergePaths (chains ++ others) = (tree.mergePaths chains).mergePaths others :=
  List.foldl_append

theorem mergePaths_last {front : List (String × Include)} {name : String}
    (last : ∀ entry ∈ front, entry.1 < name) :
    ∀ (paths : List (List String)) (below : Include),
      mergePaths ⟨front ++ [(name, below)]⟩ (paths.map fun path => ⟨name :: path⟩) =
        ⟨front ++ [(name, below.mergePaths (paths.map Chain.mk))]⟩ := by
  intro paths
  induction paths with
  | nil => exact fun _ => rfl
  | cons path rest ih =>
    intro below
    have merged := ih (below.merge (ofPath path))
    rw [← merge_ofPath_last last] at merged
    exact merged

mutual

/-- An ordered tree is made by the chains of its leaves. -/
theorem leafTree_eq : ∀ tree : Include, tree.isOrdered = true → tree.leafTree = tree
  | ⟨elements⟩, ordered => by
    have made := mergePaths_elementPaths elements [] ordered fun entry member => by cases member
    exact made

theorem mergePaths_elementPaths : ∀ elements front : List (String × Include),
    elementsOrdered elements = true → Precede front elements →
    mergePaths ⟨front⟩ ((elementPaths elements).map Chain.mk) = ⟨front ++ elements⟩
  | [], front, _, _ => by
    rw [elementPaths, List.append_nil]
    rfl
  | (name, below) :: rest, front, ordered, precede => by
    obtain ⟨first, inner, later⟩ := elementsOrdered_cons.mp ordered
    have last : ∀ entry ∈ front, entry.1 < name := fun entry member =>
      precede entry member _ List.mem_cons_self
    have others : Precede (front ++ [(name, below)]) rest := by
      refine List.forall_mem_append.mpr ⟨fun entry member other isOther => ?_, ?_⟩
      · exact precede entry member other (List.mem_cons_of_mem _ isOther)
      · exact List.forall_mem_singleton.mpr first
    have rest := mergePaths_elementPaths rest _ later others
    rw [List.append_assoc, List.singleton_append] at rest
    have made := leafTree_eq below inner
    rw [← rest, elementPaths]
    split
    · rename_i noPaths
      obtain ⟨elements⟩ := below
      rw [paths, elementPaths_eq_nil] at noPaths
      subst noPaths
      rw [List.map_cons, mergePaths_cons, merge_ofPath_cons last]
      rfl
    · rename_i path morePaths isPaths
      rw [leafTree, toChains, isPaths, List.map_cons, mergePaths_cons, empty_merge_ofPath] at made
      rw [List.map_append, mergePaths_append, List.map_map, List.map_cons, Function.comp_apply,
        mergePaths_cons, merge_ofPath_cons last]
      have through := mergePaths_last last morePaths (ofPath path)
      rw [made] at through
      rw [← through]
      rfl

end

/-! ## Paths beside each other -/

/-- Neither of two paths goes on where the other one ends. -/
def Apart (path other : List String) : Prop :=
  ¬ path <+: other ∧ ¬ other <+: path

theorem apart_cons {name : String} {path other : List String} (apart : Apart path other) :
    Apart (name :: path) (name :: other) :=
  ⟨fun before => apart.1 (List.cons_prefix_cons.mp before).2,
    fun before => apart.2 (List.cons_prefix_cons.mp before).2⟩

theorem apart_of_ne {name name' : String} {path other : List String} (differ : name ≠ name') :
    Apart (name :: path) (name' :: other) :=
  ⟨fun before => differ (List.cons_prefix_cons.mp before).1,
    fun before => differ (List.cons_prefix_cons.mp before).1.symm⟩

theorem head_of_mem_elementPaths {elements : List (String × Include)} {path : List String}
    (member : path ∈ elementPaths elements) :
    ∃ element ∈ elements, ∃ rest, path = element.1 :: rest := by
  induction elements with
  | nil => cases member
  | cons element rest ih =>
    obtain ⟨name, below⟩ := element
    rw [elementPaths] at member
    split at member
    · rcases List.mem_cons.mp member with rfl | later
      · exact ⟨_, List.mem_cons_self, [], rfl⟩
      · obtain ⟨other, isOther, found⟩ := ih later
        exact ⟨other, List.mem_cons_of_mem _ isOther, found⟩
    · rcases List.mem_append.mp member with here | later
      · obtain ⟨path', _, rfl⟩ := List.mem_map.mp here
        exact ⟨_, List.mem_cons_self, path', rfl⟩
      · obtain ⟨other, isOther, found⟩ := ih later
        exact ⟨other, List.mem_cons_of_mem _ isOther, found⟩

section Pairwise

variable {R : List String → List String → Prop}

mutual

/-- The paths to the leaves of an ordered tree are related, each to all after it, when paths are that
part at two names in order and stay so behind a common name. -/
theorem paths_pairwise
    (parted : ∀ {name other : String} (path path' : List String), name < other →
      R (name :: path) (other :: path'))
    (common : ∀ {path path' : List String} (name : String), R path path' →
      R (name :: path) (name :: path')) :
    ∀ tree : Include, tree.isOrdered = true → tree.paths.Pairwise R
  | ⟨elements⟩, ordered => by
    rw [paths]
    exact elementPaths_pairwise parted common elements ordered

theorem elementPaths_pairwise
    (parted : ∀ {name other : String} (path path' : List String), name < other →
      R (name :: path) (other :: path'))
    (common : ∀ {path path' : List String} (name : String), R path path' →
      R (name :: path) (name :: path')) :
    ∀ elements : List (String × Include), elementsOrdered elements = true →
      (elementPaths elements).Pairwise R
  | [], _ => by
    rw [elementPaths]
    exact .nil
  | (name, below) :: rest, ordered => by
    obtain ⟨first, inner, later⟩ := elementsOrdered_cons.mp ordered
    have restPairwise := elementPaths_pairwise parted common rest later
    have others : ∀ (path : List String), ∀ other ∈ elementPaths rest,
        R (name :: path) other := by
      intro path other member
      obtain ⟨element, isElement, tail, rfl⟩ := head_of_mem_elementPaths member
      exact parted path tail (first element isElement)
    rw [elementPaths]
    split
    · exact List.pairwise_cons.mpr ⟨others [], restPairwise⟩
    · rename_i path morePaths isPaths
      rw [← isPaths]
      refine List.pairwise_append.mpr ⟨?_, restPairwise, ?_⟩
      · exact List.pairwise_map.mpr ((paths_pairwise parted common below inner).imp (common name))
      · exact List.forall_mem_map.mpr fun path _ => others path

end

end Pairwise

theorem paths_apart (tree : Include) (ordered : tree.isOrdered = true) :
    tree.paths.Pairwise Apart :=
  paths_pairwise (fun _ _ before => apart_of_ne (String.ne_of_lt before)) (fun _ => apart_cons)
    tree ordered

/-- The paths to the leaves of an ordered tree are in lexicographic order, each once. -/
theorem paths_increasing (tree : Include) (ordered : tree.isOrdered = true) :
    tree.paths.Pairwise (· < ·) :=
  paths_pairwise (fun _ _ before => List.cons_lt_cons_iff.mpr (.inl before))
    (fun _ before => List.cons_lt_cons_self.mpr before) tree ordered

end Include

end LayeredQuery
