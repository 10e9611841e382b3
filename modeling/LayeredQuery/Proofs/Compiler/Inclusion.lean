import LayeredQuery.Proofs.Compiler.Yields
import LayeredQuery.Proofs.Meaning.Ends
import LayeredQuery.Proofs.Request.Chain
import LayeredQuery.Proofs.Request.Include

/-!
# What include trees compile to

A compiled tree gives one path for each of its leaves. Its names are fields of the schema and so
public, which lets the chains of the leaves be read back from the paths: the answer to a plan shows
the tree that those chains make.
-/

set_option autoImplicit false

namespace LayeredQuery

namespace Compiler

variable {compiler : Compiler}

theorem includedTarget_found {type target : ResourceType} {name path : String}
    (yielded : (compiler.includedTarget type name path).Yields target) :
    (∃ resolved, compiler.schema.resolve type name path = .ok resolved) ∧
      target ∈ compiler.schema.types := by
  obtain ⟨resolved, isResolved, yielded⟩ := Compile.yields_bind yielded
  obtain ⟨_, _, known⟩ := target_of_targetOf (Compile.yields_ofExcept yielded)
  exact ⟨⟨resolved, yields_resolve isResolved⟩, Schema.mem_of_type? known⟩

def pathText (above names : List String) : String :=
  Text.joined "." (above ++ names)

mutual

theorem includePaths_eq (coherent : compiler.schema.Coherent) :
    ∀ (tree : Include) (type : ResourceType) (above paths : List String),
      (compiler.includePaths type above tree).Yields paths → type ∈ compiler.schema.types →
      paths = tree.paths.map (pathText above) ∧
        ∀ names ∈ tree.paths, ∀ name ∈ names, isPublicName name = true
  | ⟨elements⟩, type, above, paths, yielded, known => by
    rw [includePaths] at yielded
    rw [Include.paths]
    exact includeElements_eq coherent elements type above paths yielded known

theorem includeElements_eq (coherent : compiler.schema.Coherent) :
    ∀ (elements : List (String × Include)) (type : ResourceType) (above paths : List String),
      (compiler.includeElements type above elements).Yields paths →
      type ∈ compiler.schema.types →
      paths = (Include.elementPaths elements).map (pathText above) ∧
        ∀ names ∈ Include.elementPaths elements, ∀ name ∈ names, isPublicName name = true
  | [], type, above, paths, yielded, known => by
    rw [includeElements] at yielded
    have isNil := Compile.yields_done yielded
    subst isNil
    exact ⟨rfl, fun names member => by cases member⟩
  | (name, below) :: rest, type, above, paths, yielded, known => by
    simp only [includeElements] at yielded
    obtain ⟨here, isHere, yielded⟩ := Compile.yields_bind yielded
    obtain ⟨others, areOthers, yielded⟩ := Compile.yields_bind yielded
    have isPaths := Compile.yields_done yielded
    subst isPaths
    obtain ⟨othersEq, othersPublic⟩ :=
      includeElements_eq coherent rest type above others areOthers known
    obtain ⟨target, isTarget, isHere⟩ := Compile.yields_bind (yields_deeper isHere)
    obtain ⟨⟨resolved, isResolved⟩, targetKnown⟩ := includedTarget_found isTarget
    have namePublic :=
      coherent.isPublicName_of_fieldOn? known (Schema.fieldOn?_of_resolve isResolved)
    rw [Include.elementPaths]
    split at isHere
    · rename_i isLeaf
      have isPath := Compile.yields_done isHere
      subst isPath
      rw [Include.paths_eq_nil.mpr isLeaf]
      refine ⟨?_, List.forall_mem_cons.mpr ⟨?_, othersPublic⟩⟩
      · rw [othersEq]
        rfl
      · intro other member
        rw [List.mem_singleton.mp member]
        exact namePublic
    · rename_i hasBelow
      obtain ⟨hereEq, belowPublic⟩ :=
        includePaths_eq coherent below target (above ++ [name]) here isHere targetKnown
      cases inner : below.paths with
      | nil => exact absurd (Include.paths_eq_nil.mp inner) hasBelow
      | cons path others' =>
        rw [inner] at hereEq belowPublic
        refine ⟨?_, ?_⟩
        · rw [hereEq, othersEq, List.map_append, List.map_map]
          congr 1
          refine List.map_congr_left fun names _ => ?_
          simp [pathText]
        · intro names member
          rcases List.mem_append.mp member with ofBelow | ofRest
          · obtain ⟨path', isPath, rfl⟩ := List.mem_map.mp ofBelow
            exact List.forall_mem_cons.mpr ⟨namePublic, belowPublic path' isPath⟩
          · exact othersPublic names ofRest

end

/-- The chains of the leaves are read back from the paths of a compiled tree. -/
theorem map_ofText_includePaths (coherent : compiler.schema.Coherent) {tree : Include}
    {type : ResourceType} {paths : List String}
    (yielded : (compiler.includePaths type [] tree).Yields paths)
    (known : type ∈ compiler.schema.types) : paths.map Chain.ofText = tree.toChains := by
  obtain ⟨isPaths, arePublic⟩ := includePaths_eq coherent tree type [] paths yielded known
  rw [isPaths, List.map_map, Include.toChains]
  refine List.map_congr_left fun names member => ?_
  exact Chain.ofText_joined (Include.ne_nil_of_mem_paths tree names member) (arePublic names member)

end Compiler

end LayeredQuery
