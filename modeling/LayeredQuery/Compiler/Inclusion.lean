import LayeredQuery.Compiler.Resolution
import LayeredQuery.Request.Include

/-!
# Compiling include trees

Every leaf of an include tree becomes one path to load. Relationships on the way to a leaf are
loaded with it and need no path of their own.
-/

set_option autoImplicit false

namespace LayeredQuery

namespace Compiler

def includedTarget (compiler : Compiler) (type : ResourceType) (name path : String) :
    Compile ResourceType := do
  let resolved ← compiler.resolve type name path
  .ofExcept (compiler.targetOf resolved path)

mutual

/-- The paths of the leaves of a tree that hangs below the names `above`. -/
def includePaths (compiler : Compiler) (type : ResourceType) (above : List String) :
    Include → Compile (List String)
  | ⟨elements⟩ => includeElements compiler type above elements

def includeElements (compiler : Compiler) (type : ResourceType) (above : List String) :
    List (String × Include) → Compile (List String)
  | [] => .done []
  | (name, below) :: rest => do
    let names := above ++ [name]
    let path := Text.joined "." names
    let here ← compiler.deeper path do
      let target ← compiler.includedTarget type name path
      if below.isEmpty then .done [path] else includePaths compiler target names below
    let others ← includeElements compiler type above rest
    .done (here ++ others)

end

def withPaths (source : Query) (paths : List String) : Query :=
  paths.foldl (fun query path => .withPath query path) source

def includeClause (compiler : Compiler) (source : Query) (tree : Include) (type : ResourceType) :
    Compile Query := do
  let paths ← compiler.includePaths type [] tree
  .done (withPaths source paths)

end Compiler

end LayeredQuery
