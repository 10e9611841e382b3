/-!
# Nesting depth

Going one level deeper is allowed while the depth is below the limit, and refused otherwise without
any effect. Every level entered is left once.
-/

set_option autoImplicit false

namespace LayeredQuery

namespace Depth

def enter? (limit depth : Nat) : Option Nat :=
  if depth < limit then some (depth + 1) else none

def leave (depth : Nat) : Nat :=
  depth - 1

end Depth

/-! ## Sessions -/

structure DepthSession where
  depth : Nat
  levels : List Bool
deriving DecidableEq

inductive DepthStep
  | enter
  | exit (index : Nat)

namespace DepthSession

def start : DepthSession := ⟨0, []⟩

/-- The session after a step, or nothing when the step is refused. Leaving a level that does not
exist or was left already has no effect. -/
def step? (limit : Nat) (session : DepthSession) : DepthStep → Option DepthSession
  | .enter =>
    (Depth.enter? limit session.depth).map fun depth => ⟨depth, session.levels ++ [true]⟩
  | .exit index =>
    match session.levels[index]? with
    | some true => some ⟨Depth.leave session.depth, session.levels.set index false⟩
    | _ => some session

def step (limit : Nat) (session : DepthSession) (s : DepthStep) : DepthSession :=
  (session.step? limit s).getD session

def run (limit : Nat) (session : DepthSession) (steps : List DepthStep) : DepthSession :=
  steps.foldl (step limit) session

end DepthSession

end LayeredQuery
