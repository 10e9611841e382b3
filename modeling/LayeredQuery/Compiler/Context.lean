import LayeredQuery.Compiler.Depth
import LayeredQuery.Compiler.Error
import LayeredQuery.Compiler.ScopeNames
import LayeredQuery.Compiler.Settings
import LayeredQuery.Schema.Basic

/-!
# Compilations

A compilation is a computation that can fail and that knows the names given out and the depth it
stands at. The context after it is known even when it fails, so that one can see that every scope
is ended and every level left on both ways out.
-/

set_option autoImplicit false

namespace LayeredQuery

structure Compiler where
  schema : Schema
  settings : Settings

structure Context where
  names : ScopeNames
  depth : Nat
deriving DecidableEq

def Context.start : Context := ⟨.empty, 0⟩

def Compile (α : Type) : Type :=
  Context → Except CompileError α × Context

namespace Compile

variable {α β : Type}

def run (computation : Compile α) (context : Context) : Except CompileError α × Context :=
  computation context

def done (value : α) : Compile α :=
  fun context => (.ok value, context)

def fail (error : CompileError) : Compile α :=
  fun context => (.error error, context)

def andThen (first : Compile α) (next : α → Compile β) : Compile β :=
  fun context =>
    match first context with
    | (.ok value, after) => next value after
    | (.error error, after) => (.error error, after)

instance : Monad Compile where
  pure := done
  bind := andThen

theorem bind_apply (first : Compile α) (next : α → Compile β) (context : Context) :
    (first >>= next) context =
      match first context with
      | (.ok value, after) => next value after
      | (.error error, after) => (.error error, after) := rfl

def ofExcept : Except CompileError α → Compile α
  | .ok value => done value
  | .error error => fail error

def mapError (f : CompileError → CompileError) (computation : Compile α) : Compile α :=
  fun context =>
    match computation context with
    | (.ok value, after) => (.ok value, after)
    | (.error error, after) => (.error (f error), after)

def traverse (f : α → Compile β) : List α → Compile (List β)
  | [] => done []
  | item :: rest => do
    let value ← f item
    let others ← traverse f rest
    done (value :: others)

def deeper (limit : Nat) (path : String) (computation : Compile α) : Compile α :=
  fun context =>
    match Depth.enter? limit context.depth with
    | none => (.error (.depthExceeded path limit), context)
    | some depth =>
      let (result, after) := computation ⟨context.names, depth⟩
      (result, ⟨after.names, Depth.leave after.depth⟩)

def withVariable (element : String) (computation : Variable → Compile α) : Compile α :=
  fun context =>
    let (v, names) := context.names.issue element
    let (result, after) := computation v ⟨names, context.depth⟩
    (result, ⟨after.names.release v.name, after.depth⟩)

end Compile

end LayeredQuery
