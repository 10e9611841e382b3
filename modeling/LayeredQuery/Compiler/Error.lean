import LayeredQuery.Request.Argument
import LayeredQuery.Text.Split

/-!
# Compile errors

A request can be refused because it asks for what has no meaning here, because an argument is
invalid, because types do not fit, because a name is unknown, or because it nests too deeply. Every
error but an unknown type names the path it was raised for. An error of a part that belongs to a
relationship is moved below it by `within`.
-/

set_option autoImplicit false

namespace LayeredQuery

inductive Unsupported
  | ambiguousField (field owner : String) (declaring : List String)
  | toManySegment (path : String)
  | sortAcrossToMany
  | sortOnToMany
  | compareAcrossToMany
  | toOneClauses
deriving DecidableEq

namespace Unsupported

def reason : Unsupported → String
  | .ambiguousField field owner declaring =>
    "field '" ++ field ++ "' is declared on multiple types derived from '" ++ owner ++ "': "
      ++ Text.joined ", " declaring
  | .toManySegment path =>
    "'" ++ path ++ "' is a to-many relationship and cannot be traversed to a single value"
  | .sortAcrossToMany => "sorting across a to-many relationship is undefined"
  | .sortOnToMany => "sorting on a to-many relationship is undefined; sort on count() instead"
  | .compareAcrossToMany => "comparing two fields across a to-many relationship is not supported"
  | .toOneClauses => "only a projection can be applied within a to-one relationship"

end Unsupported

inductive CompileError
  | unsupported (path : String) (reason : Unsupported)
  | invalidArgument (argument : InvalidArgument)
  | typeMismatch (path expected found : String)
  | unknownField (type path : String)
  | unknownResourceType (name : String)
  | depthExceeded (path : String) (limit : Nat)
deriving DecidableEq

namespace CompileError

def invalid (path : String) (fault : ArgumentFault) : CompileError :=
  .invalidArgument ⟨path, fault⟩

/-- The path an error is raised for, or the name of an unknown type. -/
def path : CompileError → String
  | .unsupported path _ => path
  | .invalidArgument argument => argument.path
  | .typeMismatch path _ _ => path
  | .unknownField _ path => path
  | .unknownResourceType name => name
  | .depthExceeded path _ => path

def nested (relationship path : String) : String :=
  if path.isEmpty then relationship else relationship ++ "." ++ path

/-- The error as seen from the owner of the relationship it was raised in. -/
def within (relationship : String) : CompileError → CompileError
  | .unsupported path reason => .unsupported (nested relationship path) reason
  | .invalidArgument argument =>
    .invalidArgument ⟨nested relationship argument.path, argument.fault⟩
  | .typeMismatch path expected found => .typeMismatch (nested relationship path) expected found
  | .unknownField type path => .unknownField type (nested relationship path)
  | .unknownResourceType name => .unknownResourceType name
  | .depthExceeded path limit => .depthExceeded (nested relationship path) limit

def withReason (reason : Unsupported) : CompileError → CompileError
  | .unsupported path _ => .unsupported path reason
  | error => error

def message : CompileError → String
  | .unsupported path reason => "unsupported query at '" ++ path ++ "': " ++ reason.reason
  | .invalidArgument argument => argument.message
  | .typeMismatch path expected found =>
    "type mismatch at '" ++ path ++ "': expected " ++ expected ++ ", found " ++ found
  | .unknownField type path =>
    "unknown field '" ++ path ++ "' on resource type '" ++ type ++ "'"
  | .unknownResourceType name => "unknown resource type '" ++ name ++ "'"
  | .depthExceeded path limit =>
    "maximum depth of " ++ toString limit ++ " exceeded at '" ++ path ++ "'"

end CompileError

end LayeredQuery
