import LayeredQuery.Request.Argument

/-!
# Errors of storing and evaluating

Data can be refused when it is stored, and a plan that no compiler made can ask for what is not
there: an unknown type, an unbound variable, a member of something that is no object. Any plan that
sorts can end in a sort whose keys contradict each other.
-/

set_option autoImplicit false

namespace LayeredQuery

/-- The key under which an object holds the name of its type. -/
def typeTag : String := "$type"

inductive DataFault
  | notAnObject (type : String)
  | tagNotAName
  | notDerived (candidate type : String)
  | notAnArray (field : String)
  | notAnArrayOf (type : String)
  | badPath (argument : InvalidArgument)
deriving DecidableEq

namespace DataFault

def reason : DataFault → String
  | .notAnObject type => "resources of '" ++ type ++ "' must be JSON objects"
  | .tagNotAName => "'" ++ typeTag ++ "' must be a resource type name"
  | .notDerived candidate type => "'" ++ candidate ++ "' is not a '" ++ type ++ "' resource"
  | .notAnArray field => "'" ++ field ++ "' must hold an array"
  | .notAnArrayOf type => "'" ++ type ++ "' must map to an array of resources"
  | .badPath argument => argument.message

end DataFault

inductive RunError
  | unknownResourceType (name : String)
  | unknownElementType (element : String)
  | unboundVariable (name : String)
  | wrongKind (expression expected found : String)
  | invalidData (fault : DataFault)
  /-- A text that is not a document of the form that is loaded. -/
  | notADocument
  /-- A sort that has ended without an order of its rows. -/
  | disordered
deriving DecidableEq

namespace RunError

/-- The message of an error. That of a text that cannot be read is left to whoever shows it, and a
sort that fails ends everything. -/
def message? : RunError → Option String
  | .unknownResourceType name => some ("unknown resource type '" ++ name ++ "'")
  | .unknownElementType element => some ("unknown element type '" ++ element ++ "'")
  | .unboundVariable name => some ("unbound range variable '" ++ name ++ "'")
  | .wrongKind expression expected found =>
    some ("cannot evaluate '" ++ expression ++ "': expected " ++ expected ++ ", found " ++ found)
  | .invalidData fault => some ("invalid resource data: " ++ fault.reason)
  | .notADocument => none
  | .disordered => none

end RunError

end LayeredQuery
