import LayeredQuery.Json.Basic
import LayeredQuery.Keyed

/-!
# Stores

A store holds resources by the type they were stored under, types and resources both in the order
of arrival. Related resources are held inside their owners: an object or null where there can be
one, and an array where there can be many.
-/

set_option autoImplicit false

namespace LayeredQuery

structure Store where
  collections : List (String × List Json)

namespace Store

def empty : Store := ⟨[]⟩

/-- The resources stored under exactly a type. -/
def items (store : Store) (type : String) : List Json :=
  (Keyed.lookup? type store.collections).getD []

def insert (store : Store) (type : String) (item : Json) : Store :=
  ⟨Keyed.set type (store.items type ++ [item]) store.collections⟩

def size (store : Store) (type : String) : Nat :=
  (store.items type).length

def types (store : Store) : List String :=
  Keyed.keys store.collections

end Store

end LayeredQuery
