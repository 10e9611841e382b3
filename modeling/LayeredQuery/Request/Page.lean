import LayeredQuery.Request.Argument

/-!
# Pages

A page is a window over a list: so many elements are skipped, and then at most so many are taken,
or all. Counts have 64 bits, and a product beyond them becomes the greatest count, which is past
the end of every list all the same.
-/

set_option autoImplicit false

namespace LayeredQuery

structure Page where
  skip : Nat
  take : Option Nat
deriving DecidableEq

namespace Page

def greatestCount : Nat := 0xFFFFFFFFFFFFFFFF

/-- The window of a page of a given size, counted from one. Without a size the first page has
everything. -/
def ofNumber (number : Nat) (size : Option Nat) : Except InvalidArgument Page :=
  if number = 0 then .error ⟨"page[number]", .pageZero⟩
  else
    match size with
    | some size => .ok ⟨min ((number - 1) * size) greatestCount, some size⟩
    | none => if number = 1 then .ok ⟨0, none⟩ else .ok ⟨greatestCount, none⟩

def text (page : Page) : String :=
  match page.take with
  | none => "skip=" ++ toString page.skip
  | some take => "skip=" ++ toString page.skip ++ ",take=" ++ toString take

end Page

end LayeredQuery
