/-!
# What is read of a document

A description has members that are not part of it, such as remarks.  A `Shape` says which members of
the objects in a document are read; the others are passed over.
-/

set_option autoImplicit false

namespace Fieldbus
namespace Json

/-- What is read of a document. -/
inductive Shape where
  /-- All of it. -/
  | any
  /-- Of an object the members with these names, of an array the items in the same order. -/
  | record (members : List (String × Shape))
  /-- Of an array all items, and of each what its shape says. -/
  | list (item : Shape)
  /-- Of an object all members, and of each what its shape says. -/
  | map (value : Shape)
deriving Inhabited

namespace Shape

/-- A record whose members are read as a whole. -/
def flat (names : List String) : Shape := record (names.map fun name => (name, any))

/-- What is read of the member with the given name; none if it is passed over. -/
def member? (shape : Shape) (name : String) : Option Shape :=
  match shape with
  | record members => members.lookup name
  | map value => some value
  | _ => some any

/-- What is read of the first item, and of the items behind it. -/
def firstItem : Shape → Shape × Shape
  | record ((_, item) :: rest) => (item, record rest)
  | list item => (item, list item)
  | _ => (any, any)

end Shape
end Json
end Fieldbus
