import QueryTree.Route.Method
import QueryTree.Text.Split
/-!
# Descriptors and routes

A descriptor says what one file of the tree answers: a method and a path, and the table in whose
folder the file lies. A file outside the table folders is universal: it has no table.
-/

namespace QueryTree

structure Descriptor where
  method : Method
  path : String
  /-- The place of the file below the root of the tree, with slashes. -/
  sqlPath : String
  table : Option String
  deriving DecidableEq, Repr

namespace Descriptor

def isUniversal (d : Descriptor) : Bool := d.table.isNone

/-- The last segment of the path, the name under which clients call the route. -/
def operation (d : Descriptor) : String :=
  match Text.breakOnLast '/' d.path.toList with
  | some (_, name) => String.ofList name
  | none => d.path

end Descriptor

/-- A descriptor with the text of its file. -/
structure Route where
  descriptor : Descriptor
  sql : String
  deriving DecidableEq, Repr

namespace Route

/-- A table never holds two routes with one key. -/
def key (r : Route) : Method × String := (r.descriptor.method, r.descriptor.path)

end Route
end QueryTree
