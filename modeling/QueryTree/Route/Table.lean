import QueryTree.Route.Descriptor
/-!
# Route tables

Routes in the order in which their keys first appeared, one for each pair of method and path. A route
with the key of another one takes its place.
-/

namespace QueryTree

structure RouteTable where
  routes : List Route
  deriving DecidableEq, Repr

namespace RouteTable

def empty : RouteTable := ⟨[]⟩

def get? (t : RouteTable) (method : Method) (path : String) : Option Route :=
  t.routes.find? fun r => r.key = (method, path)

/-- Puts `route` at the place of the route with the same key, or behind all others. -/
def place (route : Route) : List Route → List Route
  | [] => [route]
  | r :: rs => if r.key = route.key then route :: rs else r :: place route rs

/-- The table with `route` in it, and the route that it displaced. -/
def insert (t : RouteTable) (route : Route) : RouteTable × Option Route :=
  (⟨place route t.routes⟩, t.get? route.descriptor.method route.descriptor.path)

def ofList (routes : List Route) : RouteTable :=
  routes.foldl (fun t route => (t.insert route).1) empty

def size (t : RouteTable) : Nat := t.routes.length

def isEmpty (t : RouteTable) : Bool := t.routes.isEmpty

def descriptors (t : RouteTable) : List Descriptor := t.routes.map Route.descriptor

/-- The paths, in order of first appearance. -/
def paths (t : RouteTable) : List String := (t.descriptors.map Descriptor.path).eraseDups

/-- The routes of one path, in table order. -/
def routesAt (t : RouteTable) (path : String) : List Route :=
  t.routes.filter fun r => r.descriptor.path = path

/-- Puts `route` into the group of its path, or into a new one behind all others. -/
def group (route : Route) : List (String × List Route) → List (String × List Route)
  | [] => [(route.descriptor.path, [route])]
  | (path, routes) :: groups =>
    if path = route.descriptor.path then (path, routes ++ [route]) :: groups
    else (path, routes) :: group route groups

/-- The routes grouped by path, in order of first appearance. -/
def byPath (t : RouteTable) : List (String × List Route) :=
  t.routes.foldl (fun groups route => group route groups) []

/-- Texts without those that follow an equal one. -/
def dedup : List String → List String
  | [] => []
  | [s] => [s]
  | s :: s' :: l => if s = s' then dedup (s' :: l) else s :: dedup (s' :: l)

/-- The tables that occur, sorted. -/
def tables (t : RouteTable) : List String :=
  dedup ((t.descriptors.filterMap Descriptor.table).mergeSort fun s s' => !decide (s' < s))

end RouteTable
end QueryTree
