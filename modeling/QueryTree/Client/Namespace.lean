import QueryTree.Route.Descriptor
/-!
# Namespaces

A client sees the routes of a server as operations in namespaces: one namespace for each table, and
one for the universal routes. Both are sorted by name; of two operations with one name the first
counts.
-/

namespace QueryTree

structure Operation where
  name : String
  method : Method
  path : String
  deriving DecidableEq, Repr

structure Namespace where
  name : String
  operations : List Operation
  deriving DecidableEq, Repr

inductive DiscoveryFault where
  | namespaceNotFound (name : String)
  | operationNotFound (space operation : String)
  deriving DecidableEq, Repr

namespace DiscoveryFault

def message : DiscoveryFault → String
  | namespaceNotFound name => "namespace not found: " ++ name
  | operationNotFound space operation => "operation not found: " ++ space ++ "." ++ operation

end DiscoveryFault

namespace Operation

def ofDescriptor (d : Descriptor) : Operation := ⟨d.operation, d.method, d.path⟩

/-- Puts an operation at its place, unless there is one of its name. -/
def insert (o : Operation) : List Operation → List Operation
  | [] => [o]
  | p :: ps =>
    if o.name = p.name then p :: ps
    else if o.name < p.name then o :: p :: ps
    else p :: insert o ps

end Operation

namespace Namespace

def operation (n : Namespace) (name : String) : Except DiscoveryFault Operation :=
  match n.operations.find? fun o => o.name = name with
  | some o => .ok o
  | none => .error (.operationNotFound n.name name)

def size (n : Namespace) : Nat := n.operations.length

/-- The namespace of the universal routes. -/
def system : String := "system"

/-- The namespace that a route belongs to. -/
def nameOf (d : Descriptor) : String := d.table.getD system

/-- Puts an operation into the namespace of the given name, which is made if it is not there. -/
def insert (name : String) (o : Operation) : List Namespace → List Namespace
  | [] => [⟨name, [o]⟩]
  | n :: ns =>
    if name = n.name then { n with operations := Operation.insert o n.operations } :: ns
    else if name < n.name then ⟨name, [o]⟩ :: n :: ns
    else n :: insert name o ns

end Namespace

structure NamespaceSet where
  namespaces : List Namespace
  deriving DecidableEq, Repr

namespace NamespaceSet

def ofDescriptors (routes : List Descriptor) : NamespaceSet :=
  ⟨routes.foldl (fun ns d => Namespace.insert (Namespace.nameOf d) (.ofDescriptor d) ns) []⟩

def names (s : NamespaceSet) : List String := s.namespaces.map Namespace.name

def size (s : NamespaceSet) : Nat := s.namespaces.length

def get (s : NamespaceSet) (name : String) : Except DiscoveryFault Namespace :=
  match s.namespaces.find? fun n => n.name = name with
  | some n => .ok n
  | none => .error (.namespaceNotFound name)

def operation (s : NamespaceSet) (space name : String) : Except DiscoveryFault Operation := do
  (← s.get space).operation name

end NamespaceSet
end QueryTree
