import QueryTree.Config
import QueryTree.Files.Tree
import QueryTree.Route.Naming
import QueryTree.Route.Table
/-!
# Compiling a tree

Every file below the root whose name ends in `.sql` becomes a route, in the order of the paths; the
schema script at the root does not, nor does a file that holds no text or whose path cannot be served.
A later route with the key of an earlier one takes its place.
-/

namespace QueryTree

/-- The directory at `path` cannot be walked. -/
structure WalkFault where
  path : String
  fault : FileFault
  deriving DecidableEq, Repr

def WalkFault.message (w : WalkFault) : String :=
  "failed to walk directory " ++ w.path ++ ": " ++ w.fault.message

namespace RouteTable

def isSqlName (name : String) : Bool :=
  (Path.extension? name).any fun ext => Text.sameLetters ext.toList "sql".toList

/-- The bytes of an entry below the place `root`, if it is a file or a link to one. -/
def fileBytes? (t : FileTree) (root : Place) (path : List String) : Entry → Option (List UInt8)
  | .file bytes => some bytes
  | .link _ =>
    match t.walk true FileTree.maxLinks [] (root ++ path) with
    | .ok (.here _ (.file bytes)) => some bytes
    | _ => none
  | .directory => none

/-- The files of a directory that may become routes: their paths from there and their bytes, in the
order of the paths. -/
def sqlFiles (t : FileTree) (root : Place) : List (List String × List UInt8) :=
  let files := (t.below root).filterMap fun (path, entry) =>
    if isSqlName (path.getLast?.getD "") then
      (fileBytes? t root path entry).map fun bytes => (path, bytes)
    else none
  files.mergeSort fun (p, _) (q, _) => Path.precedes p q

/-- The route of a file, if it has one. -/
def route? (base : String) (path : List String) (bytes : List UInt8) : Option Route := do
  let relative := "/".intercalate path
  if relative = Config.schemaFile then none
  let sql ← Utf8.toString? bytes
  let descriptor := Naming.describe relative base
  if (Naming.obstacle? descriptor.path).isSome then none
  pure ⟨descriptor, sql⟩

/-- The routes of the tree below the directory at `root`. -/
def compile (t : FileTree) (root base : String) : Except WalkFault RouteTable :=
  match t.directoryAt root with
  | .error fault => .error ⟨root, fault⟩
  | .ok place => .ok (ofList ((sqlFiles t place).filterMap fun (path, bytes) => route? base path bytes))

end RouteTable
end QueryTree
