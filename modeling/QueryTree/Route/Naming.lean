import QueryTree.Route.Descriptor
/-!
# The naming convention

A file's place in the tree determines its descriptor. The folder behind the first `Tables` names the
table; a folder named like a method gives the method, and without one a word in the file's name does;
the path is made of the base, the table and the file's name. `tableOfPath?` reads the table back
from a path.
-/

namespace QueryTree.Naming

/-- The folder whose subfolders are tables. -/
def tablesFolder : String := "Tables"

/-- The parts of a relative path between slashes or backslashes, without the empty ones and dots. -/
def segments (path : String) : List String :=
  ((Text.splitBy (fun c => c == '/' || c == '\\') path.toList).map String.ofList).filter
    fun part => part ≠ "" && part ≠ "."

/-- A file name without its extension; a name that is nothing but an extension stays whole. -/
def fileStem (name : String) : String :=
  match Text.breakOnLast '.' name.toList with
  | some (c :: stem, _) => String.ofList (c :: stem)
  | _ => name

/-- Place and name of the table folder among the folders that lead to a file. -/
def tableSegment? (folders : List String) : Option (Nat × String) :=
  (folders.idxOf? tablesFolder).bind fun i => (folders[i + 1]?).map fun table => (i + 1, table)

/-- The words in a file's name that stand for a method, in the order in which they are tried. -/
def vocabulary : List (Method × List String) :=
  [(.get, ["select", "get", "find", "read", "list"]),
    (.post, ["insert", "create", "add", "new"]),
    (.put, ["update", "upsert", "modify", "edit", "put"]),
    (.delete, ["delete", "remove", "drop", "destroy"])]

/-- The method whose vocabulary occurs in a file's name; GET if none does. -/
def methodOfStem (stem : String) : Method :=
  let lower := stem.toList.map Char.toLower
  match vocabulary.find? fun (_, words) => words.any fun word => Text.hasPart word.toList lower with
  | some (method, _) => method
  | none => .get

/-- The method that a folder other than the one at `skip` is named after, or else that of the
file's name. -/
def methodFor (folders : List String) (skip : Option Nat) (stem : String) : Method :=
  let others := folders.zipIdx.filter fun (_, i) => some i ≠ skip
  (others.findSome? fun (folder, _) => Method.ofName? folder).getD (methodOfStem stem)

/-- Why a path cannot be served. -/
inductive Obstacle where
  | builtIn
  | capture
  deriving DecidableEq, Repr

def Obstacle.message : Obstacle → String
  | builtIn => "collides with a built-in endpoint"
  | capture => "contains a path capture character"

/-- The paths that the server answers itself. -/
def builtInPaths : List String := ["/", "/health"]

/-- The characters that a router would take for a capture. -/
def isCapture (c : Char) : Bool := c == ':' || c == '*'

def obstacle? (path : String) : Option Obstacle :=
  if path ∈ builtInPaths then some .builtIn
  else if path.toList.any isCapture then some .capture
  else none

def routePath (base : String) (table : Option String) (stem : String) : String :=
  match table with
  | some table => base ++ "/" ++ table ++ "/" ++ stem
  | none => base ++ "/" ++ stem

/-- The descriptor of the file at a relative path. -/
def describe (path base : String) : Descriptor :=
  let parts := segments path
  let folders := parts.dropLast
  let stem := fileStem (parts.getLast?.getD "")
  let found := tableSegment? folders
  let table := found.map Prod.snd
  { method := methodFor folders (found.map Prod.fst) stem
    path := routePath base table stem
    sqlPath := "/".intercalate parts
    table := table }

/-- The table in a path of the form base, table, name. -/
def tableOfPath? (path base : String) : Option String :=
  let rest := (Text.after? base.toList path.toList).getD path.toList
  match (Text.splitBy (· == '/') rest).filter (· ≠ []) with
  | [table, _] => some (String.ofList table)
  | _ => none

end QueryTree.Naming
