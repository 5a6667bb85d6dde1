import QueryTree.Store.Basic
/-!
# Databases on disk

A disk is a tree of files with the databases that some of the files hold. Opening a store makes the
directory and the file that are missing, then applies the schema; what was done before a fault stays.
-/

namespace QueryTree

structure Disk where
  files : FileTree
  databases : List (Place × Database)

namespace Disk

def empty : Disk := ⟨.empty, []⟩

/-- Runs an action on the files. -/
def act {α : Type} (d : Disk) (action : FileAction α) : Except FileFault α × Disk :=
  let (outcome, files) := action.run d.files
  (outcome, { d with files })

/-- The bytes that the path of a database may have. -/
def maxPath : Nat := 512

/-- Where the database at a path is kept, and what is in it. -/
def locate (d : Disk) (path : String) : Except DatabaseFault (Place × Database) :=
  if maxPath < path.utf8ByteSize then .error .cannotOpen
  else match d.files.find true path with
  | .ok (.here place (.file bytes)) =>
    match Keyed.get? place d.databases with
    | some database => .ok (place, database)
    | none => if bytes.isEmpty then .ok (place, .empty) else .error .notDatabase
  | .ok (.free place) => .ok (place, .empty)
  | _ => .error .cannotOpen

/-- Keeps the lasting tables of a store's database where it belongs. -/
def save (d : Disk) (s : Store) : Disk :=
  match s.place with
  | none => d
  | some place =>
    let lasting := s.session.database.tables.filter fun t => !t.temporary
    { files := if (d.files.entryOf? place).isSome then d.files else d.files.set place (.file [])
      databases := Keyed.put place ⟨lasting, true⟩ d.databases }

/-- The store with the lasting tables that are kept for it. -/
def refresh (d : Disk) (s : Store) : Store :=
  match s.place.bind fun place => Keyed.get? place d.databases with
  | none => s
  | some kept =>
    let own := s.session.database.tables.filter Database.Table.temporary
    let database := { s.session.database with tables := own ++ kept.tables }
    { s with session := { s.session with database } }

/-- The schema script, unless it is only blanks. -/
def applyTo (s : Store) (schema : Option String) : Except StoreFault Unit × Store :=
  match schema with
  | some script => if Text.allBlank script.toList then (.ok (), s) else s.applySchema script
  | none => (.ok (), s)

def openInMemory (schema : Option String) : Except StoreFault Store :=
  let (outcome, s) := applyTo (.start .empty none) schema
  outcome.map fun _ => s

/-- The names of databases that live only as long as the store. -/
def privateNames : List String := ["", ":memory:"]

def openStore (d : Disk) (path : String) (schema : Option String) : Except StoreFault Store × Disk :=
  match d.act (FileAction.makePath ((Path.parent? path).getD "")) with
  | (.error fault, d) => (.error (.file fault), d)
  | (.ok (), d) =>
    if path.toList.contains '\x00' then (.error (.nameRefused path), d)
    else if privateNames.contains path then (openInMemory schema, d)
    else match d.locate path with
    | .error fault => (.error (.opening path fault), d)
    | .ok (place, database) =>
      let (outcome, s) := applyTo (.start database (some place)) schema
      (outcome.map fun _ => s, d.save s)

end Disk
end QueryTree
