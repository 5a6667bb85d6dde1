import QueryTree.Config
import QueryTree.Files.Tree
import QueryTree.Route.Naming
import QueryTree.Sql.TableDecl
/-!
# The layout of a tree

A tree has a folder for each method, the folder of the tables with one folder per method for each
table, and a schema script at its root. `scaffold` makes what is missing, with a template for each
method of each table that the script declares; it never overwrites anything.
-/

namespace QueryTree

/-- The layout below one root. -/
structure Layout where
  root : String

namespace Layout

def schemaPlaceholder : String := "-- define your schema here\n"

/-- The template that a table gets for a method: its file and its text. -/
def template : Method → String × String
  | .get => ("select.sql", "SELECT * FROM \x7b\x7btable\x7d\x7d;\n")
  | .post =>
    ("insert.sql",
      "INSERT INTO \x7b\x7btable\x7d\x7d (\x7b\x7bcolumns\x7d\x7d) VALUES (\x7b\x7bvalues\x7d\x7d);\n")
  | .put => ("update.sql", "UPDATE \x7b\x7btable\x7d\x7d SET \x7b\x7bupdates\x7d\x7d WHERE id = ?;\n")
  | .delete => ("delete.sql", "DELETE FROM \x7b\x7btable\x7d\x7d WHERE id = ?;\n")

def methodFolder (l : Layout) (method : Method) : String := Path.join l.root method.name

def tablesFolder (l : Layout) : String := Path.join l.root Naming.tablesFolder

def tableFolder (l : Layout) (table : String) : String := Path.join l.tablesFolder table

def schemaPath (l : Layout) : String := Path.join l.root Config.schemaFile

def tableMethodFolder (l : Layout) (table : String) (method : Method) : String :=
  Path.join (l.tableFolder table) method.name

open FileAction

def ensureFolders (l : Layout) : FileAction Unit := do
  for method in Method.all do
    makePath (l.methodFolder method)
  makePath l.tablesFolder
  let _ ← writeNew l.schemaPath schemaPlaceholder

/-- The tables that the schema script declares; none if there is no script. -/
def declaredTables (l : Layout) : FileAction (List String) := do
  match (← get).readText l.schemaPath with
  | .ok script => pure (Sql.declaredTables script)
  | .error .absent => pure []
  | .error fault => throw fault

def makeTableFolders (l : Layout) (tables : List String) : FileAction Unit := do
  for table in tables do
    for method in Method.all do
      makePath (l.tableMethodFolder table method)

/-- Writes the templates that are missing and returns the paths of those written. -/
def provision (l : Layout) (tables : List String) : FileAction (List String) := do
  let paths ← tables.flatMapM fun table => Method.all.filterMapM fun method => do
    let (name, sql) := template method
    let path := Path.join (l.tableMethodFolder table method) name
    if ← writeNew path sql then pure (some path) else pure none
  pure paths

def scaffold (l : Layout) : FileAction (List String) := do
  l.ensureFolders
  let tables ← l.declaredTables
  l.makeTableFolders tables
  let _ ← l.provision tables
  pure tables

/-- The root and the directory of the database both exist. -/
def isComplete (t : FileTree) (sqlRoot databasePath : String) : Bool :=
  let home := (Path.parent? databasePath).getD ""
  (home = "" || t.isDirectory home) && t.isDirectory sqlRoot

end Layout
end QueryTree
