import QueryTree.Database.Table
/-!
# Databases

A database holds the tables that were made. It also keeps two kinds of table of its own: one for the
highest row numbers of the tables that never use a number again, and one that lists all tables and
indexes, which is made up from them whenever it is asked for.
-/

namespace QueryTree

structure Database where
  tables : List Database.Table
  /-- References between tables are looked after. -/
  enforced : Bool
  deriving DecidableEq, Repr

namespace Database

def empty : Database := ⟨[], true⟩

/-- The table of a name; a temporary one hides another of its name. -/
def table? (db : Database) (name : String) : Option Table :=
  (db.tables.find? fun t => t.temporary && sameName t.name name).orElse fun _ =>
    db.tables.find? fun t => sameName t.name name

def isTable (name : String) (temporary : Bool) (t : Table) : Bool :=
  t.temporary == temporary && sameName t.name name

def has (db : Database) (name : String) (temporary : Bool) : Bool :=
  db.tables.any (isTable name temporary)

/-- The database with `t` in place of the table of its name. -/
def replace (db : Database) (t : Table) : Database :=
  { db with tables := db.tables.map fun t' => if isTable t.name t.temporary t' then t else t' }

/-! ### Highest row numbers -/

/-- The name of the table that keeps the highest row numbers. -/
def sequenceName : String := "sqlite_sequence"

/-- The table for the highest row numbers: a row for each table that has had rows. -/
def sequence (temporary : Bool) : Table where
  name := sequenceName
  temporary := temporary
  columns := [.plain "name" "", .plain "seq" ""]
  autoincrement := false
  source := sequenceName ++ "(name,seq)"
  roots := []
  rows := []

def sequenceFor? (db : Database) (t : Table) : Option Table :=
  if t.autoincrement then db.tables.find? (isTable sequenceName t.temporary) else none

def isFor (t : Table) (row : Row) : Bool := row.values.head? == some (.text t.name)

/-- The number kept in a row for highest numbers; what is no number counts as zero. -/
def keptNumber (row : Row) : Int :=
  match Value.coerce .integer (row.values[1]?.getD .null) with
  | .integer n => n
  | _ => 0

/-- The highest row number that the table has had, if it never uses one again. -/
def highest? (db : Database) (t : Table) : Option Int :=
  (db.sequenceFor? t).map fun s => ((s.rows.find? (isFor t)).map keptNumber).getD 0

/-- The database with a higher number kept for the table. -/
def keepHighest (db : Database) (t : Table) (highest : Int) : Database :=
  match db.sequenceFor? t with
  | none => db
  | some s =>
    let values : List Value := [.text t.name, .integer highest]
    match s.rows.find? (isFor t) with
    | some row =>
      if keptNumber row < highest then
        db.replace { s with
          rows := s.rows.map fun r => if r.number = row.number then { r with values } else r }
      else db
    | none => db.replace { s with rows := s.rows ++ [⟨s.last?.getD 0 + 1, values⟩] }

/-! ### Adding and removing -/

/-- The first `n` pages from the second on that nothing starts at. -/
def freePages (db : Database) (temporary : Bool) (n : Nat) : List Nat :=
  let used := (db.tables.filter (·.temporary == temporary)).flatMap Table.roots
  (((List.range (used.length + n)).map (· + 2)).filter (!used.contains ·)).take n

def append (db : Database) (t : Table) : Database :=
  let indexes := (t.columns.filter Column.isIndexed).length
  { db with tables := db.tables ++ [{ t with roots := db.freePages t.temporary (indexes + 1) }] }

/-- The database with a new table, and the one for highest row numbers if that is needed first now. -/
def add (db : Database) (t : Table) : Database :=
  let db := db.append t
  if t.autoincrement && !db.has sequenceName t.temporary then db.append (sequence t.temporary) else db

def remove (db : Database) (t : Table) : Database :=
  let db := match db.sequenceFor? t with
    | some s => db.replace { s with rows := s.rows.filter fun r => !isFor t r }
    | none => db
  { db with tables := db.tables.filter fun t' => !isTable t.name t.temporary t' }

/-! ### The list of tables -/

/-- The names of the list of tables, the one that it shows first. -/
def listNames (temporary : Bool) : List String :=
  if temporary then ["sqlite_temp_master", "sqlite_temp_schema"]
  else ["sqlite_master", "sqlite_schema"]

/-- The entries of a table and its indexes. -/
def entries (t : Table) : List (List Value) :=
  let root (i : Nat) : Value := ((t.roots[i]?).map fun n => .integer n).getD .null
  [.text "table", .text t.name, .text t.name, root 0, .text ("CREATE TABLE " ++ t.source)] ::
    (t.columns.filter Column.isIndexed).zipIdx.map fun (_, i) =>
      [.text "index", .text ("sqlite_autoindex_" ++ t.name ++ "_" ++ toString (i + 1)),
        .text t.name, root (i + 1), .null]

def list (db : Database) (temporary : Bool) : Table where
  name := (listNames temporary).headD ""
  temporary := temporary
  columns := [.plain "type" "TEXT", .plain "name" "TEXT", .plain "tbl_name" "TEXT",
    .plain "rootpage" "INT", .plain "sql" "TEXT"]
  autoincrement := false
  source := ""
  roots := []
  rows := ((db.tables.filter (·.temporary == temporary)).flatMap entries).zipIdx.map
    fun (values, i) => ⟨i + 1, values⟩

def isList (t : Table) : Bool := (listNames t.temporary).head? == some t.name

/-- What a name stands for in a query: a table, or a list of tables. -/
def readable? (db : Database) (name : String) : Option Table :=
  if (listNames false).any (sameName name) then some (db.list false)
  else if (listNames true).any (sameName name) then some (db.list true)
  else db.table? name

/-- The names of the lasting tables, the database's own among them. -/
def lastingNames (db : Database) : List String :=
  (db.tables.filter fun t => !t.temporary).map Table.name

end Database
end QueryTree
