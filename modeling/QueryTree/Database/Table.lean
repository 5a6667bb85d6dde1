import QueryTree.Database.Command
import QueryTree.Text.Word
/-!
# Tables

A table's rows are kept in the order of their row numbers. `Table.place` puts a row into a table if
every constraint of the table allows it.
-/

namespace QueryTree.Database

/-- Names are compared without regard to the case of ASCII letters. -/
def sameName (a b : String) : Bool := Text.sameLetters a.toList b.toList

structure Column where
  name : String
  type : String
  primaryKey : Bool
  notNull : Bool
  unique : Bool
  reference : Option (String × Option String)
  deriving DecidableEq, Repr

namespace Column

def affinity (c : Column) : Affinity := .ofType c.type

/-- The column holds the number of the row. -/
def isRowNumber (c : Column) : Bool := c.primaryKey && c.type == "INTEGER"

/-- The types that are always written in capitals. -/
def standardTypes : List String := ["ANY", "BLOB", "INT", "INTEGER", "REAL", "TEXT"]

def ofDecl (d : ColumnDecl) : Column where
  name := d.name
  type := (standardTypes.find? (sameName d.type)).getD d.type
  primaryKey := d.primaryKey
  notNull := d.notNull
  unique := d.unique
  reference := d.reference

/-- No two rows may hold the same value in the column. -/
def isKey (c : Column) : Bool := c.primaryKey || c.unique

/-- The column's values are kept in an index of their own. -/
def isIndexed (c : Column) : Bool := c.unique || c.primaryKey && !c.isRowNumber

/-- A column of which only a name and a type are known. -/
def plain (name type : String) : Column := ⟨name, type, false, false, false, none⟩

end Column

structure Row where
  number : Int
  values : List Value
  deriving DecidableEq, Repr

/-- The values of a row and, behind them, its number. -/
def Row.cells (r : Row) : List Value := r.values ++ [.integer r.number]

structure Table where
  name : String
  temporary : Bool
  columns : List Column
  /-- Row numbers are never used again. -/
  autoincrement : Bool
  /-- The declaration from the name on. -/
  source : String
  /-- The pages where the table and its indexes start. -/
  roots : List Nat
  rows : List Row
  deriving DecidableEq, Repr

namespace Table

/-- The empty table with the declared columns. -/
def ofDecls (name source : String) (temporary : Bool) (decls : List ColumnDecl) : Table where
  name := name
  temporary := temporary
  columns := decls.map .ofDecl
  autoincrement := decls.any ColumnDecl.autoincrement
  source := source
  roots := []
  rows := []

def columnIndex? (t : Table) (name : String) : Option Nat :=
  t.columns.findIdx? fun c => sameName c.name name

/-- The names that a row's number has besides that of a column. -/
def numberNames : List String := ["rowid", "oid", "_rowid_"]

/-- Where a value of the given name belongs: in a column, or nowhere if it is the number of the row. -/
def place? (t : Table) (name : String) : Option (Option Nat) :=
  match t.columnIndex? name with
  | some i => some (if (t.columns[i]?).any Column.isRowNumber then none else some i)
  | none => if numberNames.any (sameName name) then some none else none

/-- The name that the number of a row has in a result. -/
def numberLabel (t : Table) : String :=
  ((t.columns.find? Column.isRowNumber).map Column.name).getD "rowid"

/-- The largest row number in use. -/
def last? (t : Table) : Option Int := (t.rows.getLast?).map Row.number

/-- The number of a row that does not bring one; it lies above `highest`, if that is known. -/
def nextNumber (t : Table) (highest : Option Int) : Except DatabaseFault Int :=
  let last := t.last?.getD 0
  let n := (highest.map (max last)).getD last
  if n < Value.maxInteger then .ok (n + 1) else .error .full

/-- The row number that a value stands for. -/
def numberOf (v : Value) : Except DatabaseFault Int :=
  match v.coerce .numeric with
  | .integer n => .ok n
  | _ => .error .mismatch

/-- The first column that must not be empty and is. -/
def missing? (t : Table) (values : List Value) : Option Column :=
  ((t.columns.zip values).find? fun (c, v) => c.notNull && v == .null).map Prod.fst

/-- A row holds the value in the given column. -/
def holds (t : Table) (column : Nat) (v : Value) : Bool :=
  t.rows.any fun r => (r.values[column]?.getD .null).equal? v == some true

/-- The first key, from the last column on, whose value is taken. -/
def taken? (t : Table) (values : List Value) : Option Column :=
  ((t.columns.zip values).zipIdx.reverse.find? fun ((c, v), i) =>
    c.isKey && !c.isRowNumber && t.holds i v).map fun ((c, _), _) => c

/-- The rows with `row` among them, before the first with a larger number. -/
def sortedInsert (row : Row) : List Row → List Row
  | [] => [row]
  | r :: rs => if row.number < r.number then row :: r :: rs else r :: sortedInsert row rs

/-- The table with a row of the given number and values, which are turned as the columns ask. -/
def place (t : Table) (number : Int) (values : List Value) : Except DatabaseFault Table := do
  let values := (t.columns.zip values).map fun (c, v) =>
    if c.isRowNumber then .integer number else v.coerce c.affinity
  if let some c := t.missing? values then throw (.notNull t.name c.name)
  if t.rows.any (·.number == number) then
    throw (.primaryKey t.name (((t.columns.find? Column.isRowNumber).map Column.name).getD "rowid"))
  if let some c := t.taken? values then
    throw (if c.primaryKey then .primaryKey t.name c.name else .unique t.name c.name)
  pure { t with rows := sortedInsert ⟨number, values⟩ t.rows }

/-- The table with one more row, and the number of the row, which is given or the next one. -/
def add (t : Table) (highest : Option Int) (given : Value) (values : List Value) :
    Except DatabaseFault (Table × Int) := do
  let number ← if given = .null then t.nextNumber highest else numberOf given
  pure (← t.place number values, number)

def remove (t : Table) (number : Int) : Table :=
  { t with rows := t.rows.filter fun r => r.number != number }

/-- The table with other values in a row, which may be given another number. -/
def change (t : Table) (row : Row) (given : Option Value) (values : List Value) :
    Except DatabaseFault Table := do
  let number ← match given with
    | some v => numberOf v
    | none => pure row.number
  (t.remove row.number).place number values

end Table
end QueryTree.Database
