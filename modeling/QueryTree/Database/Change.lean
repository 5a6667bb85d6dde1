import QueryTree.Database.Reference
import QueryTree.Database.Select
/-!
# Preparing commands

A command is prepared against a database: its names are looked up, and what is wrong with it before
it runs is found. A prepared command answers a query, replaces the database, or writes rows of one
table, which may still fail.
-/

namespace QueryTree.Database

/-- What writing rows led to: the new database and the number of rows written, and the number of the
row inserted last, which counts even if the whole fails. -/
structure Written where
  outcome : Except DatabaseFault (Database × Nat)
  lastId : Option Int

inductive Prepared where
  | answer (plan : Plan)
  | schema (database : Database)
  | write (run : Binding → Written)

/-! ### Tables -/

def reservedStart : String := "sqlite_"

def isReserved (name : String) : Bool :=
  sameName (String.ofList (name.toList.take reservedStart.length)) reservedStart

def createTable (db : Database) (name written source : String) (temporary guarded : Bool)
    (columns : (counts : Bool) → Except DatabaseFault (List ColumnDecl)) :
    Except DatabaseFault Database := do
  if isReserved name then throw (.reservedName name)
  if db.has name temporary then
    if !guarded then throw (.tableExists written)
    let _ ← columns false
    pure db
  else pure (db.add (.ofDecls name source temporary (← columns true)))

/-- Without the rows of the table, no more values refer to nothing. -/
def isUnreferenced (db : Database) (t : Table) : Bool :=
  let empty : Table := { t with rows := [] }
  (db.replace empty).danglingAround empty ≤ db.danglingAround t

/-- Removing a table that others refer to counts as writing its rows. -/
def prepareDrop (db : Database) (name : String) (guarded : Bool) : Except DatabaseFault Prepared :=
  match db.readable? name with
  | none => if guarded then .ok (.schema db) else .error (.noSuchTable name)
  | some t =>
    if isReserved t.name then .error (.notDroppable t.name)
    else if db.enforced && !(db.referrers t).isEmpty then
      .ok (.write fun _ =>
        ⟨if db.isUnreferenced t then .ok (db.remove t, t.rows.length) else .error .foreignKey, none⟩)
    else .ok (.schema (db.remove t))

/-! ### Rows -/

/-- The table of a name, if its rows may be written. -/
def lookUp (db : Database) (name : String) : Except DatabaseFault Table :=
  match db.readable? name with
  | some t => if isList t then .error (.notModifiable t.name) else .ok t
  | none => .error (.noSuchTable name)

/-- Values for a new row, each with the place where it belongs; the row's number has none. -/
abbrev Placed := List (Option Nat × Value)

namespace Placed

/-- The number given to the row: the last one, or nothing. -/
def number (values : Placed) : Value :=
  ((values.reverse.find? fun v => v.1.isNone).map Prod.snd).getD .null

/-- The values in the order of the table's columns; of two for one column the first counts. -/
def row (t : Table) (values : Placed) : List Value :=
  (List.range t.columns.length).map fun i =>
    ((values.find? fun v => v.1 == some i).map Prod.snd).getD .null

end Placed

/-- Puts the rows into the table one after the other. Also the number of the last one and the highest
number so far. -/
def insertRows (t : Table) (last highest : Option Int) :
    List Placed → Except DatabaseFault Table × Option Int × Option Int
  | [] => (.ok t, last, highest)
  | row :: rows =>
    match t.add highest row.number (row.row t) with
    | .error fault => (.error fault, last, highest)
    | .ok (t, number) => insertRows t (some number) (highest.map (max number)) rows

/-- The database after a change to one table, if all references hold. -/
def settle (db : Database) (t : Table) (count : Nat) : Except DatabaseFault (Database × Nat) := do
  let after := db.replace t
  checkReferences db after t
  pure (after, count)

def prepareInsert (db : Database) (name : String) (columns : Option (List String))
    (rows : List (List Expr)) : Except DatabaseFault Prepared := do
  let t ← db.lookUp name
  let places ← (columns.getD (t.columns.map Column.name)).mapM fun column =>
    match t.place? column with
    | some place => .ok place
    | none => .error (.noColumnNamed name column)
  let plan ← Plan.ofRows rows
  let width := plan.columns.length
  if width != places.length then
    throw (if columns.isSome then .valueCount width places.length
      else .tableValueCount name places.length width)
  db.checkParents t (references t)
  if rows.length != 1 then db.checkChildren (db.referrers t)
  pure (.write fun binding =>
    match plan.rows binding with
    | .error fault => ⟨.error fault, none⟩
    | .ok values =>
      match insertRows t none (db.highest? t) (values.map places.zip) with
      | (.error fault, last, _) => ⟨.error fault, last⟩
      | (.ok t, last, highest) =>
        match db.settle t values.length with
        | .ok (db, count) => ⟨.ok ((highest.map (db.keepHighest t)).getD db, count), last⟩
        | .error fault => ⟨.error fault, if rows.length = 1 then none else last⟩)

def scopeOf (name : String) (t : Table) : Scope := Plan.scope name (Plan.ofTable t)

/-- The assignments as terms, each with the place where its value belongs. -/
def assignments (t : Table) (scope : Scope) :
    List (String × Expr) → Except DatabaseFault (List (Option Nat × Term))
  | [] => .ok []
  | (column, e) :: sets => do
    let term ← Term.ofExpr scope e
    match t.place? column with
    | some place => pure ((place, term) :: (← assignments t scope sets))
    | none => throw (.noSuchColumn column)

/-- The values of a row under the assignments; of two to one column the last counts. -/
def assign (sets : List (Option Nat × Term)) (binding : Binding) (row : Row) : List Value :=
  sets.foldl (fun new (place, term) =>
    match place with
    | some i => new.set i (term.value binding row.cells)
    | none => new) row.values

/-- The number that the assignments give to a row, if they give it one. -/
def assignedNumber? (sets : List (Option Nat × Term)) (binding : Binding) (row : Row) :
    Option Value :=
  (sets.reverse.find? fun s => s.1.isNone).map fun s => s.2.value binding row.cells

def prepareUpdate (db : Database) (name : String) (sets : List (String × Expr))
    (condition : Option Expr) : Except DatabaseFault Prepared := do
  let t ← db.lookUp name
  let scope := scopeOf name t
  let sets ← assignments t scope sets
  let condition ← Term.ofCondition scope condition
  db.checkChanged t (sets.map Prod.fst)
  pure (.write fun binding =>
    let rows := t.rows.filter fun r => condition.admits binding r.cells
    let changed := rows.foldlM (fun t r =>
      t.change r (assignedNumber? sets binding r) (assign sets binding r)) t
    ⟨changed.bind fun t => db.settle t rows.length, none⟩)

def prepareDelete (db : Database) (name : String) (condition : Option Expr) :
    Except DatabaseFault Prepared := do
  let t ← db.lookUp name
  let condition ← Term.ofCondition (scopeOf name t) condition
  db.checkParents t (references t)
  db.checkChildren (db.referrers t)
  pure (.write fun binding =>
    let kept := t.rows.filter fun r => !condition.admits binding r.cells
    ⟨db.settle { t with rows := kept } (t.rows.length - kept.length), none⟩)

/-! ### Settings -/

/-- A fixed answer. -/
def Plan.fixed (columns : List String) (rows : List (List Value)) : Plan :=
  ⟨columns.map fun c => (c, none), none, fun _ => .ok rows⟩

/-- The columns of a table, one row for each; nothing if there is no such table. -/
def tableInfo (db : Database) (name : String) : Plan :=
  let flag (b : Bool) : Value := .integer (if b then 1 else 0)
  let columns := ((db.readable? name).map Table.columns).getD []
  .fixed ["cid", "name", "type", "notnull", "dflt_value", "pk"]
    (columns.zipIdx.map fun (c, i) =>
      [.integer i, .text c.name, .text c.type, flag c.notNull, .null, flag c.primaryKey])

def prepare (db : Database) : Command → Except DatabaseFault Prepared
  | .createTable name written source temporary guarded columns =>
    (db.createTable name written source temporary guarded columns).map .schema
  | .dropTable name guarded => db.prepareDrop name guarded
  | .insert table columns rows => db.prepareInsert table columns rows
  | .update table sets condition => db.prepareUpdate table sets condition
  | .delete table condition => db.prepareDelete table condition
  | .query q => (Plan.ofQuery db [] q).map .answer
  | .foreignKeys =>
    .ok (.answer (.fixed ["foreign_keys"] [[.integer (if db.enforced then 1 else 0)]]))
  | .enforceKeys enforced => .ok (.schema { db with enforced })
  | .tableInfo table => .ok (.answer (db.tableInfo table))
  | .setting => .ok (.answer (.fixed [] []))

end QueryTree.Database
