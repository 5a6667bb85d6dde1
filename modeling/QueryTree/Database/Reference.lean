import QueryTree.Database.Catalogue
/-!
# References

A column may refer to a key of a table: every value in it is then one that the key has, or nothing.
`Database.dangling` counts the values of a table for which that fails. A statement may not leave more
of them than it found. Before it runs, the references that it may break have to lead to keys.
-/

namespace QueryTree.Database

/-- The table and the column that a column of `t` refers to. -/
def parent (db : Database) (t : Table) (reference : String × Option String) :
    Except DatabaseFault (Table × Nat) := do
  let some p := db.tables.find? (isTable reference.1 t.temporary)
    | throw (.noSuchTable ((if t.temporary then "temp." else "main.") ++ reference.1))
  let key := match reference.2 with
    | some column => p.columnIndex? column
    | none => p.columns.findIdx? Column.primaryKey
  match key with
  | some i =>
    if (p.columns[i]?).any Column.isKey then pure (p, i)
    else throw (.unmatchedReference t.name reference.1)
  | none => throw (.unmatchedReference t.name reference.1)

/-- The number of values in a table that refer to nothing. -/
def dangling (db : Database) (t : Table) : Nat :=
  (t.columns.zipIdx.map fun (c, i) =>
    match c.reference.map (db.parent t) with
    | some (.ok (p, key)) =>
      let affinity := ((p.columns[key]?).map Column.affinity).getD .blob
      t.rows.countP fun r =>
        let v := r.values[i]?.getD .null
        v != .null && !p.holds key (v.coerce affinity)
    | _ => 0).foldr (· + ·) 0

/-- The references of a table, the last first. -/
def references (t : Table) : List (Nat × (String × Option String)) :=
  t.columns.zipIdx.reverse.filterMap fun (c, i) => c.reference.map (i, ·)

/-- The references to a table, those of the newest table first, each with the table that has it. -/
def referrers (db : Database) (t : Table) : List (Table × (String × Option String)) :=
  (db.tables.reverse.filter (·.temporary == t.temporary)).flatMap fun child =>
    ((references child).filter fun (_, r) => sameName r.1 t.name).map fun (_, r) => (child, r)

/-- The number of values that refer to nothing, in a table and in those that refer to it. -/
def danglingAround (db : Database) (t : Table) : Nat :=
  let near := db.tables.filter fun t' =>
    t'.temporary == t.temporary &&
      (sameName t'.name t.name || t'.columns.any fun c => c.reference.any fun r => sameName r.1 t.name)
  near.foldr (fun t n => db.dangling t + n) 0

/-- What a change to the table `t` made of `before` leaves no more values that refer to nothing. -/
def checkReferences (before after : Database) (t : Table) : Except DatabaseFault Unit :=
  if !after.enforced || after.danglingAround t ≤ before.danglingAround t then .ok ()
  else .error .foreignKey

/-! ### Before a statement runs -/

/-- References of a table lead to keys. -/
def checkParents (db : Database) (t : Table) (own : List (Nat × (String × Option String))) :
    Except DatabaseFault Unit :=
  if db.enforced then own.forM fun (_, r) => (db.parent t r).map fun _ => () else .ok ()

/-- References to a table lead to keys of it. -/
def checkChildren (db : Database) (others : List (Table × (String × Option String))) :
    Except DatabaseFault Unit :=
  if db.enforced then others.forM fun (child, r) => (db.parent child r).map fun _ => () else .ok ()

/-- A change to the given places of a table's rows bears on the keys that a reference names. -/
def bearsOn (t : Table) (places : List (Option Nat)) (r : String × Option String) : Bool :=
  t.columns.zipIdx.any fun (c, i) =>
    places.contains (if c.isRowNumber then none else some i) &&
      match r.2 with
      | some name => sameName c.name name
      | none => c.primaryKey

/-- The references that a change to the given places may break lead to keys. -/
def checkChanged (db : Database) (t : Table) (places : List (Option Nat)) :
    Except DatabaseFault Unit := do
  let touched (i : Nat) : Bool :=
    places.contains (if (t.columns[i]?).any Column.isRowNumber then none else some i)
  let others := (db.referrers t).filter fun (_, r) => bearsOn t places r
  let own := references t
  if own.any (fun (i, _) => touched i) || !others.isEmpty then
    db.checkParents t (own.filter fun (i, r) => touched i || sameName r.1 t.name)
    db.checkChildren others

end QueryTree.Database
