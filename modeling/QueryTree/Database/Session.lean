import QueryTree.Database.Change
import QueryTree.Database.Engine
import QueryTree.Database.Grammar
/-!
# Sessions

A session is a database together with what it remembers of the statements that wrote to it: the
number of the row inserted last, and how many rows the last one wrote. A text is run statement by
statement, and what the statements before a fault have done stays. Sessions are the states of the engine
that the program comes with; it always answers and never fails to close.
-/

namespace QueryTree

/-- The bindings of a statement's slots: a slot that says which argument it takes gets that one, any
other the next; binding ends where an argument is missing. Also the number of arguments that are used
up. -/
def Database.Slots.bind (slots : Slots) (args : List Value) (used : Nat) :
    Except DatabaseFault (List Value × Nat) :=
  go 1 slots.count used
where
  go (number : Nat) : (count used : Nat) → Except DatabaseFault (List Value × Nat)
    | 0, used => .ok ([], used)
    | count + 1, used => do
      let target ← (slots.targets.find? (·.1 == number)).mapM Prod.snd
      let used := if target.isSome then used else used + 1
      match args[target.getD used - 1]? with
      | none => pure ([], used)
      | some v =>
        let (values, used) ← go (number + 1) count used
        pure (v :: values, used)

structure Session where
  database : Database
  lastId : Int
  changes : Nat
  deriving DecidableEq, Repr

namespace Session

open Database

def start (database : Database) : Session := ⟨database, 0, 0⟩

def columnsOf : Prepared → List String
  | .answer plan => plan.columns.map Prod.fst
  | _ => []

/-- Runs a prepared command. -/
def perform (s : Session) (binding : Binding) : Prepared → Except DatabaseFault Done × Session
  | .answer plan =>
    (do pure ⟨plan.columns.map Prod.fst, ← plan.rows binding, s.changes⟩, s)
  | .schema database => (.ok ⟨[], [], s.changes⟩, { s with database })
  | .write run =>
    let w := run binding
    let lastId := w.lastId.getD s.lastId
    match w.outcome with
    | .ok (database, changes) => (.ok ⟨[], [], changes⟩, { database, lastId, changes })
    | .error fault => (.error fault, { s with lastId, changes := 0 })

/-- Runs statements one after the other; `used` arguments have been bound before. -/
def runAll (s : Session) (args : List Value) (used : Nat) :
    List Rest → Except DatabaseFault (List Done) × Session
  | [] => (.ok [], s)
  | rest :: more =>
    match (do let statement ← Statement.read rest
              pure (statement.slots, ← s.database.prepare statement.command)) with
    | .error fault => (.error fault, s)
    | .ok (slots, prepared) =>
      match slots.bind args used with
      | .error fault => (.error fault, s)
      | .ok (values, used) =>
        match s.perform (fun n => values[n - 1]?.getD .null) prepared with
        | (.error fault, s) => (.error fault, s)
        | (.ok done, s) =>
          let (outcome, s) := runAll s args used more
          (outcome.map (done :: ·), s)

def run (s : Session) (sql : String) (args : List Value) :
    Except DatabaseFault (List Done) × Session :=
  s.runAll args 0 (statementsOf sql)

/-- The columns of a text: those of the first statement that has any. All statements are prepared. -/
def columns (s : Session) (sql : String) : Except DatabaseFault (List String) := do
  let all ← (statementsOf sql).mapM fun rest => do
    pure (columnsOf (← s.database.prepare (← Statement.read rest).command))
  pure ((all.find? fun names => !names.isEmpty).getD [])

end Session

instance : Engine Session where
  run := Session.run
  columns := Session.columns
  lastId := Session.lastId
  changes := Session.changes
  ping _ := true
  close _ := .ok ()

end QueryTree
