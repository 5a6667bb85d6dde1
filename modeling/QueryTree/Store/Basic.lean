import QueryTree.Database.Session
import QueryTree.Sql.Schema
import QueryTree.Sql.Statement
import QueryTree.Store.Answer
import QueryTree.Store.Fault
/-!
# The store

A store is one session with a database, and it is open until it is closed. A text is answered
according to its kind: a query with rows, a mutation with counts. Once closed, a store refuses every
text and nothing changes its database any more. All this is the same for any engine.
-/

namespace QueryTree

/-- A store over an engine; unless another is named, that is the one the program comes with. -/
structure Store (σ : Type := Session) where
  isOpen : Bool
  session : σ
  /-- Where the database is kept; none if it lives only as long as the store. -/
  place : Option Place

namespace Store

/-- An open store over a database. -/
def start (database : Database) (place : Option Place) : Store := ⟨true, .start database, place⟩

variable {σ : Type} [Engine σ]

/-- Runs a text without arguments. -/
def command (s : Store σ) (sql : String) : Except DatabaseFault Unit × Store σ :=
  let (outcome, session) := Engine.run s.session sql []
  (outcome.map fun _ => (), { s with session })

/-- Runs statements in order up to the first that fails. -/
def applyStatements (s : Store σ) : List String → Except StoreFault Unit × Store σ
  | [] => (.ok (), s)
  | statement :: statements =>
    match s.command statement with
    | (.ok (), s) => applyStatements s statements
    | (.error fault, s) => (.error (.schema statement fault), s)

def applySchema (s : Store σ) (script : String) : Except StoreFault Unit × Store σ :=
  if s.isOpen then s.applyStatements (Sql.prepareSchema script) else (.error .closed, s)

def query (s : Store σ) (sql : String) (args : List Value) : Except StoreFault Answer × Store σ :=
  match Engine.columns s.session sql with
  | .error fault => (.error (.database fault), s)
  | .ok columns =>
    match Engine.run s.session sql args with
    | (.ok all, session) => (.ok (.ofQuery columns all), { s with session })
    | (.error fault, session) => (.error (.database fault), { s with session })

def mutate (s : Store σ) (sql : String) (args : List Value) : Except StoreFault Answer × Store σ :=
  match Engine.run s.session sql args with
  | (.ok all, session) => (.ok (.ofMutation all session), { s with session })
  | (.error fault, session) => (.error (.database fault), { s with session })

/-- Answers a text; one of blanks is refused even by a closed store. -/
def execute (s : Store σ) (sql : String) (args : List Json) : Except StoreFault Answer × Store σ :=
  let sql := String.ofList (Text.trim sql.toList)
  let args := args.map fun v => Value.ofBind (.ofJson v)
  if sql = "" then (.error .emptyStatement, s)
  else if !s.isOpen then (.error .closed, s)
  else match Sql.classify sql with
    | .query => s.query sql args
    | .mutation => s.mutate sql args

/-- What asks for the names of the tables. -/
def tablesQuery : String :=
  "SELECT name FROM sqlite_master WHERE type = 'table' AND name NOT LIKE 'sqlite_%' ORDER BY name"

/-- The tables, sorted by name. -/
def tables (s : Store σ) : Except StoreFault (List String) :=
  (s.execute tablesQuery []).1.map (Answer.texts "name")

def isHealthy (s : Store σ) : Bool := s.isOpen && Engine.ping s.session

def close (s : Store σ) : Store σ := { s with isOpen := false }

end Store
end QueryTree
