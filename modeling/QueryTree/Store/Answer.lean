import QueryTree.Database.Engine
import QueryTree.Keyed
/-!
# Answers of the store

A query is answered with its columns and its rows, a mutation with the number of the row inserted last
and the number of rows written. In a row, of several columns with one name the first gives the place
and the last the value.
-/

namespace QueryTree

inductive Answer where
  | query (columns : List String) (rows : List (List (String × Json)))
  | mutation (lastId : Int) (affected : Nat)

namespace Answer

/-- The row with the given cells under the names of its columns. -/
def row (columns : List String) (cells : List Value) : List (String × Json) :=
  Keyed.ofList ((columns.zip cells).map fun (name, cell) => (name, cell.toJson))

/-- The rows of the statements of a text, under the columns of the first. -/
def ofQuery (columns : List String) (all : List Done) : Answer :=
  .query columns (all.flatMap fun d => d.rows.map (row d.columns))

/-- What a text did: its statements' rows together, or the rows counted before if it has none. -/
def ofMutation {σ : Type} [Engine σ] (all : List Done) (session : σ) : Answer :=
  .mutation (Engine.lastId session)
    (if all.isEmpty then Engine.changes session else all.foldr (fun d n => d.changes + n) 0)

/-- The texts that stand under a name in the rows; rows with another value there have none. -/
def texts (name : String) : Answer → List String
  | query _ rows => rows.filterMap fun row => (Keyed.get? name row).bind Json.string?
  | mutation .. => []

def toJson : Answer → Json
  | query columns rows => .object [("columns", .strings columns),
      ("rows", .array (rows.map .object)), ("count", .ofNat rows.length)]
  | mutation lastId affected => .object [("last_insert_id", .int lastId),
      ("rows_affected", .ofNat affected), ("success", .bool true)]

end Answer
end QueryTree
