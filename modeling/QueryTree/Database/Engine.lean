import QueryTree.Database.Fault
import QueryTree.Database.Value
/-!
# Engines

What a store asks of the database engine behind its connection. An engine is given by the type of the
states that a connection can be in, and nothing is said here of what it makes of a text.
-/

namespace QueryTree

/-- What one statement led to: the names of its columns, its rows, and the rows that the session then
counts as written. -/
structure Done where
  columns : List String
  rows : List (List Value)
  changes : Nat
  deriving DecidableEq, Repr

/-- An engine, by the states of a connection to it. -/
class Engine (σ : Type) where
  /-- Runs a text with its arguments. What is done before a fault may stay. -/
  run : σ → String → List Value → Except DatabaseFault (List Done) × σ
  /-- The columns of a text, which is prepared and not run. -/
  columns : σ → String → Except DatabaseFault (List String)
  /-- The number of the row inserted last. -/
  lastId : σ → Int
  /-- The number of rows that the last statement of those that write has written. -/
  changes : σ → Nat
  /-- There is a sign of life. -/
  ping : σ → Bool
  /-- How closing the connection ends. -/
  close : σ → Except DatabaseFault Unit

end QueryTree
