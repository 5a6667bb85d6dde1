import QueryTree.Sql.Comment
import QueryTree.Text.Blank
import QueryTree.Text.Word
/-!
# Statements of a script

Semicolons outside quotes separate statements. A statement that begins with one of four keywords,
comments and blanks apart, is a query; every other one is a mutation.
-/

namespace QueryTree.Sql

/-- The pieces between the semicolons outside quotes; there is always at least one. -/
def piecesFrom : Option Char → List Char → List (List Char)
  | _, [] => [[]]
  | open?, c :: r =>
    if open?.isNone ∧ c = ';' then [] :: piecesFrom none r
    else match piecesFrom (quoteAfter open? c) r with
      | [] => [[c]]
      | piece :: pieces => (c :: piece) :: pieces

def statementsOf (script : List Char) : List (List Char) :=
  ((piecesFrom none script).map Text.trim).filter fun s => !s.isEmpty

def splitStatements (script : String) : List String :=
  (statementsOf script.toList).map String.ofList

inductive StatementKind where
  | query
  | mutation
  deriving DecidableEq, Repr

def queryKeywords : List String := ["SELECT", "WITH", "EXPLAIN", "PRAGMA"]

/-- The text begins with `keyword`, up to the case of ASCII letters. -/
def beginsWith (keyword : String) (s : List Char) : Bool :=
  Text.sameLetters (s.take keyword.length) keyword.toList

def classify (sql : String) : StatementKind :=
  let head := Text.trimStart (stripFrom .plain sql.toList)
  if queryKeywords.any (beginsWith · head) then .query else .mutation

end QueryTree.Sql
