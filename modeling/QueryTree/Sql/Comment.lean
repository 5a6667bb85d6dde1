import QueryTree.Sql.Quote
/-!
# Comments

A comment starts outside quotes, with two dashes and up to the end of its line, or between slash-star
and star-slash. A block comment leaves one space behind, a line comment the end of its line.
-/

namespace QueryTree.Sql

/-- What a script is inside of. -/
inductive Region where
  | plain
  | quoted (quote : Char)
  | line
  | block
  deriving DecidableEq, Repr

/-- The script without the comments, from inside the given region on. -/
def stripFrom : Region → List Char → List Char
  | _, [] => []
  | .quoted q, c :: r => c :: stripFrom (if c = q then .plain else .quoted q) r
  | .line, c :: r => if c = '\n' then c :: stripFrom .plain r else stripFrom .line r
  | .block, '*' :: '/' :: r => stripFrom .plain r
  | .block, _ :: r => stripFrom .block r
  | .plain, '-' :: '-' :: r => stripFrom .line r
  | .plain, '/' :: '*' :: r => ' ' :: stripFrom .block r
  | .plain, c :: r => c :: stripFrom (if isQuote c then .quoted c else .plain) r

def stripComments (script : String) : String := String.ofList (stripFrom .plain script.toList)

end QueryTree.Sql
