import QueryTree.Sql.Statement
import QueryTree.Sql.TableDecl
import QueryTree.Text.Split
/-!
# Schema scripts

Before a schema script is applied it loses its comments, the blanks at the ends of its lines and its
blank lines; its table declarations are guarded; then it is split into statements.
-/

namespace QueryTree.Sql

def normalizeChars (script : List Char) : List Char :=
  let lines := (Text.splitBy (· == '\n') (stripFrom .plain script)).map Text.trimEnd
  Text.joinWith ['\n'] (lines.filter fun line => !line.isEmpty)

def normalizeSchema (script : String) : String := String.ofList (normalizeChars script.toList)

/-- The statements in which a schema script is applied. -/
def prepareSchema (script : String) : List String :=
  splitStatements (makeIdempotent (normalizeSchema script))

end QueryTree.Sql
