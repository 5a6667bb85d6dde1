import QueryTree.Text.Split
/-!
# Request targets

The target of a request is a path with an optional query, perhaps behind a scheme and an authority.
What follows a `#` belongs to neither.
-/

namespace QueryTree

structure Target where
  path : String
  query : String
  deriving DecidableEq, Repr

namespace Target

/-- The target without scheme and authority; the path behind an authority is at least a slash. -/
def origin (target : List Char) : List Char :=
  if target.head? = some '/' ∨ target.head? = some '*' then target
  else match Text.breakOn "://".toList target with
    | none => []
    | some (_, rest) =>
      match rest.dropWhile fun c => c != '/' && c != '?' && c != '#' with
      | '/' :: r => '/' :: r
      | r => '/' :: r

def ofText (target : String) : Target :=
  let shown := (origin target.toList).takeWhile (· != '#')
  { path := String.ofList (shown.takeWhile (· != '?'))
    query := String.ofList ((shown.dropWhile (· != '?')).drop 1) }

end Target
end QueryTree
