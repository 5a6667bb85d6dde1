import QueryTree.Text.Split
/-!
# Paths

A path is a text. Slashes separate its parts; empty parts and dots say nothing. Joining keeps the
text of both sides, so a path reads as it was given.
-/

namespace QueryTree.Path

def isAbsolute (path : String) : Bool := path.toList.head? = some '/'

/-- The names and double dots of a path. -/
def parts (path : String) : List String :=
  ((Text.splitBy (· == '/') path.toList).map String.ofList).filter fun p => p ≠ "" && p ≠ "."

/-- What is looked up one after the other: the parts, and a dot if the path asks for a directory. -/
def steps (path : String) : List String :=
  match path.toList.getLast? with
  | some '/' => parts path ++ ["."]
  | _ => parts path

/-- The text of parts. -/
def ofParts (absolute : Bool) (parts : List String) : String :=
  (if absolute then "/" else "") ++ "/".intercalate parts

/-- `name` below `path`; an absolute name stands for itself. -/
def join (path name : String) : String :=
  if isAbsolute name || path = "" then name
  else if path.toList.getLast? = some '/' then path ++ name
  else path ++ "/" ++ name

/-- The path without its last part. -/
def parent? (path : String) : Option String :=
  match parts path with
  | [] => none
  | p :: ps => some (ofParts (isAbsolute path) ((p :: ps).dropLast))

/-- What follows the last dot of a file name, if something stands before it. -/
def extension? (name : String) : Option String :=
  if name = ".." then none
  else match Text.breakOnLast '.' name.toList with
    | some (_ :: _, ext) => some (String.ofList ext)
    | _ => none

/-- The order of paths: part by part, each by its characters. -/
def precedes : List String → List String → Bool
  | [], _ => true
  | _ :: _, [] => false
  | p :: ps, q :: qs => if p = q then precedes ps qs else decide (p < q)

end QueryTree.Path
