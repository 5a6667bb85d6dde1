import QueryTree.Database.Fault
import QueryTree.Files.Tree
/-!
# Faults of the store
-/

namespace QueryTree

inductive StoreFault where
  | closed
  | emptyStatement
  | schema (statement : String) (fault : DatabaseFault)
  | opening (path : String) (fault : DatabaseFault)
  /-- No database can have the name. -/
  | nameRefused (path : String)
  | database (fault : DatabaseFault)
  | file (fault : FileFault)
  deriving DecidableEq, Repr

namespace StoreFault

def message : StoreFault → String
  | closed => "store closed"
  | emptyStatement => "empty statement"
  | schema statement fault =>
    "failed to apply schema statement '" ++ statement ++ "': " ++ fault.message
  | opening path fault => "failed to open database " ++ path ++ ": " ++ fault.message
  | nameRefused path =>
    "failed to open database " ++ path ++
      ": error communicating with database: filename passed to SQLite must not contain nul bytes"
  | database fault => "database: " ++ fault.message
  | file fault => "io: " ++ fault.message

end StoreFault
end QueryTree
