import QueryTree.Database.Fault
import QueryTree.Database.Value
/-!
# Commands

What a statement says, before its names are looked up.
-/

namespace QueryTree.Database

inductive Expr where
  | literal (value : Value)
  | slot (number : Nat)
  /-- A number in hexadecimal digits that 64 bits cannot hold. -/
  | oversized (text : String)
  /-- A name, perhaps of a given table; `loose` says that it stands for its own text where no column
  has the name. -/
  | column (table : Option String) (name : String) (loose : Bool)
  | equal (left right : Expr)
  /-- The text on the left matches the pattern on the right, or does not. -/
  | like (negated : Bool) (left right : Expr)
  | both (left right : Expr)
  deriving DecidableEq, Repr

/-- The expression has no names apart from those of the truth values, and calls nothing. -/
def Expr.isConstant : Expr → Bool
  | literal _ | slot _ | oversized _ => true
  | column table name loose =>
    table.isNone && !loose && ["true", "false"].contains (String.ofList (name.toList.map Char.toLower))
  | like .. => false
  | equal left right | both left right => left.isConstant && right.isConstant

/-- The number of expressions inside one another. -/
def Expr.depth : Expr → Nat
  | literal _ | slot _ | oversized _ => 1
  | column table _ _ => if table.isSome then 2 else 1
  | like negated left right => max left.depth right.depth + if negated then 2 else 1
  | equal left right | both left right => max left.depth right.depth + 1

/-- The depth that an expression may have. -/
def Expr.maxDepth : Nat := 1000

/-- The number of columns that a table or a result may have. -/
def maxColumns : Nat := 2000

/-- One entry behind `SELECT`. The label is the name of the column in the result, if one is given,
and the source the text of the entry. -/
inductive Item where
  | all
  | allOf (table : String)
  | value (expr : Expr) (label : Option String) (source : String)
  | count (label : Option String) (source : String)
  deriving DecidableEq, Repr

structure OrderTerm where
  expr : Expr
  descending : Bool
  deriving DecidableEq, Repr

structure Select where
  items : List Item
  /-- The table, and the name that it has here if that is another. -/
  source : Option (String × Option String)
  condition : Option Expr
  order : List OrderTerm
  limit : Option Expr
  deriving DecidableEq, Repr

/-- A query: selections that have names, and one or more rows that may use them. -/
inductive Query where
  | select (select : Select)
  | rows (rows : List (List Expr))
  | named (definitions : List (String × Query)) (body : Query)
  deriving Repr

structure ColumnDecl where
  name : String
  type : String
  primaryKey : Bool
  autoincrement : Bool
  notNull : Bool
  unique : Bool
  /-- The table that the column refers to, and its column; the primary key if there is none. -/
  reference : Option (String × Option String)
  deriving DecidableEq, Repr

inductive Command where
  /-- The table's name also as it is written, and the text from the name on. The columns are read when
  it is known whether what they say counts, and not only how they are written. -/
  | createTable (name written source : String) (temporary guarded : Bool)
      (columns : (counts : Bool) → Except DatabaseFault (List ColumnDecl))
  | dropTable (name : String) (guarded : Bool)
  | insert (table : String) (columns : Option (List String)) (rows : List (List Expr))
  | update (table : String) (sets : List (String × Expr)) (condition : Option Expr)
  | delete (table : String) (condition : Option Expr)
  | query (query : Query)
  | foreignKeys
  | enforceKeys (enforced : Bool)
  | tableInfo (table : String)
  /-- A setting that has nothing to say. -/
  | setting

/-- The slots of a statement: their numbers run up to `count`. A slot that is written with a number or
a name says in `targets` which argument it takes, or that it can take none. -/
structure Slots where
  count : Nat
  targets : List (Nat × Except DatabaseFault Nat)

end QueryTree.Database
