/-!
# What can be wrong with a statement

Every fault that is known by its kind has a number and a text. `DatabaseFault.message` puts both
together, except where the arguments of a statement cannot be told.
-/

namespace QueryTree

inductive DatabaseFault where
  | syntaxError (near : String)
  | unrecognized (token : String)
  | incomplete
  | noSuchTable (table : String)
  | noSuchColumn (column : String)
  | noColumnNamed (table column : String)
  | tableExists (table : String)
  | reservedName (table : String)
  | notModifiable (table : String)
  | notDroppable (table : String)
  | duplicateColumn (column : String)
  | twoPrimaryKeys (table : String)
  | autoincrementMisused
  | noTables
  | unequalRows
  | valueCount (values columns : Nat)
  | tableValueCount (table : String) (columns values : Nat)
  | slotRange
  | tooManySlots
  /-- There are more columns at the given place than any may have. -/
  | tooManyColumns (place : String)
  | tooManyOrders
  | tooDeep (depth : Nat)
  /-- No argument can be told from the name of a slot. -/
  | slotName (name : String)
  | slotNameNotNumber (name : String)
  | hexTooBig (text : String)
  | circularReference (query : String)
  | duplicateQuery (query : String)
  | aliasedAggregate (label : String)
  | manyReferenced (column table : String)
  | orderRange (place columns : Nat)
  | unmatchedReference (child parent : String)
  | full
  | notNull (table column : String)
  | primaryKey (table column : String)
  | unique (table column : String)
  | foreignKey
  | mismatch
  | cannotOpen
  | notDatabase
  /-- A fault of which only the message is known. -/
  | worded (message : String)
  deriving DecidableEq, Repr

namespace DatabaseFault

def code : DatabaseFault → Nat
  | notNull .. => 1299
  | primaryKey .. => 1555
  | unique .. => 2067
  | foreignKey => 787
  | mismatch => 20
  | full => 13
  | cannotOpen => 14
  | notDatabase => 26
  | _ => 1

/-- A count with the ending of an ordinal. -/
def ordinal (n : Nat) : String :=
  let ending :=
    if n / 10 % 10 = 1 then "th"
    else match n % 10 with
      | 1 => "st"
      | 2 => "nd"
      | 3 => "rd"
      | _ => "th"
  toString n ++ ending

def text : DatabaseFault → String
  | syntaxError near => "near \"" ++ near ++ "\": syntax error"
  | unrecognized token => "unrecognized token: \"" ++ token ++ "\""
  | incomplete => "incomplete input"
  | noSuchTable table => "no such table: " ++ table
  | noSuchColumn column => "no such column: " ++ column
  | noColumnNamed table column => "table " ++ table ++ " has no column named " ++ column
  | tableExists table => "table " ++ table ++ " already exists"
  | notModifiable table => "table " ++ table ++ " may not be modified"
  | notDroppable table => "table " ++ table ++ " may not be dropped"
  | reservedName table => "object name reserved for internal use: " ++ table
  | duplicateColumn column => "duplicate column name: " ++ column
  | twoPrimaryKeys table => "table \"" ++ table ++ "\" has more than one primary key"
  | autoincrementMisused => "AUTOINCREMENT is only allowed on an INTEGER PRIMARY KEY"
  | noTables => "no tables specified"
  | unequalRows => "all VALUES must have the same number of terms"
  | valueCount values columns => toString values ++ " values for " ++ toString columns ++ " columns"
  | tableValueCount table columns values =>
    "table " ++ table ++ " has " ++ toString columns ++ " columns but " ++ toString values ++
      " values were supplied"
  | slotRange => "variable number must be between ?1 and ?32766"
  | tooManySlots => "too many SQL variables"
  | tooManyColumns place => "too many columns " ++ place
  | tooManyOrders => "too many terms in ORDER BY clause"
  | tooDeep depth => "Expression tree is too large (maximum depth " ++ toString depth ++ ")"
  | slotName name => "unsupported SQL parameter format: " ++ name
  | slotNameNotNumber name =>
    "parameters with non-integer names are not currently supported: " ++ name
  | circularReference query => "circular reference: " ++ query
  | duplicateQuery query => "duplicate WITH table name: " ++ query
  | hexTooBig text => "hex literal too big: " ++ text
  | aliasedAggregate label => "misuse of aliased aggregate " ++ label
  | manyReferenced column table =>
    "foreign key on " ++ column ++ " should reference only one column of table " ++ table
  | orderRange place columns =>
    ordinal place ++ " ORDER BY term out of range - should be between 1 and " ++ toString columns
  | unmatchedReference child parent =>
    "foreign key mismatch - \"" ++ child ++ "\" referencing \"" ++ parent ++ "\""
  | full => "database or disk is full"
  | notNull table column => "NOT NULL constraint failed: " ++ table ++ "." ++ column
  | primaryKey table column | unique table column =>
    "UNIQUE constraint failed: " ++ table ++ "." ++ column
  | foreignKey => "FOREIGN KEY constraint failed"
  | mismatch => "datatype mismatch"
  | cannotOpen => "unable to open database file"
  | notDatabase => "file is not a database"
  | worded message => message

def message (fault : DatabaseFault) : String :=
  match fault with
  | worded message => message
  | slotName _ | slotNameNotNumber _ => "encountered unexpected or invalid data: " ++ fault.text
  | _ => "error returned from database: (code: " ++ toString fault.code ++ ") " ++ fault.text

end DatabaseFault
end QueryTree
