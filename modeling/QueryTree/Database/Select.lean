import QueryTree.Database.Catalogue
/-!
# Expressions and queries

Names are looked up before anything is computed. What comes out is a `Term`, a value for every
binding of the slots and every row, or a `Plan`, the columns of a query and its rows for every
binding.
-/

namespace QueryTree.Database

/-- The values of the slots, by their numbers. -/
abbrev Binding := Nat → Value

/-- A column by its name, with its affinity if it has one. -/
abbrev Heading := String × Option Affinity

/-- An expression whose names are looked up. -/
structure Term where
  affinity : Option Affinity
  /-- The name of the column that the term is. -/
  column : Option String
  value : Binding → List Value → Value

/-- What the names of an expression may stand for: the columns of one table, the number of its rows,
and labels. -/
structure Scope where
  table : String
  columns : List Heading
  /-- The name that the number of a row has in a result, if rows have one; it is the cell behind those
  of the columns. -/
  numberLabel : Option String
  /-- Labels given to columns of the result. -/
  labels : List (String × Except DatabaseFault Term)

def Scope.none : Scope := ⟨"", [], .none, []⟩

/-- The truth of a value, which is unknown where there is none. -/
def truth? : Value → Option Bool
  | .null => none
  | .integer n => some (n != 0)
  | .real bits => some ((Value.dyadic bits).1 != 0)
  | .text s => some (leading s.toList)
  | .blob bytes => some (leading (Utf8.decodeLossy bytes))
where
  leading (s : List Char) : Bool :=
    let s := match s.dropWhile Value.isSpace with
      | '-' :: r | '+' :: r => r
      | r => r
    match Numeral.ofChars? s with
    | some (n, _) => (Value.dyadic n.bits).1 != 0
    | none => false

def ofTruth : Option Bool → Value
  | none => .null
  | some b => .integer (if b then 1 else 0)

def conjunction : Option Bool → Option Bool → Option Bool
  | some false, _ => some false
  | _, some false => some false
  | some true, some true => some true
  | _, _ => none

namespace Term

def constant (v : Value) : Term := ⟨none, none, fun _ _ => v⟩

/-- The column of a name, or the number of the row, if the scope has it. -/
def cell? (scope : Scope) (table : Option String) (name : String) : Option Term := do
  if table.any fun t => !sameName t scope.table then none
  match scope.columns.findIdx? fun c => sameName c.1 name with
  | some i =>
    let (declared, affinity) ← scope.columns[i]?
    pure ⟨affinity, some declared, fun _ row => row[i]?.getD .null⟩
  | none =>
    let label ← scope.numberLabel
    if !Table.numberNames.any (sameName name) then none
    pure ⟨some .integer, some label, fun _ row => row[scope.columns.length]?.getD .null⟩

/-- What a name stands for that neither a column nor a label has. -/
def unknown (table : Option String) (name : String) (loose : Bool) : Except DatabaseFault Term :=
  if loose then .ok (constant (.text name))
  else match table with
    | some t => .error (.noSuchColumn (t ++ "." ++ name))
    | none =>
      if sameName name "true" then .ok (constant (.integer 1))
      else if sameName name "false" then .ok (constant (.integer 0))
      else .error (.noSuchColumn name)

def ofName (scope : Scope) (table : Option String) (name : String) (loose : Bool) :
    Except DatabaseFault Term :=
  match cell? scope table name with
  | some t => .ok t
  | none =>
    match if table.isNone then scope.labels.find? fun l => sameName l.1 name else none with
    | some (_, meaning) => meaning
    | none => unknown table name loose

def ofExpr (scope : Scope) : Expr → Except DatabaseFault Term
  | .literal v => .ok (constant v)
  | .slot n => .ok ⟨none, none, fun binding _ => binding n⟩
  | .oversized text => .error (.hexTooBig text)
  | .column table name loose => ofName scope table name loose
  | .equal a b => do
    let s ← ofExpr scope a
    let t ← ofExpr scope b
    pure ⟨none, none, fun binding row =>
      let (x, y) := Value.adapt s.affinity t.affinity (s.value binding row) (t.value binding row)
      ofTruth (x.equal? y)⟩
  | .like negated a b => do
    let s ← ofExpr scope a
    let t ← ofExpr scope b
    pure ⟨none, none, fun binding row =>
      ofTruth (((s.value binding row).like? (t.value binding row)).map (negated ^^ ·))⟩
  | .both a b => do
    let s ← ofExpr scope a
    let t ← ofExpr scope b
    pure ⟨none, none, fun binding row =>
      ofTruth (conjunction (truth? (s.value binding row)) (truth? (t.value binding row)))⟩

def ofCondition (scope : Scope) : Option Expr → Except DatabaseFault Term
  | none => .ok (constant (.integer 1))
  | some e => ofExpr scope e

/-- The term, as a condition, holds of the row. -/
def admits (t : Term) (binding : Binding) (row : List Value) : Bool :=
  truth? (t.value binding row) == some true

end Term

/-- A query whose names are looked up. -/
structure Plan where
  columns : List Heading
  /-- The name of the number that stands behind the cells of each row, if one does. -/
  numberLabel : Option String
  rows : Binding → Except DatabaseFault (List (List Value))

/-- One column of a result: over single rows, or the number of rows. -/
inductive Output where
  | term (t : Term)
  | count

/-- The column that an entry adds to the result, with its label. -/
structure Labelled where
  heading : Heading
  /-- The label was given. -/
  explicit : Bool
  output : Output

namespace Labelled

/-- All columns of a table. -/
def ofScope (scope : Scope) : List Labelled :=
  scope.columns.zipIdx.map fun (c, i) =>
    ⟨c, false, .term ⟨c.2, some c.1, fun _ row => row[i]?.getD .null⟩⟩

/-- The columns of the table, or of the entry alone. -/
def ofItem (scope : Option Scope) : Item → Except DatabaseFault (List Labelled)
  | .all =>
    match scope with
    | none => .error .noTables
    | some scope => .ok (ofScope scope)
  | .allOf table =>
    match scope.filter fun s => sameName s.table table with
    | none => .error (.noSuchTable table)
    | some scope => .ok (ofScope scope)
  | .count label source => .ok [⟨(label.getD source, none), label.isSome, .count⟩]
  | .value e label source => do
    let t ← Term.ofExpr (scope.getD .none) e
    pure [⟨(label.getD (t.column.getD source), t.affinity), label.isSome, .term t⟩]

/-- The values of the columns for one row, and for a number of rows where they are counted. -/
def row (outputs : List Labelled) (binding : Binding) (count : Nat) (cells : List Value) :
    List Value :=
  outputs.map fun l =>
    match l.output with
    | .term t => t.value binding cells
    | .count => .integer count

def isCount (l : Labelled) : Bool :=
  match l.output with
  | .count => true
  | .term _ => false

/-- What the given labels stand for in the rest of the query; the number of rows only where
`counted` says what to make of it. -/
def meanings (counted : String → Except DatabaseFault Term) (outputs : List Labelled) :
    List (String × Except DatabaseFault Term) :=
  outputs.filterMap fun l =>
    if l.explicit then
      some (l.heading.1, match l.output with
        | .term t => .ok t
        | .count => counted l.heading.1)
    else none

end Labelled

/-- What rows are sorted by: a column of the result, or a term over the row. -/
inductive SortKey where
  | result (index : Nat)
  | term (t : Term)

namespace SortKey

/-- A number up to this size names a column of the result. -/
def maxPlace : Nat := 1 <<< 31 - 1

/-- The key at a place, from 1, among the terms. -/
def ofTerm (scope : Scope) (outputs : List Labelled) (place : Nat) (e : Expr) :
    Except DatabaseFault SortKey :=
  match e with
  | .literal (.integer n) =>
    if maxPlace < n.natAbs then (Term.ofExpr scope e).map term
    else if 1 ≤ n ∧ n ≤ outputs.length then .ok (result (n - 1).toNat)
    else .error (.orderRange place outputs.length)
  | .column none name _ =>
    match outputs.findIdx? fun l => l.explicit && sameName l.heading.1 name with
    | some i => .ok (result i)
    | none => (Term.ofExpr scope e).map term
  | e => (Term.ofExpr scope e).map term

def value (key : SortKey) (binding : Binding) (cells result : List Value) : Value :=
  match key with
  | .result i => result[i]?.getD .null
  | .term t => t.value binding cells

end SortKey

/-- `a` does not come behind `b`, where every key says whether it sorts downwards. -/
def precedes : List Bool → (a b : List Value) → Bool
  | down :: ds, x :: xs, y :: ys =>
    match if down then y.order x else x.order y with
    | .lt => true
    | .gt => false
    | .eq => precedes ds xs ys
  | _, _, _ => true

/-- The number of rows that a limit lets through; a negative one lets all through. -/
def bound (v : Value) : Except DatabaseFault (Option Nat) :=
  match v.coerce .numeric with
  | .integer n => .ok (if n < 0 then none else some n.toNat)
  | _ => .error .mismatch

/-- The rows with what is shown of each; one row with the number of rows where they are counted. -/
def shownRows (outputs : List Labelled) (binding : Binding) (kept : List (List Value)) :
    List (List Value × List Value) :=
  if outputs.any Labelled.isCount then
    [(kept.headD [], Labelled.row outputs binding kept.length (kept.headD []))]
  else kept.map fun cells => (cells, Labelled.row outputs binding 0 cells)

/-- What is shown of the rows, sorted by the keys. -/
def sortRows (keys : List (SortKey × Bool)) (binding : Binding)
    (shown : List (List Value × List Value)) : List (List Value) :=
  let keyed := shown.map fun (cells, result) =>
    (keys.map fun (key, _) => key.value binding cells result, result)
  (keyed.mergeSort fun a b => precedes (keys.map Prod.snd) a.1 b.1).map Prod.snd

/-- The rows of a selection from the given rows. -/
def selectRows (outputs : List Labelled) (condition : Term) (keys : List (SortKey × Bool))
    (limit : Option Term) (binding : Binding) (source : List (List Value)) :
    Except DatabaseFault (List (List Value)) := do
  let most ← match limit with
    | some t => bound (t.value binding [])
    | none => pure none
  let kept := source.filter (condition.admits binding)
  let results := sortRows keys binding (shownRows outputs binding kept)
  pure (match most with
    | some n => results.take n
    | none => results)

/-- Looks the columns up of a list of entries. -/
def outputsOf (scope : Option Scope) (items : List Item) : Except DatabaseFault (List Labelled) := do
  pure (← items.mapM (Labelled.ofItem scope)).flatten

namespace Plan

/-- The rows of a table as they are. -/
def ofTable (t : Table) : Plan where
  columns := t.columns.map fun c => (c.name, some c.affinity)
  numberLabel := some t.numberLabel
  rows _ := .ok (t.rows.map Row.cells)

/-- Queries by their names. What is wrong with one counts only if it is asked for. -/
abbrev Named := List (String × Except DatabaseFault Plan)

/-- The table or named query of the given name. -/
def source (db : Database) (named : Named) (name : String) : Except DatabaseFault Plan :=
  match named.find? fun d => sameName d.1 name with
  | some (_, plan) => plan
  | none =>
    match db.readable? name with
    | some t => .ok (ofTable t)
    | none => .error (.noSuchTable name)

def scope (name : String) (plan : Plan) : Scope := ⟨name, plan.columns, plan.numberLabel, []⟩

/-- The number of columns that an entry adds to a result. -/
def width (scope : Option Scope) (item : Item) : Except DatabaseFault Nat :=
  let ofScope (scope : Option Scope) (fault : DatabaseFault) : Except DatabaseFault Nat :=
    match scope with
    | some s => .ok s.columns.length
    | none => .error fault
  match item with
  | .all => ofScope scope .noTables
  | .allOf table => ofScope (scope.filter fun s => sameName s.table table) (.noSuchTable table)
  | _ => .ok 1

def ofSelect (db : Database) (named : Named) (s : Select) : Except DatabaseFault Plan := do
  let source ← s.source.mapM fun (name, label) => do
    let plan ← source db named name
    pure (scope (label.getD name) plan, plan)
  let scope := source.map Prod.fst
  let widths ← s.items.mapM (width scope)
  if maxColumns < widths.foldr (· + ·) 0 then throw (.tooManyColumns "in result set")
  let limit ← s.limit.mapM (Term.ofExpr .none)
  let outputs ← outputsOf scope s.items
  let named (counted : String → Except DatabaseFault Term) : Scope :=
    { scope.getD .none with labels := Labelled.meanings counted outputs }
  let condition ← Term.ofCondition (named fun label => .error (.aliasedAggregate label)) s.condition
  let keyScope := named fun _ => .ok (.constant .null)
  let keys ← s.order.zipIdx.mapM fun (term, i) => do
    pure (← SortKey.ofTerm keyScope outputs (i + 1) term.expr, term.descending)
  if maxColumns < keys.length then throw .tooManyOrders
  pure {
    columns := outputs.map Labelled.heading
    numberLabel := none
    rows := fun binding => do
      let rows ← match source with
        | some (_, plan) => plan.rows binding
        | none => pure [[]]
      selectRows outputs condition keys limit binding rows }

/-- The terms of rows. If every row but the first is constant, they are compared with the first in
their order; otherwise each is compared with the next, from the last on. -/
def termsOf : (rows : List (List Expr)) → Except DatabaseFault (List (List Term))
  | [] => .ok []
  | first :: rest => do
    if rest.all (·.all Expr.isConstant) then
      let terms ← first.mapM (Term.ofExpr .none)
      let more ← rest.mapM fun r => do
        if r.length != first.length then throw .unequalRows
        r.mapM (Term.ofExpr .none)
      pure (terms :: more)
    else
      let more ← termsOf rest
      let terms ← first.mapM (Term.ofExpr .none)
      if more.head?.any fun next => next.length != terms.length then throw .unequalRows
      pure (terms :: more)

/-- The rows of a list of expressions. -/
def ofRows (rows : List (List Expr)) : Except DatabaseFault Plan := do
  let terms ← termsOf rows
  pure {
    columns := (List.range (terms.headD []).length).map fun i =>
      ("column" ++ toString (i + 1), none)
    numberLabel := none
    rows := fun binding => .ok (terms.map fun r => r.map fun t => t.value binding []) }

/-- A name that differs from those given, by a colon and a count if need be. -/
def freshName (taken : List String) (name : String) : (fuel count : Nat) → String
  | 0, _ => name
  | fuel + 1, count =>
    let candidate := if count = 0 then name else name ++ ":" ++ toString count
    if taken.any (sameName candidate) then freshName taken name fuel (count + 1) else candidate

/-- The names of the columns of a named query: no two are the same, and a truth value is no name. -/
def distinctNames (taken : List String) : List Heading → List Heading
  | [] => []
  | (name, affinity) :: r =>
    let name :=
      if sameName name "true" || sameName name "false" then "column" ++ toString (taken.length + 1)
      else name
    let fresh := freshName taken name (taken.length + 1) 0
    (fresh, affinity) :: distinctNames (taken ++ [fresh]) r

mutual

def ofQuery (db : Database) (named : Named) : Query → Except DatabaseFault Plan
  | .select s => ofSelect db named s
  | .rows rows => ofRows rows
  | .named definitions body => ofQuery db (define db named definitions) body

/-- The named queries, each of which may use those before it, but not itself. -/
def define (db : Database) (named : Named) : List (String × Query) → Named
  | [] => named
  | (name, query) :: r =>
    let plan := (ofQuery db ((name, .error (.circularReference name)) :: named) query).map
      fun plan => { plan with columns := distinctNames [] plan.columns }
    define db ((name, plan) :: named) r

end

end Plan
end QueryTree.Database
