import QueryTree.Database.Command
import QueryTree.Database.Token
import QueryTree.Keyed
import QueryTree.Text.Word
/-!
# From tokens to commands

A reader takes tokens from the front. The first token that no statement can have at its place is the
fault; a statement that could still go on at its end is incomplete, unless a semicolon ends it. What is
wrong with the meaning of the tokens read so far is a fault once the next token is taken.
-/

namespace QueryTree.Database

/-- The tokens that are left; `closed` says that a semicolon follows them. -/
structure Rest where
  tokens : List Token
  closed : Bool
  /-- What is wrong with the tokens already taken. -/
  pending : Option DatabaseFault
  /-- More steps than any reading of the tokens takes. -/
  steps : Nat

abbrev Reading := StateT Rest (Except DatabaseFault)

namespace Reading

/-- The fault of the next token standing where it stands. -/
def fault (rest : Rest) : DatabaseFault :=
  match rest.tokens with
  | t :: _ => if t.kind = .illegal then .unrecognized t.text else .syntaxError t.text
  | [] => if rest.closed then .syntaxError ";" else .incomplete

def unexpected {α : Type} : Reading α := do throw (fault (← get))

def peek : Reading (Option Token) := do return (← get).tokens.head?

def skip : Reading Unit := do
  let rest ← get
  if let some fault := rest.pending then throw fault
  set { rest with tokens := rest.tokens.drop 1 }

/-- Notes what is wrong with the tokens taken. -/
def suspend (fault : DatabaseFault) : Reading Unit :=
  modify fun rest => { rest with pending := some fault }

def suspendIf (wrong : Bool) (fault : DatabaseFault) : Reading Unit :=
  if wrong then suspend fault else pure ()

/-- A number of steps that no reading of the tokens exceeds. -/
def steps : Reading Nat := do return (← get).steps

/-! ### Words and names -/

/-- The words that are never names. -/
def reserved : List String :=
  ["add", "all", "alter", "and", "as", "autoincrement", "between", "case", "check", "collate",
    "commit", "constraint", "create", "default", "deferrable", "delete", "distinct", "drop", "else",
    "escape", "except", "exists", "foreign", "from", "group", "having", "in", "index", "insert",
    "intersect", "into", "is", "isnull", "join", "limit", "not", "nothing", "notnull", "null", "on",
    "or", "order", "primary", "references", "returning", "select", "set", "table", "then", "to",
    "transaction", "union", "unique", "update", "using", "values", "when", "where"]

/-- The words that name a join; they are names except where a column may be labelled without `AS`. -/
def joinWords : List String := ["cross", "full", "inner", "left", "natural", "outer", "right"]

def lower (s : String) : String := String.ofList (s.toList.map Char.toLower)

def isWord (word : String) (t : Token) : Bool := t.kind == .word && lower t.text == word

def isSymbol (symbol : String) (t : Token) : Bool := t.kind == .symbol && t.text == symbol

/-- The name that a token is. -/
def nameOf? (t : Token) : Option String :=
  match t.kind with
  | .word => if reserved.contains (lower t.text) then none else some t.text
  | .name content _ => some content
  | .string content => some content
  | _ => none

/-- The label that a token is where no `AS` announces it. -/
def labelOf? (t : Token) : Option String :=
  if t.kind == .word && joinWords.contains (lower t.text) then none else nameOf? t

/-- Takes the next token if it passes the test. -/
def accept (test : Token → Bool) : Reading Bool := do
  if (← peek).any test then skip; return true
  return false

def acceptWord (word : String) : Reading Bool := accept (isWord word)

def expect (test : Token → Bool) : Reading Unit := do
  if !(← accept test) then unexpected

def expectWord (word : String) : Reading Unit := expect (isWord word)

def expectSymbol (symbol : String) : Reading Unit := expect (isSymbol symbol)

def name : Reading String := do
  match (← peek).bind nameOf? with
  | some n => skip; return n
  | none => unexpected

/-- One or more of what `item` reads, with commas between them. -/
def list {α : Type} (item : Reading α) : (fuel : Nat) → Reading (List α)
  | 0 => unexpected
  | fuel + 1 => do
    let x ← item
    if ← accept (isSymbol ",") then return x :: (← list item fuel)
    else return [x]

/-- A list in parentheses. -/
def listed {α : Type} (item : Reading α) : Reading (List α) := do
  expectSymbol "("
  let xs ← list item (← steps)
  expectSymbol ")"
  return xs

/-! ### Expressions -/

def numberValue (n : Numeral) : Value :=
  match n.whole? with
  | some d => if (d : Int) ≤ Value.maxInteger then .integer d else .real n.bits
  | none => .real n.bits

/-- The value of a number behind a minus sign. -/
def negativeValue (n : Numeral) : Value :=
  let real := Value.real (n.bits ^^^ 0x8000000000000000)
  match n.whole? with
  | some d => if Value.minInteger ≤ -(d : Int) then .integer (-d) else real
  | none => real

/-- The value of a number in hexadecimal digits, whose 64 bits may be those of a negative number. -/
def hexValue (negative : Bool) (n : Nat) (text : String) : Expr :=
  let v := Int.bmod n (1 <<< 64)
  if 1 <<< 64 ≤ n ∨ (negative ∧ v = Value.minInteger) then
    .oversized ((if negative then "-" else "") ++
      String.ofList (Token.withoutSeparators text.toList))
  else .literal (.integer (if negative then -v else v))

/-- The numbers that a slot may have. -/
def maxSlot : Nat := 32766

/-- The mark of a place that only the database itself may name. -/
def isRegister : List Char → Bool
  | '#' :: c :: _ => c.isDigit
  | _ => false

/-- A number behind a sign, if it has one. -/
def number (negative : Bool) : Reading Expr := do
  match ← peek with
  | some t =>
    match t.kind with
    | .number n => skip; return .literal (if negative then negativeValue n else numberValue n)
    | .hex n => skip; return hexValue negative n t.text
    | .misread shown => skip; suspend (.unrecognized shown); return .literal .null
    | _ => unexpected
  | none => unexpected

/-- A name, or two with a dot between them. -/
def column (first : String) (loose : Bool) : Reading Expr := do
  if ← accept (isSymbol ".") then return .column (some first) (← name) false
  else return .column none first loose

/-- An expression without operators, where `inner` reads the ones in parentheses. -/
def operand (inner : Reading Expr) : Reading Expr := do
  match ← peek with
  | none => unexpected
  | some t =>
    match t.kind with
    | .number _ | .hex _ | .misread _ => number false
    | .string s => skip; return .literal (.text s)
    | .blob bytes => skip; return .literal (.blob bytes)
    | .slot mark n =>
      skip
      match mark with
      | .numbered _ => suspendIf (n == 0 || maxSlot < n) .slotRange
      | .named name =>
        if isRegister name.toList then suspend (.syntaxError name)
        else suspendIf (maxSlot < n) .tooManySlots
      | .next => suspendIf (maxSlot < n) .tooManySlots
      return .slot n
    | .name content double => skip; column content double
    | .word =>
      if isWord "null" t then skip; return .literal .null
      match nameOf? t with
      | some n => skip; column n false
      | none => unexpected
    | .symbol =>
      if isSymbol "(" t then
        skip
        let e ← inner
        expectSymbol ")"
        return e
      if isSymbol "-" t then skip; return (← number true)
      if isSymbol "+" t then skip; return (← number false)
      unexpected
    | .illegal => unexpected

/-- Two conditions together. What always fails leaves nothing of the other. -/
def conjunction (left right : Expr) : Expr :=
  let never := .literal (.integer 0)
  if left == never || right == never then never else .both left right

def isEquals (t : Token) : Bool := isSymbol "=" t || isSymbol "==" t

/-- What the operator that comes next, if one does, makes of its two sides. -/
abbrev Operator := Reading (Option (Expr → Expr → Expr))

/-- The sign of equality, or `LIKE` with or without `NOT`. -/
def comparison : Operator := do
  if ← accept isEquals then return some .equal
  else if ← acceptWord "like" then return some (.like false)
  else if ← acceptWord "not" then
    expectWord "like"
    return some (.like true)
  else return none

def connective : Operator := do
  if ← acceptWord "and" then return some conjunction else return none

/-- What `item` reads once or more, with operators between them, joined to the left. -/
def joined (operator : Operator) (item : Reading Expr) (left : Expr) : (fuel : Nat) → Reading Expr
  | 0 => return left
  | fuel + 1 => do
    match ← operator with
    | some join =>
      let e := join left (← item)
      suspendIf (Expr.maxDepth < e.depth) (.tooDeep Expr.maxDepth)
      joined operator item e fuel
    | none => return left

/-- An expression with at most `depth` parentheses open at once. -/
def exprWithin : (depth : Nat) → Reading Expr
  | 0 => unexpected
  | depth + 1 => do
    let inner := operand (exprWithin depth)
    let compared := do joined comparison inner (← inner) (← steps)
    joined connective compared (← compared) (← steps)

def expr : Reading Expr := do exprWithin (← steps)

/-! ### Queries -/

/-- The text from the tokens `start` to the tokens that are left, without the blanks at its ends. -/
def sourceBetween (start left : List Token) : String :=
  let chars := (start.take (start.length - left.length)).flatMap fun t =>
    t.text.toList ++ t.trail.toList
  String.ofList (((chars.dropWhile Value.isSpace).reverse.dropWhile Value.isSpace).reverse)

/-- The label of a column, with or without `AS`. -/
def label : Reading (Option String) := do
  if ← acceptWord "as" then return some (← name)
  match (← peek).bind labelOf? with
  | some n => skip; return some n
  | none => return none

/-- The table of which an entry like `t.*` asks all columns, if such an entry comes next. -/
def wholeTable? : Reading (Option String) := do
  match (← get).tokens with
  | t :: u :: v :: _ => return if isSymbol "." u && isSymbol "*" v then nameOf? t else none
  | _ => return none

/-- The words `COUNT(*)` come next. -/
def countFollows : Reading Bool := do
  match (← get).tokens with
  | t :: u :: v :: _ => return isWord "count" t && isSymbol "(" u && isSymbol "*" v
  | _ => return false

def item : Reading Item := do
  if ← accept (isSymbol "*") then return .all
  if let some table ← wholeTable? then
    skip; skip; skip
    return .allOf table
  let start := (← get).tokens
  if ← countFollows then
    skip; skip; skip
    expectSymbol ")"
    let source := sourceBetween start (← get).tokens
    return .count (← label) source
  let e ← expr
  let source := sourceBetween start (← get).tokens
  return .value e (← label) source

/-- What `read` reads behind `word`, if the word comes next. -/
def clause {α : Type} (word : String) (read : Reading α) : Reading (Option α) := do
  if ← acceptWord word then return some (← read) else return none

def condition : Reading (Option Expr) := clause "where" expr

def orderTerm : Reading OrderTerm := do
  let e ← expr
  if ← acceptWord "desc" then return ⟨e, true⟩
  let _ ← acceptWord "asc"
  return ⟨e, false⟩

def select : Reading Select := do
  expectWord "select"
  let items ← list item (← steps)
  let source ← clause "from" do return (← name, ← label)
  let condition ← condition
  let order ← clause "order" do
    expectWord "by"
    list orderTerm (← steps)
  let limit ← clause "limit" expr
  return { items, source, condition, order := order.getD [], limit }

/-- Rows behind the row `before`. A constant row shows at once that it has another number of values. -/
def moreRows (before : List Expr) : (fuel : Nat) → Reading (List (List Expr))
  | 0 => unexpected
  | fuel + 1 => do
    if ← accept (isSymbol ",") then
      let row ← listed expr
      let constant := before.all Expr.isConstant && row.all Expr.isConstant
      suspendIf (constant && row.length != before.length) .unequalRows
      return row :: (← moreRows row fuel)
    else return []

def rows : Reading (List (List Expr)) := do
  expectWord "values"
  let row ← listed expr
  return row :: (← moreRows row (← steps))

/-- Named queries behind those `before`, where `query` reads what a name stands for. -/
def definitionList (query : Reading Query) (before : List (String × Query)) :
    (fuel : Nat) → Reading (List (String × Query))
  | 0 => unexpected
  | fuel + 1 => do
    let n ← name
    expectWord "as"
    expectSymbol "("
    let q ← query
    expectSymbol ")"
    suspendIf (before.any fun d => lower d.1 == lower n) (.duplicateQuery n)
    let all := before ++ [(n, q)]
    if ← accept (isSymbol ",") then definitionList query all fuel else return all

/-- A query with at most `depth` queries inside one another. -/
def queryWithin : (depth : Nat) → Reading Query
  | 0 => unexpected
  | depth + 1 => do
    let next ← peek
    if next.any (isWord "values") then return .rows (← rows)
    if next.any (isWord "with") then
      skip
      let definitions ← definitionList (queryWithin depth) [] (← steps)
      return .named definitions (← queryWithin depth)
    return .select (← select)

/-! ### Tables -/

/-- The type of a column: names and, perhaps, numbers in parentheses. -/
def typeWords : (fuel : Nat) → Reading (List String)
  | 0 => return []
  | fuel + 1 => do
    match (← peek).bind labelOf? with
    | some n => skip; return n :: (← typeWords fuel)
    | none => return []

/-- The sign in front of a number, as it is shown. -/
def sign : Reading String := do
  if ← accept (isSymbol "-") then return "-"
  else if ← accept (isSymbol "+") then return "+"
  else return ""

/-- The number in a type's parentheses, with its sign. -/
def typeSize : Reading String := do
  let sign ← sign
  match ← peek with
  | some ⟨.number _, text, _⟩ | some ⟨.hex _, text, _⟩ => skip; return sign ++ text
  | _ => unexpected

def type : Reading String := do
  let words ← typeWords (← steps)
  let base := " ".intercalate words
  if !words.isEmpty && (← peek).any (isSymbol "(") then
    let sizes ← listed typeSize
    return base ++ "(" ++ ",".intercalate sizes ++ ")"
  return base

/-- What the columns of a table say counts: there are these columns in front, and the table has this
name. -/
structure Declaring where
  table : String
  before : List ColumnDecl

namespace Declaring

def repeats (d : Declaring) (name : String) : Bool :=
  d.before.any fun c => lower c.name == lower name

/-- What is wrong with a further primary key. -/
def keyFault? (d : Declaring) (c : ColumnDecl) (autoincrement : Bool) : Option DatabaseFault :=
  if c.primaryKey || d.before.any ColumnDecl.primaryKey then some (.twoPrimaryKeys d.table)
  else if autoincrement && lower c.type != "integer" then some .autoincrementMisused
  else none

end Declaring

/-- The column that a reference names; of several, only the first is kept. -/
def referredColumn (declaring : Option Declaring) (column written : String) :
    Reading (Option String) := do
  if (← peek).any (isSymbol "(") then
    let names ← listed name
    suspendIf (declaring.isSome && names.length != 1) (.manyReferenced column written)
    return names.head?
  return none

def constraints (declaring : Option Declaring) (c : ColumnDecl) : (fuel : Nat) → Reading ColumnDecl
  | 0 => return c
  | fuel + 1 => do
    if ← acceptWord "primary" then
      expectWord "key"
      let autoincrement ← acceptWord "autoincrement"
      if let some fault := declaring.bind (·.keyFault? c autoincrement) then suspend fault
      constraints declaring { c with primaryKey := true, autoincrement } fuel
    else if ← acceptWord "not" then
      expectWord "null"
      constraints declaring { c with notNull := true } fuel
    else if ← acceptWord "null" then constraints declaring c fuel
    else if ← acceptWord "unique" then constraints declaring { c with unique := true } fuel
    else if ← acceptWord "references" then
      let written := ((← peek).map Token.text).getD ""
      let parent ← name
      let key ← referredColumn declaring c.name written
      constraints declaring { c with reference := some (parent, key) } fuel
    else return c

def columnDecl (declaring : Option Declaring) : Reading ColumnDecl := do
  let n ← name
  let type ← type
  suspendIf (declaring.any (·.repeats n)) (.duplicateColumn n)
  if let some d := declaring then
    suspendIf (maxColumns ≤ d.before.length) (.tooManyColumns ("on " ++ d.table))
  constraints declaring ⟨n, type, false, false, false, false, none⟩ (← steps)

/-- Nothing is left. -/
def finished : Reading Unit := do
  let rest ← get
  if !rest.tokens.isEmpty then unexpected
  if let some fault := rest.pending then throw fault

/-- The columns of a table behind those in front; `declaring` is missing if what they say does not
count. -/
def columnList (declaring : Option Declaring) : (fuel : Nat) → Reading (List ColumnDecl)
  | 0 => unexpected
  | fuel + 1 => do
    let c ← columnDecl declaring
    if ← accept (isSymbol ",") then
      let next := declaring.map fun d => { d with before := d.before ++ [c] }
      return c :: (← columnList next fuel)
    else return [c]

/-- The columns of a table behind the opening parenthesis, to the end of the statement. -/
def columnDecls (table : String) (counts : Bool) : Reading (List ColumnDecl) := do
  let columns ← columnList (if counts then some ⟨table, []⟩ else none) (← steps)
  expectSymbol ")"
  finished
  return columns

/-- `IF EXISTS`, or `IF NOT EXISTS`, if the first word comes next. -/
def guard (negated : Bool) : Reading Bool := do
  if ← acceptWord "if" then
    if negated then expectWord "not"
    expectWord "exists"
    return true
  return false

/-- The word that makes a table temporary, if it comes next. -/
def temporary : Reading Bool := do
  if ← acceptWord "temp" then return true
  else acceptWord "temporary"

def createTable : Reading Command := do
  let temporary ← temporary
  expectWord "table"
  let guarded ← guard true
  let start := (← get).tokens
  let written := ((← peek).map Token.text).getD ""
  let n ← name
  expectSymbol "("
  let rest ← get
  set { rest with tokens := [] }
  return .createTable n written (sourceBetween start []) temporary guarded fun counts =>
    (columnDecls n counts rest).map Prod.fst

def dropTable : Reading Command := do
  expectWord "table"
  let guarded ← guard false
  return .dropTable (← name) guarded

/-! ### Rows -/

def insert : Reading Command := do
  expectWord "into"
  let table ← name
  let columns ← if (← peek).any (isSymbol "(") then some <$> listed name else pure none
  return .insert table columns (← rows)

def assignment : Reading (String × Expr) := do
  let n ← name
  expect isEquals
  return (n, ← expr)

def update : Reading Command := do
  let table ← name
  expectWord "set"
  let sets ← list assignment (← steps)
  let condition ← condition
  suspendIf (maxColumns < sets.length) (.tooManyColumns "in set list")
  return .update table sets condition

def delete : Reading Command := do
  expectWord "from"
  let table ← name
  return .delete table (← condition)

/-- What a setting is given: a name, a number with its sign or one of a few words. -/
def settingValue : Reading String := do
  let negative ← accept (isSymbol "-")
  let signed ← if negative then pure true else accept (isSymbol "+")
  match ← peek with
  | some t =>
    match t.kind with
    | .number _ => skip; return (if negative then "-" else "") ++ t.text
    | .hex n => skip; return (if negative then "-" else "") ++ toString n
    | _ =>
      if signed then unexpected
      if t.kind == .word && ["on", "delete", "default"].contains (lower t.text) then
        skip
        return t.text
      name
  | none => unexpected

/-- The value says yes: it is a small number other than zero or one of a few words. -/
def saysYes (value : String) : Bool :=
  let n := Numeral.ofDigits (value.toList.takeWhile Char.isDigit)
  ["on", "yes", "true"].contains (lower value) || (n < 1 <<< 31 && n % 256 != 0)

/-- What a setting is given, if it is given something. -/
def settingArgument : Reading (Option String) := do
  if ← accept (isSymbol "(") then
    let a ← settingValue
    expectSymbol ")"
    return some a
  else if ← accept (isSymbol "=") then some <$> settingValue
  else return none

def pragma : Reading Command := do
  let n ← name
  let argument ← settingArgument
  match lower n, argument with
  | "foreign_keys", none => return .foreignKeys
  | "foreign_keys", some value => return .enforceKeys (saysYes value)
  | "table_info", some table => return .tableInfo table
  | _, _ => return .setting

/-- One command, by its first word. -/
def anyCommand : Reading Command := do
  if ← acceptWord "create" then createTable
  else if ← acceptWord "drop" then dropTable
  else if ← acceptWord "insert" then insert
  else if ← acceptWord "update" then update
  else if ← acceptWord "delete" then delete
  else if ← acceptWord "pragma" then pragma
  else .query <$> (do queryWithin (← steps))

/-- One command, which takes all tokens. -/
def command : Reading Command := do
  let c ← anyCommand
  finished
  return c

end Reading

/-! ### Statements -/

/-- The tokens of the statements of a text; the flag says that a semicolon ends the statement. -/
def segments : List Token → List Rest
  | [] => []
  | t :: ts =>
    if Reading.isSymbol ";" t then ⟨[], true, none, 0⟩ :: segments ts
    else match segments ts with
      | [] => [⟨[t], false, none, 0⟩]
      | rest :: more => { rest with tokens := t :: rest.tokens } :: more

/-- The number of a slot behind slots up to `largest`, of which some have names. -/
def slotNumber (largest : Nat) (names : List (String × Nat)) : SlotMark → Nat
  | .next => largest + 1
  | .numbered n => n
  | .named name => (Keyed.get? name names).getD (largest + 1)

/-- The tokens with every slot numbered. -/
def numberSlots (largest : Nat) (names : List (String × Nat)) : List Token → List Token
  | [] => []
  | t :: ts =>
    match t.kind with
    | .slot mark _ =>
      let n := slotNumber largest names mark
      let names := match mark with
        | .named name => Keyed.put name n names
        | _ => names
      { t with kind := .slot mark n } :: numberSlots (max largest n) names ts
    | _ => t :: numberSlots largest names ts

/-- The argument that a slot asks for, if it does not just take the next one. -/
def SlotMark.target? : SlotMark → Option (Except DatabaseFault Nat)
  | .next => none
  | .numbered n => some (.ok n)
  | .named name =>
    match name.toList with
    | '$' :: r =>
      let digits := r.takeWhile Char.isDigit
      if digits = [] then some (.error (.slotNameNotNumber (String.ofList r)))
      else some (.ok (Numeral.ofDigits digits))
    | _ => some (.error (.slotName name))

/-- The slots of a statement whose slots are numbered. Of several ways to write one, the first that is
not just the next one counts. -/
def Slots.ofTokens (tokens : List Token) : Slots where
  count := tokens.foldl (fun largest t =>
    match t.kind with
    | .slot _ n => max largest n
    | _ => largest) 0
  targets := tokens.filterMap fun t =>
    match t.kind with
    | .slot mark n => mark.target?.map (n, ·)
    | _ => none

/-- A statement as it was read, with its slots. -/
structure Statement where
  command : Command
  slots : Slots

def Statement.read (rest : Rest) : Except DatabaseFault Statement := do
  let tokens := numberSlots 0 [] rest.tokens
  let (command, _) ← Reading.command { rest with tokens, steps := tokens.length + 1 }
  return ⟨command, .ofTokens tokens⟩

/-- The statements of a text that hold a token, not yet read. -/
def statementsOf (sql : String) : List Rest :=
  (segments (Token.scan sql.toList)).filter fun rest => !rest.tokens.isEmpty

end QueryTree.Database
