import QueryTree.Number.Parse
import QueryTree.Params
import QueryTree.Text.Split
import QueryTree.Text.Utf8
/-!
# Values of the database

A cell holds nothing, a whole number of 64 bits, a double, a text or bytes. A column's affinity says
what a value is turned into when it is stored or compared there. Values are ordered: nothing, then
numbers by size, then texts, then bytes.
-/

namespace QueryTree

inductive Value where
  | null
  | integer (n : Int)
  | real (bits : UInt64)
  | text (s : String)
  | blob (bytes : List UInt8)
  deriving DecidableEq, Repr

inductive Affinity where
  | integer
  | text
  | blob
  | real
  | numeric
  deriving DecidableEq, Repr

namespace Affinity

/-- The affinity of a column of the given declared type. -/
def ofType (type : String) : Affinity :=
  let upper := type.toList.map Char.toUpper
  let has (part : String) := Text.hasPart part.toList upper
  if has "INT" then integer
  else if has "CHAR" || has "CLOB" || has "TEXT" then text
  else if has "BLOB" || type = "" then blob
  else if has "REAL" || has "FLOA" || has "DOUB" then real
  else numeric

/-- Values of other types are turned into numbers. -/
def isNumeric : Affinity → Bool
  | integer | real | numeric => true
  | _ => false

end Affinity

namespace Value

def minInteger : Int := -(1 <<< 63 : Nat)

def maxInteger : Int := (1 <<< 63 : Nat) - 1

def ofBind : BindValue → Value
  | .null => null
  | .bool b => integer (if b then 1 else 0)
  | .int n => integer n
  | .real bits => real bits
  | .text s => text s

/-- The JSON value of a cell. Bytes are read as text; what is not a finite number is null. -/
def toJson : Value → Json
  | null => .null
  | integer n => .int n
  | real bits => if Double.isFinite bits then .double bits else .null
  | text s => .string s
  | blob bytes => .string (String.ofList (Utf8.decodeLossy bytes))

/-! ### Order -/

/-- A double as `n · 2 ^ q`. -/
def dyadic (bits : UInt64) : Int × Int :=
  let v := Magnitude.ofBits bits
  (if Double.isNegative bits then -v.mantissa else v.mantissa, v.exponent)

/-- The order of `a · 2 ^ p` and `b · 2 ^ q`. -/
def compareDyadic (a p b q : Int) : Ordering :=
  compare (a <<< (p - q).toNat) (b <<< (q - p).toNat)

def compareBytes : List UInt8 → List UInt8 → Ordering
  | [], [] => .eq
  | [], _ :: _ => .lt
  | _ :: _, [] => .gt
  | b :: bs, c :: cs => (compare b.toNat c.toNat).then (compareBytes bs cs)

/-- The place of a value's kind in the order of values. -/
def rank : Value → Nat
  | null => 0
  | integer _ | real _ => 1
  | text _ => 2
  | blob _ => 3

def order : Value → Value → Ordering
  | integer a, integer b => compare a b
  | integer a, real b => let (n, q) := dyadic b; compareDyadic a 0 n q
  | real a, integer b => let (n, q) := dyadic a; compareDyadic n q b 0
  | real a, real b => let (m, p) := dyadic a; let (n, q) := dyadic b; compareDyadic m p n q
  | text a, text b => compareOfLessAndEq a b
  | blob a, blob b => compareBytes a b
  | a, b => compare a.rank b.rank

/-- Equality of two values; it is unknown if one is missing. -/
def equal? (a b : Value) : Option Bool :=
  if a = null ∨ b = null then none else some (order a b = .eq)

/-! ### Affinity -/

def isSpace (c : Char) : Bool := c == ' ' || (9 ≤ c.toNat && c.toNat ≤ 13)

/-- A double as a whole number, if it is one well within 64 bits. -/
def wholeOf? (bits : UInt64) : Option Int :=
  let (n, q) := dyadic bits
  let whole : Option Int :=
    if 0 ≤ q then (if q < 64 then some (n <<< q.toNat) else none)
    else
      let w := n >>> (-q).toNat
      if w <<< (-q).toNat = n then some w else none
  whole.filter fun w => minInteger < w && w < maxInteger

/-- A text that is a number, blanks around it apart. -/
def numberOfText? (s : String) : Option Value := do
  let s := s.toList.dropWhile isSpace
  let (negative, digits) := match s with
    | '-' :: r => (true, r)
    | '+' :: r => (false, r)
    | r => (false, r)
  let (n, rest) ← Numeral.ofChars? digits
  if !rest.all isSpace then none
  let near := real (n.bits ||| if negative then 0x8000000000000000 else 0)
  match n.whole? with
  | some d =>
    let signed : Int := if negative then -d else d
    if minInteger ≤ signed ∧ signed ≤ maxInteger then pure (integer signed) else pure near
  | none => pure near

/-- A number as the whole number that it is, if it is one. -/
def narrow : Value → Value
  | real bits => ((wholeOf? bits).map integer).getD (real bits)
  | v => v

/-- The text of a number. -/
def realText (bits : UInt64) : String :=
  if Double.isFinite bits then String.ofList (Double.column bits)
  else if Double.isNegative bits then "-Inf" else "Inf"

/-- A value as text, if there is one. -/
def asText? : Value → Option String
  | null => none
  | integer n => some (String.ofList (Json.integerText n))
  | real bits => some (realText bits)
  | text s => some s
  | blob bytes => some (String.ofList (Utf8.decodeLossy bytes))

/-- A value as a column of the given affinity takes it. -/
def coerce (affinity : Affinity) (v : Value) : Value :=
  match affinity, v with
  | .text, integer n => text (String.ofList (Json.integerText n))
  | .text, real bits => text (realText bits)
  | .integer, text s | .numeric, text s => ((numberOfText? s).map narrow).getD v
  | .integer, real _ | .numeric, real _ => v.narrow
  | .real, text s =>
    match numberOfText? s with
    | some (integer n) => real (Float.ofInt n).toBits
    | some w => w
    | none => v
  | .real, integer n => real (Float.ofInt n).toBits
  | _, _ => v

/-- The sides of a comparison, each turned as the affinity of the other asks. -/
def adapt (left right : Option Affinity) (a b : Value) : Value × Value :=
  let turn (own other : Option Affinity) (v : Value) : Value :=
    if other.any Affinity.isNumeric && !own.any Affinity.isNumeric then v.coerce .numeric
    else if other = some .text && own.isNone then v.coerce .text
    else v
  (turn left right a, turn right left b)

/-! ### Patterns -/

/-- A text matches a pattern, in which `_` stands for any character, `%` for any text and a letter for
either case. -/
def matchesPattern : (pattern s : List Char) → Bool
  | [], s => s.isEmpty
  | '%' :: p, [] => matchesPattern p []
  | '%' :: p, c :: r => matchesPattern p (c :: r) || matchesPattern ('%' :: p) r
  | '_' :: p, _ :: r => matchesPattern p r
  | m :: p, c :: r => m.toLower == c.toLower && matchesPattern p r
  | _ :: _, [] => false
termination_by pattern s => pattern.length + s.length

/-- Whether a value, as text, matches a pattern; it is unknown if one is missing. -/
def like? (v pattern : Value) : Option Bool := do
  let s ← v.asText?
  let p ← pattern.asText?
  pure (matchesPattern p.toList s.toList)

end Value
end QueryTree
