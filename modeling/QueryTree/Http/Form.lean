import QueryTree.Text.Split
import QueryTree.Text.Utf8
/-!
# Form encoding

Queries are lists of pairs in form encoding: pairs are separated by `&`, name and value by the first
`=`. In a name or value a plus stands for a space and a percent sign with two hexadecimal digits for a
byte; everything that is not of this form stands for itself.
-/

namespace QueryTree.Form

def hexValue? (b : UInt8) : Option Nat :=
  if 48 ≤ b ∧ b ≤ 57 then some (b.toNat - 48)
  else if 65 ≤ b ∧ b ≤ 70 then some (b.toNat - 55)
  else if 97 ≤ b ∧ b ≤ 102 then some (b.toNat - 87)
  else none

/-- The byte that two hexadecimal digits stand for. -/
def escapedByte? (high low : UInt8) : Option UInt8 := do
  let h ← hexValue? high
  let l ← hexValue? low
  pure (UInt8.ofNat (16 * h + l))

/-- The bytes that a name or value stands for. -/
def unescape : List UInt8 → List UInt8
  | 37 :: high :: low :: r =>
    match escapedByte? high low with
    | some b => b :: unescape r
    | none => 37 :: unescape (high :: low :: r)
  | b :: r => (if b = 43 then 32 else b) :: unescape r
  | [] => []

def decode (s : List Char) : String := String.ofList (Utf8.decodeLossy (unescape (Utf8.encode s)))

/-- Name and value of a piece; one without `=` is a name. -/
def pairOf (piece : List Char) : String × String :=
  let value := match piece.dropWhile (· != '=') with
    | [] => []
    | _ :: value => value
  (decode (piece.takeWhile (· != '=')), decode value)

/-- The pairs of a query; empty pieces are passed over. -/
def parse (query : String) : List (String × String) :=
  ((Text.splitBy (· == '&') query.toList).filter (· ≠ [])).map pairOf

/-- The characters that stand for themselves when a pair is written. -/
def isPlain (b : UInt8) : Bool :=
  (48 ≤ b && b ≤ 57) || (65 ≤ b && b ≤ 90) || (97 ≤ b && b ≤ 122) ||
    b == 42 || b == 45 || b == 46 || b == 95

def hexDigit (n : Nat) : Char := if n < 10 then Char.ofNat (48 + n) else Char.ofNat (55 + n)

/-- A byte as a percent sign and two digits. -/
def percent (b : UInt8) : List Char := ['%', hexDigit (b.toNat / 16), hexDigit (b.toNat % 16)]

def escapeByte (b : UInt8) : List Char :=
  if b = 32 then ['+'] else if isPlain b then [Char.ofNat b.toNat] else percent b

def encode (s : String) : List Char := (Utf8.ofString s).flatMap escapeByte

/-- The query of a list of pairs. -/
def serialize (pairs : List (String × String)) : String :=
  String.ofList (Text.joinWith ['&'] (pairs.map fun (name, value) => encode name ++ '=' :: encode value))

end QueryTree.Form
