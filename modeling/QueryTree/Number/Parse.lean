import QueryTree.Number.Extended
/-!
# Numbers in SQL texts

A number is digits with an optional fraction and an optional power of ten. Digits count as long as
they fit 64 bits; the others only move the point. `Numeral.bits` is the number as a double.
-/

namespace QueryTree

/-- The number `digits · 10 ^ exponent`; `whole` says that it was written without point and power. -/
structure Numeral where
  digits : Nat
  exponent : Int
  whole : Bool
  deriving DecidableEq, Repr

namespace Numeral

def digitValue (c : Char) : Nat := c.toNat - 48

def ofDigits (s : List Char) : Nat := s.foldl (fun n c => n * 10 + digitValue c) 0

/-- Digits stop counting with the first number of this size or more. -/
def enough : Nat := (1 <<< 64 - 10) / 10

/-- The number of the digits that count, behind those that make `n`, and how many do not. -/
def significant (n : Nat) : List Char → Nat × Nat
  | [] => (n, 0)
  | c :: r => if n < enough then significant (n * 10 + digitValue c) r else (n, (c :: r).length)

/-- A power is not followed far beyond what any double needs. -/
def powerOf (s : List Char) : Nat :=
  s.foldl (fun n c => if n < 10000 then n * 10 + digitValue c else 10000) 0

/-- The power behind an `e` at the front of the text, and what follows it. -/
def power? : List Char → Option (Int × List Char)
  | e :: r =>
    if e = 'e' ∨ e = 'E' then
      let (negative, r) := match r with
        | '-' :: r => (true, r)
        | '+' :: r => (false, r)
        | r => (false, r)
      let digits := r.takeWhile Char.isDigit
      if digits = [] then none
      else
        let n : Int := powerOf digits
        some (if negative then -n else n, r.dropWhile Char.isDigit)
    else none
  | [] => none

/-- The unsigned number at the front of the text, and what follows it. -/
def ofChars? (s : List Char) : Option (Numeral × List Char) :=
  let before := s.takeWhile Char.isDigit
  let (after, rest, point) := match s.dropWhile Char.isDigit with
    | '.' :: r => (r.takeWhile Char.isDigit, r.dropWhile Char.isDigit, true)
    | r => ([], r, false)
  if before = [] ∧ after = [] then none
  else
    let (digits, dropped) := significant 0 (before ++ after)
    let exponent : Int := (dropped : Int) - after.length
    match power? rest with
    | some (p, rest) => some (⟨digits, p + exponent, false⟩, rest)
    | none => some (⟨digits, exponent, !point⟩, rest)

/-- The whole number that the digits were, if they all count. -/
def whole? (n : Numeral) : Option Nat := if n.whole ∧ n.exponent = 0 then some n.digits else none

/-- Takes powers of ten into the digits as long as they fit. -/
def raise : (fuel : Nat) → Nat → Int → Nat × Int
  | 0, d, e => (d, e)
  | fuel + 1, d, e =>
    if 0 < e ∧ d < (1 <<< 64 - 2048) / 10 then raise fuel (d * 10) (e - 1) else (d, e)

/-- Moves zeros at the end of the digits into the power, as long as it is negative. -/
def lower : (fuel : Nat) → Nat → Int → Nat × Int
  | 0, d, e => (d, e)
  | fuel + 1, d, e => if e < 0 ∧ d % 10 = 0 then lower fuel (d / 10) (e + 1) else (d, e)

/-- The number as a double; beyond all doubles it is infinite. -/
def bits (n : Numeral) : UInt64 :=
  if n.digits = 0 then 0
  else
    let (d, e) := raise 20 n.digits n.exponent
    let (d, e) := lower 20 d e
    if e = 0 then Double.ofDyadic d 0
    else if 400 < e then Double.infinite
    else if e < -400 then 0
    else Double.ofExtended ((Extended.mk d 0).scale e)

end Numeral
end QueryTree
