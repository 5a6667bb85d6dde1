/-!
# Decimal digits of a double

A finite double is `m · 2 ^ q`. `shortest` gives the fewest decimal digits that read back as the
same double and, of those, the nearest, in exact natural arithmetic on the bits. `positional` and
`scientific` lay digits out as text.
-/

namespace QueryTree

/-- The number `digits · 10 ^ exponent`. -/
structure Decimal where
  digits : Nat
  exponent : Int
  deriving DecidableEq, Repr

/-- The magnitude of a double, `mantissa · 2 ^ exponent`; `edge` says that the next smaller double is
only half as far away as the next larger one. -/
structure Magnitude where
  mantissa : Nat
  exponent : Int
  edge : Bool

namespace Magnitude

/-- The magnitude in the lower 63 bits of a finite double. -/
def ofBits (bits : UInt64) : Magnitude :=
  let fraction := bits.toNat % 1 <<< 52
  let scale := bits.toNat >>> 52 % 1 <<< 11
  if scale = 0 then ⟨fraction, -1074, false⟩
  else ⟨1 <<< 52 + fraction, Int.ofNat scale - 1075, fraction = 0 && 1 < scale⟩

/-- `n · 2 ^ q / 10 ^ k` as numerator and denominator. -/
def onGrid (n : Nat) (q k : Int) : Nat × Nat :=
  (n <<< q.toNat * Nat.pow 10 (-k).toNat, 1 <<< (-q).toNat * Nat.pow 10 k.toNat)

/-- The place of the decimal point in front of the digits: `10 ^ (p - 1) ≤ m · 2 ^ q < 10 ^ p`. -/
def point (v : Magnitude) : Int :=
  let (num, den) := onGrid v.mantissa v.exponent 0
  let guess : Int := ((Nat.toDigits 10 num).length : Int) - (Nat.toDigits 10 den).length
  let (num, den) := onGrid v.mantissa v.exponent guess
  if den ≤ num then guess + 1 else guess

/-- The point `c · 10 ^ k` lies among the reals that round to `v`. -/
def readsBack (v : Magnitude) (k : Int) (c : Nat) : Bool :=
  let (low, den) := onGrid (4 * v.mantissa - if v.edge then 1 else 2) (v.exponent - 2) k
  let (high, _) := onGrid (4 * v.mantissa + 2) (v.exponent - 2) k
  if v.mantissa % 2 = 0 then low ≤ c * den && c * den ≤ high
  else low < c * den && c * den < high

/-- The nearest point of the grid `10 ^ k` that reads back, if one does. -/
def hit? (v : Magnitude) (k : Int) : Option Nat :=
  let (num, den) := onGrid v.mantissa v.exponent k
  let below := num / den
  match v.readsBack k below, v.readsBack k (below + 1) with
  | true, true => some (if 2 * (num % den) ≤ den then below else below + 1)
  | true, false => some below
  | false, true => some (below + 1)
  | false, false => none

/-- Drops the zeros at the end of the digits. -/
def stripZeros : (fuel : Nat) → Decimal → Decimal
  | 0, d => d
  | fuel + 1, d =>
    if d.digits ≠ 0 ∧ d.digits % 10 = 0 then stripZeros fuel ⟨d.digits / 10, d.exponent + 1⟩ else d

/-- Seventeen digits always read back, so the search ends there. -/
def shortest (v : Magnitude) : Decimal :=
  if v.mantissa = 0 then ⟨0, 0⟩
  else
    let p := v.point
    let found := (List.range 17).findSome? fun n =>
      let k := p - Int.ofNat (n + 1)
      (v.hit? k).map (Decimal.mk · k)
    stripZeros 20 (found.getD ⟨0, 0⟩)

end Magnitude

namespace Decimal

def digitChars (d : Decimal) : List Char := Nat.toDigits 10 d.digits

/-- The number of digits in front of the decimal point; zero or less if the first digit stands
behind it. -/
def pointPlace (d : Decimal) : Int := d.digitChars.length + d.exponent

/-- Digits around a point, without exponent; a whole number ends in `whole`. -/
def positional (whole : List Char) (d : Decimal) : List Char :=
  let ds := d.digitChars
  let p := d.pointPlace
  if p ≤ 0 then '0' :: '.' :: (List.replicate (-p).toNat '0' ++ ds)
  else if 0 ≤ d.exponent then ds ++ List.replicate d.exponent.toNat '0' ++ whole
  else ds.take p.toNat ++ '.' :: ds.drop p.toNat

/-- One digit in front of the point, then `e` and the power; `lone` follows a single digit, `plus`
marks a power that is not negative. -/
def scientific (lone plus : List Char) (width : Nat) (d : Decimal) : List Char :=
  let power := d.pointPlace - 1
  let digits := Nat.toDigits 10 power.natAbs
  let mark := if power < 0 then ['-'] else plus
  let head := match d.digitChars with
    | [] => []
    | [c] => c :: lone
    | c :: r => c :: '.' :: r
  head ++ 'e' :: mark ++ List.replicate (width - digits.length) '0' ++ digits

end Decimal

namespace Double

def isNegative (bits : UInt64) : Bool := 1 <<< 63 ≤ bits.toNat

def isFinite (bits : UInt64) : Bool := bits.toNat >>> 52 % 1 <<< 11 != 2047

def sign (bits : UInt64) : List Char := if isNegative bits then ['-'] else []

/-- The text of a finite double without exponent: `100` for 1e2, `-0` for negative zero. -/
def plain (bits : UInt64) : List Char :=
  sign bits ++ (Magnitude.ofBits bits).shortest.positional []

/-- The text of a finite double in JSON: positional from 1e-5 up to 1e16, always with a point or an
exponent. -/
def json (bits : UInt64) : List Char :=
  let d := (Magnitude.ofBits bits).shortest
  let p := d.pointPlace
  sign bits ++ if -5 < p ∧ p ≤ 16 then d.positional ".0".toList else d.scientific [] ['+'] 0

end Double
end QueryTree
