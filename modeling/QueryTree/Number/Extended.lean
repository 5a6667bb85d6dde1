import QueryTree.Number.Decimal
/-!
# Extended precision

A number of extended precision is a whole number of at most 64 bits times a power of two. Decimal texts
are read and doubles are written by multiplying with rounded powers of ten, one rounding for each
factor, so a result can differ from the nearest one in its last digit.
-/

namespace QueryTree

/-- The number `significand · 2 ^ exponent`. -/
structure Extended where
  significand : Nat
  exponent : Int
  deriving DecidableEq, Repr

/-- `n / 2 ^ k` to the nearest whole number, a half to the even one. -/
def roundShift (n k : Nat) : Nat :=
  let q := n >>> k
  let r := n % 1 <<< k
  if 1 <<< k < 2 * r ∨ (1 <<< k = 2 * r ∧ q % 2 = 1) then q + 1 else q

namespace Extended

/-- `n · 2 ^ q`, rounded to 64 bits. -/
def round (n : Nat) (q : Int) : Extended :=
  let excess := n.log2 + 1 - 64
  ⟨roundShift n excess, q + excess⟩

/-- `1 / n`, rounded to 64 bits: two bits more and one that stands for the rest decide. -/
def reciprocal (n : Nat) : Extended :=
  let places := 66 + n.log2
  round (2 * (1 <<< places / n) + if 1 <<< places % n = 0 then 0 else 1) (-(places + 1 : Nat))

def powerOfTen : Int → Extended
  | .ofNat k => round (Nat.pow 10 k) 0
  | .negSucc k => reciprocal (Nat.pow 10 (k + 1))

def mul (x y : Extended) : Extended :=
  round (x.significand * y.significand) (x.exponent + y.exponent)

/-- `x` is less than `10 ^ k`, as far as that is known at 64 bits. -/
def below (x : Extended) (k : Int) : Bool :=
  let y := powerOfTen k
  decide (x.significand <<< (x.exponent - y.exponent).toNat <
    y.significand <<< (y.exponent - x.exponent).toNat)

def floor (x : Extended) : Nat :=
  x.significand <<< x.exponent.toNat >>> (-x.exponent).toNat

/-- `x · 10 ^ k`, by hundreds of powers, then by tens, then one by one. -/
def scale (x : Extended) (k : Int) : Extended :=
  let n := k.natAbs
  let step (size count : Nat) (x : Extended) : Extended :=
    Nat.repeat (·.mul (powerOfTen (if k < 0 then -size else size))) count x
  step 1 (n % 10) (step 10 (n % 100 / 10) (step 100 (n / 100) x))

/-- Multiplies by `10 ^ k` as long as the test holds; `shift` counts the powers. -/
def scaleWhile (test : Extended → Bool) (k : Int) : (fuel : Nat) → Extended × Int → Extended × Int
  | 0, x => x
  | fuel + 1, (x, shift) =>
    if test x then scaleWhile test k fuel (x.mul (powerOfTen k), shift + k) else (x, shift)

/-- The number brought between `10 ^ 17` and `10 ^ 19`, and the power that this takes. No more than a
few hundreds of powers are needed for a double. -/
def normalize (x : Extended) : Extended × Int :=
  let up (limit k : Int) := scaleWhile (fun x => x.below limit) k 12
  let down (limit k : Int) := scaleWhile (fun x => !x.below limit) (-k) 12
  if x.below 19 then up 17 1 (up 7 10 (up (-97) 100 (x, 0)))
  else down 19 1 (down 29 10 (down 119 100 (x, 0)))

/-- The first `n` digits: those behind the eighteenth or nineteenth are cut off, and then a half is
rounded up. -/
def decimal (n : Nat) (x : Extended) : Decimal :=
  let (y, shift) := x.normalize
  let v := y.floor
  let extra := (Nat.toDigits 10 v).length - n
  Magnitude.stripZeros (n + 2) ⟨(v + 5 * Nat.pow 10 (extra - 1)) / Nat.pow 10 extra, extra - shift⟩

end Extended

namespace Double

/-- The bits of the largest finite double. -/
def largest : UInt64 := 0x7FEFFFFFFFFFFFFF

def infinite : UInt64 := 0x7FF0000000000000

/-- The double nearest to `n · 2 ^ q`. Its bits count the doubles from zero on, so a significand that
is rounded up to the next power of two needs no care. -/
def ofDyadic (n : Nat) (q : Int) : UInt64 :=
  if n = 0 then 0
  else
    let grid : Int := max (q + n.log2 - 52) (-1074)
    let m := roundShift (n <<< (q - grid).toNat) (grid - q).toNat
    UInt64.ofNat (min ((grid + 1074).toNat <<< 52 + m) infinite.toNat)

/-- The double nearest to an extended number; beyond the largest one it is infinite. -/
def ofExtended (x : Extended) : UInt64 :=
  let bits := ofDyadic x.significand x.exponent
  let top := Magnitude.ofBits largest
  if top.mantissa <<< (top.exponent - x.exponent).toNat <
      x.significand <<< (x.exponent - top.exponent).toNat then infinite
  else bits

/-- The text of a finite double in a text column: fifteen digits, positional from 1e-4 up to 1e15. -/
def column (bits : UInt64) : List Char :=
  let v := Magnitude.ofBits bits
  if v.mantissa = 0 then "0.0".toList
  else
    let d := (Extended.mk v.mantissa v.exponent).decimal 15
    let p := d.pointPlace
    sign bits ++
      if -4 < p ∧ p ≤ 15 then d.positional ".0".toList else d.scientific ".0".toList ['+'] 2

end Double
end QueryTree
