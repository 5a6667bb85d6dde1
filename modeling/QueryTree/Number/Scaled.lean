/-!
# Doubles from decimal parts

The double that a JSON number denotes is computed from a significand of at most 64 bits and a power
of ten by one multiplication or division, so it can differ from the nearest double in its last bits.
-/

namespace QueryTree.Double

def powerOfTen (n : Nat) : Float := Float.ofScientific 1 false n

/-- The double for `significand · 10 ^ exponent`; none if it would be infinite. -/
def scaled? (significand : Nat) (exponent : Int) : Option Float :=
  let f := Float.ofNat significand
  if 308 < exponent then
    if significand = 0 then some f else none
  else if 0 ≤ exponent then
    let g := f * powerOfTen exponent.toNat
    if g.isInf then none else some g
  else if -308 ≤ exponent then some (f / powerOfTen (-exponent).toNat)
  else if -616 ≤ exponent then some (f / powerOfTen 308 / powerOfTen (-exponent - 308).toNat)
  else some 0

/-- The bits of `f` under the given sign. -/
def signed (negative : Bool) (f : Float) : UInt64 := (if negative then -f else f).toBits

end QueryTree.Double
