/-!
# UTF-8

Encoding, strict decoding and decoding with replacement. A byte that cannot start or continue a
character is bad together with the well-formed start it breaks off; `decodeLossy` puts one
replacement character for each such run.
-/

namespace QueryTree.Utf8

def encode (s : List Char) : List UInt8 := s.flatMap String.utf8EncodeChar

def ofString (s : String) : List UInt8 := encode s.toList

/-- For a first byte of a longer character: the number of bytes that follow, the range allowed for
the first of them, and the bits the first byte contributes. -/
def lead? (b : UInt8) : Option (Nat × UInt8 × UInt8 × Nat) :=
  if b < 0xC2 then none
  else if b ≤ 0xDF then some (1, 0x80, 0xBF, b.toNat - 0xC0)
  else if b ≤ 0xEF then
    some (2, if b = 0xE0 then 0xA0 else 0x80, if b = 0xED then 0x9F else 0xBF, b.toNat - 0xE0)
  else if b ≤ 0xF4 then
    some (3, if b = 0xF0 then 0x90 else 0x80, if b = 0xF4 then 0x8F else 0xBF, b.toNat - 0xF0)
  else none

/-- Takes `n` continuation bytes, the first of them within `lo` and `hi`. -/
def trail : (n : Nat) → (lo hi : UInt8) → (acc : Nat) → List UInt8 → Option Nat × List UInt8
  | 0, _, _, acc, r => (some acc, r)
  | _ + 1, _, _, _, [] => (none, [])
  | n + 1, lo, hi, acc, b :: r =>
    if lo ≤ b ∧ b ≤ hi then trail n 0x80 0xBF (acc * 64 + (b.toNat - 0x80)) r else (none, b :: r)

/-- The character that `b` starts, if `r` completes it, and what is left. -/
def next (b : UInt8) (r : List UInt8) : Option Char × List UInt8 :=
  if b < 0x80 then (some (Char.ofNat b.toNat), r)
  else match lead? b with
    | none => (none, r)
    | some (n, lo, hi, acc) =>
      let (code, rest) := trail n lo hi acc r
      (code.map Char.ofNat, rest)

theorem length_trail_le (n : Nat) (lo hi : UInt8) (acc : Nat) (r : List UInt8) :
    (trail n lo hi acc r).2.length ≤ r.length := by
  fun_induction trail n lo hi acc r with
  | case3 n lo hi acc b r _ ih => exact Nat.le_succ_of_le ih
  | _ => exact Nat.le_refl _

theorem length_next_le (b : UInt8) (r : List UInt8) : (next b r).2.length ≤ r.length := by
  unfold next
  split
  · exact Nat.le_refl _
  · split
    · exact Nat.le_refl _
    · exact length_trail_le ..

def decode? : List UInt8 → Option (List Char)
  | [] => some []
  | b :: r =>
    match _h : next b r with
    | (some c, rest) => (decode? rest).map (c :: ·)
    | (none, _) => none
termination_by s => s.length
decreasing_by
  have shorter := length_next_le b r
  rw [_h] at shorter
  exact Nat.lt_succ_of_le shorter

def decodeLossy : List UInt8 → List Char
  | [] => []
  | b :: r => (next b r).1.getD '\uFFFD' :: decodeLossy (next b r).2
termination_by s => s.length
decreasing_by exact Nat.lt_succ_of_le (length_next_le b r)

/-- The bytes from the first bad one on. -/
def fromBad : List UInt8 → List UInt8
  | [] => []
  | b :: r =>
    match _h : next b r with
    | (some _, rest) => fromBad rest
    | (none, _) => b :: r
termination_by s => s.length
decreasing_by
  have shorter := length_next_le b r
  rw [_h] at shorter
  exact Nat.lt_succ_of_le shorter

def toString? (bytes : List UInt8) : Option String := (decode? bytes).map String.ofList

end QueryTree.Utf8
