import QueryTree.Json.Basic
import QueryTree.Json.Fault
import QueryTree.Number.Scaled
import QueryTree.Text.Utf8
/-!
# Words, numbers and strings of a JSON text

A `Cursor` is a place in the bytes of a text. Each reader takes one lexeme and returns its value with
the cursor behind it, or the first fault it meets. A loop over readers goes on as long as the cursor
moves forward.
-/

namespace QueryTree.Json

structure Cursor where
  /-- The number of bytes of the whole text. -/
  size : Nat
  offset : Nat
  rest : List UInt8

/-- Reads a value of type `α`. -/
abbrev Reader (α : Type) := Cursor → Except Fault (α × Cursor)

namespace Cursor

def start (input : List UInt8) : Cursor := ⟨input.length, 0, input⟩

/-- The number of bytes from the cursor on. -/
def left (c : Cursor) : Nat := c.size - c.offset

/-- `after` lies behind `c` in the same text. -/
def advances (c after : Cursor) : Bool :=
  c.offset < after.offset && after.offset ≤ after.size && after.size == c.size

theorem left_lt_of_advances {c after : Cursor} (h : c.advances after = true) :
    after.left < c.left := by
  simp only [advances, Bool.and_eq_true, decide_eq_true_eq, beq_iff_eq] at h
  simp only [left]
  omega

/-- A fault of what has been read so far. -/
def fault (c : Cursor) (cause : Cause) : Fault := ⟨cause, c.offset⟩

/-- A fault of the byte that comes next, if there is one. -/
def faultAhead (c : Cursor) (cause : Cause) : Fault := ⟨cause, c.offset + min 1 c.rest.length⟩

def drop (c : Cursor) (n : Nat) : Cursor := ⟨c.size, c.offset + n, c.rest.drop n⟩

def isBlank (b : UInt8) : Bool := b == 32 || b == 10 || b == 9 || b == 13

/-- Passes the bytes of class `p`. -/
def skip (p : UInt8 → Bool) (c : Cursor) : Cursor := go c.offset c.rest
where
  go (offset : Nat) : List UInt8 → Cursor
    | [] => ⟨c.size, offset, []⟩
    | b :: r => if p b then go (offset + 1) r else ⟨c.size, offset, b :: r⟩

def skipBlank (c : Cursor) : Cursor := c.skip isBlank

end Cursor

/-- The rest of a word whose first letter has been recognised. -/
def word : List Char → Reader Unit
  | [], c => .ok ((), c)
  | w :: ws, c =>
    match c.rest with
    | [] => .error (c.fault .endInValue)
    | b :: _ =>
      if b.toNat = w.toNat then word ws (c.drop 1) else .error ((c.drop 1).fault .expectedIdent)

/-! ### Numbers -/

def isDigit (b : UInt8) : Bool := 48 ≤ b && b ≤ 57

def digitValue (b : UInt8) : Nat := b.toNat - 48

/-- Appends digits to a significand as long as it fits 64 bits; also counts the digits taken. -/
def absorb (significand : Nat) : List UInt8 → Nat × Nat
  | [] => (significand, 0)
  | b :: r =>
    let larger := significand * 10 + digitValue b
    if larger < 1 <<< 64 then
      let (s, n) := absorb larger r
      (s, n + 1)
    else (significand, 0)

def finish (negative : Bool) (significand : Nat) (exponent : Int) : Reader Json := fun c =>
  match Double.scaled? significand exponent with
  | some f => .ok (double (Double.signed negative f), c)
  | none => .error (c.fault .numberOutOfRange)

/-- The greatest power that an exponent part can name. -/
def maxPower : Nat := 1 <<< 31 - 1

/-- The digits of an exponent part, up to the one with which the power grows too large. -/
def power (acc : Nat) (c : Cursor) : Option Nat × Cursor := go acc c.offset c.rest
where
  go (acc offset : Nat) : List UInt8 → Option Nat × Cursor
    | [] => (some acc, ⟨c.size, offset, []⟩)
    | b :: r =>
      if isDigit b then
        let larger := acc * 10 + digitValue b
        if larger ≤ maxPower then go larger (offset + 1) r else (none, ⟨c.size, offset + 1, r⟩)
      else (some acc, ⟨c.size, offset, b :: r⟩)

/-- The part of a number behind its `e`. -/
def exponentPart (negative : Bool) (significand : Nat) (exponent : Int) : Reader Json := fun c =>
  let (down, c) := match c.rest with
    | 43 :: _ => (false, c.drop 1)
    | 45 :: _ => (true, c.drop 1)
    | _ => (false, c)
  match c.rest with
  | [] => .error (c.fault .endInValue)
  | b :: _ =>
    if isDigit b then
      match power 0 c with
      | (some p, c) => finish negative significand (if down then exponent - p else exponent + p) c
      | (none, c) =>
        if significand ≠ 0 ∧ !down then .error (c.fault .numberOutOfRange)
        else .ok (double (Double.signed negative 0), c.skip isDigit)
    else .error ((c.drop 1).fault .invalidNumber)

/-- What may stand behind the digits of a number: an exponent part or nothing. -/
def afterDigits (negative : Bool) (significand : Nat) (exponent : Int) : Reader Json := fun c =>
  match c.rest with
  | 101 :: _ => exponentPart negative significand exponent (c.drop 1)
  | 69 :: _ => exponentPart negative significand exponent (c.drop 1)
  | _ => finish negative significand exponent c

/-- The digits behind the decimal point; those that no longer fit the significand are passed over. -/
def fractionPart (negative : Bool) (significand : Nat) (exponent : Int) : Reader Json := fun c =>
  match c.rest with
  | [] => .error (c.faultAhead .endInValue)
  | b :: _ =>
    if isDigit b then
      let (s, n) := absorb significand (c.rest.takeWhile isDigit)
      afterDigits negative s (exponent - n) (c.skip isDigit)
    else .error (c.faultAhead .invalidNumber)

/-- A number without fraction and exponent: exact if it fits 64 bits. Negative zero is a double. -/
def whole (negative : Bool) (n : Nat) : Json :=
  if negative then
    if n = 0 ∨ 1 <<< 63 < n then double (Double.signed true (Float.ofNat n)) else int (-n)
  else int n

/-- A number from its first digit on; `negative` says that a minus sign came before. -/
def number (negative : Bool) : Reader Json := fun c =>
  match c.rest with
  | [] => .error (c.fault .endInValue)
  | b :: r =>
    if !isDigit b then .error ((c.drop 1).fault .invalidNumber)
    else if b = 48 ∧ (r.head?.any isDigit) then .error ((c.drop 1).faultAhead .invalidNumber)
    else
      let ds := if b = 48 then [b] else c.rest.takeWhile isDigit
      let (s, n) := absorb 0 ds
      let dropped : Int := ds.length - n
      let c := if b = 48 then c.drop 1 else c.skip isDigit
      match c.rest with
      | 46 :: _ => fractionPart negative s dropped (c.drop 1)
      | 101 :: _ => exponentPart negative s dropped (c.drop 1)
      | 69 :: _ => exponentPart negative s dropped (c.drop 1)
      | _ => if dropped = 0 then .ok (whole negative s, c) else finish negative s dropped c

/-! ### Strings -/

def hexValue? (b : UInt8) : Option Nat :=
  let n := b.toNat
  if 48 ≤ n ∧ n ≤ 57 then some (n - 48)
  else if 65 ≤ n ∧ n ≤ 70 then some (n - 55)
  else if 97 ≤ n ∧ n ≤ 102 then some (n - 87)
  else none

/-- The four digits of a `\u` escape. -/
def hexEscape : Reader Nat := fun c =>
  match c.rest with
  | d₁ :: d₂ :: d₃ :: d₄ :: _ =>
    let value := do
      let a ← hexValue? d₁
      let b ← hexValue? d₂
      let e ← hexValue? d₃
      let f ← hexValue? d₄
      pure (a * 4096 + b * 256 + e * 16 + f)
    match value with
    | some n => .ok (n, c.drop 4)
    | none => .error ((c.drop 4).fault .invalidEscape)
  | _ => .error ((c.drop c.rest.length).fault .endInString)

/-- The given byte, as the next part of a surrogate pair. -/
def pairByte (byte : UInt8) : Reader Unit := fun c =>
  match c.rest with
  | [] => .error (c.fault .endInString)
  | b :: _ => if b = byte then .ok ((), c.drop 1) else .error ((c.drop 1).fault .brokenSurrogatePair)

/-- The code point of a `\u` escape; a leading surrogate needs its trailing one. -/
def codePoint : Reader Nat := fun c => do
  let (high, c) ← hexEscape c
  if 0xDC00 ≤ high ∧ high ≤ 0xDFFF then throw (c.fault .loneSurrogate)
  else if 0xD800 ≤ high ∧ high ≤ 0xDBFF then
    let ((), c) ← pairByte 92 c
    let ((), c) ← pairByte 117 c
    let (low, c) ← hexEscape c
    if 0xDC00 ≤ low ∧ low ≤ 0xDFFF then
      pure (0x10000 + (high - 0xD800) * 0x400 + (low - 0xDC00), c)
    else throw (c.fault .loneSurrogate)
  else pure (high, c)

/-- The character of an escape that is a single letter. -/
def simpleEscape? (b : UInt8) : Option Char :=
  match b.toNat with
  | 34 => some '"'
  | 92 => some '\\'
  | 47 => some '/'
  | 98 => some '\x08'
  | 102 => some '\x0c'
  | 110 => some '\n'
  | 114 => some '\r'
  | 116 => some '\t'
  | _ => none

/-- The characters of an escape, from behind its backslash; `paired` asks for whole surrogate pairs. -/
def escapeSequence (paired : Bool) : Reader (List Char) := fun c =>
  match c.rest with
  | [] => .error (c.fault .endInString)
  | b :: _ =>
    let c := c.drop 1
    match simpleEscape? b with
    | some e => .ok ([e], c)
    | none =>
      if b = 117 then
        if paired then (codePoint c).map fun (n, c) => ([Char.ofNat n], c)
        else (hexEscape c).map fun (_, c) => ([], c)
      else .error (c.fault .invalidEscape)

/-- The bytes that the next part of a string stands for: an escape or a byte as it is. A control
character counts as read only where pairs are asked for. -/
def stringPiece (paired : Bool) (b : UInt8) : Reader (List UInt8) := fun c =>
  let next := c.drop 1
  if b = 92 then (escapeSequence paired next).map fun (cs, after) => (Utf8.encode cs, after)
  else if b < 32 then .error ((if paired then next else c).fault .controlCharacter)
  else .ok ([b], next)

/-- The bytes of a string up to its closing quote, escapes resolved; `acc` are those in front, in
reverse. -/
def stringBytes (paired : Bool) (acc : List UInt8) (c : Cursor) :
    Except Fault (List UInt8 × Cursor) :=
  match c.rest with
  | [] => .error (c.fault .endInString)
  | b :: _ =>
    if b = 34 then .ok (acc.reverse, c.drop 1)
    else match stringPiece paired b c with
      | .error f => .error f
      | .ok (bytes, after) =>
        if _h : c.advances after then stringBytes paired (bytes.reverse ++ acc) after
        else .error (after.fault .endInString)
termination_by c.left
decreasing_by exact Cursor.left_lt_of_advances _h

/-- A string from behind its opening quote. If its bytes are not UTF-8, the fault's place is counted
back from the closing quote, one byte for each from the first bad one on. -/
def stringText : Reader String := fun c => do
  let (bytes, after) ← stringBytes true [] c
  match Utf8.toString? bytes with
  | some s => pure (s, after)
  | none => throw ⟨.invalidCodePoint, after.offset - (Utf8.fromBad bytes).length⟩

end QueryTree.Json
