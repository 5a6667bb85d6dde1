import QueryTree.Json.Reader
/-!
# Passing over a value

The value of a member that nobody asks for is passed over with fewer checks than a value that is
read: any depth, any size of number and any surrogate will do, and a comma in front of a closing
bracket is answered as a missing value.
-/

namespace QueryTree.Json

inductive Bracket where
  | list
  | object
  deriving DecidableEq

namespace Bracket

def closing : Bracket → UInt8
  | list => 93
  | object => 125

def endFault : Bracket → Cause
  | list => .endInList
  | object => .endInObject

def commaFault : Bracket → Cause
  | list => .expectedListEnd
  | object => .expectedObjectEnd

end Bracket

def ignoredExponent : Reader Unit := fun c =>
  let c := match c.rest with
    | 43 :: _ | 45 :: _ => c.drop 1
    | _ => c
  match c.rest with
  | [] => .error (c.fault .invalidNumber)
  | b :: _ =>
    if isDigit b then .ok ((), c.skip isDigit) else .error ((c.drop 1).fault .invalidNumber)

/-- A number from its first digit on. -/
def ignoredNumber : Reader Unit := fun c =>
  match c.rest with
  | [] => .error (c.fault .invalidNumber)
  | b :: r =>
    if !isDigit b then .error ((c.drop 1).fault .invalidNumber)
    else if b = 48 ∧ (r.head?.any isDigit) then .error ((c.drop 1).faultAhead .invalidNumber)
    else
      let c := c.skip isDigit
      match c.rest with
      | 46 :: r =>
        let c := c.drop 1
        if r.head?.any isDigit then
          let c := c.skip isDigit
          match c.rest with
          | 101 :: _ | 69 :: _ => ignoredExponent (c.drop 1)
          | _ => .ok ((), c)
        else .error (c.faultAhead .invalidNumber)
      | 101 :: _ | 69 :: _ => ignoredExponent (c.drop 1)
      | _ => .ok ((), c)

def ignoredString : Reader Unit := fun c => do
  let (_, c) ← stringBytes false [] c
  pure ((), c)

/-- A value without brackets, or an opening bracket. -/
def ignoredStart : Reader (Option Bracket) := fun c =>
  let c := c.skipBlank
  match c.rest with
  | [] => .error (c.faultAhead .endInValue)
  | b :: _ =>
    let next := c.drop 1
    let plain (read : Reader Unit) (c : Cursor) : Except Fault (Option Bracket × Cursor) := do
      let ((), c) ← read c
      pure (none, c)
    match b.toNat with
    | 110 => plain (word ['u', 'l', 'l']) next
    | 116 => plain (word ['r', 'u', 'e']) next
    | 102 => plain (word ['a', 'l', 's', 'e']) next
    | 45 => plain ignoredNumber next
    | 34 => plain ignoredString next
    | 91 => .ok (some .list, next)
    | 123 => .ok (some .object, next)
    | _ => if isDigit b then plain ignoredNumber c else .error (c.faultAhead .expectedValue)

/-- The key of the next member with its colon; nothing inside a list. -/
def ignoredKey : Bracket → Reader Unit
  | .list, c => .ok ((), c)
  | .object, c =>
    let c := c.skipBlank
    match c.rest with
    | [] => .error (c.faultAhead .endInObject)
    | b :: _ =>
      if b = 34 then do
        let ((), c) ← ignoredString (c.drop 1)
        colon c
      else .error (c.faultAhead .keyNotString)

/-- Whether a further part follows inside the innermost bracket; closed brackets are dropped. -/
def ignoredEnd : (brackets : List Bracket) → (comma : Bool) → Reader (List Bracket)
  | [], _, c => .ok ([], c)
  | k :: ks, comma, c =>
    let c := c.skipBlank
    match c.rest with
    | [] => .error (c.faultAhead k.endFault)
    | b :: _ =>
      if b = k.closing then ignoredEnd ks true (c.drop 1)
      else if comma then
        if b = 44 then .ok (k :: ks, c.drop 1) else .error (c.faultAhead k.commaFault)
      else .ok (k :: ks, c)

def ignoredFrom : (fuel : Nat) → List Bracket → Reader Unit
  | 0, _, c => .error (c.fault .expectedValue)
  | fuel + 1, brackets, c => do
    let (opened, c) ← ignoredStart c
    let open' := opened.toList ++ brackets
    let (brackets, c) ← ignoredEnd open' opened.isNone c
    match brackets with
    | [] => pure ((), c)
    | k :: _ => do
      let ((), c) ← ignoredKey k c
      ignoredFrom fuel brackets c

/-- Any value; each round of `ignoredFrom` takes at least one byte. -/
def ignored : Reader Unit := fun c => ignoredFrom (c.left + 1) [] c

end QueryTree.Json
