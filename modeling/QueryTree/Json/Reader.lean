import QueryTree.Json.Lexeme
import QueryTree.Keyed
/-!
# Reading JSON values

`parse` reads one value and asks that nothing but blanks follow it. Brackets may be nested 127 deep.
Lists and objects are read by loops over a reader of their parts, so a reader of values is a plain
recursion on the depth that is left.
-/

namespace QueryTree.Json

variable {α : Type}

/-- The brackets that may be open at once. -/
def maxDepth : Nat := 127

/-- Whether another item of a list follows; `first` says that none has been read. -/
def moreItems (first : Bool) : Reader Bool := fun c =>
  let c := c.skipBlank
  match c.rest with
  | [] => .error (c.faultAhead .endInList)
  | b :: _ =>
    if b = 93 then .ok (false, c)
    else if first then .ok (true, c)
    else if b = 44 then
      let c := (c.drop 1).skipBlank
      match c.rest with
      | [] => .error (c.faultAhead .endInValue)
      | b :: _ => if b = 93 then .error (c.faultAhead .trailingComma) else .ok (true, c)
    else .error (c.faultAhead .expectedListEnd)

/-- Whether another member of an object follows; the cursor then stands at the quote of its key. -/
def moreMembers (first : Bool) : Reader Bool := fun c =>
  let c := c.skipBlank
  match c.rest with
  | [] => .error (c.faultAhead .endInObject)
  | b :: _ =>
    if b = 125 then .ok (false, c)
    else if first then
      if b = 34 then .ok (true, c) else .error (c.faultAhead .keyNotString)
    else if b = 44 then
      let c := (c.drop 1).skipBlank
      match c.rest with
      | [] => .error (c.faultAhead .endInValue)
      | b :: _ =>
        if b = 34 then .ok (true, c)
        else if b = 125 then .error (c.faultAhead .trailingComma)
        else .error (c.faultAhead .keyNotString)
    else .error (c.faultAhead .expectedObjectEnd)

/-- The closing bracket of a list. -/
def closeList : Reader Unit := fun c =>
  let c := c.skipBlank
  match c.rest with
  | [] => .error (c.faultAhead .endInList)
  | b :: _ =>
    if b = 93 then .ok ((), c.drop 1)
    else if b = 44 then
      let c := (c.drop 1).skipBlank
      if c.rest.head? = some 93 then .error (c.faultAhead .trailingComma)
      else .error (c.faultAhead .trailingCharacters)
    else .error (c.faultAhead .trailingCharacters)

/-- The colon behind a key. -/
def colon : Reader Unit := fun c =>
  let c := c.skipBlank
  match c.rest with
  | [] => .error (c.faultAhead .endInObject)
  | b :: _ => if b = 58 then .ok ((), c.drop 1) else .error (c.faultAhead .expectedColon)

/-- The items of a list up to its closing bracket, behind those already read (in reverse). -/
def itemLoop (item : Reader α) (first : Bool) (acc : List α) (c : Cursor) :
    Except Fault (List α × Cursor) :=
  match moreItems first c with
  | .error f => .error f
  | .ok (false, c') => .ok (acc.reverse, c')
  | .ok (true, c') =>
    match item c' with
    | .error f => .error f
    | .ok (x, after) =>
      if _h : c.advances after then itemLoop item false (x :: acc) after
      else .error (after.fault .expectedValue)
termination_by c.left
decreasing_by exact Cursor.left_lt_of_advances _h

/-- The members of an object up to its closing bracket; `member` reads what follows a key. -/
def memberLoop (member : String → α → Reader α) (first : Bool) (acc : α) (c : Cursor) :
    Except Fault (α × Cursor) :=
  match moreMembers first c with
  | .error f => .error f
  | .ok (false, c') => .ok (acc, c')
  | .ok (true, c') =>
    match (do let (key, c) ← stringText (c'.drop 1); member key acc c) with
    | .error f => .error f
    | .ok (acc, after) =>
      if _h : c.advances after then memberLoop member false acc after
      else .error (after.fault .expectedValue)
termination_by c.left
decreasing_by exact Cursor.left_lt_of_advances _h

/-- A value, where `inner` reads the values inside brackets, if brackets may still be opened. -/
def valueWith (inner : Option (Reader Json)) : Reader Json := fun c =>
  let c := c.skipBlank
  match c.rest with
  | [] => .error (c.faultAhead .endInValue)
  | b :: _ =>
    let next := c.drop 1
    match b.toNat, inner with
    | 110, _ => do let ((), c) ← word ['u', 'l', 'l'] next; pure (null, c)
    | 116, _ => do let ((), c) ← word ['r', 'u', 'e'] next; pure (bool true, c)
    | 102, _ => do let ((), c) ← word ['a', 'l', 's', 'e'] next; pure (bool false, c)
    | 45, _ => number true next
    | 34, _ => do let (s, c) ← stringText next; pure (string s, c)
    | 91, none | 123, none => .error (c.faultAhead .tooDeep)
    | 91, some inner => do
      let (items, c) ← itemLoop inner true [] next
      pure (array items, c.drop 1)
    | 123, some inner => do
      let (members, c) ← memberLoop (member inner) true [] next
      pure (object members, c.drop 1)
    | _, _ => if isDigit b then number false c else .error (c.faultAhead .expectedValue)
where
  member (inner : Reader Json) (key : String) (members : List (String × Json)) :
      Reader (List (String × Json)) := fun c => do
    let ((), c) ← colon c
    let (v, c) ← inner c
    pure (Keyed.put key v members, c)

/-- A value with at most `depth` brackets open at once. -/
def value : (depth : Nat) → Reader Json
  | 0 => valueWith none
  | depth + 1 => valueWith (some (value depth))

/-- A whole text: what `read` takes, with nothing but blanks behind it. -/
def parseWith (read : Reader α) (input : List UInt8) : Except Fault α := do
  let (v, c) ← read (Cursor.start input)
  let c := c.skipBlank
  if c.rest.isEmpty then pure v else throw (c.faultAhead .trailingCharacters)

def parse (input : List UInt8) : Except Fault Json := parseWith (value maxDepth) input

end QueryTree.Json
