import QueryTree.Json.Ignored
import QueryTree.Text.Shown
/-!
# Reading values of a known shape

A `Shape` says what a value must look like. `Shape.parse` checks a text against it while reading, so
the first thing that is wrong is what gets reported. A record may be written as an object or as the
list of its fields; what it yields is the object with all fields in order, null for those left out.
-/

namespace QueryTree

inductive Json.Shape where
  | any
  | boolean
  | text
  | natural (name : String) (bound : Nat)
  | choice (names : List String)
  | optional (shape : Json.Shape)
  | list (shape : Json.Shape)
  /-- The flag of a field says that a list may end in front of it. -/
  | record (name : String) (fields : List (String × Bool × Json.Shape))

namespace Json

/-- How a message names a value of the wrong type. -/
def kind : Json → String
  | null => "null"
  | bool b => "boolean " ++ Cause.ticked (if b then "true" else "false")
  | int n => "integer " ++ Cause.ticked (String.ofList (integerText n))
  | double bits => "floating point " ++ Cause.ticked (String.ofList (Double.json bits))
  | string s => "string " ++ Text.shown s
  | array _ => "sequence"
  | object _ => "map"

/-- The fault of a value that is not of the expected type. It counts as found behind a plain value
and in front of a bracket. -/
def wrongType {α : Type} (expected : String) : Reader α := fun c =>
  match c.rest with
  | 91 :: _ => .error (c.fault (.wrongType (array []).kind expected))
  | 123 :: _ => .error (c.fault (.wrongType (object []).kind expected))
  | _ => do
    let (v, c) ← value 0 c
    throw (c.fault (.wrongType v.kind expected))

/-- Reads a quoted text, and calls anything else not of the type `expected`. -/
def quoted (expected : String) : Reader String := fun c =>
  let c := c.skipBlank
  match c.rest with
  | [] => .error (c.faultAhead .endInValue)
  | b :: _ => if b = 34 then stringText (c.drop 1) else wrongType expected c

def booleanReader : Reader Json := fun c =>
  let c := c.skipBlank
  match c.rest with
  | [] => .error (c.faultAhead .endInValue)
  | b :: _ => if b = 116 ∨ b = 102 then value 0 c else wrongType "a boolean" c

def naturalReader (name : String) (bound : Nat) : Reader Json := fun c =>
  let c := c.skipBlank
  match c.rest with
  | [] => .error (c.faultAhead .endInValue)
  | b :: _ =>
    if isDigit b ∨ b = 45 then do
      let (v, after) ← value 0 c
      match v with
      | int n =>
        if 0 ≤ n ∧ n ≤ bound then pure (v, after)
        else throw (after.fault (.wrongType v.kind name))
      | _ => throw (after.fault (.wrongType v.kind name))
    else wrongType name c

/-- One of the given names, behind its closing quote. -/
def oneOf (names : List String) (name : String) (c : Cursor) : Except Fault Json :=
  if name ∈ names then .ok (string name) else .error (c.fault (.unknownVariant name names))

/-- The first key of an object, from behind its bracket. -/
def choiceKey : Reader String := fun c => do
  let (more, c) ← moreMembers true c
  if more then stringText (c.drop 1) else throw (c.faultAhead .expectedValue)

/-- One of the given names, as a text or as the key of an object whose only value is null. -/
def choiceReader (names : List String) : (depth : Nat) → Reader Json := fun depth c =>
  let c := c.skipBlank
  match c.rest with
  | [] => .error (c.faultAhead .endInValue)
  | b :: _ =>
    if b = 34 then do
      let (name, c) ← stringText (c.drop 1)
      let v ← oneOf names name c
      pure (v, c)
    else if b = 123 then
      if depth = 0 then .error (c.faultAhead .tooDeep)
      else do
        let (name, c) ← choiceKey (c.drop 1)
        let v ← oneOf names name c
        let ((), c) ← colon c
        let c := c.skipBlank
        match c.rest with
        | [] => throw (c.faultAhead .endInValue)
        | b :: _ =>
          if b = 110 then
            let (_, c) ← value 0 c
            let c := c.skipBlank
            match c.rest with
            | [] => throw (c.fault .endInObject)
            | b :: _ => if b = 125 then pure (v, c.drop 1) else throw (c.fault .expectedValue)
          else wrongType "unit" c
    else .error (c.faultAhead .expectedValue)

/-- A reader for one field of a record. -/
structure FieldReader where
  name : String
  /-- A list may end in front of the field. -/
  elidable : Bool
  /-- An object may lack the field. -/
  optional : Bool
  read : Reader Json

/-- What a record expects, in the words of a message. -/
def structName (name : String) : String := "struct " ++ name

/-- The cursor behind the closing bracket of an object, if it comes next. -/
def pastBrace (c : Cursor) : Cursor :=
  let c := c.skipBlank
  if c.rest.head? = some 125 then c.drop 1 else c

/-- The member with the given key: a field is read once, anything else is passed over. -/
def fieldMember (fields : List FieldReader) (key : String) (found : List (String × Json)) :
    Reader (List (String × Json)) := fun c =>
  match fields.find? (·.name == key) with
  | some field => do
    if (Keyed.get? key found).isSome then throw ((pastBrace c).fault (.duplicateField key))
    let ((), c) ← colon c
    let (v, c) ← field.read c
    pure (found ++ [(key, v)], c)
  | none => do
    let ((), c) ← colon c
    let ((), c) ← ignored c
    pure (found, c)

/-- The fields in their order, from the members found. -/
def arrange (found : List (String × Json)) : List FieldReader → Except Cause (List (String × Json))
  | [] => .ok []
  | f :: fs =>
    match Keyed.get? f.name found with
    | some v => (arrange found fs).map ((f.name, v) :: ·)
    | none =>
      if f.optional then (arrange found fs).map ((f.name, null) :: ·)
      else .error (.missingField f.name)

/-- The fields of a record written as a list; `index` counts those read. -/
def listedFields (expected : String) : (index : Nat) → List FieldReader →
    Reader (List (String × Json))
  | _, [], c => .ok ([], c)
  | index, f :: fs, c => do
    let (more, c) ← moreItems (index == 0) c
    if more then
      let (v, c) ← f.read c
      let (vs, c) ← listedFields expected (index + 1) fs c
      pure ((f.name, v) :: vs, c)
    else if f.elidable then
      let (vs, c) ← listedFields expected (index + 1) fs c
      pure ((f.name, null) :: vs, c)
    else throw ((c.drop 1).fault (.wrongLength index expected))

/-- A record; there are no readers of its fields if no bracket may be opened. -/
def recordReader (name : String) (fields : Option (List FieldReader)) : Reader Json := fun c =>
  let c := c.skipBlank
  match c.rest, fields with
  | [], _ => .error (c.faultAhead .endInValue)
  | 91 :: _, none | 123 :: _, none => .error (c.faultAhead .tooDeep)
  | 91 :: _, some fields => do
    let expected := structName name ++ " with " ++ toString fields.length ++ " elements"
    let (members, c) ← listedFields expected 0 fields (c.drop 1)
    let ((), c) ← closeList c
    pure (object members, c)
  | 123 :: _, some fields => do
    let (found, c) ← memberLoop (fieldMember fields) true [] (c.drop 1)
    let c := c.drop 1
    match arrange found fields with
    | .ok members => pure (object members, c)
    | .error cause => throw (c.fault cause)
  | _, _ => wrongType (structName name) c

/-- A list; there is no reader of its items if no bracket may be opened. -/
def listReader (item : Option (Reader Json)) : Reader Json := fun c =>
  let c := c.skipBlank
  match c.rest, item with
  | [], _ => .error (c.faultAhead .endInValue)
  | 91 :: _, none => .error (c.faultAhead .tooDeep)
  | 91 :: _, some item => do
    let (items, c) ← itemLoop item true [] (c.drop 1)
    pure (array items, c.drop 1)
  | _, _ => wrongType "a sequence" c

/-- Null, or what `read` reads. -/
def optionalReader (read : Reader Json) : Reader Json := fun c =>
  let c := c.skipBlank
  if c.rest.head? = some 110 then value 0 c else read c

namespace Shape

def isOptional : Shape → Bool
  | optional _ => true
  | _ => false

mutual

def read : Shape → (depth : Nat) → Reader Json
  | any, depth => value depth
  | boolean, _ => booleanReader
  | text, _ => fun c => do let (s, c) ← quoted "a string" c; pure (string s, c)
  | natural name bound, _ => naturalReader name bound
  | choice names, depth => choiceReader names depth
  | optional shape, depth => optionalReader (shape.read depth)
  | list _, 0 => listReader none
  | list shape, depth + 1 => listReader (some (shape.read depth))
  | record name _, 0 => recordReader name none
  | record name fields, depth + 1 => recordReader name (some (fieldReaders fields depth))

def fieldReaders : List (String × Bool × Shape) → (depth : Nat) → List FieldReader
  | [], _ => []
  | (name, elidable, shape) :: r, depth =>
    ⟨name, elidable, shape.isOptional, shape.read depth⟩ :: fieldReaders r depth

end

def parse (shape : Shape) (input : List UInt8) : Except Fault Json :=
  parseWith (shape.read maxDepth) input

end Shape
end Json
end QueryTree
