import QueryTree.Number.Decimal
/-!
# JSON values and their compact text

An object keeps its members in the order in which their keys first appeared. Whole numbers that fit
64 bits, signed or unsigned, are exact; every other number is a double, held as its bits.
-/

namespace QueryTree

inductive Json where
  | null
  | bool (value : Bool)
  | int (value : Int)
  | double (bits : UInt64)
  | string (value : String)
  | array (items : List Json)
  | object (members : List (String × Json))
  deriving BEq, Repr, Inhabited

namespace Json

def hexDigit (n : Nat) : Char := (Nat.toDigits 16 n).headD '0'

/-- The text of a character inside quotes: only the quote, the backslash and control characters are
escaped. -/
def escape (c : Char) : List Char :=
  if c = '"' then ['\\', '"']
  else if c = '\\' then ['\\', '\\']
  else if c = '\n' then ['\\', 'n']
  else if c = '\r' then ['\\', 'r']
  else if c = '\t' then ['\\', 't']
  else if c = '\x08' then ['\\', 'b']
  else if c = '\x0c' then ['\\', 'f']
  else if c.toNat < 0x20 then
    ['\\', 'u', '0', '0', hexDigit (c.toNat / 16), hexDigit (c.toNat % 16)]
  else [c]

def quote (s : String) : List Char := '"' :: s.toList.flatMap escape ++ ['"']

def integerText : Int → List Char
  | .ofNat n => Nat.toDigits 10 n
  | .negSucc n => '-' :: Nat.toDigits 10 (n + 1)

mutual

/-- The text of a value, without any blank between its tokens. -/
def chars : Json → List Char
  | null => "null".toList
  | bool b => if b then "true".toList else "false".toList
  | int n => integerText n
  | double bits => Double.json bits
  | string s => quote s
  | array [] => ['[', ']']
  | array (x :: xs) => '[' :: x.chars ++ itemChars xs ++ [']']
  | object [] => ['\x7b', '\x7d']
  | object ((k, v) :: ms) => '\x7b' :: quote k ++ ':' :: v.chars ++ memberChars ms ++ ['\x7d']

/-- The items behind the first one, each after a comma. -/
def itemChars : List Json → List Char
  | [] => []
  | x :: xs => ',' :: x.chars ++ itemChars xs

/-- The members behind the first one, each after a comma. -/
def memberChars : List (String × Json) → List Char
  | [] => []
  | (k, v) :: ms => ',' :: quote k ++ ':' :: v.chars ++ memberChars ms

end

def text (v : Json) : String := String.ofList v.chars

def string? : Json → Option String
  | string s => some s
  | _ => none

def isString (v : Json) : Bool := v.string?.isSome

def ofNat (n : Nat) : Json := int n

def strings (items : List String) : Json := array (items.map string)

/-- A value that may be absent, with null for its absence. -/
def nullable (s : Option String) : Json := (s.map string).getD null

end Json
end QueryTree
