import QueryTree.Number.Parse
import QueryTree.Text.Utf8
/-!
# Tokens of a statement

A token keeps its own text and the blanks and comments behind it, so the text of an expression can be
read off its tokens.
-/

namespace QueryTree.Database

/-- How a slot says what it stands for. -/
inductive SlotMark where
  /-- The next argument. -/
  | next
  | numbered (n : Nat)
  /-- A name with the sign in front of it. -/
  | named (text : String)
  deriving DecidableEq, Repr

inductive TokenKind where
  /-- A keyword or a bare name. -/
  | word
  /-- A name in quotes or brackets; one in double quotes may stand for a text. -/
  | name (content : String) (double : Bool)
  | string (content : String)
  | number (value : Numeral)
  /-- A whole number in hexadecimal digits. -/
  | hex (value : Nat)
  /-- A number with a separator that does not stand between digits, as it is shown. -/
  | misread (shown : String)
  | blob (bytes : List UInt8)
  /-- A slot, and the number that it has in its statement once the slots are numbered. -/
  | slot (mark : SlotMark) (number : Nat)
  | symbol
  | illegal
  deriving DecidableEq, Repr

structure Token where
  kind : TokenKind
  text : String
  /-- The blanks and comments between this token and the next. -/
  trail : String
  deriving DecidableEq, Repr

namespace Token

/-! ### Blanks and comments -/

inductive Gap where
  | blank
  /-- Behind a blank. -/
  | run
  | line
  | block
  deriving DecidableEq

def startsBlank (c : Char) : Bool :=
  c == ' ' || c == '\t' || c == '\n' || c == '\x0c' || c == '\r'

/-- What follows the blanks and comments at the front of the text, and how many characters these are
together with `n` before them. A vertical tab is blank only behind another blank, and a byte order mark
counts as one. -/
def afterGap : Gap → (n : Nat) → List Char → Nat × List Char
  | _, n, [] => (n, [])
  | .line, n, c :: r => if c = '\n' then afterGap .run (n + 1) r else afterGap .line (n + 1) r
  | .block, n, '*' :: '/' :: r => afterGap .blank (n + 2) r
  | .block, n, _ :: r => afterGap .block (n + 1) r
  | .run, n, '\x0b' :: r => afterGap .run (n + 1) r
  | _, n, '-' :: '-' :: r => afterGap .line (n + 2) r
  | _, n, '/' :: '*' :: c :: r => afterGap .block (n + 2) (c :: r)
  | _, n, c :: r =>
    if startsBlank c then afterGap .run (n + 1) r
    else if c = '\uFEFF' then afterGap .blank (n + 1) r
    else (n, c :: r)

theorem length_afterGap_le (gap : Gap) (n : Nat) (s : List Char) :
    (afterGap gap n s).2.length ≤ s.length := by
  fun_induction afterGap gap n s with
  | case1 | case11 => exact Nat.le_refl _
  | case4 | case7 | case8 => exact Nat.le_succ_of_le (Nat.le_succ_of_le ‹_›)
  | _ => exact Nat.le_succ_of_le ‹_›

/-! ### Lexemes -/

def isNameStart (c : Char) : Bool := c.isAlpha || c == '_' || 128 ≤ c.toNat

def isNamePart (c : Char) : Bool := c.isAlphanum || c == '_' || c == '$' || 128 ≤ c.toNat

/-- The content of a quoted text behind its opening quote, and the number of characters up to its
closing quote; there is no content if nothing closes it. -/
def quoted (q : Char) : List Char → Option (List Char) × Nat
  | [] => (none, 0)
  | c :: r =>
    if c = q then
      match r with
      | c' :: r' =>
        if c' = q then
          let (content, n) := quoted q r'
          (content.map (q :: ·), n + 2)
        else (some [], 1)
      | [] => (some [], 1)
    else
      let (content, n) := quoted q r
      (content.map (c :: ·), n + 1)

def hexDigit? (c : Char) : Option Nat :=
  if c.isDigit then some (c.toNat - 48)
  else if 'a' ≤ c ∧ c ≤ 'f' then some (c.toNat - 87)
  else if 'A' ≤ c ∧ c ≤ 'F' then some (c.toNat - 55)
  else none

def isHexDigit (c : Char) : Bool := (hexDigit? c).isSome

def hexByte? (high low : Char) : Option UInt8 := do
  let h ← hexDigit? high
  let l ← hexDigit? low
  pure (UInt8.ofNat (16 * h + l))

def hexBytes? : List Char → Option (List UInt8)
  | [] => some []
  | [_] => none
  | high :: low :: r => do
    let b ← hexByte? high low
    let bs ← hexBytes? r
    pure (b :: bs)

/-- The bytes behind `x'`, and the number of characters up to the closing quote. -/
def blobLexeme (r : List Char) : TokenKind × Nat :=
  let digits := r.takeWhile (· != '\'')
  match r.drop digits.length, hexBytes? digits with
  | _ :: _, some bytes => (.blob bytes, digits.length + 1)
  | _ :: _, none => (.illegal, digits.length + 1)
  | [], _ => (.illegal, digits.length)

/-- The characters behind the sign in front of a name that belong to the name, and whether they make
one. Two colons may stand in the name, and parentheses without blanks at its end; `inside` says that
something of the name has been read. -/
def variableLength (inside : Bool) : List Char → Bool × Nat
  | [] => (inside, 0)
  | c :: r =>
    if isNamePart c then
      let (whole, n) := variableLength true r
      (whole, n + 1)
    else if c = '(' ∧ inside then
      let inner := (r.takeWhile fun c => !isSpace c && c != ')').length
      if (r.drop inner).head? = some ')' then (true, inner + 2) else (false, inner + 1)
    else match c, r with
      | ':', ':' :: r =>
        let (whole, n) := variableLength inside r
        (whole, n + 2)
      | _, _ => (inside, 0)
where
  isSpace (c : Char) : Bool := c == ' ' || (9 ≤ c.toNat && c.toNat ≤ 13)

/-! ### Numbers -/

/-- The mark that may separate digits. -/
def separator : Char := '_'

def withoutSeparators (s : List Char) : List Char := s.filter (· != separator)

/-- The place of the last separator that does not stand between two digits, from `place` on. -/
def misplaced? (digit : Char → Bool) (place : Nat) : (before : Bool) → List Char → Option Nat
  | _, [] => none
  | before, c :: r =>
    let here :=
      if c == separator && !(before && r.head?.any digit) then some place else none
    (misplaced? digit (place + 1) (digit c) r).orElse fun _ => here

/-- A number with a separator that stands wrong is shown with the digits in front of it moved up over
the separators among them. -/
def movedUp (text : List Char) (place : Nat) : List Char :=
  let bare := withoutSeparators (text.take place)
  bare ++ text.drop bare.length

def isHex : List Char → Bool
  | '0' :: x :: _ => x == 'x' || x == 'X'
  | _ => false

/-- The number that a text with separators is. -/
def numberOf (text : List Char) : TokenKind :=
  let bare := withoutSeparators text
  match misplaced? (if isHex text then isHexDigit else Char.isDigit) 0 false text with
  | some place => .misread (String.ofList (movedUp text place))
  | none =>
    if isHex text then .hex ((bare.drop 2).foldl (fun n c => n * 16 + (hexDigit? c).getD 0) 0)
    else match Numeral.ofChars? bare with
      | some (n, []) => .number n
      | _ => .illegal

/-- The number of digits and separators at the front of the text. -/
def digitCount (digit : Char → Bool) (s : List Char) : Nat :=
  (s.takeWhile fun c => digit c || c == separator).length

/-- The length of the power at the front of the text, if there is one. -/
def powerLength : List Char → Nat
  | e :: r =>
    if e = 'e' ∨ e = 'E' then
      let sign := if r.head?.any fun c => c == '+' || c == '-' then 1 else 0
      let digits := r.drop sign
      if digits.head?.any Char.isDigit then 1 + sign + digitCount Char.isDigit digits else 0
    else 0
  | [] => 0

/-- The length of the number at the front of the text. -/
def numberLength (s : List Char) : Nat :=
  if isHex s ∧ (s.drop 2).head?.any isHexDigit then 2 + digitCount isHexDigit (s.drop 2)
  else
    let whole := digitCount Char.isDigit s
    let fraction := match s.drop whole with
      | '.' :: r => 1 + digitCount Char.isDigit r
      | _ => 0
    whole + fraction + powerLength (s.drop (whole + fraction))

/-- A number at the front of the text; a name that touches it spoils it. -/
def numberLexeme (s : List Char) : TokenKind × Nat :=
  let length := numberLength s
  let more := ((s.drop length).takeWhile isNamePart).length
  (if more = 0 then numberOf (s.take length) else .illegal, length + more)

/-- Symbols of two characters. -/
def pairSymbols : List (Char × Char) :=
  [('=', '='), ('<', '='), ('<', '>'), ('<', '<'), ('>', '='), ('>', '>'), ('!', '='), ('|', '|'),
    ('-', '>')]

def isSymbol (c : Char) : Bool := "();+*/%=<>,&~|.-".toList.contains c

/-- What the text behind `c` makes of it: the kind of the token, and the characters behind `c` that
belong to it. -/
def lexeme (c : Char) (r : List Char) : TokenKind × Nat :=
  if c = '\'' then
    let (content, n) := quoted c r
    (((content.map String.ofList).map TokenKind.string).getD .illegal, n)
  else if c = '"' ∨ c = '\x60' then
    let (content, n) := quoted c r
    (((content.map String.ofList).map (TokenKind.name · (c = '"'))).getD .illegal, n)
  else if c = '[' then
    let content := r.takeWhile (· != ']')
    if content.length < r.length then (.name (String.ofList content) false, content.length + 1)
    else (.illegal, content.length)
  else if c = '?' then
    let digits := r.takeWhile Char.isDigit
    (.slot (if digits = [] then .next else .numbered (Numeral.ofDigits digits)) 0, digits.length)
  else if c = '$' ∨ c = '@' ∨ c = '#' ∨ c = ':' then
    let (whole, n) := variableLength false r
    (if whole then .slot (.named (String.ofList (c :: r.take n))) 0 else .illegal, n)
  else if (c = 'x' ∨ c = 'X') ∧ r.head? = some '\'' then
    let (kind, n) := blobLexeme (r.drop 1)
    (kind, n + 1)
  else if isNameStart c then (.word, (r.takeWhile isNamePart).length)
  else if c.isDigit ∨ c = '.' ∧ (r.head?.any Char.isDigit) then
    let (kind, n) := numberLexeme (c :: r)
    (kind, n - 1)
  else if r.head?.any fun c' => pairSymbols.contains (c, c') then (.symbol, 1)
  else if isSymbol c then (.symbol, 0)
  else (.illegal, 0)

/-- The tokens of a text, behind the blanks at its front. -/
def scan (s : List Char) : List Token :=
  match _h : (afterGap .blank 0 s).2 with
  | [] => []
  | c :: r =>
    let (kind, n) := lexeme c r
    let behind := r.drop n
    let trail := behind.take (afterGap .blank 0 behind).1
    ⟨kind, String.ofList (c :: r.take n), String.ofList trail⟩ :: scan behind
termination_by s.length
decreasing_by
  have shorter := length_afterGap_le .blank 0 s
  rw [_h, List.length_cons] at shorter
  rw [List.length_drop]
  omega

end Token
end QueryTree.Database
