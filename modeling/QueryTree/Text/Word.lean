import QueryTree.Text.WordRanges
/-!
# Word characters and letters compared without case

`isWord` is the class that words of a script are made of, `startsWord` the boundary test in front of
a word. Keywords are compared under simple case folding: `ſ` counts as `s` and the Kelvin sign as
`k`; names of the program's own vocabulary are compared on ASCII letters only.
-/

namespace QueryTree.Text

def isWord (c : Char) : Bool :=
  if c.toNat < 0x80 then c.isAlphanum || c == '_'
  else wordRanges.any fun (lo, hi) => lo ≤ c.toNat && c.toNat ≤ hi

/-- The lower-case ASCII letter that `c` folds to; every other character stays. -/
def foldCase (c : Char) : Char :=
  if c.toNat = 0x17F then 's' else if c.toNat = 0x212A then 'k' else c.toLower

/-- What follows `word`, given in lower case, at the front of `s`, compared under case folding. -/
def afterKeyword? : (word s : List Char) → Option (List Char)
  | [], s => some s
  | _ :: _, [] => none
  | w :: ws, c :: r => if foldCase c = w then afterKeyword? ws r else none

/-- Equality up to the case of ASCII letters. -/
def sameLetters (s t : List Char) : Bool := s.map Char.toLower == t.map Char.toLower

/-- What follows at least one character of class `p`, all of them taken. -/
def afterSome? (p : Char → Bool) : List Char → Option (List Char)
  | c :: r => if p c then some (r.dropWhile p) else none
  | [] => none

end QueryTree.Text
