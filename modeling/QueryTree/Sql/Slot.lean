import QueryTree.Text.Utf8
/-!
# Parameter slots of a statement

The number of slots that a statement has. A lone `?` takes the next number, `?NNN` takes `NNN`;
marks inside quotes, brackets and comments do not count. The scan works on the UTF-8 bytes of the
text, in which every byte below 128 is a character of its own.
-/

namespace QueryTree.Sql.Slot

/-- What the scan is inside of. -/
inductive Inside where
  | live
  | quoted (quote : UInt8)
  | bracket
  | line
  | block
  deriving DecidableEq, Repr

def isQuote (b : UInt8) : Bool := b == 39 || b == 34 || b == 96

def isDigit (b : UInt8) : Bool := 48 ≤ b && b ≤ 57

/-- The numbers that fit 64 bits; a larger one is taken as zero. -/
def limit : Nat := 1 <<< 64

/-- The number that digits spell, if it is below the limit. -/
def number (digits : List UInt8) : Nat :=
  let n := digits.foldl (fun n b => n * 10 + (b.toNat - 48)) 0
  if n < limit then n else 0

/-- The highest slot number of a text, from inside the given region on; `largest` is the highest so
far. -/
def scan (inside : Inside) (largest : Nat) : List UInt8 → Nat
  | [] => largest
  | b :: r =>
    match inside with
    | .quoted q =>
      if b = q then
        if r.head? = some q then scan (.quoted q) largest r.tail else scan .live largest r
      else scan (.quoted q) largest r
    | .bracket => scan (if b = 93 then .live else .bracket) largest r
    | .line => scan (if b = 10 then .live else .line) largest r
    | .block =>
      if b = 42 ∧ r.head? = some 47 then scan .live largest r.tail else scan .block largest r
    | .live =>
      if b = 45 ∧ r.head? = some 45 then scan .line largest r.tail
      else if b = 47 ∧ r.head? = some 42 then scan .block largest r.tail
      else if b = 63 then
        let digits := r.takeWhile isDigit
        scan .live (if digits.isEmpty then largest + 1 else max largest (number digits))
          (r.dropWhile isDigit)
      else if isQuote b then scan (.quoted b) largest r
      else scan (if b = 91 then .bracket else .live) largest r
termination_by bytes => bytes.length
decreasing_by
  all_goals
    have := (List.dropWhile_sublist isDigit (l := r)).length_le
    simp only [List.length_cons, List.length_tail]
    omega

/-- The number of slots of a statement. -/
def count (sql : String) : Nat := scan .live 0 (Utf8.ofString sql)

end QueryTree.Sql.Slot
