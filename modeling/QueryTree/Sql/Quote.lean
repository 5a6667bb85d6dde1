/-!
# Quoted text in a script

A script is either outside quotes or inside a text opened by a single quote, a double quote or a
back quote, which the same character closes. A doubled quote closes and opens again, which leaves
the script inside just as an escape would.
-/

namespace QueryTree.Sql

def isQuote (c : Char) : Bool := c == '\'' || c == '"' || c == '\x60'

/-- The quote that is open after `c`, given the one that was open before. -/
def quoteAfter (open? : Option Char) (c : Char) : Option Char :=
  match open? with
  | some q => if c = q then none else some q
  | none => if isQuote c then some c else none

/-- The quote that is open after a text, given the one open before it. -/
def quoteState (open? : Option Char) (s : List Char) : Option Char := s.foldl quoteAfter open?

end QueryTree.Sql
