import QueryTree.Params
import QueryTree.Sql.TableDecl
import QueryTree.Text.Split
/-!
# Statement templates

A template may hold the tokens `table`, `columns`, `values` and `updates` in double braces. `render`
replaces them, from left to right; other double braces stay, and what has been put in is not looked
at again. The table is the only part of a template that does not come from the parameters.
-/

namespace QueryTree.Sql

def opening : List Char := ['\x7b', '\x7b']

def closing : List Char := ['\x7d', '\x7d']

/-- What stands for the token `name`. Without a table there is nothing to stand for `table`. -/
def substitute (table : Option String) (params : ParamSet) (name : List Char) : Option (List Char) :=
  if name = "table".toList then table.map String.toList
  else if name = "columns".toList then some ((params.text? "columns").getD "*").toList
  else if name = "values".toList then
    some (match params.text? "values" with
      | some text => text.toList
      | none => Text.joinWith [',', ' '] (params.bound.map fun _ => ['?']))
  else if name = "updates".toList then some ((params.text? "updates").getD "column = ?").toList
  else none

/-- The token that starts behind an opening, replaced, and what follows its closing. -/
def token? (subst : List Char → Option (List Char)) (after : List Char) :
    Option (List Char × List Char) := do
  let (name, rest) ← Text.breakOn closing after
  let text ← subst name
  pure (text, rest)

theorem length_token?_le {subst : List Char → Option (List Char)} {after text rest : List Char}
    (h : token? subst after = some (text, rest)) : rest.length ≤ after.length := by
  obtain ⟨⟨name, r⟩, hb, h⟩ := Option.bind_eq_some_iff.1 h
  obtain ⟨t, _, h⟩ := Option.bind_eq_some_iff.1 h
  cases h
  have := congrArg List.length (Text.eq_append_of_breakOn hb)
  simp at this
  omega

/-- The template with every token replaced for which `subst` has a text. -/
def renderWith (subst : List Char → Option (List Char)) (template : List Char) : List Char :=
  match _h : Text.breakOn opening template with
  | none => template
  | some (before, after) =>
    match _ht : token? subst after with
    | some (text, rest) => before ++ text ++ renderWith subst rest
    | none => before ++ opening ++ renderWith subst after
termination_by template.length
decreasing_by
  · have := congrArg List.length (Text.eq_append_of_breakOn _h)
    have := length_token?_le _ht
    simp [opening] at *
    omega
  · have := congrArg List.length (Text.eq_append_of_breakOn _h)
    simp [opening] at *
    omega

def render (template : String) (table : Option String) (params : ParamSet) : String :=
  String.ofList (renderWith (substitute table params) template.toList)

/-! ### Tokens left in a statement -/

def isNameStart (c : Char) : Bool := c.isAlpha || c == '_'

def isNamePart (c : Char) : Bool := c.isAlphanum || c == '_'

/-- The name of a token at the front of the text, blanks around it allowed, and what follows it. -/
def unresolvedAt? (s : List Char) : Option (List Char × List Char) := do
  let s ← Text.after? opening s
  match Text.trimStart s with
  | c :: r =>
    if isNameStart c then
      let rest ← Text.after? closing (Text.trimStart (r.dropWhile isNamePart))
      pure (c :: r.takeWhile isNamePart, rest)
    else none
  | [] => none

def unresolvedFrom : (fuel : Nat) → List Char → List (List Char)
  | 0, _ => []
  | _ + 1, [] => []
  | fuel + 1, c :: r =>
    match unresolvedAt? (c :: r) with
    | some (name, rest) => name :: unresolvedFrom fuel rest
    | none => unresolvedFrom fuel r

/-- The names of the tokens that a statement still holds. -/
def unresolved (sql : String) : List String :=
  (unresolvedFrom sql.toList.length sql.toList).map String.ofList

end QueryTree.Sql
