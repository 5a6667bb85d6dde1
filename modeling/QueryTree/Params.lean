import QueryTree.Json.Reader
import QueryTree.Text.Blank
/-!
# Parameter sets

The parameters of a request in the order in which they were first named. `columns`, `values` and
`updates` are directives when they carry a text: they steer the rendering of a template. Every other
parameter is bound, by position, so the bound values are the rest of the set in order.
-/

namespace QueryTree

abbrev ParamSet := List (String × Json)

namespace ParamSet

def directiveNames : List String := ["columns", "values", "updates"]

def isDirective (name : String) (value : Json) : Bool :=
  value.isString && directiveNames.contains name

/-- The parameters that are bound. -/
def bound (params : ParamSet) : ParamSet :=
  params.filter fun (name, value) => !isDirective name value

def positionalValues (params : ParamSet) : List Json := params.bound.map Prod.snd

/-- The text of a parameter that carries one. -/
def text? (params : ParamSet) (name : String) : Option String :=
  (Keyed.get? name params).bind Json.string?

/-- Why a request's parameters are refused. -/
inductive Refusal where
  | tooLong
  | invalidJson (message : String)
  | notAnObject

namespace Refusal

def message : Refusal → String
  | tooLong => "Failed to buffer the request body: length limit exceeded"
  | invalidJson message => "invalid JSON body: " ++ message
  | notAnObject => "body must be a JSON object"

end Refusal

/-- The parameters of a query: of several values for one name the first counts. -/
def ofQuery (pairs : List (String × String)) : ParamSet :=
  pairs.foldl (fun params (name, value) => Keyed.putNew name (.string value) params) []

/-- Adds the members of a JSON object; a name that is already there keeps its place and gets the new
value. A body of blanks adds nothing. -/
def mergeBody (params : ParamSet) (body : List UInt8) : Except Refusal ParamSet :=
  if body.all Text.isBlankByte then .ok params
  else match Json.parse body with
    | .error fault => .error (.invalidJson (fault.message body))
    | .ok (.object members) =>
      .ok (members.foldl (fun params (name, value) => Keyed.put name value params) params)
    | .ok _ => .error .notAnObject

/-- The same on a set that is changed member by member. -/
def merge (body : List UInt8) : ExceptT Refusal (StateM ParamSet) Unit := do
  if body.all Text.isBlankByte then
    return
  match Json.parse body with
  | .error fault => throw (.invalidJson (fault.message body))
  | .ok (.object members) => members.forM fun (name, value) => modify (Keyed.put name value)
  | .ok _ => throw .notAnObject

end ParamSet

/-- A value as a statement takes it. -/
inductive BindValue where
  | null
  | bool (value : Bool)
  | int (value : Int)
  | real (bits : UInt64)
  | text (value : String)
  deriving DecidableEq, Repr

namespace BindValue

/-- Lists and objects are bound as their JSON text, whole numbers beyond 63 bits as doubles. -/
def ofJson : Json → BindValue
  | .null => null
  | .bool b => bool b
  | .int n => if n < (1 <<< 63 : Nat) then int n else real (Float.ofInt n).toBits
  | .double bits => real bits
  | .string s => text s
  | v@(.array _) => text v.text
  | v@(.object _) => text v.text

end BindValue
end QueryTree
