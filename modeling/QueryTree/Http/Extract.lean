import QueryTree.Http.Form
import QueryTree.Http.Target
import QueryTree.Params
import QueryTree.Route.Method
/-!
# Parameters of a request

The parameters come from the query and, if the method carries a body, from the JSON object in the
body, which overrides the query. A body beyond the limit is refused before it is looked at.
-/

namespace QueryTree

/-- A request: its method is any token, so that methods other than the four can be answered too. -/
structure Request where
  method : String
  target : Target
  body : List UInt8

namespace Request

/-- The bytes that a body may hold. -/
def bodyLimit : Nat := 2097152

def carriesBody (r : Request) : Bool := (Method.ofName? r.method).any Method.carriesBody

def params (r : Request) : Except ParamSet.Refusal ParamSet :=
  let query := ParamSet.ofQuery (Form.parse r.target.query)
  if !r.carriesBody then .ok query
  else if bodyLimit < r.body.length then .error .tooLong
  else query.mergeBody r.body

end Request
end QueryTree
