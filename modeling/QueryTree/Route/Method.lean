import QueryTree.Text.Word
/-!
# Request methods

The four methods that a file can answer to.
-/

namespace QueryTree

inductive Method where
  | get
  | post
  | put
  | delete
  deriving DecidableEq, Repr

namespace Method

def all : List Method := [get, post, put, delete]

def name : Method → String
  | get => "GET"
  | post => "POST"
  | put => "PUT"
  | delete => "DELETE"

/-- The method of the given name, up to the case of ASCII letters. -/
def ofName? (name : String) : Option Method :=
  all.find? fun method => Text.sameLetters method.name.toList name.toList

/-- The body of a request with this method holds parameters. -/
def carriesBody (method : Method) : Bool := method = post || method = put

end Method
end QueryTree
