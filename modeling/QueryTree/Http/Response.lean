import QueryTree.Http.Envelope
/-!
# Responses

A response has a status, headers and a body of text. `shared` adds the headers that let any page read
it, `preflight` is the answer that allows everything beforehand.
-/

namespace QueryTree

structure Response where
  status : Nat
  headers : List (String × String)
  body : String
  deriving DecidableEq, Repr

namespace Response

def empty (status : Nat) : Response := ⟨status, [], ""⟩

def json (status : Nat) (body : Json) : Response :=
  ⟨status, [("content-type", "application/json")], body.text⟩

def failure (f : Failure) : Response := json f.status (Envelope.failed f.message).toJson

def withHeader (name value : String) (r : Response) : Response :=
  { r with headers := r.headers ++ [(name, value)] }

def withoutBody (r : Response) : Response := { r with body := "" }

/-- The header that tells caches what the shared headers depend on. -/
def varyHeader : String × String :=
  ("vary", "origin, access-control-request-method, access-control-request-headers")

def shared (r : Response) : Response :=
  { r with headers := r.headers ++
      [("access-control-allow-origin", "*"), ("access-control-expose-headers", "*"), varyHeader] }

def preflight : Response where
  status := 200
  headers := [("access-control-allow-headers", "*"), ("access-control-allow-methods", "*"),
    ("access-control-allow-origin", "*"), varyHeader]
  body := ""

end Response
end QueryTree
