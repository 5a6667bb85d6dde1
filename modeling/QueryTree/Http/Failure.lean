import QueryTree.Params
import QueryTree.Store.Fault
/-!
# Failed requests

Why a request fails, with the status that its response has.
-/

namespace QueryTree

inductive Failure where
  | badRequest (message : String)
  | methodNotAllowed (got expected : String)
  | notFound (path : String)
  | execution (fault : StoreFault)
  deriving DecidableEq, Repr

namespace Failure

def message : Failure → String
  | badRequest message => "bad request: " ++ message
  | methodNotAllowed got expected => "method " ++ got ++ " not allowed, expected " ++ expected
  | notFound path => "not found: " ++ path
  | execution fault => "execution failed: " ++ fault.message

def status : Failure → Nat
  | badRequest _ => 400
  | methodNotAllowed .. => 405
  | notFound _ => 404
  | execution _ => 500

def ofRefusal (refusal : ParamSet.Refusal) : Failure := badRequest refusal.message

end Failure
end QueryTree
