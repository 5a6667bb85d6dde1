import QueryTree.Route.Descriptor
import QueryTree.Sql.Slot
import QueryTree.Sql.Template
import QueryTree.Store.Basic
/-!
# Running a route

A route's template is rendered with the parameters, and the bound parameters fill the slots of the
statement; those beyond its slots are left out. The statement is kept with the outcome.
-/

namespace QueryTree

/-- A rendered statement with its arguments. -/
structure Rendered where
  sql : String
  args : List Json

/-- What running a route led to. -/
structure Execution where
  sql : String
  outcome : Except StoreFault Answer

namespace Route

def isBlank (r : Route) : Bool := Text.allBlank r.sql.toList

def prepare (r : Route) (params : ParamSet) : Rendered :=
  let sql := Sql.render r.sql r.descriptor.table params
  ⟨sql, params.positionalValues.take (Sql.Slot.count sql)⟩

/-- Runs the route; one whose file is blank is not even rendered. -/
def run {σ : Type} [Engine σ] (r : Route) (params : ParamSet) (s : Store σ) : Execution × Store σ :=
  if r.isBlank then (⟨"", .error .emptyStatement⟩, s)
  else
    let rendered := r.prepare params
    let (outcome, s) := s.execute rendered.sql rendered.args
    (⟨rendered.sql, outcome⟩, s)

end Route
end QueryTree
