import QueryTree.Config
import QueryTree.Http.Execution
import QueryTree.Http.Extract
import QueryTree.Http.Manifest
import QueryTree.Http.Response
/-!
# Answering requests

An app answers the manifest, its health and the compiled routes. On a compiled path the checks come in
a fixed order: the preflight method, the method, the parameters; only then does the route run.
-/

namespace QueryTree

/-- An app over an engine; unless another is named, that is the one the program comes with. -/
structure App (σ : Type := Session) where
  config : Config
  routes : RouteTable
  store : Store σ

namespace App

variable {σ : Type} [Engine σ]

/-- The methods of routes as a message lists them. -/
def methodNames (routes : List Route) : String :=
  ", ".intercalate (routes.map fun r => r.descriptor.method.name)

def methodNotAllowed (method : String) (routes : List Route) : Response :=
  let expected := methodNames routes
  (Response.failure (.methodNotAllowed method expected)).withHeader "allow" (expected ++ ", OPTIONS")

def diagnostics (route : Route) (sql : String) : Diagnostics where
  method := route.descriptor.method.name
  sqlPath := route.descriptor.sqlPath
  isUniversal := route.descriptor.isUniversal
  table := route.descriptor.table
  processedSql := sql

/-- The response to an execution. -/
def respond (debug : Bool) (route : Route) (e : Execution) : Response :=
  let notes := if debug then some (diagnostics route e.sql) else none
  match e.outcome with
  | .ok answer => .json 200 ((Envelope.succeeded answer.toJson).withDebug notes).toJson
  | .error fault =>
    let f := Failure.execution fault
    .json f.status ((Envelope.failed f.message).withDebug notes).toJson

/-- The route of a request's method. -/
def route? (method : String) (routes : List Route) : Option Route :=
  (Method.ofName? method).bind fun m => routes.find? fun r => r.descriptor.method = m

/-- Answers a request to the path of the given routes. -/
def dispatch (debug : Bool) (routes : List Route) (request : Request) (store : Store σ) :
    Response × Store σ :=
  if request.method = "OPTIONS" then (.empty 200, store)
  else match route? request.method routes with
    | none => (methodNotAllowed request.method routes, store)
    | some route =>
      match request.params with
      | .error refusal => (.failure (.ofRefusal refusal), store)
      | .ok params =>
        let (execution, store) := route.run params store
        (respond debug route execution, store)

def health (app : App σ) (now : String) : Response :=
  let healthy := app.store.isHealthy
  let report : Health := {
    status := if healthy then "healthy" else "degraded"
    endpoints := app.routes.size
    port := app.config.port
    timestamp := now
    database := if healthy then "connected" else "unavailable" }
  .json (if healthy then 200 else 503) report.toJson

def manifest (app : App σ) : Response :=
  .json 200 (Manifest.ofTable app.config.debug app.routes).toJson

/-- Answers a request to a path that has nothing to do with routes and can only be read. -/
def readOnly (method : String) (response : Response) : Response :=
  if method = "GET" then response
  else if method = "HEAD" then response.withoutBody
  else (Response.empty 405).withHeader "allow" "GET,HEAD"

/-- Answers a request by its path, at the time `now`. -/
def answer (app : App σ) (now : String) (request : Request) : Response × App σ :=
  let path := request.target.path
  if path = "/" then (readOnly request.method app.manifest, app)
  else if path = "/health" then (readOnly request.method (app.health now), app)
  else match app.routes.routesAt path with
    | [] => (.failure (.notFound path), app)
    | route :: routes =>
      let (response, store) := dispatch app.config.debug (route :: routes) request app.store
      (response, { app with store })

/-- Answers a request. An app that is shared with all pages answers every preflight itself. -/
def handle (app : App σ) (now : String) (request : Request) : Response × App σ :=
  if !app.config.cors then app.answer now request
  else if request.method = "OPTIONS" then (.preflight, app)
  else
    let (response, app) := app.answer now request
    (response.shared, app)

end App
end QueryTree
