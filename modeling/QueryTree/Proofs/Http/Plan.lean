import QueryTree.Http.App
import QueryTree.Proofs.Store.Work

/-!
# What a request asks of the store

Reading the parameters of a request and rendering a statement with them needs the settings and the
routes of an app, but not its store: `App.plan` makes out of a request an answer, or the one thing that
is asked of the store and what is answered to it. Carrying that out gives what the app answers
(`App.run_plan`).
-/

namespace QueryTree

open Store (Plan)

variable {σ ω : Type} [Engine σ] {request : Request} {routes : List Route}

namespace Route

/-- The plan for running a route. -/
def plan (r : Route) (params : ParamSet) (answer : Execution → ω) : Plan ω :=
  if r.isBlank then .answered (answer ⟨"", .error .emptyStatement⟩)
  else
    let rendered := r.prepare params
    .ofText rendered.sql rendered.args fun outcome => answer ⟨rendered.sql, outcome⟩

theorem run_plan (r : Route) (params : ParamSet) (answer : Execution → ω) (s : Store σ) :
    (r.plan params answer).run s = (r.run params s).map answer id := by
  rw [plan, run]
  split
  · rfl
  · rw [Plan.run_ofText]
    rfl

end Route

namespace App

/-- The plan for a request to the path of the given routes. -/
def dispatchPlan (debug : Bool) (routes : List Route) (request : Request) (answer : Response → ω) :
    Plan ω :=
  if request.method = "OPTIONS" then .answered (answer (.empty 200))
  else match route? request.method routes with
    | none => .answered (answer (methodNotAllowed request.method routes))
    | some route =>
      match request.params with
      | .error refusal => .answered (answer (.failure (.ofRefusal refusal)))
      | .ok params => route.plan params fun execution => answer (respond debug route execution)

theorem run_dispatchPlan (debug : Bool) (answer : Response → ω) (s : Store σ) :
    (dispatchPlan debug routes request answer).run s =
      (dispatch debug routes request s).map answer id := by
  rw [dispatchPlan, dispatch]
  split
  · rfl
  cases route? request.method routes with
  | none => rfl
  | some route =>
    cases request.params with
    | error refusal => rfl
    | ok params => exact route.run_plan params _ s

/-- The response to a question about the health, when the store is healthy or not. -/
def healthResponse (config : Config) (routes : RouteTable) (now : String) (healthy : Bool) :
    Response :=
  .json (if healthy then 200 else 503) (Health.toJson {
    status := if healthy then "healthy" else "degraded"
    endpoints := routes.size
    port := config.port
    timestamp := now
    database := if healthy then "connected" else "unavailable" })

/-- The plan for that question; a method that does not read is refused without asking the store. -/
def healthPlan (config : Config) (routes : RouteTable) (now method : String)
    (answer : Response → ω) : Plan ω :=
  if method = "GET" ∨ method = "HEAD" then
    .needs (.health fun healthy => answer (readOnly method (healthResponse config routes now healthy)))
  else .answered (answer ((Response.empty 405).withHeader "allow" "GET,HEAD"))

theorem run_healthPlan (app : App σ) (now method : String) (answer : Response → ω) :
    (healthPlan app.config app.routes now method answer).run app.store =
      (answer (readOnly method (app.health now)), app.store) := by
  rw [healthPlan]
  split
  · exact Store.Need.run_health app.store _
  · next hmethod =>
    obtain ⟨hget, hhead⟩ := not_or.1 hmethod
    rw [readOnly, if_neg hget, if_neg hhead]
    rfl

def answerPlan (config : Config) (routes : RouteTable) (now : String) (request : Request)
    (answer : Response → ω) : Plan ω :=
  let path := request.target.path
  if path = "/" then
    let manifest := Response.json 200 (Manifest.ofTable config.debug routes).toJson
    .answered (answer (readOnly request.method manifest))
  else if path = "/health" then healthPlan config routes now request.method answer
  else match routes.routesAt path with
    | [] => .answered (answer (.failure (.notFound path)))
    | route :: more => dispatchPlan config.debug (route :: more) request answer

theorem run_answerPlan (app : App σ) (now : String) (request : Request) (answer : Response → ω) :
    (answerPlan app.config app.routes now request answer).run app.store =
      (app.answer now request).map answer App.store := by
  rw [answerPlan, App.answer]
  split
  · rfl
  split
  · exact run_healthPlan app now request.method answer
  · cases app.routes.routesAt request.target.path with
    | nil => rfl
    | cons route more => exact run_dispatchPlan app.config.debug answer app.store

/-- The plan for a request, by the settings and the routes of an app. -/
def plan (config : Config) (routes : RouteTable) (now : String) (request : Request)
    (answer : Response → ω) : Plan ω :=
  if !config.cors then answerPlan config routes now request answer
  else if request.method = "OPTIONS" then .answered (answer .preflight)
  else answerPlan config routes now request fun response => answer response.shared

theorem run_plan (app : App σ) (now : String) (request : Request) (answer : Response → ω) :
    (plan app.config app.routes now request answer).run app.store =
      (app.handle now request).map answer App.store := by
  rw [plan, handle]
  split
  · exact run_answerPlan app now request answer
  split
  · rfl
  · exact run_answerPlan app now request _

theorem answer_snd (app : App σ) (now : String) (request : Request) :
    (app.answer now request).2 = { app with store := (app.answer now request).2.store } := by
  rw [App.answer]
  split
  · rfl
  split
  · rfl
  split <;> rfl

/-- A request changes nothing but the store. -/
theorem handle_snd (app : App σ) (now : String) (request : Request) :
    (app.handle now request).2 = { app with store := (app.handle now request).2.store } := by
  rw [handle]
  split
  · exact app.answer_snd now request
  split
  · rfl
  · exact app.answer_snd now request

end App

end QueryTree
