import QueryTree.Http.App
import QueryTree.Proofs.Store.Answer

/-!
# Verdicts

The verdict on a request says what comes of it, an answer or a failure, without saying how that is
told. `App.carries_handle`: the response to a request carries the verdict on it in its status and its
body, whether the app gives diagnostics or not.
-/

namespace QueryTree

namespace Response

/-- The response tells an answer, or the failure with its status. -/
def Carries (r : Response) : Except Failure Answer → Prop
  | .ok a => r.status = 200 ∧
      ∃ notes, r.body = ((Envelope.succeeded a.toJson).withDebug notes).toJson.text
  | .error f => r.status = f.status ∧
      ∃ notes, r.body = ((Envelope.failed f.message).withDebug notes).toJson.text

theorem carries_failure (f : Failure) : (failure f).Carries (.error f) := ⟨rfl, none, rfl⟩

variable {r : Response} {outcome : Except Failure Answer}

theorem Carries.withHeader (h : r.Carries outcome) (name value : String) :
    (r.withHeader name value).Carries outcome := by
  cases outcome <;> exact h

theorem Carries.shared (h : r.Carries outcome) : r.shared.Carries outcome := by
  cases outcome <;> exact h

end Response

namespace App

variable {σ : Type} [Engine σ]

/-- The paths that an app answers without a route. -/
def ownPaths : List String := ["/", "/health"]

/-- What comes of a request to a path that has the given routes. -/
def dispatchVerdict (routes : List Route) (request : Request) (store : Store σ) :
    Except Failure Answer :=
  match route? request.method routes with
  | none => .error (.methodNotAllowed request.method (methodNames routes))
  | some route =>
    match request.params with
    | .error refusal => .error (.ofRefusal refusal)
    | .ok params => (route.run params store).1.outcome.mapError .execution

/-- What comes of a request to a path that is not an own one. -/
def verdict (app : App σ) (request : Request) : Except Failure Answer :=
  match app.routes.routesAt request.target.path with
  | [] => .error (.notFound request.target.path)
  | routes => dispatchVerdict routes request app.store

variable {app : App σ} {request : Request}

theorem carries_respond (debug : Bool) (route : Route) (e : Execution) :
    (respond debug route e).Carries (e.outcome.mapError .execution) := by
  rw [respond]
  cases e.outcome with
  | ok answer => exact ⟨rfl, _, rfl⟩
  | error fault => exact ⟨rfl, _, rfl⟩

theorem carries_dispatch (debug : Bool) (routes : List Route) (store : Store σ)
    (hmethod : request.method ≠ "OPTIONS") :
    (dispatch debug routes request store).1.Carries (dispatchVerdict routes request store) := by
  rw [dispatch, if_neg hmethod, dispatchVerdict]
  cases route? request.method routes with
  | none => exact (Response.carries_failure _).withHeader _ _
  | some route =>
    cases request.params with
    | error refusal => exact Response.carries_failure _
    | ok params => exact carries_respond debug route _

theorem carries_answer (now : String) (hmethod : request.method ≠ "OPTIONS")
    (hpath : request.target.path ∉ ownPaths) :
    (app.answer now request).1.Carries (app.verdict request) := by
  simp only [ownPaths, List.mem_cons, List.not_mem_nil, or_false, not_or] at hpath
  rw [answer, verdict]
  simp only [hpath.1, hpath.2, if_false]
  cases app.routes.routesAt request.target.path with
  | nil => exact Response.carries_failure _
  | cons route routes => exact carries_dispatch _ _ _ hmethod

theorem carries_handle (now : String) (hmethod : request.method ≠ "OPTIONS")
    (hpath : request.target.path ∉ ownPaths) :
    (app.handle now request).1.Carries (app.verdict request) := by
  have hanswer : (app.answer now request).1.Carries (app.verdict request) :=
    carries_answer now hmethod hpath
  rw [handle, if_neg hmethod]
  split
  · exact hanswer
  · exact hanswer.shared

theorem wellKeyed_of_verdict {a : Answer} (h : app.verdict request = .ok a) : a.WellKeyed := by
  rw [verdict] at h
  split at h
  · cases h
  rw [dispatchVerdict] at h
  split at h
  · cases h
  next route _ =>
    split at h
    · cases h
    next params _ =>
      cases ho : (route.run params app.store).1.outcome with
      | error fault => rw [ho] at h; cases h
      | ok answer =>
        rw [ho] at h
        cases h
        exact Route.wellKeyed_of_run ho

end App
end QueryTree
