import QueryTree.Proofs.Http.Verdict
import QueryTree.Proofs.Route.Compile
import QueryTree.Proofs.Route.Order

/-!
# What decides a request

`App.Settles`: the five ends that a request to the routes of one path can come to, each under the
checks that lead there. The checks are made in a fixed order, and only a request that passes all of
them runs a route and can change the store (`App.dispatch_settles`).
-/

namespace QueryTree

/-! ### Methods and bodies -/

namespace Method
variable {m m' : Method} {name : String}

theorem eq_of_sameLetters (h : m.name.toList.map Char.toLower = m'.name.toList.map Char.toLower) :
    m = m' := by
  cases m <;> cases m' <;> first | rfl | exact absurd h (by decide)

/-- A name stands for the method whose name it is, up to the case of letters. -/
theorem ofName?_eq_some_iff :
    ofName? name = some m ↔ m.name.toList.map Char.toLower = name.toList.map Char.toLower := by
  constructor
  · intro h
    rw [ofName?] at h
    have hletters := List.find?_some h
    exact beq_iff_eq.1 hletters
  · intro h
    have hfind : (fun m' : Method => Text.sameLetters m'.name.toList name.toList) =
        fun m' => decide (m' = m) := by
      funext m'
      rw [Text.sameLetters, ← h, Bool.beq_eq_decide_eq]
      exact decide_eq_decide.2 ⟨eq_of_sameLetters, fun h => by rw [h]⟩
    rw [ofName?, hfind]
    cases m <;> rfl

end Method

namespace Request

/-- The methods whose requests have a body that is read, in lower case. -/
def bodyMethods : List String := ["post", "put"]

theorem carriesBody_eq_false {r : Request}
    (h : ∀ name ∈ bodyMethods, r.method.toList.map Char.toLower ≠ name.toList) :
    r.carriesBody = false := by
  rw [carriesBody]
  cases hname : Method.ofName? r.method with
  | none => rfl
  | some m =>
    have hletters := Method.ofName?_eq_some_iff.1 hname
    cases m with
    | get | delete => rfl
    | post => exact absurd hletters.symm (h "post" (by decide))
    | put => exact absurd hletters.symm (h "put" (by decide))

/-- Without a body that is read, the body is of no account. -/
theorem params_withBody {r : Request} (h : r.carriesBody = false) (body : List UInt8) :
    ({ r with body } : Request).params = r.params := by
  have h' : ({ r with body } : Request).carriesBody = false := h
  rw [params, params, h, h']
  rfl

end Request

namespace App
variable {σ : Type} [Engine σ] {routes : List Route} {route : Route} {method : String}
  {request : Request}

/-- The route is one of the method that a request names, in letters of either case. -/
def Answers (method : String) (r : Route) : Prop :=
  r.descriptor.method.name.toList.map Char.toLower = method.toList.map Char.toLower

theorem route?_eq_some (h : route? method routes = some route) :
    route ∈ routes ∧ Answers method route := by
  obtain ⟨m, hm, hfind⟩ := Option.bind_eq_some_iff.1 h
  have hroute := List.find?_some hfind
  rw [← of_decide_eq_true hroute] at hm
  exact ⟨List.mem_of_find?_eq_some hfind, Method.ofName?_eq_some_iff.1 hm⟩

theorem route?_eq_none (h : route? method routes = none) : ∀ r ∈ routes, ¬ Answers method r := by
  intro r hr hanswers
  rw [route?, Method.ofName?_eq_some_iff.2 hanswers, Option.bind_some, List.find?_eq_none] at h
  exact h r hr (by simp)

/-- What a request to the given routes comes to: the response and the store after it. -/
inductive Settles (routes : List Route) (request : Request) (store : Store σ) :
    Response → Store σ → Prop
  /-- The preflight method is answered with nothing. -/
  | preflight {response : Response} (hmethod : request.method = "OPTIONS")
      (hstatus : response.status = 200) (hbody : response.body = "") :
      Settles routes request store response store
  /-- No route has the method. What the body holds does not matter. -/
  | otherMethod {response : Response} (hmethod : request.method ≠ "OPTIONS")
      (hroutes : ∀ r ∈ routes, ¬ Answers request.method r) (hstatus : response.status = 405)
      (htold : response.Carries
        (.error (.methodNotAllowed request.method (methodNames routes)))) :
      Settles routes request store response store
  /-- The parameters are refused. -/
  | badBody {response : Response} {route : Route} {refusal : ParamSet.Refusal}
      (hmethod : request.method ≠ "OPTIONS") (hroute : route ∈ routes)
      (hanswers : Answers request.method route) (hparams : request.params = .error refusal)
      (hstatus : response.status = 400) (htold : response.Carries (.error (.ofRefusal refusal))) :
      Settles routes request store response store
  /-- The route runs, once, and gives an answer. -/
  | answered {response : Response} {route : Route} {params : ParamSet} {sql : String}
      {answer : Answer} {store' : Store σ} (hmethod : request.method ≠ "OPTIONS")
      (hroute : route ∈ routes) (hanswers : Answers request.method route)
      (hparams : request.params = .ok params)
      (hrun : route.run params store = (⟨sql, .ok answer⟩, store'))
      (hstatus : response.status = 200) (htold : response.Carries (.ok answer)) :
      Settles routes request store response store'
  /-- The route runs, once, and fails. -/
  | failed {response : Response} {route : Route} {params : ParamSet} {sql : String}
      {fault : StoreFault} {store' : Store σ} (hmethod : request.method ≠ "OPTIONS")
      (hroute : route ∈ routes) (hanswers : Answers request.method route)
      (hparams : request.params = .ok params)
      (hrun : route.run params store = (⟨sql, .error fault⟩, store'))
      (hstatus : response.status = 500) (htold : response.Carries (.error (.execution fault))) :
      Settles routes request store response store'

theorem settles_dispatch (debug : Bool) (routes : List Route) (request : Request) (store : Store σ) :
    Settles routes request store (dispatch debug routes request store).1
      (dispatch debug routes request store).2 := by
  by_cases hmethod : request.method = "OPTIONS"
  · rw [dispatch, if_pos hmethod]
    exact .preflight hmethod rfl rfl
  -- what the response tells is known of `dispatchVerdict`, which makes the same checks
  have htold := carries_dispatch debug routes store hmethod
  rw [dispatchVerdict] at htold
  cases hroute : route? request.method routes with
  | none =>
    rw [hroute] at htold
    have hdispatch : dispatch debug routes request store =
        (methodNotAllowed request.method routes, store) := by
      rw [dispatch, if_neg hmethod, hroute]
    rw [hdispatch] at htold ⊢
    exact .otherMethod hmethod (route?_eq_none hroute) rfl htold
  | some route =>
    obtain ⟨hmem, hanswers⟩ := route?_eq_some hroute
    rw [hroute] at htold
    cases hparams : request.params with
    | error refusal =>
      have hdispatch : dispatch debug routes request store =
          (.failure (.ofRefusal refusal), store) := by
        rw [dispatch, if_neg hmethod, hroute]
        simp only [hparams]
      rw [hdispatch] at htold ⊢
      simp only [hparams] at htold
      exact .badBody hmethod hmem hanswers hparams rfl htold
    | ok params =>
      have hdispatch : dispatch debug routes request store =
          (respond debug route (route.run params store).1, (route.run params store).2) := by
        rw [dispatch, if_neg hmethod, hroute]
        simp only [hparams]
      rw [hdispatch] at htold ⊢
      simp only [hparams] at htold
      generalize hrun : route.run params store = result at htold ⊢
      obtain ⟨⟨sql, outcome⟩, store'⟩ := result
      cases outcome with
      | ok answer => exact .answered hmethod hmem hanswers hparams hrun htold.1 htold
      | error fault => exact .failed hmethod hmem hanswers hparams hrun htold.1 htold

theorem dispatch_withBody (debug : Bool) (routes : List Route) (store : Store σ)
    (h : request.carriesBody = false) (body : List UInt8) :
    dispatch debug routes { request with body } store = dispatch debug routes request store := by
  rw [dispatch, dispatch, Request.params_withBody h]

/-- A request to a compiled path comes to the end that its first failing check leads to; a method has
one route at most, and the body of a request that is neither a POST nor a PUT changes nothing. -/
theorem dispatch_settles {t : FileTree} {root base path : String} {table : RouteTable}
    (hcompiled : RouteTable.compile t root base = .ok table) (hpath : (path, routes) ∈ table.byPath)
    (debug : Bool) (request : Request) (store : Store σ) :
    Settles routes request store (dispatch debug routes request store).1
        (dispatch debug routes request store).2 ∧
      (∀ r ∈ routes, ∀ r' ∈ routes, Answers request.method r → Answers request.method r' → r = r') ∧
      ((∀ name ∈ Request.bodyMethods, request.method.toList.map Char.toLower ≠ name.toList) →
        ∀ body, dispatch debug routes { request with body } store =
          dispatch debug routes request store) := by
  obtain rfl : routes = table.routesAt path := RouteTable.snd_of_mem_byPath hpath
  refine ⟨settles_dispatch debug _ request store, fun r hr r' hr' h h' => ?_, fun h body => ?_⟩
  · have hkeys := RouteTable.nodup_keys_of_compile hcompiled
    exact RouteTable.eq_of_mem_routesAt hkeys hr hr' (Method.eq_of_sameLetters (h.trans h'.symm))
  · exact dispatch_withBody debug _ store (Request.carriesBody_eq_false h) body

/-- A body that is no JSON, sent with a method without a route and with one that has a route. -/
theorem dispatch_settles_malformed :
    let routes := RouteTable.mixedTable.routesAt "/api/x"
    let store := Store.start .empty none
    let patch : Request := ⟨"PATCH", ⟨"/api/x", ""⟩, [123]⟩
    let post : Request := ⟨"pOST", ⟨"/api/x", ""⟩, [123]⟩
    ("/api/x", routes) ∈ RouteTable.mixedTable.byPath ∧
      Settles routes patch store (dispatch false routes patch store).1
        (dispatch false routes patch store).2 ∧
      (dispatch false routes patch store).1.status = 405 ∧
      Settles routes post store (dispatch false routes post store).1
        (dispatch false routes post store).2 ∧
      (dispatch false routes post store).1.status = 400 := by
  intro routes store patch post
  have hpath : ("/api/x", routes) ∈ RouteTable.mixedTable.byPath := by decide +kernel
  refine ⟨hpath, (dispatch_settles RouteTable.compile_mixed hpath false patch store).1, ?_,
    (dispatch_settles RouteTable.compile_mixed hpath false post store).1, ?_⟩
  · decide +kernel
  · decide +kernel

end App

end QueryTree
