import QueryTree.Proofs.Client.Request
import QueryTree.Proofs.Client.Url
import QueryTree.Proofs.Http.Dispatch
import QueryTree.Proofs.Route.Naming

/-!
# Which routes can be reached

A server looks at the path of a request as it was sent (`App.landing`), and a client sends the path
that an address asks for. So a published route is reached just if its path is plain
(`Client.reaches_iff_plain`): a route whose file name holds a blank, a question mark or an accent is
listed in the manifest, but no client gets to it.
-/

namespace QueryTree

namespace App
variable {σ : Type} {app : App σ} {request : Request}

/-- Where a request lands. -/
inductive Landing where
  /-- At the manifest or at the health report. -/
  | own
  /-- At no route. -/
  | unknown
  | routes (found : List Route)
  deriving DecidableEq

/-- The path alone decides where a request lands. -/
def landing (app : App σ) (path : String) : Landing :=
  if path ∈ ownPaths then .own
  else match app.routes.routesAt path with
    | [] => .unknown
    | route :: routes => .routes (route :: routes)

/-- What is answered where a request lands. -/
theorem answer_eq [Engine σ] (app : App σ) (now : String) (request : Request) :
    app.answer now request =
      match app.landing request.target.path with
      | .own => (readOnly request.method
          (if request.target.path = "/" then app.manifest else app.health now), app)
      | .unknown => (.failure (.notFound request.target.path), app)
      | .routes found =>
        let (response, store) := dispatch app.config.debug found request app.store
        (response, { app with store }) := by
  rw [answer, landing]
  by_cases hroot : request.target.path = "/"
  · simp only [hroot, ownPaths, List.mem_cons, true_or, if_true]
  by_cases hhealth : request.target.path = "/health"
  · simp only [hhealth, ownPaths, List.mem_cons, true_or, or_true, if_true]
    rfl
  have hown : request.target.path ∉ ownPaths := by
    simp only [ownPaths, List.mem_cons, List.not_mem_nil, or_false, not_or]
    exact ⟨hroot, hhealth⟩
  simp only [hroot, hhealth, hown, if_false]
  cases app.routes.routesAt request.target.path <;> rfl

theorem landing_of_mem {r : Route} {path : String} (hown : path ∉ ownPaths)
    (hr : r ∈ app.routes.routesAt path) :
    app.landing path = .routes (app.routes.routesAt path) := by
  rw [landing, if_neg hown]
  cases h : app.routes.routesAt path with
  | nil => rw [h] at hr; cases hr
  | cons route routes => rfl

/-- Routes belong to one path: who lands at those of a path has sent that path. -/
theorem path_eq_of_landing {r : Route} {path path' : String}
    (hr : r ∈ app.routes.routesAt path)
    (h : app.landing path' = .routes (app.routes.routesAt path)) : path' = path := by
  rw [landing] at h
  split at h
  · cases h
  split at h
  · cases h
  · next route routes hroutes =>
    have hfound : app.routes.routesAt path' = app.routes.routesAt path := by
      rw [hroutes]
      exact Landing.routes.inj h
    have hr' := (List.mem_filter.1 (hfound ▸ hr)).2
    rw [← of_decide_eq_true hr', ← of_decide_eq_true (List.mem_filter.1 hr).2]

/-- The request lands at the routes of the path of `r`, and its method is that of `r` among them. -/
def Reaches (app : App σ) (request : Request) (r : Route) : Prop :=
  app.landing request.target.path = .routes (app.routes.routesAt r.descriptor.path) ∧
    route? request.method (app.routes.routesAt r.descriptor.path) = some r

/-- A request that reaches a route is dispatched among the routes of its path. -/
theorem Reaches.answer_eq [Engine σ] {r : Route} (h : app.Reaches request r) (now : String) :
    app.answer now request =
      let (response, store) :=
        dispatch app.config.debug (app.routes.routesAt r.descriptor.path) request app.store
      (response, { app with store }) := by
  rw [App.answer_eq, h.1]

theorem not_own_of_served {path : String} (h : Naming.obstacle? path = none) : path ∉ ownPaths :=
  (Naming.obstacle?_eq_none_iff.1 h).1

theorem route?_of_mem {r : Route} {routes : List Route}
    (hunique : ∀ r' ∈ routes, r'.descriptor.method = r.descriptor.method → r' = r)
    (hr : r ∈ routes) : route? r.descriptor.method.name routes = some r := by
  rw [route?, Method.ofName?_name, Option.bind_some]
  cases hfind : routes.find? fun r' => r'.descriptor.method = r.descriptor.method with
  | none => exact absurd (List.find?_eq_none.1 hfind r hr) (by simp)
  | some r' =>
    have hmethod := List.find?_some hfind
    rw [hunique r' (List.mem_of_find?_eq_some hfind) (of_decide_eq_true hmethod)]

end App

namespace Client
variable {σ : Type} {c : Client} {app : App σ} {r : Route}

/-- Every route of a table compiled under a normalized base is published. The request that a client
sends to it reaches it just if its path is plain. -/
theorem reaches_iff_plain {t : FileTree} {root base : String}
    (hcompiled : RouteTable.compile t root (Config.normalizeBase base) = .ok app.routes)
    (horigin : Url.IsOrigin c.origin.toList) (hr : r ∈ app.routes.routes) (args : ParamSet) :
    Endpoint.ofDescriptor app.config.debug r.descriptor ∈
        (Manifest.ofTable app.config.debug app.routes).endpoints ∧
      ∃ target, c.targetOf r.descriptor.path = .ok target ∧
        (app.Reaches (callOf r.descriptor.method target args).request r ↔
          Url.Plain r.descriptor.path.toList) := by
  obtain ⟨file, hdescribed, hserved⟩ := RouteTable.described_of_mem hcompiled hr
  have hrooted : r.descriptor.path.toList.head? = some '/' := by
    rw [hdescribed]
    exact Naming.rooted_describe (Config.rooted_normalizeBase base) file
  have hat : r ∈ app.routes.routesAt r.descriptor.path :=
    List.mem_filter.2 ⟨hr, decide_eq_true rfl⟩
  obtain ⟨target, htarget, hplain, -⟩ := Url.path_target?_eq_iff horigin hrooted
  refine ⟨List.mem_map_of_mem (List.mem_map_of_mem hr), target, ?_, ?_⟩
  · rw [targetOf, htarget]
  have hmethod : (callOf r.descriptor.method target args).request.method =
      r.descriptor.method.name := by rw [Call.request, method_callOf]
  have hpath : (callOf r.descriptor.method target args).request.target.path = target.path :=
    path_callOf _ _ _
  -- a path that is not plain is asked for under another one, and no other path leads to these routes
  rw [App.Reaches, hmethod, hpath, ← hplain]
  constructor
  · rintro ⟨hlanding, -⟩
    exact App.path_eq_of_landing hat hlanding
  · intro heq
    rw [heq]
    have hunique := RouteTable.nodup_keys_of_compile hcompiled
    exact ⟨App.landing_of_mem (App.not_own_of_served hserved) hat,
      App.route?_of_mem (fun r' hr' h => RouteTable.eq_of_mem_routesAt hunique hr' hat h) hat⟩

/-- A server and a client of it. -/
def published : App := ⟨Config.standard, RouteTable.mixedTable, .start .empty none⟩

def ofPublished : Client := ⟨"http://h", "/api", none⟩

theorem isOrigin_ofPublished : Url.IsOrigin ofPublished.origin.toList :=
  ⟨"http://", by decide, "http://".toList, ['h'], by decide, by decide, by decide,
    List.forall_mem_singleton.2 (by decide)⟩

/-- One of the two routes on a path, called with an argument. -/
theorem reaches_posted :
    Endpoint.ofDescriptor false ⟨.post, "/api/x", "POST/x.sql", none⟩ ∈
        (Manifest.ofTable false RouteTable.mixedTable).endpoints ∧
      ∃ target, ofPublished.targetOf "/api/x" = .ok target ∧
        (published.Reaches (callOf .post target [("n", .int 1)]).request
            ⟨⟨.post, "/api/x", "POST/x.sql", none⟩, "3"⟩ ↔
          Url.Plain "/api/x".toList) ∧
        Url.Plain "/api/x".toList :=
  have hposted : (⟨⟨.post, "/api/x", "POST/x.sql", none⟩, "3"⟩ : Route) ∈ published.routes.routes := by
    decide
  have hcompiled : RouteTable.compile RouteTable.mixed "db" (Config.normalizeBase "/api/") =
      .ok published.routes := RouteTable.compile_mixed
  have ⟨hpublished, target, htarget, hreaches⟩ :=
    reaches_iff_plain hcompiled isOrigin_ofPublished hposted [("n", .int 1)]
  ⟨hpublished, target, htarget, hreaches, by decide +kernel⟩

/-- The route of a file name with a blank is published, and no route is found for it. -/
theorem blank_not_found :
    RouteTable.compile RouteTable.mixed "db" (Config.normalizeBase "/api") = .ok published.routes ∧
      Endpoint.ofDescriptor false ⟨.get, "/api/a b", "a b.sql", none⟩ ∈
        (Manifest.ofTable false published.routes).endpoints ∧
      ofPublished.targetOf "/api/a b" = .ok ⟨"/api/a%20b", ""⟩ ∧
      published.landing "/api/a%20b" = .unknown ∧
      (published.answer "now" (callOf .get ⟨"/api/a%20b", ""⟩ []).request).1.status = 404 :=
  ⟨RouteTable.compile_mixed, by decide, by decide +kernel, by decide +kernel, by decide +kernel⟩

end Client
end QueryTree
