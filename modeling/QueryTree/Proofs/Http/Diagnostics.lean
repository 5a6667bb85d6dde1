import QueryTree.Proofs.Http.Plan
import QueryTree.Proofs.Keyed

/-!
# Diagnostics are all that debugging adds

Two runs of an app answer the same requests from the same store, one of them with diagnostics and one
without. They keep the same stores and give the same statuses, and what the second one says is what the
first one says without the debug block of an envelope and without the files in a manifest; a health
report has the time of its own run (`App.trace_withholds`). `Json.undiagnosed` takes the diagnostics out
of a body as it is sent, so the comparison does not depend on how bodies are made.
-/

namespace QueryTree

namespace Json

variable {v : Json} {members : List (String × Json)} {name key : String}

/-- An object without the members of a name. -/
def without (name : String) : Json → Json
  | object members => object (members.filter fun m => m.1 ≠ name)
  | v => v

/-- An object with what stands under a name changed. -/
def adjust (name : String) (f : Json → Json) : Json → Json
  | object members => object (members.map fun m => if m.1 = name then (m.1, f m.2) else m)
  | v => v

/-- An array with its items changed. -/
def mapItems (f : Json → Json) : Json → Json
  | array items => array (items.map f)
  | v => v

/-- What is left of a body without the debug block of an envelope and the files of a manifest. -/
def undiagnosed (v : Json) : Json :=
  (v.without "debug").adjust "endpoints" (mapItems (without "sql_path"))

/-- A health report as it would be at another time. -/
def atTime (now : String) (v : Json) : Json := v.adjust "timestamp" fun _ => .string now

/-- A body that has no debug block and lists no endpoint with its file. -/
structure Reserved (v : Json) : Prop where
  no_debug : ∀ members, v = object members → "debug" ∉ Keyed.keys members
  no_files : ∀ members items fields, v = object members → ("endpoints", array items) ∈ members →
    object fields ∈ items → "sql_path" ∉ Keyed.keys fields

theorem object_without {members : List (String × Json)} (h : v.without name = object members) :
    name ∉ Keyed.keys members := by
  cases v with
  | object all =>
    cases h
    intro hmem
    obtain ⟨m, hm, rfl⟩ := List.mem_map.1 hmem
    exact of_decide_eq_true (List.mem_filter.1 hm).2 rfl
  | _ => cases h

theorem object_adjust {f : Json → Json} (h : v.adjust name f = object members) :
    ∃ all, v = object all ∧ Keyed.keys members = Keyed.keys all ∧
      (∀ w, (name, w) ∈ members → ∃ u, (name, u) ∈ all ∧ w = f u) ∧
      ∀ key w, key ≠ name → (key, w) ∈ members → (key, w) ∈ all := by
  cases v with
  | object all =>
    cases h
    refine ⟨all, rfl, ?_, fun w hw => ?_, fun key w hkey hw => ?_⟩
    · rw [Keyed.keys, Keyed.keys, List.map_map]
      refine List.map_congr_left fun m _ => ?_
      simp only [Function.comp]
      split <;> rfl
    · obtain ⟨m, hm, heq⟩ := List.mem_map.1 hw
      split at heq
      · cases heq
        exact ⟨m.2, hm, rfl⟩
      · next hne =>
        rw [heq] at hne
        exact absurd rfl hne
    · obtain ⟨m, hm, heq⟩ := List.mem_map.1 hw
      split at heq
      · next hname =>
        cases heq
        exact absurd hname hkey
      · exact heq ▸ hm
  | _ => cases h

theorem reserved_undiagnosed (now : String) (v : Json) : (v.undiagnosed.atTime now).Reserved := by
  refine ⟨fun members hv => ?_, fun members items fields hv hitems hfields => ?_⟩
  · obtain ⟨timed, htimed, hkeys, -, -⟩ := object_adjust hv
    obtain ⟨bare, hbare, hkeys', -, -⟩ := object_adjust htimed
    rw [hkeys, hkeys']
    exact object_without hbare
  · obtain ⟨timed, htimed, -, -, hothers⟩ := object_adjust hv
    obtain ⟨bare, -, -, hchanged, -⟩ := object_adjust htimed
    obtain ⟨u, -, hu⟩ := hchanged _ (hothers _ _ (by decide) hitems)
    cases u with
    | array all =>
      cases hu
      obtain ⟨entry, -, hentry⟩ := List.mem_map.1 hfields
      exact object_without hentry
    | _ => cases hu

end Json

/-! ### The three kinds of bodies -/

theorem Envelope.undiagnosed_toJson (now : String) (e : Envelope) :
    e.toJson.undiagnosed.atTime now = { e with debug := none }.toJson := by
  obtain ⟨success, data, error, debug⟩ := e
  cases data <;> cases error <;> cases debug <;>
    simp [toJson, member, Json.undiagnosed, Json.without, Json.adjust, Json.atTime]

theorem Endpoint.without_toJson (e : Endpoint) :
    e.toJson.without "sql_path" = { e with sqlPath := none }.toJson := by
  obtain ⟨method, path, universal, table, sqlPath⟩ := e
  cases table <;> cases sqlPath <;> simp [toJson, Envelope.member, Json.without]

theorem Manifest.undiagnosed_toJson (now : String) (routes : RouteTable) :
    (ofTable true routes).toJson.undiagnosed.atTime now = (ofTable false routes).toJson := by
  have hitems : (ofTable true routes).endpoints.map (fun e => e.toJson.without "sql_path") =
      (ofTable false routes).endpoints.map Endpoint.toJson := by
    rw [ofTable, ofTable, List.map_map, List.map_map]
    exact List.map_congr_left fun d _ => (Endpoint.ofDescriptor true d).without_toJson
  have hlist : Json.mapItems (Json.without "sql_path")
      (.array ((ofTable true routes).endpoints.map Endpoint.toJson)) =
        .array ((ofTable false routes).endpoints.map Endpoint.toJson) := by
    rw [Json.mapItems, List.map_map, ← hitems]
    rfl
  have hmessage : (ofTable true routes).message = (ofTable false routes).message := rfl
  simp [toJson, Json.undiagnosed, Json.without, Json.adjust, Json.atTime, hlist, hmessage]

theorem Health.undiagnosed_toJson (now : String) (h : Health) :
    h.toJson.undiagnosed.atTime now = { h with timestamp := now }.toJson := by
  simp [toJson, Json.undiagnosed, Json.without, Json.adjust, Json.atTime, Json.mapItems, Json.ofNat]

/-! ### Responses -/

namespace Response

variable {now : String} {off on : Response}

/-- The first response says what the second one says but for its diagnostics. -/
structure Withholds (now : String) (off on : Response) : Prop where
  status_eq : off.status = on.status
  headers_eq : off.headers = on.headers
  body : off.body = "" ∧ on.body = "" ∨
    ∃ v : Json, on.body = v.text ∧ off.body = (v.undiagnosed.atTime now).text

/-- A response that gives no diagnostics away. -/
def Reserved (r : Response) : Prop := r.body = "" ∨ ∃ v : Json, r.body = v.text ∧ v.Reserved

theorem Withholds.reserved (h : Withholds now off on) : off.Reserved := by
  obtain ⟨hoff, -⟩ | ⟨v, -, hoff⟩ := h.body
  · exact .inl hoff
  · exact .inr ⟨_, hoff, Json.reserved_undiagnosed now v⟩

theorem withholds_json (status : Nat) {v w : Json} (h : w.undiagnosed.atTime now = v) :
    Withholds now (json status v) (json status w) :=
  ⟨rfl, rfl, .inr ⟨w, rfl, by rw [h]; rfl⟩⟩

theorem withholds_failure (now : String) (f : Failure) : Withholds now (failure f) (failure f) :=
  withholds_json f.status (Envelope.undiagnosed_toJson now (Envelope.failed f.message))

theorem withholds_bodiless (now : String) {r : Response} (h : r.body = "") : Withholds now r r :=
  ⟨rfl, rfl, .inl ⟨h, h⟩⟩

theorem Withholds.withHeaders (h : Withholds now off on) (headers : List (String × String)) :
    Withholds now { off with headers := off.headers ++ headers }
      { on with headers := on.headers ++ headers } :=
  ⟨h.status_eq, congrArg (· ++ headers) h.headers_eq, h.body⟩

theorem Withholds.withoutBody (h : Withholds now off on) :
    Withholds now off.withoutBody on.withoutBody :=
  ⟨h.status_eq, h.headers_eq, .inl ⟨rfl, rfl⟩⟩

end Response

/-! ### One request -/

namespace App

open Response (Withholds)

variable {σ : Type} {now now' : String} {off on : Response}

/-- The app with debugging on or off. -/
def withDebug (app : App σ) (debug : Bool) : App σ := { app with config := { app.config with debug } }

theorem respond_withholds (now : String) (route : Route) (e : Execution) :
    Withholds now (respond false route e) (respond true route e) := by
  unfold respond
  cases e.outcome with
  | ok answer => exact Response.withholds_json _ (Envelope.undiagnosed_toJson now _)
  | error fault => exact Response.withholds_json _ (Envelope.undiagnosed_toJson now _)

theorem manifest_withholds (now : String) (app : App σ) :
    Withholds now (app.withDebug false).manifest (app.withDebug true).manifest :=
  Response.withholds_json 200 (Manifest.undiagnosed_toJson now app.routes)

theorem readOnly_withholds (method : String) (h : Withholds now off on) :
    Withholds now (readOnly method off) (readOnly method on) := by
  unfold readOnly
  split
  · exact h
  split
  · exact h.withoutBody
  · exact Response.withholds_bodiless now rfl

variable [Engine σ]

theorem dispatch_withholds (now : String) (routes : List Route) (request : Request) (s : Store σ) :
    Withholds now (dispatch false routes request s).1 (dispatch true routes request s).1 ∧
      (dispatch false routes request s).2 = (dispatch true routes request s).2 := by
  unfold dispatch
  split
  · exact ⟨Response.withholds_bodiless now rfl, rfl⟩
  cases route? request.method routes with
  | none => exact ⟨(Response.withholds_failure now _).withHeaders _, rfl⟩
  | some route =>
    cases request.params with
    | error refusal => exact ⟨Response.withholds_failure now _, rfl⟩
    | ok params => exact ⟨respond_withholds now route _, rfl⟩

theorem health_withholds (now now' : String) (app : App σ) :
    Withholds now ((app.withDebug false).health now) ((app.withDebug true).health now') :=
  Response.withholds_json _ (Health.undiagnosed_toJson now _)

theorem answer_withholds (now now' : String) (app : App σ) (request : Request) :
    Withholds now ((app.withDebug false).answer now request).1
        ((app.withDebug true).answer now' request).1 ∧
      ((app.withDebug false).answer now request).2.store =
        ((app.withDebug true).answer now' request).2.store := by
  have hroutes : ∀ debug, (app.withDebug debug).routes = app.routes := fun _ => rfl
  rw [App.answer, App.answer, hroutes, hroutes]
  dsimp only
  split
  · exact ⟨readOnly_withholds _ (manifest_withholds now app), rfl⟩
  split
  · exact ⟨readOnly_withholds _ (health_withholds now now' app), rfl⟩
  cases app.routes.routesAt request.target.path with
  | nil => exact ⟨Response.withholds_failure now _, rfl⟩
  | cons route routes => exact dispatch_withholds now (route :: routes) request app.store

theorem handle_withholds (now now' : String) (app : App σ) (request : Request) :
    Withholds now ((app.withDebug false).handle now request).1
        ((app.withDebug true).handle now' request).1 ∧
      ((app.withDebug false).handle now request).2.store =
        ((app.withDebug true).handle now' request).2.store := by
  have hcors : ∀ debug, (app.withDebug debug).config.cors = app.config.cors := fun _ => rfl
  have hanswer := answer_withholds now now' app request
  unfold handle
  rw [hcors, hcors]
  split
  · exact hanswer
  split
  · exact ⟨Response.withholds_bodiless now rfl, rfl⟩
  · exact ⟨hanswer.1.withHeaders _, hanswer.2⟩

/-- A request leaves the setting and changes the store of the app. -/
theorem handle_withDebug (now : String) (app : App σ) (debug : Bool) (request : Request) :
    ((app.withDebug debug).handle now request).2 =
      { app with store := ((app.withDebug debug).handle now request).2.store }.withDebug debug :=
  (app.withDebug debug).handle_snd now request

end App

/-! ### A sequence of requests -/

/-- What an app answers at a time, and the store it is left with. -/
structure Served (σ : Type) where
  time : String
  response : Response
  store : Store σ

/-- What two apps serve, the first one without the diagnostics of the second one. -/
structure Served.Withholds {σ : Type} (off on : Served σ) : Prop where
  response : off.response.Withholds off.time on.response
  store_eq : off.store = on.store

namespace App

variable {σ : Type} [Engine σ]

/-- What the app serves to one request after the other; the clock gives the time of each. -/
def trace (clock : Nat → String) (app : App σ) : List Request → List (Served σ)
  | [] => []
  | request :: requests =>
    let (response, app) := app.handle (clock 0) request
    ⟨clock 0, response, app.store⟩ :: app.trace (fun n => clock (n + 1)) requests

theorem trace_cons (clock : Nat → String) (app : App σ) (request : Request)
    (requests : List Request) :
    app.trace clock (request :: requests) =
      ⟨clock 0, (app.handle (clock 0) request).1, (app.handle (clock 0) request).2.store⟩ ::
        (app.handle (clock 0) request).2.trace (fun n => clock (n + 1)) requests := rfl

theorem forall₂_trace (app : App σ) (requests : List Request) (clock clock' : Nat → String) :
    List.Forall₂ Served.Withholds ((app.withDebug false).trace clock requests)
      ((app.withDebug true).trace clock' requests) := by
  induction requests generalizing app clock clock' with
  | nil => exact .nil
  | cons request requests ih =>
    obtain ⟨hresponse, hstore⟩ := handle_withholds (clock 0) (clock' 0) app request
    rw [trace_cons, trace_cons]
    refine .cons ⟨hresponse, hstore⟩ ?_
    -- Both runs go on from the same store, each with its own setting.
    rw [handle_withDebug, handle_withDebug (clock' 0), ← hstore]
    exact ih _ _ _

/-- Over the same requests, each at a time of its own, an app without debugging answers as with it but for
the diagnostics, of which it gives none away, and it keeps the same stores. -/
theorem trace_withholds (app : App σ) (requests : List Request) (clock clock' : Nat → String) :
    List.Forall₂ Served.Withholds ((app.withDebug false).trace clock requests)
        ((app.withDebug true).trace clock' requests) ∧
      ∀ served ∈ (app.withDebug false).trace clock requests, served.response.Reserved := by
  have hruns := app.forall₂_trace requests clock clock'
  refine ⟨hruns, fun served hserved => ?_⟩
  obtain ⟨n, hn, rfl⟩ := List.getElem_of_mem hserved
  exact (hruns.get hn (hruns.length_eq ▸ hn)).response.reserved

end App

end QueryTree
