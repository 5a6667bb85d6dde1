import QueryTree.Proofs.Keyed
import QueryTree.Route.Table

/-!
# Route tables as maps

A route table is an ordered map from methods and paths to routes (`pairs_ofList`). So of the routes
that a table is made from, the last one with a key is held, at the place of the first one.
-/

namespace QueryTree.RouteTable

variable {routes : List Route} {route : Route} {method : Method} {path : String} {t : RouteTable}

/-- Routes with their keys. -/
def pairs (routes : List Route) : List ((Method × String) × Route) := routes.map fun r => (r.key, r)

theorem keys_pairs (routes : List Route) : Keyed.keys (pairs routes) = routes.map Route.key := by
  rw [Keyed.keys, pairs, List.map_map]
  rfl

theorem pairs_place (route : Route) (routes : List Route) :
    pairs (place route routes) = Keyed.put route.key route (pairs routes) := by
  induction routes with
  | nil => rfl
  | cons r rs ih =>
    rw [place]
    show _ = Keyed.put route.key route ((r.key, r) :: pairs rs)
    rw [Keyed.put]
    split
    · next hkey => rw [hkey]; rfl
    · next hkey => rw [← ih]; rfl

theorem ofList_append_singleton (routes : List Route) (route : Route) :
    (ofList (routes ++ [route])).routes = place route (ofList routes).routes := by
  rw [ofList, List.foldl_append]
  rfl

theorem mem_place {r : Route} (h : r ∈ place route routes) : r = route ∨ r ∈ routes := by
  induction routes with
  | nil => exact .inl (List.mem_singleton.1 h)
  | cons q qs ih =>
    rw [place] at h
    split at h
    · exact (List.mem_cons.1 h).imp_right (List.mem_cons_of_mem q)
    · rcases List.mem_cons.1 h with rfl | h
      · exact .inr List.mem_cons_self
      · exact (ih h).imp_right (List.mem_cons_of_mem q)

theorem mem_of_mem_ofList (h : route ∈ (ofList routes).routes) : route ∈ routes := by
  induction routes using List.reverseRecOn with
  | nil => cases h
  | append_singleton routes r ih =>
    rw [ofList_append_singleton] at h
    rcases mem_place h with rfl | h
    · exact List.mem_append_right _ List.mem_cons_self
    · exact List.mem_append_left _ (ih h)

theorem pairs_ofList (routes : List Route) :
    pairs (ofList routes).routes = Keyed.ofList (pairs routes) := by
  induction routes using List.reverseRecOn with
  | nil => rfl
  | append_singleton routes route ih =>
    rw [ofList_append_singleton, pairs_place, ih, pairs, pairs, List.map_append]
    exact (Keyed.ofList_append_singleton _ (route.key, route)).symm

theorem get?_eq (t : RouteTable) (method : Method) (path : String) :
    t.get? method path = Keyed.get? (method, path) (pairs t.routes) := by
  rw [get?]
  induction t.routes with
  | nil => rfl
  | cons r rs ih =>
    show _ = Keyed.get? (method, path) ((r.key, r) :: pairs rs)
    rw [List.find?_cons, Keyed.get?]
    by_cases hkey : r.key = (method, path)
    · simp [hkey]
    · simp [hkey, ih]

theorem mem_of_get? (h : t.get? method path = some route) :
    route ∈ t.routes ∧ route.key = (method, path) := by
  rw [get?] at h
  exact ⟨List.mem_of_find?_eq_some h, by simpa using List.find?_some h⟩

theorem exists_get?_ofList :
    (∃ r, (ofList routes).get? method path = some r) ↔ ∃ r ∈ routes, r.key = (method, path) := by
  simp only [get?_eq, pairs_ofList]
  rw [← List.mem_map, ← keys_pairs, ← Keyed.mem_keys_ofList]
  constructor
  · rintro ⟨_, h⟩
    exact Keyed.mem_keys_of_get? h
  · exact Keyed.get?_of_mem

/-- A table holds the last route with a key. -/
theorem get?_ofList :
    (ofList routes).get? method path = some route ↔
      ∃ pre post, routes = pre ++ route :: post ∧ route.key = (method, path) ∧
        ∀ r ∈ post, r.key ≠ (method, path) := by
  rw [get?_eq, pairs_ofList, Keyed.get?_ofList]
  constructor
  · rintro ⟨pre, post, heq, hpost⟩
    obtain ⟨pre, rest, rfl, rfl, hrest⟩ := List.map_eq_append_iff.1 heq
    obtain ⟨r, post, rfl, hr, rfl⟩ := List.map_eq_cons_iff.1 hrest
    obtain ⟨hkey, rfl⟩ := Prod.mk.inj hr
    refine ⟨pre, post, rfl, hkey, fun q hq hqkey => hpost ?_⟩
    show (method, path) ∈ Keyed.keys (pairs post)
    rw [keys_pairs, ← hqkey]
    exact List.mem_map_of_mem hq
  · rintro ⟨pre, post, rfl, hkey, hpost⟩
    refine ⟨pairs pre, pairs post, ?_, ?_⟩
    · rw [← hkey, pairs, List.map_append]
      rfl
    · rw [keys_pairs, List.mem_map]
      rintro ⟨r, hr, hrkey⟩
      exact hpost r hr hrkey

theorem nodup_keys_ofList (routes : List Route) : ((ofList routes).routes.map Route.key).Nodup := by
  rw [← keys_pairs, pairs_ofList]
  exact Keyed.nodup_keys_ofList _

/-- In a table a route stands before another one if the first route with its key came before every
route with the key of the other. -/
theorem pairwise_ofList (routes : List Route) :
    (ofList routes).routes.Pairwise fun r r' =>
      ∃ pre first post, routes = pre ++ first :: post ∧ first.key = r.key ∧ r'.key ≠ r.key ∧
        ∀ q ∈ pre, q.key ≠ r'.key := by
  have h := Keyed.pairwise_keys_ofList (l := pairs routes)
  rw [← pairs_ofList, keys_pairs (ofList routes).routes, List.pairwise_map] at h
  refine h.imp ?_
  rintro r r' ⟨pre, post, heq, hne, hpre⟩
  rw [keys_pairs] at heq
  obtain ⟨pre, rest, rfl, rfl, hrest⟩ := List.map_eq_append_iff.1 heq
  obtain ⟨first, post, rfl, hfirst, rfl⟩ := List.map_eq_cons_iff.1 hrest
  exact ⟨pre, first, post, rfl, hfirst, hne, fun q hq hkey => hpre (hkey ▸ List.mem_map_of_mem hq)⟩

theorem eq_of_key_eq {r r' : Route} (ht : (t.routes.map Route.key).Nodup) (hr : r ∈ t.routes)
    (hr' : r' ∈ t.routes) (hkey : r.key = r'.key) : r = r' := by
  have hmem : (r.key, r) ∈ pairs t.routes := List.mem_map_of_mem hr
  have hmem' : (r.key, r') ∈ pairs t.routes := hkey ▸ List.mem_map_of_mem hr'
  rw [← keys_pairs] at ht
  exact Keyed.eq_of_mem ht hmem hmem'

/-- Of the routes at one path, each method has one. -/
theorem eq_of_mem_routesAt {r r' : Route} (ht : (t.routes.map Route.key).Nodup)
    (h : r ∈ t.routesAt path) (h' : r' ∈ t.routesAt path)
    (hmethod : r.descriptor.method = r'.descriptor.method) : r = r' := by
  obtain ⟨hr, hpath⟩ := List.mem_filter.1 h
  obtain ⟨hr', hpath'⟩ := List.mem_filter.1 h'
  refine eq_of_key_eq ht hr hr' ?_
  rw [Route.key, Route.key, hmethod, of_decide_eq_true hpath, of_decide_eq_true hpath']

end QueryTree.RouteTable
