import QueryTree.Proofs.Route.Table

/-!
# Route tables in the order of insertion

A table is the ordered map of the routes that were put in, one after the other (`OrderedMap`): a key
has the last route put in with it and stands where it first appeared. An insertion gives back the one
route that it displaces (`inserted_insert`). The views of a table lose nothing: the groups of its paths
hold every route once (`flatMap_byPath_perm`), and the tables that occur are listed in order.
-/

namespace QueryTree.RouteTable

variable {before : List Route} {route : Route} {path name : String} {t : RouteTable}

/-! ### One insertion -/

theorem place_append (h : ∀ r ∈ before, r.key ≠ route.key) (after : List Route) :
    place route (before ++ after) = before ++ place route after := by
  induction before with
  | nil => rfl
  | cons r before ih =>
    rw [List.cons_append, place, if_neg (h r List.mem_cons_self),
      ih fun q hq => h q (List.mem_cons_of_mem r hq)]
    rfl

/-- What an insertion makes of the routes of a table and gives back. The only route with the key is
displaced, and the new one stands in its place; if there is none, the new one stands behind all. -/
inductive Inserted (route : Route) : List Route → List Route → Option Route → Prop
  | displacing {before after : List Route} {old : Route} (hkey : old.key = route.key)
      (hothers : ∀ r ∈ before ++ after, r.key ≠ route.key) :
      Inserted route (before ++ old :: after) (before ++ route :: after) (some old)
  | appending {routes : List Route} (hnew : ∀ r ∈ routes, r.key ≠ route.key) :
      Inserted route routes (routes ++ [route]) none

theorem inserted_insert (h : (t.routes.map Route.key).Nodup) (route : Route) :
    Inserted route t.routes (t.insert route).1.routes (t.insert route).2 := by
  obtain ⟨routes⟩ := t
  by_cases hkey : ∃ old ∈ routes, old.key = route.key
  · obtain ⟨old, hold, hkey⟩ := hkey
    obtain ⟨before, after, rfl⟩ := List.append_of_mem hold
    have hothers : ∀ r ∈ before ++ after, r.key ≠ route.key := by
      intro r hr hrkey
      have hperm : ((before ++ old :: after).map Route.key).Perm
          (old.key :: (before ++ after).map Route.key) :=
        (List.perm_middle.map Route.key)
      have hold := (List.nodup_cons.1 (hperm.nodup h)).1
      exact hold (hkey.trans hrkey.symm ▸ List.mem_map_of_mem hr)
    have hbefore : ∀ r ∈ before, r.key ≠ route.key :=
      fun r hr => hothers r (List.mem_append_left after hr)
    have hplaced : place route (before ++ old :: after) = before ++ route :: after := by
      rw [place_append hbefore, place, if_pos hkey]
    have hfound : get? ⟨before ++ old :: after⟩ route.descriptor.method route.descriptor.path =
        some old := by
      refine List.find?_eq_some_iff_append.2 ⟨decide_eq_true hkey, before, after, rfl, fun r hr => ?_⟩
      have hne : r.key ≠ (route.descriptor.method, route.descriptor.path) := hbefore r hr
      simpa using hne
    rw [insert, hplaced, hfound]
    exact .displacing hkey hothers
  · have hnew : ∀ r ∈ routes, r.key ≠ route.key := fun r hr hrkey => hkey ⟨r, hr, hrkey⟩
    have hplaced : place route routes = routes ++ [route] := by
      have happend := place_append hnew []
      rwa [List.append_nil] at happend
    have hnone : get? ⟨routes⟩ route.descriptor.method route.descriptor.path = none := by
      refine List.find?_eq_none.2 fun r hr hfound => ?_
      exact hnew r hr (of_decide_eq_true hfound)
    rw [insert, hplaced, hnone]
    exact .appending hnew

theorem get?_insert (t : RouteTable) (route : Route) (method : Method) (path : String) :
    (t.insert route).1.get? method path =
      if route.key = (method, path) then some route else t.get? method path := by
  rw [get?_eq, get?_eq, ← Keyed.get?_put, ← pairs_place]
  rfl

/-! ### All insertions -/

theorem get?_ofList_eq (inserted : List Route) (method : Method) (path : String) :
    (ofList inserted).get? method path =
      (inserted.filter fun r => r.key = (method, path)).getLast? := by
  induction inserted using List.reverseRecOn with
  | nil => rfl
  | append_singleton inserted route ih =>
    have hstep : ofList (inserted ++ [route]) = ((ofList inserted).insert route).1 := by
      rw [ofList, List.foldl_append]
      rfl
    rw [hstep, get?_insert, ih, List.filter_append]
    by_cases hkey : route.key = (method, path)
    · simp [hkey]
    · simp [hkey]

theorem keys_ofList (inserted : List Route) :
    (ofList inserted).routes.map Route.key = (inserted.map Route.key).eraseDups := by
  rw [← keys_pairs, ← keys_pairs, pairs_ofList, Keyed.keys_ofList]

theorem size_ofList (inserted : List Route) :
    (ofList inserted).size = (inserted.map Route.key).toFinset.card := by
  rw [← length_eraseDups, ← keys_ofList, List.length_map]
  rfl

/-! ### Groups -/

theorem group_of_mem {paths : List String} {routes : String → List Route} (h : paths.Nodup)
    (hmem : route.descriptor.path ∈ paths) :
    group route (paths.map fun path => (path, routes path)) = paths.map fun path =>
      (path, if path = route.descriptor.path then routes path ++ [route] else routes path) := by
  induction paths with
  | nil => cases hmem
  | cons path paths ih =>
    obtain ⟨hpath, hpaths⟩ := List.nodup_cons.1 h
    rw [List.map_cons, List.map_cons, group]
    by_cases hown : path = route.descriptor.path
    · have hothers : ∀ other ∈ paths, other ≠ route.descriptor.path :=
        fun other hother hsame => hpath (hown ▸ hsame ▸ hother)
      rw [if_pos hown, if_pos hown]
      congr 1
      exact List.map_congr_left fun other hother => by rw [if_neg (hothers other hother)]
    · rw [if_neg hown, if_neg hown,
        ih hpaths ((List.mem_cons.1 hmem).resolve_left (Ne.symm hown))]

theorem group_of_notMem {groups : List (String × List Route)}
    (h : route.descriptor.path ∉ groups.map Prod.fst) :
    group route groups = groups ++ [(route.descriptor.path, [route])] := by
  induction groups with
  | nil => rfl
  | cons g groups ih =>
    rw [List.map_cons, List.mem_cons, not_or] at h
    rw [group, if_neg (Ne.symm h.1), ih h.2]
    rfl

theorem paths_eq (t : RouteTable) :
    t.paths = (t.routes.map fun r => r.descriptor.path).eraseDups := by
  rw [paths, descriptors, List.map_map]
  rfl

theorem mem_paths : path ∈ t.paths ↔ ∃ r ∈ t.routes, r.descriptor.path = path := by
  rw [paths_eq, List.mem_eraseDups, List.mem_map]

theorem forall_mem_paths {P : String → Prop} :
    (∀ path ∈ t.paths, P path) ↔ ∀ r ∈ t.routes, P r.descriptor.path := by
  simp only [mem_paths, forall_exists_index, and_imp, forall_apply_eq_imp_iff₂]

theorem nodup_paths (t : RouteTable) : t.paths.Nodup := nodup_eraseDups _

/-- The paths of a table stand in the order in which they first appeared among all routes put in. -/
theorem paths_ofList (inserted : List Route) :
    (ofList inserted).paths = (inserted.map fun r => r.descriptor.path).eraseDups := by
  have hsnd : ∀ routes : List Route,
      routes.map (fun r => r.descriptor.path) = (routes.map Route.key).map Prod.snd := by
    intro routes
    rw [List.map_map]
    rfl
  rw [paths_eq, hsnd, keys_ofList, eraseDups_map_eraseDups, ← hsnd]

/-- Grouping one route after the other gives every path its routes. -/
theorem byPath_eq (t : RouteTable) : t.byPath = t.paths.map fun path => (path, t.routesAt path) := by
  obtain ⟨routes⟩ := t
  induction routes using List.reverseRecOn with
  | nil => rfl
  | append_singleton routes route ih =>
    have hstep : byPath ⟨routes ++ [route]⟩ = group route (byPath ⟨routes⟩) := by
      rw [byPath, List.foldl_append]
      rfl
    have hroutes : ∀ path, routesAt ⟨routes ++ [route]⟩ path =
        if path = route.descriptor.path then routesAt ⟨routes⟩ path ++ [route]
        else routesAt ⟨routes⟩ path := by
      intro path
      rw [routesAt, routesAt, List.filter_append]
      by_cases hpath : path = route.descriptor.path
      · simp [hpath]
      · simp [hpath, Ne.symm hpath]
    have hpaths : paths ⟨routes ++ [route]⟩ =
        if route.descriptor.path ∈ paths ⟨routes⟩ then paths ⟨routes⟩
        else paths ⟨routes⟩ ++ [route.descriptor.path] := by
      simp only [paths_eq, List.map_append, List.map_singleton, eraseDups_append_singleton,
        List.mem_eraseDups]
    rw [hstep, ih, hpaths]
    simp only [hroutes]
    split
    · next hmem => exact group_of_mem (nodup_paths _) hmem
    · next hmem =>
      have hgroups : ((paths ⟨routes⟩).map fun path => (path, routesAt ⟨routes⟩ path)).map Prod.fst =
          paths ⟨routes⟩ := by
        rw [List.map_map]
        exact List.map_id _
      have hnone : routesAt ⟨routes⟩ route.descriptor.path = [] := by
        refine List.filter_eq_nil_iff.2 fun r hr hpath => hmem ?_
        exact mem_paths.2 ⟨r, hr, of_decide_eq_true hpath⟩
      rw [group_of_notMem (by rwa [hgroups]), List.map_append, List.map_singleton, if_pos rfl, hnone]
      congr 1
      refine List.map_congr_left fun path hpath => ?_
      rw [if_neg (ne_of_mem_of_not_mem hpath hmem)]

theorem snd_of_mem_byPath {g : String × List Route} (h : g ∈ t.byPath) : g.2 = t.routesAt g.1 := by
  rw [byPath_eq] at h
  obtain ⟨path, -, rfl⟩ := List.mem_map.1 h
  rfl

theorem map_fst_byPath (t : RouteTable) : t.byPath.map Prod.fst = t.paths := by
  rw [byPath_eq, List.map_map]
  exact List.map_id t.paths

theorem flatMap_byPath_perm (t : RouteTable) : (t.byPath.flatMap Prod.snd).Perm t.routes := by
  have hgroups : t.byPath.flatMap Prod.snd = t.paths.flatMap t.routesAt := by
    rw [byPath_eq, List.flatMap_map]
  have hall : (t.routes.filter fun r => r.descriptor.path ∈ t.paths) = t.routes := by
    refine List.filter_eq_self.2 fun r hr => decide_eq_true ?_
    exact mem_paths.2 ⟨r, hr, rfl⟩
  have hperm := flatMap_filter_perm (fun r : Route => r.descriptor.path) t.nodup_paths t.routes
  rw [hall] at hperm
  rw [hgroups]
  exact hperm

/-- The methods of the routes of one path are distinct. -/
theorem nodup_methods_routesAt (h : (t.routes.map Route.key).Nodup) (path : String) :
    ((t.routesAt path).map fun r => r.descriptor.method).Nodup := by
  have hkeys : ((t.routesAt path).map Route.key).Nodup := h.sublist (List.filter_sublist.map _)
  rw [List.Nodup, List.pairwise_map] at hkeys ⊢
  refine hkeys.imp_of_mem fun {r r'} hr hr' hne hmethod => hne ?_
  have hpath := of_decide_eq_true (List.mem_filter.1 hr).2
  have hpath' := of_decide_eq_true (List.mem_filter.1 hr').2
  exact Prod.ext hmethod (hpath.trans hpath'.symm)

/-! ### Tables -/

theorem mem_dedup {l : List String} : name ∈ dedup l ↔ name ∈ l := by
  induction l using dedup.induct with
  | case1 | case2 s => rfl
  | case3 s l ih =>
    rw [dedup, if_pos rfl, ih]
    simp
  | case4 s s' l hne ih => rw [dedup, if_neg hne, List.mem_cons, ih, List.mem_cons (l := s' :: l)]

theorem sorted_dedup {l : List String} (h : l.Pairwise (· ≤ ·)) : (dedup l).Pairwise (· < ·) := by
  induction l using dedup.induct with
  | case1 => exact .nil
  | case2 s => exact List.pairwise_singleton _ s
  | case3 s l ih =>
    rw [dedup, if_pos rfl]
    exact ih (List.pairwise_cons.1 h).2
  | case4 s s' l hne ih =>
    obtain ⟨hle, hmore⟩ := List.pairwise_cons.1 h
    have hlt : s < s' := Std.lt_of_le_of_ne (hle s' List.mem_cons_self) hne
    rw [dedup, if_neg hne]
    refine List.pairwise_cons.2 ⟨fun other hother => ?_, ih hmore⟩
    rcases List.mem_cons.1 (mem_dedup.1 hother) with rfl | hother
    · exact hlt
    · exact Std.lt_of_lt_of_le hlt ((List.pairwise_cons.1 hmore).1 other hother)

theorem mem_tables : name ∈ t.tables ↔ ∃ r ∈ t.routes, r.descriptor.table = some name := by
  rw [tables, mem_dedup, (List.mergeSort_perm _ _).mem_iff, List.mem_filterMap, descriptors]
  simp only [List.mem_map, exists_exists_and_eq_and]

theorem sorted_tables (t : RouteTable) : t.tables.Pairwise (· < ·) :=
  sorted_dedup (pairwise_le_mergeSort _)

/-! ### The ordered map -/

/-- The table is the ordered map of the routes that were put in, one after the other. -/
structure OrderedMap (inserted : List Route) (t : RouteTable) : Prop where
  nodup_keys : (t.routes.map Route.key).Nodup
  /-- A key has the last route that was put in with it. -/
  get?_eq : ∀ method path,
    t.get? method path = (inserted.filter fun r => r.key = (method, path)).getLast?
  /-- The routes stand in the order in which their keys first appeared. -/
  keys_eq : t.routes.map Route.key = (inserted.map Route.key).eraseDups
  size_eq : t.size = (inserted.map Route.key).toFinset.card
  /-- Every insertion gave back what it displaced. -/
  displaced : ∀ before route after, inserted = before ++ route :: after →
    Inserted route (ofList before).routes ((ofList before).insert route).1.routes
      ((ofList before).insert route).2
  nodup_paths : (t.byPath.map Prod.fst).Nodup
  /-- The groups stand in the order in which their paths first appear in the table, which is that in
  which they first appeared at all. -/
  paths_eq : t.byPath.map Prod.fst = (t.routes.map fun r => r.descriptor.path).eraseDups ∧
    t.byPath.map Prod.fst = (inserted.map fun r => r.descriptor.path).eraseDups
  /-- A group holds the routes of its path, in the order of the table. -/
  group_eq : ∀ group ∈ t.byPath, group.2 = t.routes.filter fun r => r.descriptor.path = group.1
  groups_perm : (t.byPath.flatMap Prod.snd).Perm t.routes
  sorted_tables : t.tables.Pairwise (· < ·)
  mem_tables : ∀ name, name ∈ t.tables ↔ ∃ r ∈ t.routes, r.descriptor.table = some name

/-- A table that is made by insertions is the ordered map of what was put in. -/
theorem orderedMap_ofList (inserted : List Route) : OrderedMap inserted (ofList inserted) where
  nodup_keys := nodup_keys_ofList inserted
  get?_eq := get?_ofList_eq inserted
  keys_eq := keys_ofList inserted
  size_eq := size_ofList inserted
  displaced before route _ _ := inserted_insert (nodup_keys_ofList before) route
  nodup_paths := by
    rw [map_fst_byPath]
    exact (ofList inserted).nodup_paths
  paths_eq := by
    rw [map_fst_byPath]
    exact ⟨(ofList inserted).paths_eq, paths_ofList inserted⟩
  group_eq _ := snd_of_mem_byPath
  groups_perm := (ofList inserted).flatMap_byPath_perm
  sorted_tables := (ofList inserted).sorted_tables
  mem_tables _ := RouteTable.mem_tables

end QueryTree.RouteTable
