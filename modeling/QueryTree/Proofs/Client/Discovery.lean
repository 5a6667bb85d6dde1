import Mathlib.Data.List.Forall2
import QueryTree.Proofs.Client.Namespace
import QueryTree.Proofs.Client.Reach
import QueryTree.Proofs.Http.Manifest

/-!
# What a client discovers

The manifest tells a client the routes of a table as they are, but for their files
(`Client.manifest_lossless`). So a client that discovers a server gets the namespaces of the routes of
its table (`Client.discover_ofServer`). Routes that share a namespace and a name are one operation, that
of the first of them. In a compiled table they differ in their methods only, unless some table has the
name of the namespace that the universal routes are in (`Client.discover_first`).
-/

namespace QueryTree

/-- The files of the routes are of no account for the namespaces. -/
theorem NamespaceSet.ofDescriptors_known (debug : Bool) (ds : List Descriptor) :
    ofDescriptors (ds.map (Endpoint.known debug)) = ofDescriptors ds := by
  rw [ofDescriptors, List.foldl_map]
  rfl

namespace RouteTable
variable {t : FileTree} {root base : String} {table : RouteTable} {d d' : Descriptor}

theorem eq_of_operation_eq (h : compile t root base = .ok table) (hd : d ∈ table.descriptors)
    (hd' : d' ∈ table.descriptors) (heq : Operation.ofDescriptor d = .ofDescriptor d') : d = d' := by
  obtain ⟨r, hr, rfl⟩ := List.mem_map.1 hd
  obtain ⟨r', hr', rfl⟩ := List.mem_map.1 hd'
  obtain ⟨-, hmethod, hpath⟩ := Operation.mk.inj heq
  rw [eq_of_key_eq (nodup_keys_of_compile h) hr hr' (Prod.ext hmethod hpath)]

theorem path_eq_routePath (h : compile t root base = .ok table) (hd : d ∈ table.descriptors) :
    d.path = Naming.routePath base d.table d.operation := by
  obtain ⟨r, hr, rfl⟩ := List.mem_map.1 hd
  obtain ⟨file, hdescribed, -⟩ := described_of_mem h hr
  rw [hdescribed]
  exact Naming.path_eq_routePath file base

/-- Two routes of one name in one namespace have one path, unless only one of them is universal. -/
theorem path_eq_or (h : compile t root base = .ok table) (hd : d ∈ table.descriptors)
    (hd' : d' ∈ table.descriptors) (hspace : Namespace.nameOf d = Namespace.nameOf d')
    (hname : d.operation = d'.operation) :
    d.path = d'.path ∨ d.isUniversal ≠ d'.isUniversal ∧ Namespace.nameOf d' = Namespace.system := by
  -- the path follows from the name and the table, and the namespace fails to tell the table only
  -- where the table is called like the namespace of the universal routes
  rw [path_eq_routePath h hd, path_eq_routePath h hd', hname]
  obtain ⟨method, path, file, table⟩ := d
  obtain ⟨method', path', file', table'⟩ := d'
  cases table with
  | none =>
    cases table' with
    | none => exact .inl rfl
    | some table' => exact .inr ⟨nofun, hspace.symm⟩
  | some table =>
    cases table' with
    | none => exact .inr ⟨nofun, rfl⟩
    | some table' =>
      obtain rfl : table = table' := hspace
      exact .inl rfl

end RouteTable

namespace App

theorem handle_root {σ : Type} [Engine σ] (app : App σ) (now : String) :
    (app.handle now ⟨"GET", ⟨"/", ""⟩, []⟩).1.status = 200 ∧
      (app.handle now ⟨"GET", ⟨"/", ""⟩, []⟩).1.body =
        (Manifest.ofTable app.config.debug app.routes).toJson.text := by
  have hanswer : app.answer now ⟨"GET", ⟨"/", ""⟩, []⟩ = (app.manifest, app) := rfl
  rw [handle, hanswer]
  cases app.config.cors <;> exact ⟨rfl, rfl⟩

end App

namespace Client
variable {c : Client} {s : Server}

theorem namespacesOf_ofTable (base : String) (debug : Bool) (t : RouteTable) :
    namespacesOf base (Manifest.ofTable debug t) = .ok (.ofDescriptors t.descriptors) := by
  simp only [namespacesOf, Manifest.descriptors_ofTable, NamespaceSet.ofDescriptors_known]

/-- The text of a table's manifest is read as the routes of the table, in their order, whatever base the
reader assumes; the files are told only if the server helps debugging. So the namespaces are those of
the table's own routes. -/
theorem manifest_lossless (t : RouteTable) (base : String) (debug : Bool) :
    ∃ m ds, Manifest.parse (Utf8.ofString (Manifest.ofTable debug t).toJson.text) = .ok m ∧
      m.descriptors base = .ok ds ∧
      List.Forall₂ (fun d known => known.method = d.method ∧ known.path = d.path ∧
        known.table = d.table ∧ known.isUniversal = d.isUniversal ∧
        known.sqlPath = if debug then d.sqlPath else "") (t.routes.map Route.descriptor) ds ∧
      namespacesOf base m = .ok (.ofDescriptors (t.routes.map Route.descriptor)) := by
  refine ⟨Manifest.ofTable debug t, t.descriptors.map (Endpoint.known debug),
    Manifest.parse_toJson _, Manifest.descriptors_ofTable base debug t, ?_,
    namespacesOf_ofTable base debug t⟩
  rw [RouteTable.descriptors, List.forall₂_map_right_iff, List.forall₂_same]
  intro d _
  exact ⟨rfl, rfl, rfl, rfl, rfl⟩

theorem targetOf_root (h : Url.IsOrigin c.origin.toList) : c.targetOf "/" = .ok ⟨"/", ""⟩ := by
  have hrooted : "/".toList.head? = some '/' := rfl
  obtain ⟨target, htarget, -, hplain⟩ := Url.path_target?_eq_iff h hrooted
  rw [targetOf, htarget, hplain (by decide)]

/-- The call for the manifest. -/
def rootCall : Call := ⟨.get, ⟨"/", ""⟩, none, []⟩

/-- The manifest in a reply. -/
def manifestOf (reply : Reply) : Except ClientFault Manifest :=
  if Status.isError reply.status then .error .exchange else read (Manifest.parse reply.body)

theorem docs_eq {σ : Type} (exchange : Exchange σ) (h : Url.IsOrigin c.origin.toList) :
    c.docs exchange = (do
      let reply ← send exchange rootCall
      ExceptT.mk (pure (manifestOf reply)) : Action σ Manifest) := by
  have hfetch : c.fetch exchange "/" = send exchange rootCall := by
    rw [fetch, targetOf_root h]
    rfl
  rw [docs, hfetch]
  refine bind_congr fun reply => ?_
  rw [manifestOf]
  split <;> rfl

theorem docs_ofServer (now : String) (s : Server) (h : Url.IsOrigin c.origin.toList) :
    (c.docs (Exchange.ofServer now)).run.run s =
      (.ok (Manifest.ofTable s.app.config.debug s.app.routes), (s.handle now rootCall.request).2) := by
  obtain ⟨hstatus, hbody⟩ := s.app.handle_root now
  have hread : manifestOf ⟨(s.app.handle now rootCall.request).1.status,
      Utf8.ofString (s.app.handle now rootCall.request).1.body⟩ =
        .ok (Manifest.ofTable s.app.config.debug s.app.routes) := by
    rw [manifestOf, rootCall, Call.request, Method.name, hstatus, hbody, Manifest.parse_toJson]
    rfl
  rw [docs_eq _ h, ← hread]
  rfl

theorem discover_ofServer (now : String) (s : Server) (h : Url.IsOrigin c.origin.toList) :
    (c.discover (Exchange.ofServer now)).run.run s =
      (.ok { c with namespaces := some (.ofDescriptors s.app.routes.descriptors) },
        (s.handle now rootCall.request).2) := by
  have hset := namespacesOf_ofTable c.apiBase s.app.config.debug s.app.routes
  rw [discover, ExceptT.run_bind, StateT.run_bind, docs_ofServer now s h]
  show (do
    let set ← ExceptT.mk (pure (namespacesOf c.apiBase
      (Manifest.ofTable s.app.config.debug s.app.routes)))
    pure { c with namespaces := some set } : Action Server Client).run.run
      (s.handle now rootCall.request).2 = _
  rw [hset]
  rfl

/-- A client that discovers a server of a compiled table finds, in the namespace and by the name of
any route, the first route that has both. It is another one only if the two differ in their methods,
or one of them is universal and the other in the table named like the namespace of those. -/
theorem discover_first {t : FileTree} {root base : String} (now : String)
    (hcompiled : RouteTable.compile t root base = .ok s.app.routes)
    (horigin : Url.IsOrigin c.origin.toList) :
    ∃ set, ((c.discover (Exchange.ofServer now)).run.run s).1 = .ok { c with namespaces := some set } ∧
      ∀ d ∈ s.app.routes.descriptors, ∃ first,
        NamespaceSet.first? (Namespace.nameOf d) d.operation s.app.routes.descriptors = some first ∧
        set.operation (Namespace.nameOf d) d.operation = .ok (.ofDescriptor first) ∧
        (Operation.ofDescriptor first = .ofDescriptor d ↔ first = d) ∧
        (first.path = d.path ∨
          first.isUniversal ≠ d.isUniversal ∧ Namespace.nameOf d = Namespace.system) := by
  refine ⟨.ofDescriptors s.app.routes.descriptors, by rw [discover_ofServer now s horigin],
    fun d hd => ?_⟩
  obtain ⟨first, hfirst⟩ := NamespaceSet.exists_first? hd
  obtain ⟨hmem, hspace, hname⟩ := NamespaceSet.of_first? hfirst
  refine ⟨first, hfirst, ?_, ⟨fun heq => ?_, fun heq => by rw [heq]⟩, ?_⟩
  · rw [NamespaceSet.operation_ofDescriptors, hfirst]
  · exact RouteTable.eq_of_operation_eq hcompiled hmem hd heq
  · exact RouteTable.path_eq_or hcompiled hmem hd hspace hname

theorem discover_first_published :
    ∃ set, ((ofPublished.discover (Exchange.ofServer "now")).run.run ⟨published, .empty⟩).1 =
        .ok { ofPublished with namespaces := some set } ∧
      ∀ d ∈ published.routes.descriptors, ∃ first,
        NamespaceSet.first? (Namespace.nameOf d) d.operation published.routes.descriptors =
          some first ∧
        set.operation (Namespace.nameOf d) d.operation = .ok (.ofDescriptor first) ∧
        (Operation.ofDescriptor first = .ofDescriptor d ↔ first = d) ∧
        (first.path = d.path ∨
          first.isUniversal ≠ d.isUniversal ∧ Namespace.nameOf d = Namespace.system) :=
  discover_first (s := ⟨published, .empty⟩) "now" RouteTable.compile_mixed isOrigin_ofPublished

/-- What is discovered of the server. -/
def publishedSet : NamespaceSet :=
  ⟨[⟨"system", [⟨"a b", .get, "/api/a b"⟩, ⟨"x", .get, "/api/x"⟩]⟩]⟩

/-- Of the three routes named `x` only the first one is there to be called. -/
theorem posted_not_discovered :
    RouteTable.compile RouteTable.mixed "db" "/api" = .ok published.routes ∧
      ⟨.post, "/api/x", "POST/x.sql", none⟩ ∈ published.routes.descriptors ∧
      ⟨.get, "/api/system/x", "Tables/system/x.sql", some "system"⟩ ∈ published.routes.descriptors ∧
      ((ofPublished.discover (Exchange.ofServer "now")).run.run ⟨published, .empty⟩).1 =
        .ok { ofPublished with namespaces := some publishedSet } ∧
      publishedSet.operation "system" "x" = .ok ⟨"x", .get, "/api/x"⟩ := by
  have hset : NamespaceSet.ofDescriptors published.routes.descriptors = publishedSet := by
    decide +kernel
  refine ⟨RouteTable.compile_mixed, by decide, by decide, ?_, rfl⟩
  rw [discover_ofServer "now" _ isOrigin_ofPublished, hset]

end Client
end QueryTree
