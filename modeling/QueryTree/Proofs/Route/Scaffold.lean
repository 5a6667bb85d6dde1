import QueryTree.Proofs.Client.Namespace
import QueryTree.Proofs.Files.Fresh
import QueryTree.Proofs.Route.Compile
import QueryTree.Proofs.Route.Naming

/-!
# What scaffolding gives

Scaffolding takes nothing away and is done after one run, on every tree. On a root that holds the
schema script alone, the tree that it leaves compiles to four routes for each declared table, and to
no others.
-/

namespace QueryTree

open FileTree FileAction

namespace Layout

variable {l : Layout} {tables : List String} {script base table : String} {dir : Place}
  {t t' : FileTree} {path : List String} {route : Route} {m : Method}

/-! ### The routes of a table -/

/-- The name under which clients call the template of a method. -/
def verb : Method → String
  | .get => "select"
  | .post => "insert"
  | .put => "update"
  | .delete => "delete"

/-- The parts of the path of a template, from the root. -/
def templateParts (table : String) (m : Method) : List String :=
  [Naming.tablesFolder, table, m.name, (template m).1]

/-- The route of a table for a method. -/
def crudRoute (base table : String) (m : Method) : Route where
  descriptor := {
    method := m
    path := base ++ "/" ++ table ++ "/" ++ verb m
    sqlPath := "/".intercalate (templateParts table m)
    table := some table }
  sql := (template m).2

/-- A name without the characters that separate the parts of a relative path. -/
structure IsSegment (name : String) : Prop where
  part : Path.IsPart name
  backslash : '\\' ∉ name.toList

theorem segments_intercalate (hnames : ∀ name ∈ path, IsSegment name) (hne : path ≠ []) :
    Naming.segments ("/".intercalate path) = path := by
  have hpieces : ∀ s ∈ path.map String.toList, ∀ c ∈ s, (c == '/' || c == '\\') = false := by
    intro s hs c hc
    obtain ⟨name, hname, rfl⟩ := List.mem_map.1 hs
    have hslash : c ≠ '/' := fun h => (hnames name hname).part.slash (h ▸ hc)
    have hback : c ≠ '\\' := fun h => (hnames name hname).backslash (h ▸ hc)
    simp [hslash, hback]
  have hsplit := Text.splitBy_joinWith (p := fun c => c == '/' || c == '\\') (c := '/')
    (by simpa using hne) hpieces (by decide)
  have hkept : ∀ name ∈ path, (name ≠ "" && name ≠ ".") = true := by
    intro name hname
    have hpart := (hnames name hname).part
    simp [hpart.ne_empty, hpart.ne_dot]
  rw [Naming.segments, String.toList_intercalate]
  rw [Text.joinWith_eq_intercalate] at hsplit
  have hslash : "/".toList = ['/'] := rfl
  rw [hslash, hsplit, List.map_map]
  have hid : path.map (String.ofList ∘ String.toList) = path := by
    simp
  rw [hid, List.filter_eq_self.2 hkept]

theorem describe_template (htable : IsSegment table) (base : String) (m : Method) :
    Naming.describe ("/".intercalate (templateParts table m)) base = (crudRoute base table m).descriptor := by
  have hsegments : Naming.segments ("/".intercalate (templateParts table m)) = templateParts table m := by
    refine segments_intercalate ?_ (List.cons_ne_nil _ _)
    have hm : IsSegment m.name := ⟨isPart_name m, by cases m <;> decide⟩
    have hfile : IsSegment (template m).1 := ⟨isPart_template m, by cases m <;> decide⟩
    have hfolder : IsSegment Naming.tablesFolder := ⟨isPart_tablesFolder, by decide⟩
    simp [templateParts, hm, hfile, hfolder, htable]
  have hstem : Naming.fileStem (template m).1 = verb m := by cases m <;> decide
  have hfolder : Naming.tableSegment? [Naming.tablesFolder, table, m.name] = some (1, table) := by
    simp [Naming.tableSegment?, List.idxOf?_cons]
  have hmethod : Naming.methodFor [Naming.tablesFolder, table, m.name] (some 1) (verb m) = m := by
    have hnone : Method.ofName? Naming.tablesFolder = none := by decide
    simp [Naming.methodFor, List.zipIdx_cons, hnone, ofName?_name]
  rw [Naming.describe, hsegments]
  simp only [templateParts, List.dropLast_cons_cons, List.dropLast_singleton, List.getLast?_cons_cons,
    List.getLast?_singleton, Option.getD_some, hstem, hfolder, Option.map_some, hmethod]
  rfl

theorem toList_path_crudRoute (base table : String) (m : Method) :
    (crudRoute base table m).descriptor.path.toList =
      base.toList ++ '/' :: table.toList ++ '/' :: (verb m).toList := by
  simp [crudRoute, String.toList_append]

theorem operation_crudRoute (base table : String) (m : Method) :
    (crudRoute base table m).descriptor.operation = verb m := by
  have hslash : '/' ∉ (verb m).toList := by cases m <;> decide
  rw [Descriptor.operation, toList_path_crudRoute, Text.breakOnLast_append hslash]
  exact String.ofList_toList

theorem not_isCapture_of_any {s : String} (h : s.toList.any Naming.isCapture = false) :
    ∀ c ∈ s.toList, Naming.isCapture c = false := by
  simpa using h

theorem obstacle?_crudRoute (htable : ∀ c ∈ table.toList, Naming.isCapture c = false)
    (hbase : ∀ c ∈ base.toList, Naming.isCapture c = false) :
    Naming.obstacle? (crudRoute base table m).descriptor.path = none := by
  have hpath := toList_path_crudRoute base table m
  -- a built-in path has one slash, this one has at least two
  have hbuiltIn : (crudRoute base table m).descriptor.path ∉ Naming.builtInPaths := by
    intro hmem
    have hone : ∀ path ∈ Naming.builtInPaths, path.toList.count '/' = 1 := by decide
    have hcount := hone _ hmem
    rw [hpath] at hcount
    simp [List.count_append] at hcount
    omega
  have hverb : ∀ c ∈ (verb m).toList, Naming.isCapture c = false :=
    not_isCapture_of_any (by cases m <;> decide)
  refine Naming.obstacle?_eq_none_iff.2 ⟨hbuiltIn, fun c hc => ?_⟩
  rw [hpath] at hc
  simp only [List.mem_append, List.mem_cons] at hc
  rcases hc with (hc | rfl | hc) | rfl | hc
  · exact hbase c hc
  · decide
  · exact htable c hc
  · decide
  · exact hverb c hc

theorem crudRoute_injective {table' : String} {m' : Method}
    (h : (crudRoute base table m).key = (crudRoute base table' m').key) : table = table' ∧ m = m' := by
  obtain ⟨hm, hpath⟩ := Prod.mk.inj h
  have hm : m = m' := hm
  subst hm
  have hpath := congrArg String.toList hpath
  simp only [crudRoute, String.toList_append, List.append_assoc, List.append_cancel_left_eq,
    List.append_cancel_right_eq] at hpath
  exact ⟨String.toList_inj.1 hpath, rfl⟩

/-! ### The files that offer them -/

theorem isSegment_of_mem_declaredTables (h : table ∈ Sql.declaredTables script)
    (hshort : table.utf8ByteSize ≤ maxName) : IsSegment table :=
  ⟨(isName_of_mem_declaredTables h hshort).part,
    (Sql.isWordName_of_mem_declaredTables h).not_mem (by decide)⟩

theorem isCapture_of_mem_declaredTables (h : table ∈ Sql.declaredTables script) :
    ∀ c ∈ table.toList, Naming.isCapture c = false := by
  intro c hc
  have hword := Sql.isWordName_of_mem_declaredTables h
  have hcolon : c ≠ ':' := fun heq => hword.not_mem (by decide) (heq ▸ hc)
  have hstar : c ≠ '*' := fun heq => hword.not_mem (by decide) (heq ▸ hc)
  simp [Naming.isCapture, hcolon, hstar]

theorem entryOf?_template
    (hfill : Filling t l.root dir (Part tables script) t') (hcomplete : l.Complete tables t')
    (hnames : ∀ table ∈ tables, IsName table) (htable : table ∈ tables) (m : Method) :
    t'.entryOf? (dir ++ templateParts table m) = some (.file (Utf8.ofString (template m).2)) := by
  have hm : m ∈ Method.all := by cases m <;> decide
  have hpart : Part tables script ([Naming.tablesFolder, table, m.name] ++ [(template m).1])
      (.file (Utf8.ofString (template m).2)) := .template htable m
  have hsteps : Path.steps (l.templatePath table m) =
      Path.parts l.root ++ ([Naming.tablesFolder, table, m.name] ++ [(template m).1]) := by
    rw [templatePath, Path.steps_join (isPart_template m),
      parts_tableMethodFolder l (hnames table htable).part m, List.append_assoc]
  exact hfill.entryOf?_of_has (plan_part script hnames) hpart hsteps
    (hcomplete.templates table htable m hm)

theorem offers_iff (hfill : Filling t l.root dir (Part (Sql.declaredTables script) script) t')
    (hcomplete : l.Complete (Sql.declaredTables script) t')
    (hshort : ∀ table ∈ Sql.declaredTables script, table.utf8ByteSize ≤ maxName)
    (hbase : ∀ c ∈ base.toList, Naming.isCapture c = false) :
    RouteTable.Offers t' dir base path route ↔
      ∃ table ∈ Sql.declaredTables script, ∃ m, path = templateParts table m ∧
        route = crudRoute base table m := by
  constructor
  · rintro ⟨-, hschema, ⟨entry, bytes, hreaches, hreads, htext⟩, hdescribed, -⟩
    obtain ⟨hne, hat⟩ := hreaches.entryOf?_eq
    have hpart := hfill.within path entry hne hat
    cases hreads with
    | link => exact absurd hpart nofun
    | file bytes =>
      cases hpart with
      | schema => exact absurd rfl hschema
      | template htable m =>
        have hdescriptor := hdescribed.trans (describe_template
          (isSegment_of_mem_declaredTables htable (hshort _ htable)) base m)
        rw [Utf8.toString?_ofString] at htext
        obtain ⟨descriptor, sql⟩ := route
        cases htext
        cases hdescriptor
        exact ⟨_, htable, m, rfl, rfl⟩
  · rintro ⟨table, htable, m, rfl, rfl⟩
    have hnames : ∀ table ∈ Sql.declaredTables script, IsName table := fun table htable =>
      isName_of_mem_declaredTables htable (hshort table htable)
    have hat := entryOf?_template hfill hcomplete hnames htable m
    have hreaches := hfill.wellFormed.reaches (List.cons_ne_nil _ _) hat
    have hsql : RouteTable.isSqlName (template m).1 = true := by cases m <;> decide
    refine ⟨RouteTable.isSqlName_iff.1 hsql, ?_, ?_, ?_, ?_⟩
    · simp [templateParts]
    · exact ⟨_, _, hreaches, .file _, Utf8.toString?_ofString _⟩
    · exact (describe_template (isSegment_of_mem_declaredTables htable (hshort _ htable)) base m).symm
    · exact obstacle?_crudRoute (isCapture_of_mem_declaredTables htable) hbase

/-! ### The compiled table -/

/-- The routes of the table are the four of each declared table. -/
theorem mem_routes_iff (ht : t'.WellFormed)
    (hoffers : ∀ path r, RouteTable.Offers t' dir base path r ↔ ∃ table ∈ tables, ∃ m,
      path = templateParts table m ∧ r = crudRoute base table m) :
    route ∈ (RouteTable.ofList ((RouteTable.offered t' dir base).map Prod.snd)).routes ↔
      ∃ table ∈ tables, ∃ m, route = crudRoute base table m := by
  have hmem : ∀ r, r ∈ (RouteTable.offered t' dir base).map Prod.snd ↔
      ∃ table ∈ tables, ∃ m, r = crudRoute base table m := by
    intro r
    rw [RouteTable.mem_map_snd_offered ht]
    constructor
    · rintro ⟨path, hr⟩
      obtain ⟨table, htable, m, -, hr⟩ := (hoffers path r).1 hr
      exact ⟨table, htable, m, hr⟩
    · rintro ⟨table, htable, m, hr⟩
      exact ⟨_, (hoffers _ r).2 ⟨table, htable, m, rfl, hr⟩⟩
  constructor
  · intro hroute
    exact (hmem route).1 (RouteTable.mem_of_mem_ofList hroute)
  · rintro ⟨table, htable, m, rfl⟩
    -- some route has its key, and the key names the table and the method
    obtain ⟨r, hr⟩ := RouteTable.exists_get?_ofList.2 ⟨_, (hmem _).2 ⟨table, htable, m, rfl⟩, rfl⟩
    obtain ⟨hroute, hkey⟩ := RouteTable.mem_of_get? hr
    obtain ⟨table', -, m', rfl⟩ := (hmem r).1 (RouteTable.mem_of_mem_ofList hroute)
    obtain ⟨rfl, rfl⟩ := crudRoute_injective hkey
    exact hroute

/-! ### The namespaces -/

/-- The operations of a table, sorted by name. -/
def crudOperations (base table : String) : List Operation :=
  [.delete, .post, .get, .put].map fun m => .ofDescriptor (crudRoute base table m).descriptor

theorem verb_injective {m m' : Method} (h : verb m = verb m') : m = m' := by
  cases m <;> cases m' <;> first | rfl | exact absurd h (by decide)

theorem mem_crudOperations {o : Operation} :
    o ∈ crudOperations base table ↔ ∃ m, o = .ofDescriptor (crudRoute base table m).descriptor := by
  rw [crudOperations, List.mem_map]
  constructor
  · rintro ⟨m, -, rfl⟩
    exact ⟨m, rfl⟩
  · rintro ⟨m, rfl⟩
    exact ⟨m, by cases m <;> decide, rfl⟩

theorem sorted_crudOperations (base table : String) : Operation.Sorted (crudOperations base table) := by
  have hnames : ([.delete, .post, .get, .put] : List Method).Pairwise fun m m' => verb m < verb m' := by
    decide
  refine List.pairwise_map.2 (hnames.imp fun {m m'} hlt => ?_)
  show Descriptor.operation _ < Descriptor.operation _
  rw [operation_crudRoute, operation_crudRoute]
  exact hlt

/-- Descriptors that are those of one table give its operations. -/
theorem ofDescriptors_eq_crudOperations {ds : List Descriptor}
    (h : ∀ d, d ∈ ds ↔ ∃ m, d = (crudRoute base table m).descriptor) :
    Operation.ofDescriptors ds = crudOperations base table := by
  refine eq_of_sorted (Operation.sorted_ofDescriptors ds) (sorted_crudOperations base table) fun o => ?_
  rw [mem_crudOperations, Operation.mem_ofDescriptors, Option.map_eq_some_iff]
  constructor
  · rintro ⟨d, hfind, rfl⟩
    obtain ⟨m, rfl⟩ := (h d).1 (List.mem_of_find?_eq_some hfind)
    exact ⟨m, rfl⟩
  · rintro ⟨m, rfl⟩
    have hsome : (ds.find? fun d => d.operation = verb m).isSome :=
      List.find?_isSome.2 ⟨_, (h _).2 ⟨m, rfl⟩, decide_eq_true (operation_crudRoute base table m)⟩
    obtain ⟨d, hfind⟩ := Option.isSome_iff_exists.1 hsome
    obtain ⟨m', rfl⟩ := (h d).1 (List.mem_of_find?_eq_some hfind)
    have hverb := List.find?_some hfind
    rw [decide_eq_true_eq, operation_crudRoute] at hverb
    obtain rfl := verb_injective hverb
    refine ⟨_, ?_, rfl⟩
    have hname : (Operation.ofDescriptor (crudRoute base table m').descriptor).name = verb m' :=
      operation_crudRoute base table m'
    rw [hname]
    exact hfind

theorem mem_namespaces_iff {ds : List Descriptor} {n : Namespace}
    (h : ∀ d, d ∈ ds ↔ ∃ table ∈ tables, ∃ m, d = (crudRoute base table m).descriptor) :
    n ∈ (NamespaceSet.ofDescriptors ds).namespaces ↔
      ∃ table ∈ tables, n = ⟨table, crudOperations base table⟩ := by
  have hbelonging : ∀ table ∈ tables, ∀ d, d ∈ NamespaceSet.belonging table ds ↔
      ∃ m, d = (crudRoute base table m).descriptor := by
    intro table htable d
    rw [NamespaceSet.belonging, List.mem_filter, h, decide_eq_true_eq]
    constructor
    · rintro ⟨⟨table', -, m, rfl⟩, hname⟩
      have hname : table' = table := hname
      exact ⟨m, by rw [hname]⟩
    · rintro ⟨m, rfl⟩
      exact ⟨⟨table, htable, m, rfl⟩, rfl⟩
  rw [NamespaceSet.mem_ofDescriptors]
  constructor
  · rintro ⟨hne, heq⟩
    obtain ⟨d, hd⟩ := List.exists_mem_of_ne_nil _ hne
    obtain ⟨hmem, hname⟩ := List.mem_filter.1 hd
    obtain ⟨table, htable, m, rfl⟩ := (h d).1 hmem
    have hname : table = n.name := of_decide_eq_true hname
    rw [← hname, ofDescriptors_eq_crudOperations (hbelonging table htable)] at heq
    exact ⟨table, htable, heq⟩
  · rintro ⟨table, htable, rfl⟩
    refine ⟨List.ne_nil_of_mem ((hbelonging table htable _).2 ⟨.get, rfl⟩), ?_⟩
    rw [ofDescriptors_eq_crudOperations (hbelonging table htable)]

/-! ### Any tree -/

/-- Scaffolding leaves every entry as it was, whether it succeeds or fails; and once it has succeeded,
scaffolding again and writing the templates of the tables again changes nothing and makes nothing. -/
theorem scaffold_keeps (l : Layout) (t : FileTree) :
    (∀ place entry, t.entryOf? place = some entry →
      (l.scaffold.run t).2.entryOf? place = some entry) ∧
    ∀ tables t', l.scaffold.run t = (.ok tables, t') →
      l.scaffold.run t' = (.ok tables, t') ∧ (l.provision tables).run t' = (.ok [], t') := by
  have hadds := adds_scaffold l t
  refine ⟨hadds.le, fun tables t' hrun => ?_⟩
  obtain ⟨-, hcomplete⟩ := hadds.of_run_ok hrun
  exact ⟨hcomplete.idle_scaffold t' (le_refl t'), hcomplete.templates.idle_provision t' (le_refl t')⟩

/-- A script whose tables are named like the folders and templates of the layout. -/
def resembling : String :=
  "create table Tables (id);\nCREATE TEMP TABLE IF NOT EXISTS [GET] (id);\n" ++
    "CREATE TABLE \"select\" (id);\nCREATE TABLE system (id); -- CREATE TABLE none (id);\n"

/-- A root with the script, and beside it a file and a link that leads nowhere. -/
def beside : FileTree :=
  ⟨[(["db"], .directory), (["db", "schema.sql"], .file (Utf8.ofString resembling)),
    (["notes"], .file [49]), (["lost"], .link "nowhere")]⟩

theorem declaredTables_resembling :
    Sql.declaredTables resembling = ["Tables", "GET", "select", "system"] := by
  decide +kernel

theorem fresh_beside : (Layout.mk "db").Fresh resembling ["db"] beside where
  wellFormed := by decide
  root := RouteTable.directoryAt_db (by decide)
  only path entry hne := by
    have hentry : beside.entryOf? (["db"] ++ path) =
        if ["schema.sql"] = path then some (.file (Utf8.ofString resembling)) else none := by
      rw [entryOf?_of_ne (by simp)]
      simp [beside, Keyed.get?, hne]
    rw [hentry]
    split
    · next hpath => simp [← hpath, Config.schemaFile, eq_comm]
    · next hpath => simp [Config.schemaFile, Ne.symm hpath]

theorem fits_resembling : (Layout.mk "db").Fits (Sql.declaredTables resembling) := by
  rw [declaredTables_resembling]
  refine ⟨by decide, by decide, fun table htable m => ?_⟩
  cases m <;> revert table <;> decide

/-- The file and the link are still there after the first run, and the second run does nothing. -/
theorem scaffold_keeps_beside :
    ∃ t', (Layout.mk "db").scaffold.run beside = (.ok ["Tables", "GET", "select", "system"], t') ∧
      t'.entryOf? ["notes"] = some (.file [49]) ∧ t'.entryOf? ["lost"] = some (.link "nowhere") ∧
      (Layout.mk "db").scaffold.run t' = (.ok ["Tables", "GET", "select", "system"], t') ∧
      ((Layout.mk "db").provision ["Tables", "GET", "select", "system"]).run t' = (.ok [], t') := by
  obtain ⟨t', hrun, -⟩ := fresh_beside.scaffold fits_resembling
  obtain ⟨hkept, hagain⟩ := scaffold_keeps (Layout.mk "db") beside
  rw [declaredTables_resembling] at hrun
  rw [hrun] at hkept
  obtain ⟨hscaffold, hprovision⟩ := hagain _ t' hrun
  exact ⟨t', hrun, hkept _ _ (by decide), hkept _ _ (by decide), hscaffold, hprovision⟩

/-! ### A fresh root -/

/-- What is made for a fresh root are directories, and files in the folders of the tables. -/
theorem Fresh.place_eq (h : l.Fresh script dir t) (hfill : Filling t l.root dir (Part tables script) t')
    {place : Place} {bytes : List UInt8} (hat : t'.entryOf? place = some (.file bytes))
    (hnone : t.entryOf? place = none) :
    ∃ table ∈ tables, ∃ m, place = dir ++ templateParts table m := by
  rcases hfill.outside place _ hat with hold | ⟨path, rfl⟩
  · rw [hnone] at hold
    cases hold
  have hne : path ≠ [] := by
    rintro rfl
    rw [List.append_nil, directoryAt_eq_ok h.wellFormed h.root] at hnone
    cases hnone
  cases hfill.within path _ hne hat with
  | schema =>
    rw [(h.only _ _ hne).2 ⟨rfl, rfl⟩] at hnone
    cases hnone
  | template htable m => exact ⟨_, htable, m, rfl⟩

/-- Scaffolding a fresh root and compiling it gives the four routes of each declared table and no
others, of templates that lie in the folders of the table; as namespaces they are one for each table,
with its four operations. -/
theorem scaffold_compiles (h : l.Fresh script dir t) (hfits : l.Fits (Sql.declaredTables script))
    (hbase : ∀ c ∈ base.toList, Naming.isCapture c = false) :
    ∃ t' routes, l.scaffold.run t = (.ok (Sql.declaredTables script), t') ∧
      RouteTable.compile t' l.root base = .ok routes ∧
      (routes.routes.map Route.key).Nodup ∧
      (∀ r, r ∈ routes.routes ↔
        ∃ table ∈ Sql.declaredTables script, ∃ m, r = crudRoute base table m) ∧
      (∀ place bytes, t'.entryOf? place = some (.file bytes) → t.entryOf? place = none →
        ∃ table ∈ Sql.declaredTables script, ∃ m, place = dir ++ templateParts table m) ∧
      (NamespaceSet.ofDescriptors routes.descriptors).names.Nodup ∧
      ∀ n, n ∈ (NamespaceSet.ofDescriptors routes.descriptors).namespaces ↔
        ∃ table ∈ Sql.declaredTables script, n = ⟨table, crudOperations base table⟩ := by
  obtain ⟨t', hrun, hcomplete, hfill⟩ := h.scaffold hfits
  have hroutes : ∀ r,
      r ∈ (RouteTable.ofList ((RouteTable.offered t' dir base).map Prod.snd)).routes ↔
        ∃ table ∈ Sql.declaredTables script, ∃ m, r = crudRoute base table m :=
    fun _ => mem_routes_iff hfill.wellFormed fun _ _ => offers_iff hfill hcomplete hfits.names hbase
  have hcompile : RouteTable.compile t' l.root base =
      .ok (RouteTable.ofList ((RouteTable.offered t' dir base).map Prod.snd)) := by
    rw [RouteTable.compile, hfill.root, RouteTable.map_snd_offered]
  have hdescriptors : ∀ d,
      d ∈ (RouteTable.ofList ((RouteTable.offered t' dir base).map Prod.snd)).descriptors ↔
        ∃ table ∈ Sql.declaredTables script, ∃ m, d = (crudRoute base table m).descriptor := by
    intro d
    rw [RouteTable.descriptors, List.mem_map]
    constructor
    · rintro ⟨r, hr, rfl⟩
      obtain ⟨table, htable, m, rfl⟩ := (hroutes r).1 hr
      exact ⟨table, htable, m, rfl⟩
    · rintro ⟨table, htable, m, rfl⟩
      exact ⟨_, (hroutes _).2 ⟨table, htable, m, rfl⟩, rfl⟩
  refine ⟨t', _, hrun, hcompile, RouteTable.nodup_keys_ofList _, hroutes, ?_,
    NamespaceSet.nodup_names _, fun n => mem_namespaces_iff hdescriptors⟩
  intro place bytes hat hnone
  exact h.place_eq hfill hat hnone

/-- Tables named like a marker, a method, a template and the namespace of the universal routes. -/
theorem scaffold_compiles_beside :
    ∃ t' routes, (Layout.mk "db").scaffold.run beside =
        (.ok ["Tables", "GET", "select", "system"], t') ∧
      RouteTable.compile t' "db" "/api" = .ok routes ∧
      crudRoute "/api" "GET" .delete ∈ routes.routes ∧
      (NamespaceSet.ofDescriptors routes.descriptors).names.Nodup ∧
      ⟨"system", crudOperations "/api" "system"⟩ ∈
        (NamespaceSet.ofDescriptors routes.descriptors).namespaces := by
  have hbase : ∀ c ∈ "/api".toList, Naming.isCapture c = false := not_isCapture_of_any (by decide)
  obtain ⟨t', routes, hrun, hcompile, -, hroutes, -, hnames, hspaces⟩ :=
    scaffold_compiles fresh_beside fits_resembling hbase
  rw [declaredTables_resembling] at hrun hroutes hspaces
  exact ⟨t', routes, hrun, hcompile, (hroutes _).2 ⟨"GET", by decide, .delete, rfl⟩, hnames,
    (hspaces _).2 ⟨"system", by decide, rfl⟩⟩

end Layout
end QueryTree
