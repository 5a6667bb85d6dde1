import QueryTree.Proofs.Files.Path
import QueryTree.Proofs.Files.Tree
import QueryTree.Proofs.Route.Table
import QueryTree.Route.Compile

/-!
# What compiling selects

`Offers t dir base path r`: the file at `path` below `dir` is one that the convention turns into the
route `r`. The table compiled from a well-formed tree holds a route for the keys that are offered and
for no others, from the last file that offers the key and in the order of the first ones (`Selects`);
the order of the entries of the tree does not matter.
-/

namespace QueryTree.RouteTable

variable {t t' : FileTree} {root dir : Place} {base : String} {path : List String} {entry : Entry}
  {bytes : List UInt8} {route : Route}

/-- The name ends in `.sql`, in letters of either case, behind at least one more character. -/
def SqlName (name : String) : Prop :=
  ∃ stem ext, stem ≠ [] ∧ name.toList = stem ++ '.' :: ext ∧ ext.map Char.toLower = "sql".toList

theorem isSqlName_iff {name : String} : isSqlName name = true ↔ SqlName name := by
  rw [isSqlName, Option.any_eq_true]
  constructor
  · rintro ⟨ext, hext, hletters⟩
    obtain ⟨stem, hne, hname, -, -⟩ := Path.extension?_eq_some_iff.1 hext
    exact ⟨stem, ext.toList, hne, hname, beq_iff_eq.1 hletters⟩
  · rintro ⟨stem, ext, hne, hname, hletters⟩
    have hdot : '.' ∉ ext := by
      intro hdot
      have hmem : Char.toLower '.' ∈ ext.map Char.toLower := List.mem_map_of_mem hdot
      rw [hletters] at hmem
      exact absurd hmem (by decide)
    have hdots : name ≠ ".." := by
      rintro rfl
      have hlen := congrArg List.length hletters
      have hsum := congrArg List.length hname
      simp at hlen hsum
      omega
    refine ⟨String.ofList ext, Path.extension?_eq_some_iff.2 ⟨stem, hne, ?_, ?_, hdots⟩, ?_⟩
    · rwa [String.toList_ofList]
    · rwa [String.toList_ofList]
    · rw [String.toList_ofList]
      exact beq_iff_eq.2 hletters

/-- The bytes that are read at an entry: those of a file, or of the file that a link leads to. -/
inductive Reads (t : FileTree) (place : Place) : Entry → List UInt8 → Prop
  | file (bytes : List UInt8) : Reads t place (.file bytes) bytes
  | link {target : String} {end_ : Place} {bytes : List UInt8}
      (h : t.walk true FileTree.maxLinks [] place = .ok (.here end_ (.file bytes))) :
      Reads t place (.link target) bytes

theorem fileBytes?_eq_some_iff :
    fileBytes? t root path entry = some bytes ↔ Reads t (root ++ path) entry bytes := by
  cases entry with
  | directory => exact ⟨nofun, nofun⟩
  | file bytes' =>
    constructor
    · intro h
      cases h
      exact .file _
    · intro h
      cases h
      rfl
  | link target =>
    rw [fileBytes?]
    constructor
    · intro h
      split at h
      · next hwalk => cases h; exact .link hwalk
      · cases h
    · rintro (_ | hwalk)
      rw [hwalk]

theorem fileBytes?_congr (h : ∀ place, t'.entryOf? place = t.entryOf? place) :
    fileBytes? t' root path entry = fileBytes? t root path entry := by
  cases entry with
  | directory | file bytes => rfl
  | link target => rw [fileBytes?, fileBytes?, FileTree.walk_congr h]

/-- The file at `path` below `dir` offers the route. -/
structure Offers (t : FileTree) (dir : Place) (base : String) (path : List String) (route : Route) :
    Prop where
  named : SqlName (path.getLast?.getD "")
  /-- It is not the schema script at the root. -/
  notSchema : path ≠ [Config.schemaFile]
  /-- It is reached through directories, and its text can be read. -/
  readable : ∃ entry bytes, t.Reaches dir path entry ∧ Reads t (dir ++ path) entry bytes ∧
    Utf8.toString? bytes = some route.sql
  described : route.descriptor = Naming.describe ("/".intercalate path) base
  served : Naming.obstacle? route.descriptor.path = none

/-! ### Files -/

theorem file_step_eq_some_iff {p : List String} :
    (if isSqlName (p.getLast?.getD "") then
        (fileBytes? t root p entry).map fun bytes => (p, bytes) else none) = some (path, bytes) ↔
      p = path ∧ SqlName (path.getLast?.getD "") ∧ Reads t (root ++ path) entry bytes := by
  constructor
  · intro h
    split at h
    · next hname =>
      obtain ⟨bs, hbytes, heq⟩ := Option.map_eq_some_iff.1 h
      cases heq
      exact ⟨rfl, isSqlName_iff.1 hname, fileBytes?_eq_some_iff.1 hbytes⟩
    · cases h
  · rintro ⟨rfl, hname, hreads⟩
    rw [if_pos (isSqlName_iff.2 hname), fileBytes?_eq_some_iff.2 hreads, Option.map_some]

theorem mem_sqlFiles (ht : t.WellFormed) :
    (path, bytes) ∈ sqlFiles t dir ↔
      SqlName (path.getLast?.getD "") ∧
        ∃ entry, t.Reaches dir path entry ∧ Reads t (dir ++ path) entry bytes := by
  rw [sqlFiles, List.mem_mergeSort, List.mem_filterMap]
  constructor
  · rintro ⟨⟨p, entry⟩, hbelow, heq⟩
    obtain ⟨rfl, hname, hreads⟩ := file_step_eq_some_iff.1 heq
    exact ⟨hname, entry, ht.mem_below.1 hbelow, hreads⟩
  · rintro ⟨hname, entry, hreaches, hreads⟩
    exact ⟨(path, entry), ht.mem_below.2 hreaches, file_step_eq_some_iff.2 ⟨rfl, hname, hreads⟩⟩

theorem sorted_sqlFiles (t : FileTree) (dir : Place) :
    (sqlFiles t dir).Pairwise fun f g => Path.precedes f.1 g.1 = true := by
  have htrans : ∀ f g h : List String × List UInt8, Path.precedes f.1 g.1 = true →
      Path.precedes g.1 h.1 = true → Path.precedes f.1 h.1 = true := fun _ _ _ =>
    Path.precedes_trans
  have htotal : ∀ f g : List String × List UInt8,
      (Path.precedes f.1 g.1 || Path.precedes g.1 f.1) = true := fun f g => by
    rw [Bool.or_eq_true]
    exact Path.precedes_total f.1 g.1
  exact List.pairwise_mergeSort htrans htotal _

theorem nodup_sqlFiles (ht : t.WellFormed) (dir : Place) :
    (Keyed.keys (sqlFiles t dir)).Nodup := by
  rw [Keyed.keys, List.Nodup, List.pairwise_map, sqlFiles]
  refine List.Pairwise.perm ?_ (List.mergeSort_perm _ _).symm Ne.symm
  rw [List.pairwise_filterMap]
  refine (ht.pairwise_below dir).imp ?_
  rintro ⟨p, entry⟩ ⟨p', entry'⟩ hne ⟨path, bytes⟩ h ⟨path', bytes'⟩ h'
  obtain ⟨rfl, -⟩ := file_step_eq_some_iff.1 h
  obtain ⟨rfl, -⟩ := file_step_eq_some_iff.1 h'
  exact hne

/-- The order in which a tree lists its entries is of no account. -/
theorem sqlFiles_perm (ht : t.WellFormed) (hp : t'.entries.Perm t.entries) (dir : Place) :
    sqlFiles t' dir = sqlFiles t dir := by
  have hbytes : ∀ p e, fileBytes? t' dir p e = fileBytes? t dir p e := fun p e =>
    fileBytes?_congr (ht.entryOf?_perm hp)
  have hperm : (sqlFiles t' dir).Perm (sqlFiles t dir) := by
    rw [sqlFiles, sqlFiles]
    simp only [hbytes]
    exact (List.mergeSort_perm _ _).trans
      (((hp.filterMap _).filterMap _).trans (List.mergeSort_perm _ _).symm)
  -- two files with one path are one file, so the sorted list of the files is unique
  refine hperm.eq_of_pairwise (fun f g hf hg hfg hgf => ?_) (sorted_sqlFiles t' dir)
    (sorted_sqlFiles t dir)
  obtain ⟨p, bytes⟩ := f
  obtain ⟨q, bytes'⟩ := g
  obtain rfl : p = q := Path.precedes_antisymm hfg hgf
  rw [Keyed.eq_of_mem (nodup_sqlFiles ht dir) (hperm.mem_iff.1 hf) hg]

theorem compile_perm (ht : t.WellFormed) (hp : t'.entries.Perm t.entries) (root base : String) :
    compile t' root base = compile t root base := by
  rw [compile, compile, FileTree.directoryAt_congr (ht.entryOf?_perm hp)]
  cases t.directoryAt root with
  | error fault => rfl
  | ok dir => simp only [sqlFiles_perm ht hp]

/-! ### Routes -/

theorem intercalate_eq_schemaFile_iff :
    "/".intercalate path = Config.schemaFile ↔ path = [Config.schemaFile] :=
  Path.intercalate_eq_iff (by decide) (by decide)

theorem route?_of_ne (h : path ≠ [Config.schemaFile]) :
    route? base path bytes = (Utf8.toString? bytes).bind fun sql =>
      if (Naming.obstacle? (Naming.describe ("/".intercalate path) base).path).isSome then none
      else some ⟨Naming.describe ("/".intercalate path) base, sql⟩ := by
  rw [route?, if_neg (mt intercalate_eq_schemaFile_iff.1 h)]
  rfl

theorem route?_eq_some_iff :
    route? base path bytes = some route ↔
      path ≠ [Config.schemaFile] ∧ Utf8.toString? bytes = some route.sql ∧
        route.descriptor = Naming.describe ("/".intercalate path) base ∧
        Naming.obstacle? route.descriptor.path = none := by
  constructor
  · intro h
    have hne : path ≠ [Config.schemaFile] := by
      intro hpath
      rw [route?, if_pos (intercalate_eq_schemaFile_iff.2 hpath)] at h
      cases h
    rw [route?_of_ne hne] at h
    obtain ⟨sql, hsql, h⟩ := Option.bind_eq_some_iff.1 h
    split at h
    · cases h
    · next hserved =>
      cases h
      exact ⟨hne, hsql, rfl, Option.not_isSome_iff_eq_none.1 hserved⟩
  · rintro ⟨hne, hsql, hdescribed, hserved⟩
    rw [route?_of_ne hne, hsql, Option.bind_some, ← hdescribed, hserved]
    rfl

/-- The routes that the files below a directory offer, with the paths of the files, in order. -/
def offered (t : FileTree) (dir : Place) (base : String) : List (List String × Route) :=
  (sqlFiles t dir).filterMap fun (path, bytes) => (route? base path bytes).map (path, ·)

theorem mem_offered (ht : t.WellFormed) :
    (path, route) ∈ offered t dir base ↔ Offers t dir base path route := by
  rw [offered, List.mem_filterMap]
  constructor
  · rintro ⟨⟨p, bytes⟩, hfile, heq⟩
    obtain ⟨r, hroute, heq⟩ := Option.map_eq_some_iff.1 heq
    cases heq
    obtain ⟨hname, entry, hreaches, hreads⟩ := (mem_sqlFiles ht).1 hfile
    obtain ⟨hne, hsql, hdescribed, hserved⟩ := route?_eq_some_iff.1 hroute
    exact ⟨hname, hne, ⟨entry, bytes, hreaches, hreads, hsql⟩, hdescribed, hserved⟩
  · rintro ⟨hname, hne, ⟨entry, bytes, hreaches, hreads, hsql⟩, hdescribed, hserved⟩
    refine ⟨(path, bytes), (mem_sqlFiles ht).2 ⟨hname, entry, hreaches, hreads⟩, ?_⟩
    show (route? base path bytes).map (path, ·) = some (path, route)
    rw [route?_eq_some_iff.2 ⟨hne, hsql, hdescribed, hserved⟩, Option.map_some]

theorem pairwise_offered (ht : t.WellFormed) (dir : Place) (base : String) :
    (offered t dir base).Pairwise fun f g => Path.precedes f.1 g.1 = true ∧ f.1 ≠ g.1 := by
  rw [offered, List.pairwise_filterMap]
  refine ((sorted_sqlFiles t dir).and (List.pairwise_map.1 (nodup_sqlFiles ht dir))).imp ?_
  rintro ⟨p, bytes⟩ ⟨p', bytes'⟩ hlt ⟨path, route⟩ h ⟨path', route'⟩ h'
  obtain ⟨_, -, heq⟩ := Option.map_eq_some_iff.1 h
  obtain ⟨_, -, heq'⟩ := Option.map_eq_some_iff.1 h'
  cases heq
  cases heq'
  exact hlt

theorem map_snd_offered (t : FileTree) (dir : Place) (base : String) :
    (offered t dir base).map Prod.snd =
      (sqlFiles t dir).filterMap fun (path, bytes) => route? base path bytes := by
  have hsnd : ∀ f : List String × List UInt8,
      ((route? base f.1 f.2).map (f.1, ·)).map Prod.snd = route? base f.1 f.2 := by
    intro f
    rw [Option.map_map]
    exact Option.map_id'
  rw [offered, List.map_filterMap]
  exact congrArg (fun g => (sqlFiles t dir).filterMap g) (funext hsnd)

theorem compile_eq_ok {root : String} {table : RouteTable} (h : compile t root base = .ok table) :
    ∃ dir, t.directoryAt root = .ok dir ∧ table = ofList ((offered t dir base).map Prod.snd) := by
  rw [compile] at h
  cases hdir : t.directoryAt root with
  | error fault => rw [hdir] at h; cases h
  | ok dir =>
    rw [hdir] at h
    cases h
    exact ⟨dir, rfl, by rw [map_snd_offered]⟩

theorem nodup_keys_of_compile {root : String} {table : RouteTable}
    (h : compile t root base = .ok table) : (table.routes.map Route.key).Nodup := by
  obtain ⟨dir, -, rfl⟩ := compile_eq_ok h
  exact nodup_keys_ofList _

/-- A compiled route has the descriptor of some file, and its path can be served. -/
theorem described_of_mem {root : String} {table : RouteTable} (h : compile t root base = .ok table)
    (hr : route ∈ table.routes) :
    ∃ file, route.descriptor = Naming.describe file base ∧
      Naming.obstacle? route.descriptor.path = none := by
  obtain ⟨dir, -, rfl⟩ := compile_eq_ok h
  have hr := mem_of_mem_ofList hr
  rw [map_snd_offered] at hr
  obtain ⟨⟨file, bytes⟩, -, hroute⟩ := List.mem_filterMap.1 hr
  obtain ⟨-, -, hdescribed, hserved⟩ := route?_eq_some_iff.1 hroute
  exact ⟨_, hdescribed, hserved⟩

/-! ### Tables -/

/-- The table holds what the files below `dir` offer. -/
structure Selects (t : FileTree) (dir : Place) (base : String) (table : RouteTable) : Prop where
  /-- It holds a route for the keys that are offered. -/
  held : ∀ method url, (∃ r, table.get? method url = some r) ↔
    ∃ path r, Offers t dir base path r ∧ r.key = (method, url)
  /-- The route is that of the last file that offers its key. -/
  last : ∀ method url r, table.get? method url = some r ↔
    ∃ path, Offers t dir base path r ∧ r.key = (method, url) ∧
      ∀ path' r', Offers t dir base path' r' → r'.key = (method, url) →
        Path.precedes path' path = true
  distinct : (table.routes.map Route.key).Nodup
  /-- Routes stand in the order of the first files that offer their keys. -/
  ordered : table.routes.Pairwise fun r r' =>
    ∃ path first, Offers t dir base path first ∧ first.key = r.key ∧
      ∀ path' r'', Offers t dir base path' r'' → r''.key = r'.key →
        Path.precedes path path' = true ∧ path ≠ path'

theorem Offers.unique (ht : t.WellFormed) {route' : Route} (h : Offers t dir base path route)
    (h' : Offers t dir base path route') : route = route' := by
  have hnodup : (Keyed.keys (offered t dir base)).Nodup :=
    List.pairwise_map.2 ((pairwise_offered ht dir base).imp And.right)
  exact Keyed.eq_of_mem hnodup ((mem_offered ht).2 h) ((mem_offered ht).2 h')

theorem mem_map_snd_offered (ht : t.WellFormed) :
    route ∈ (offered t dir base).map Prod.snd ↔ ∃ path, Offers t dir base path route := by
  rw [List.mem_map]
  constructor
  · rintro ⟨⟨path, r⟩, hmem, rfl⟩
    exact ⟨path, (mem_offered ht).1 hmem⟩
  · rintro ⟨path, hoffers⟩
    exact ⟨(path, route), (mem_offered ht).2 hoffers, rfl⟩

/-- The file behind a route of the list: those behind the routes before it precede that file, and it
precedes those behind the routes after it. -/
theorem offers_of_map_eq_append (ht : t.WellFormed) {pre post : List Route}
    (h : (offered t dir base).map Prod.snd = pre ++ route :: post) :
    ∃ path, Offers t dir base path route ∧ ∀ path' r', Offers t dir base path' r' →
      (r' ∈ pre ∧ Path.precedes path' path = true) ∨ (path' = path ∧ r' = route) ∨
        (r' ∈ post ∧ Path.precedes path path' = true ∧ path ≠ path') := by
  obtain ⟨before, rest, hoffered, rfl, hrest⟩ := List.map_eq_append_iff.1 h
  obtain ⟨⟨path, r⟩, after, rfl, rfl, rfl⟩ := List.map_eq_cons_iff.1 hrest
  have hmem : (path, r) ∈ offered t dir base := by simp [hoffered]
  have hsorted := pairwise_offered ht dir base
  rw [hoffered, List.pairwise_append] at hsorted
  obtain ⟨-, hafter, hbefore⟩ := hsorted
  refine ⟨path, (mem_offered ht).1 hmem, fun path' r' hoffers => ?_⟩
  have hmem' := (mem_offered ht).2 hoffers
  rw [hoffered, List.mem_append, List.mem_cons] at hmem'
  rcases hmem' with hpre | heq | hpost
  · exact .inl ⟨List.mem_map_of_mem hpre, (hbefore _ hpre _ List.mem_cons_self).1⟩
  · cases heq
    exact .inr (.inl ⟨rfl, rfl⟩)
  · exact .inr (.inr ⟨List.mem_map_of_mem hpost, List.rel_of_pairwise_cons hafter hpost⟩)

/-- A route of the table comes from a file that no other file with its key comes after. -/
theorem last_of_get? (ht : t.WellFormed) {method : Method} {url : String}
    (h : (ofList ((offered t dir base).map Prod.snd)).get? method url = some route) :
    ∃ path, Offers t dir base path route ∧ route.key = (method, url) ∧
      ∀ path' r', Offers t dir base path' r' → r'.key = (method, url) →
        Path.precedes path' path = true := by
  obtain ⟨pre, post, heq, hkey, hpost⟩ := get?_ofList.1 h
  obtain ⟨path, hoffers, hothers⟩ := offers_of_map_eq_append ht heq
  refine ⟨path, hoffers, hkey, fun path' r' hoffers' hkey' => ?_⟩
  rcases hothers path' r' hoffers' with ⟨-, hbefore⟩ | ⟨rfl, -⟩ | ⟨hafter, -⟩
  · exact hbefore
  · exact Path.precedes_refl path'
  · exact absurd hkey' (hpost r' hafter)

theorem selects_ofList (ht : t.WellFormed) (dir : Place) (base : String) :
    Selects t dir base (ofList ((offered t dir base).map Prod.snd)) where
  held method url := by
    rw [exists_get?_ofList]
    constructor
    · rintro ⟨r, hr, hkey⟩
      obtain ⟨path, hoffers⟩ := (mem_map_snd_offered ht).1 hr
      exact ⟨path, r, hoffers, hkey⟩
    · rintro ⟨path, r, hoffers, hkey⟩
      exact ⟨r, (mem_map_snd_offered ht).2 ⟨path, hoffers⟩, hkey⟩
  last method url r := by
    refine ⟨last_of_get? ht, ?_⟩
    rintro ⟨path, hoffers, hkey, hlast⟩
    obtain ⟨r', h⟩ := exists_get?_ofList.2
      ⟨r, (mem_map_snd_offered ht).2 ⟨path, hoffers⟩, hkey⟩
    obtain ⟨path', hoffers', hkey', hlast'⟩ := last_of_get? ht h
    -- each of the two files comes after the other, so they are one file
    obtain rfl : path = path' := Path.precedes_antisymm (hlast' path r hoffers hkey)
      (hlast path' r' hoffers' hkey')
    rw [hoffers.unique ht hoffers', h]
  distinct := nodup_keys_ofList _
  ordered := by
    refine (pairwise_ofList _).imp ?_
    rintro r r' ⟨pre, first, post, heq, hfirst, hne, hpre⟩
    obtain ⟨path, hoffers, hothers⟩ := offers_of_map_eq_append ht heq
    refine ⟨path, first, hoffers, hfirst, fun path' r'' hoffers' hkey => ?_⟩
    rcases hothers path' r'' hoffers' with ⟨hbefore, -⟩ | ⟨-, rfl⟩ | ⟨-, hafter⟩
    · exact absurd hkey (hpre r'' hbefore)
    · exact absurd (hkey.symm.trans hfirst) hne
    · exact hafter

/-- A compiled table holds what the files below the root offer, in whatever order the tree lists its
entries. -/
theorem compile_selects (ht : t.WellFormed) {root : String} {table : RouteTable}
    (h : compile t root base = .ok table) :
    ∃ dir, t.directoryAt root = .ok dir ∧ Selects t dir base table ∧
      ∀ t', t'.entries.Perm t.entries → compile t' root base = .ok table := by
  obtain ⟨dir, hdir, rfl⟩ := compile_eq_ok h
  exact ⟨dir, hdir, selects_ofList ht dir base, fun t' hp => (compile_perm ht hp root base).trans h⟩

/-- Two folders of which the name of one begins with the name of the other, each with a file `x`, the
schema script and a file that cannot be served. -/
def shadowed : FileTree :=
  ⟨[(["db"], .directory), (["db", "a"], .directory), (["db", "a", "x.SQL"], .file [49]),
    (["db", "a-b"], .directory), (["db", "a-b", "x.sql"], .file [50]),
    (["db", "a:b.sql"], .file [51]), (["db", "schema.sql"], .file [52])]⟩

/-- The file in `a-b` comes last, although as a text its path is the first one. -/
theorem compile_shadowed :
    ∃ dir, shadowed.directoryAt "db" = .ok dir ∧
      Selects shadowed dir "/api" ⟨[⟨⟨.get, "/api/x", "a-b/x.sql", none⟩, "2"⟩]⟩ ∧
      ∀ t', t'.entries.Perm shadowed.entries →
        compile t' "db" "/api" = .ok ⟨[⟨⟨.get, "/api/x", "a-b/x.sql", none⟩, "2"⟩]⟩ := by
  have hfind : shadowed.find true "db" = .ok (.here ["db"] .directory) := by
    show shadowed.walk true FileTree.maxLinks [] ["db"] = _
    rw [FileTree.walk_name (by decide) (by decide)]
    exact FileTree.walk.eq_1 ..
  have hdir : shadowed.directoryAt "db" = .ok ["db"] := by
    rw [FileTree.directoryAt, hfind]
    rfl
  have hfiles : sqlFiles shadowed ["db"] =
      [(["a", "x.SQL"], [49]), (["a-b", "x.sql"], [50]), (["a:b.sql"], [51]),
        (["schema.sql"], [52])] :=
    (List.mergeSort_of_pairwise (by decide +kernel)).trans (by decide +kernel)
  refine compile_selects (by decide) ?_
  rw [compile, hdir]
  simp only [hfiles]
  decide +kernel

theorem directoryAt_db (h : t.entryOf? ["db"] = some .directory) :
    t.directoryAt "db" = .ok ["db"] := by
  have hfind : t.find true "db" = .ok (.here ["db"] .directory) := by
    show t.walk true FileTree.maxLinks [] ["db"] = _
    rw [FileTree.walk_name (by decide) (by decide), if_neg (by decide), List.nil_append, h]
    exact FileTree.walk.eq_1 ..
  rw [FileTree.directoryAt, hfind]
  rfl

/-- A tree with two methods on one path, a table of the name that stands for no table, and a file
whose name holds a blank. -/
def mixed : FileTree :=
  ⟨[(["db"], .directory), (["db", "GET"], .directory), (["db", "GET", "x.sql"], .file [50]),
    (["db", "POST"], .directory), (["db", "POST", "x.sql"], .file [51]),
    (["db", "Tables"], .directory), (["db", "Tables", "system"], .directory),
    (["db", "Tables", "system", "x.sql"], .file [52]), (["db", "a b.sql"], .file [49])]⟩

def mixedTable : RouteTable :=
  ⟨[⟨⟨.get, "/api/x", "GET/x.sql", none⟩, "2"⟩, ⟨⟨.post, "/api/x", "POST/x.sql", none⟩, "3"⟩,
    ⟨⟨.get, "/api/system/x", "Tables/system/x.sql", some "system"⟩, "4"⟩,
    ⟨⟨.get, "/api/a b", "a b.sql", none⟩, "1"⟩]⟩

theorem compile_mixed : compile mixed "db" "/api" = .ok mixedTable := by
  have hfiles : sqlFiles mixed ["db"] =
      [(["GET", "x.sql"], [50]), (["POST", "x.sql"], [51]), (["Tables", "system", "x.sql"], [52]),
        (["a b.sql"], [49])] :=
    (List.mergeSort_of_pairwise (by decide +kernel)).trans (by decide +kernel)
  rw [compile, directoryAt_db (by decide)]
  simp only [hfiles]
  decide +kernel

end QueryTree.RouteTable
