import QueryTree.Proofs.Files.Fill
import QueryTree.Proofs.Files.Layout
import QueryTree.Proofs.Sql.Declared
import QueryTree.Proofs.Text.Utf8

/-!
# Scaffolding a fresh root

A root that holds the schema script alone is filled with the folders of the methods and, for each
declared table, a folder with one template for each method; nothing fails and nothing else is made.
-/

namespace QueryTree

open FileTree FileAction

namespace Layout

variable {l : Layout} {tables : List String} {script : String} {dir : Place} {t t' : FileTree}

/-- What stands below the root after scaffolding. -/
inductive Part (tables : List String) (script : String) : List String → Entry → Prop
  | schema : Part tables script [Config.schemaFile] (.file (Utf8.ofString script))
  | method (m : Method) : Part tables script [m.name] .directory
  | tables : Part tables script [Naming.tablesFolder] .directory
  | table {table : String} (h : table ∈ tables) :
      Part tables script [Naming.tablesFolder, table] .directory
  | tableMethod {table : String} (h : table ∈ tables) (m : Method) :
      Part tables script [Naming.tablesFolder, table, m.name] .directory
  | template {table : String} (h : table ∈ tables) (m : Method) :
      Part tables script [Naming.tablesFolder, table, m.name, (template m).1]
        (.file (Utf8.ofString (template m).2))

/-- No name and no path is longer than it may be. -/
structure Fits (l : Layout) (tables : List String) : Prop where
  schema : l.schemaPath.utf8ByteSize < maxPath
  names : ∀ table ∈ tables, table.utf8ByteSize ≤ maxName
  templates : ∀ table ∈ tables, ∀ m, (l.templatePath table m).utf8ByteSize < maxPath

/-- The directory at the root holds the schema script and nothing else. -/
structure Fresh (l : Layout) (script : String) (dir : Place) (t : FileTree) : Prop where
  wellFormed : t.WellFormed
  root : t.directoryAt l.root = .ok dir
  only : ∀ path entry, path ≠ [] → (t.entryOf? (dir ++ path) = some entry ↔
    path = [Config.schemaFile] ∧ entry = .file (Utf8.ofString script))

/-! ### The plan -/

theorem isName_of_mem_declaredTables {table : String} (h : table ∈ Sql.declaredTables script)
    (hshort : table.utf8ByteSize ≤ maxName) : IsName table := by
  have hword := Sql.isWordName_of_mem_declaredTables h
  have hdot : '.' ∉ table.toList := hword.not_mem (by decide)
  refine ⟨⟨?_, ?_, hword.not_mem (by decide)⟩, ?_, hword.not_mem (by decide), hshort⟩
  · rintro rfl
    exact hword.1 rfl
  · rintro rfl
    exact hdot (by decide)
  · rintro rfl
    exact hdot (by decide)

theorem isName_name (m : Method) : IsName m.name := by
  refine ⟨isPart_name m, ?_, ?_, ?_⟩ <;> cases m <;> decide

theorem isName_template (m : Method) : IsName (template m).1 := by
  refine ⟨isPart_template m, ?_, ?_, ?_⟩ <;> cases m <;> decide

theorem isName_schemaFile : IsName Config.schemaFile :=
  ⟨isPart_schemaFile, by decide, by decide, by decide⟩

theorem isName_tablesFolder : IsName Naming.tablesFolder :=
  ⟨isPart_tablesFolder, by decide, by decide, by decide⟩

theorem ofName?_name (m : Method) : Method.ofName? m.name = some m := by
  cases m <;> decide

/-- What stands at a path, if anything does. -/
def entryFor (script : String) : List String → Entry
  | [name] => if name = Config.schemaFile then .file (Utf8.ofString script) else .directory
  | [_, _, method, _] =>
    .file (Utf8.ofString ((Method.ofName? method).elim "" fun m => (template m).2))
  | _ => .directory

theorem Part.eq_entryFor {path : List String} {entry : Entry} (h : Part tables script path entry) :
    entry = entryFor script path := by
  cases h with
  | schema => rw [entryFor, if_pos rfl]
  | method m =>
    have hne : m.name ≠ Config.schemaFile := by cases m <;> decide
    rw [entryFor, if_neg hne]
  | tables => rw [entryFor, if_neg (by decide)]
  | table h => rfl
  | tableMethod h m => rfl
  | template h m => rw [entryFor, ofName?_name, Option.elim_some]

theorem plan_part (script : String) (hnames : ∀ table ∈ tables, IsName table) :
    Plan (Part tables script) where
  names h := by
    cases h with
    | schema => simpa using isName_schemaFile
    | method m => simpa using isName_name m
    | tables => simpa using isName_tablesFolder
    | table h => simpa using ⟨isName_tablesFolder, hnames _ h⟩
    | tableMethod h m => simpa using ⟨isName_tablesFolder, hnames _ h, isName_name m⟩
    | template h m =>
      simpa using ⟨isName_tablesFolder, hnames _ h, isName_name m, isName_template m⟩
  above {path name entry} h hne := by
    have hpath : (path ++ [name]).dropLast = path := List.dropLast_concat
    rw [← hpath] at hne ⊢
    generalize path ++ [name] = full at h hne
    cases h with
    | schema | method m | tables => exact absurd rfl hne
    | table h => exact .tables
    | tableMethod h m => exact .table h
    | template h m => exact .tableMethod h m
  unique h h' := h.eq_entryFor.trans h'.eq_entryFor.symm
  plain := nofun

/-! ### Before scaffolding -/

theorem Fresh.filling (h : l.Fresh script dir t) :
    Filling t l.root dir (Part tables script) t where
  wellFormed := h.wellFormed
  le := le_refl t
  root := h.root
  within path entry hne hat := by
    obtain ⟨rfl, rfl⟩ := (h.only path entry hne).1 hat
    exact .schema
  outside _ _ hat := .inl hat

theorem steps_schemaPath (l : Layout) :
    Path.steps l.schemaPath = Path.parts l.root ++ ([] ++ [Config.schemaFile]) :=
  Path.steps_join isPart_schemaFile

theorem parts_tableMethodFolder {table : String} (l : Layout) (h : Path.IsPart table) (m : Method) :
    Path.parts (l.tableMethodFolder table m) =
      Path.parts l.root ++ [Naming.tablesFolder, table, m.name] := by
  rw [tableMethodFolder, Path.parts_join (isPart_name m), tableFolder, Path.parts_join h, tablesFolder,
    Path.parts_join isPart_tablesFolder]
  simp

section Run

variable (h : l.Fresh script dir t) (hfits : l.Fits tables)
include h hfits

theorem findable_schemaPath : Findable l.schemaPath := by
  have hroot := (find_eq_ok_iff.1 (directoryAt_eq_ok_iff.1 h.root)).1
  exact (findable_join_iff isPart_schemaFile).2 ⟨hroot.nul, by decide, hfits.schema⟩

theorem findable_methodFolder (m : Method) : Findable (l.methodFolder m) := by
  refine (findable_schemaPath h hfits).sibling isPart_schemaFile (isPart_name m) (isName_name m).nul ?_
  cases m <;> decide

theorem findable_tablesFolder : Findable l.tablesFolder :=
  (findable_schemaPath h hfits).sibling isPart_schemaFile isPart_tablesFolder (by decide) (by decide)

theorem findable_templatePath {table : String} (htable : table ∈ tables) (hname : IsName table)
    (m : Method) : Findable (l.templatePath table m) := by
  refine (findable_join_iff (isPart_template m)).2
    ⟨?_, (isName_template m).nul, hfits.templates table htable m⟩
  have hroot := (findable_tablesFolder h hfits).nul
  have hjoint : ∀ path, '\x00' ∉ (Path.joint path).toList := fun _ => Path.not_mem_joint (by decide)
  rw [tableMethodFolder, Path.join_eq (isPart_name m), tableFolder, Path.join_eq hname.part]
  simp [String.toList_append, hroot, hjoint, hname.nul, (isName_name m).nul]

theorem has_schemaPath (hnames : ∀ table ∈ tables, IsName table) :
    t.has l.schemaPath = true ∧ t.readText l.schemaPath = .ok script := by
  have hat : t.entryOf? (dir ++ ([] ++ [Config.schemaFile])) = some (.file (Utf8.ofString script)) :=
    (h.only _ _ (by simp)).2 ⟨rfl, rfl⟩
  rcases h.filling.find_cases (plan_part script hnames) .schema (findable_schemaPath h hfits)
    (steps_schemaPath l) true with ⟨hnone, -⟩ | ⟨-, hnone, -⟩ | ⟨-, hfind⟩
  · rw [List.append_nil, directoryAt_eq_ok h.wellFormed h.root] at hnone
    cases hnone
  · rw [hnone] at hat
    cases hat
  · refine ⟨has_iff.2 ⟨_, _, hfind⟩, ?_⟩
    have hread : t.read l.schemaPath = .ok (Utf8.ofString script) := by
      rw [FileTree.read, hfind]
      rfl
    have htext := Utf8.toString?_ofString script
    rw [readText, hread]
    simp only [bind, Except.bind, htext]
    rfl

/-! ### Scaffolding -/

theorem succeeds_ensureFolders (hnames : ∀ table ∈ tables, IsName table) :
    Succeeds (Filling t l.root dir (Part tables script)) l.ensureFolders fun _ => True := by
  have hp := plan_part script hnames
  have hschema : Succeeds (Filling t l.root dir (Part tables script))
      (writeNew l.schemaPath schemaPlaceholder) fun _ => True := by
    intro t' ht'
    have hhas := has_mono ht'.le (has_schemaPath h hfits hnames).1
    exact ⟨false, t', idle_writeNew _ hhas t' (le_refl t'), trivial, ht'⟩
  refine .bind (.forIn fun m _ => ?_) fun _ _ => ?_
  · refine (Filling.succeeds_makePath hp (List.cons_ne_nil _ _) (.method m)
      (findable_methodFolder h hfits m) (Path.parts_join (isPart_name m))).bind ?_
    exact fun _ _ => .pure rfl
  refine (Filling.succeeds_makePath hp (List.cons_ne_nil _ _) .tables (findable_tablesFolder h hfits)
    (Path.parts_join isPart_tablesFolder)).bind fun _ _ => ?_
  exact hschema.bind fun _ _ => .pure trivial

theorem succeeds_declaredTables (hnames : ∀ table ∈ tables, IsName table) :
    Succeeds (Filling t l.root dir (Part tables script)) l.declaredTables
      (· = Sql.declaredTables script) := by
  intro t' ht'
  obtain ⟨hhas, htext⟩ := has_schemaPath h hfits hnames
  refine ⟨_, t', ?_, rfl, ht'⟩
  rw [run_declaredTables, readText_mono ht'.le hhas, htext, tablesOf]

theorem findable_tableMethodFolder {table : String} (htable : table ∈ tables) (hname : IsName table)
    (m : Method) : Findable (l.tableMethodFolder table m) := by
  refine (findable_templatePath h hfits htable hname m).of_join (isPart_template m) fun hempty => ?_
  have hparts := parts_tableMethodFolder l hname.part m
  rw [hempty] at hparts
  exact absurd hparts.symm (by simp [Path.parts_eq, Path.partsOf_nil])

theorem succeeds_makeTableFolders (hnames : ∀ table ∈ tables, IsName table) :
    Succeeds (Filling t l.root dir (Part tables script)) (l.makeTableFolders tables) fun _ => True := by
  have hp := plan_part script hnames
  refine .bind (.forIn fun table htable => ?_) fun _ _ => .pure trivial
  refine .bind (.forIn fun m _ => ?_) fun _ _ => .pure rfl
  refine (Filling.succeeds_makePath hp (List.cons_ne_nil _ _) (.tableMethod htable m)
    (findable_tableMethodFolder h hfits htable (hnames table htable) m)
    (parts_tableMethodFolder l (hnames table htable).part m)).bind ?_
  exact fun _ _ => .pure rfl

theorem succeeds_writeTemplate (hnames : ∀ table ∈ tables, IsName table) {table : String}
    (htable : table ∈ tables) {m : Method} (hm : m ∈ Method.all) :
    Succeeds (fun t' => Filling t l.root dir (Part tables script) t' ∧ l.HasTableFolders tables t')
      (writeNew (l.templatePath table m) (template m).2) fun _ => True := by
  rintro t' ⟨ht', hfolders⟩
  have hp := plan_part script hnames
  have hname := hnames table htable
  have hfolder := hfolders table htable m hm
  have hpart : Part tables script ([Naming.tablesFolder, table] ++ [m.name]) .directory :=
    .tableMethod htable m
  have hparts := parts_tableMethodFolder l hname.part m
  have hsteps : Path.steps (Path.tidied (l.tableMethodFolder table m)) =
      Path.parts l.root ++ ([Naming.tablesFolder, table] ++ [m.name]) := by
    rw [Path.tidied, Path.steps_ofParts (fun _ => Path.isPart_of_mem_parts) (by simp [hparts])]
    exact hparts
  have hdir := ht'.entryOf?_of_has hp hpart hsteps (has_of_isDirectory hfolder)
  obtain ⟨written, t'', hrun, ht''⟩ := ht'.writeNew hp (.template htable m)
    (findable_templatePath h hfits htable hname m) hparts hdir hfolder
  have hadds := (adds_writeNew (isPart_template m) (idle_makePath hfolder)).of_run_ok hrun
  exact ⟨written, t'', hrun, trivial, ht'', hfolders.mono hadds.1⟩

theorem succeeds_provision (hnames : ∀ table ∈ tables, IsName table) :
    Succeeds (fun t' => Filling t l.root dir (Part tables script) t' ∧ l.HasTableFolders tables t')
      (l.provision tables) fun _ => True := by
  refine .flatMapM fun table htable => .filterMapM fun m hm => ?_
  refine (succeeds_writeTemplate h hfits hnames htable hm).bind fun written _ => ?_
  cases written with
  | false => exact .pure trivial
  | true => exact .pure trivial

end Run

/-- Scaffolding a fresh root succeeds, and leaves below it what the plan says. -/
theorem Fresh.scaffold (h : l.Fresh script dir t) (hfits : l.Fits (Sql.declaredTables script)) :
    ∃ t', l.scaffold.run t = (.ok (Sql.declaredTables script), t') ∧
      l.Complete (Sql.declaredTables script) t' ∧
      Filling t l.root dir (Part (Sql.declaredTables script) script) t' := by
  have hnames : ∀ table ∈ Sql.declaredTables script, IsName table := fun table htable =>
    isName_of_mem_declaredTables htable (hfits.names table htable)
  obtain ⟨_, t₁, hrun₁, -, h₁⟩ := succeeds_ensureFolders h hfits hnames t h.filling
  obtain ⟨_, t₂, hrun₂, rfl, h₂⟩ := succeeds_declaredTables h hfits hnames t₁ h₁
  obtain ⟨_, t₃, hrun₃, -, h₃⟩ := succeeds_makeTableFolders h hfits hnames t₂ h₂
  have htables := ((adds_makeTableFolders l _ t₂).of_run_ok hrun₃).2
  obtain ⟨_, t₄, hrun₄, -, h₄, -⟩ := succeeds_provision h hfits hnames t₃ ⟨h₃, htables⟩
  have hrun : l.scaffold.run t = (.ok (Sql.declaredTables script), t₄) :=
    (run_bind_ok hrun₁).trans ((run_bind_ok hrun₂).trans
      ((run_bind_ok hrun₃).trans (run_bind_ok hrun₄)))
  exact ⟨t₄, hrun, ((adds_scaffold l t).of_run_ok hrun).2, h₄⟩

end Layout
end QueryTree
