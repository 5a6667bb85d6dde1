import QueryTree.Files.Layout
import QueryTree.Proofs.Files.Action

/-!
# What scaffolding keeps

`scaffold` only adds to a tree, also where it fails halfway. Where it succeeds, everything that it
looks for is there (`Complete`), and over a tree that is complete neither `scaffold` nor `provision`
has anything to do.
-/

namespace QueryTree

open FileTree FileAction

namespace Layout

variable {l : Layout} {tables : List String} {t t' : FileTree}

theorem isPart_name (method : Method) : Path.IsPart method.name := by
  cases method <;> decide

theorem isPart_template (method : Method) : Path.IsPart (template method).1 := by
  cases method <;> decide

theorem isPart_schemaFile : Path.IsPart Config.schemaFile := by decide

theorem isPart_tablesFolder : Path.IsPart Naming.tablesFolder := by decide

/-- The template of a table for a method. -/
def templatePath (l : Layout) (table : String) (method : Method) : String :=
  Path.join (l.tableMethodFolder table method) (template method).1

/-- The folders at the root, and a schema. -/
structure HasFolders (l : Layout) (t : FileTree) : Prop where
  methods : ∀ method ∈ Method.all, t.isDirectory (Path.tidied (l.methodFolder method)) = true
  tables : t.isDirectory (Path.tidied l.tablesFolder) = true
  schema : t.has l.schemaPath = true

def HasTableFolders (l : Layout) (tables : List String) (t : FileTree) : Prop :=
  ∀ table ∈ tables, ∀ method ∈ Method.all,
    t.isDirectory (Path.tidied (l.tableMethodFolder table method)) = true

def HasTemplates (l : Layout) (tables : List String) (t : FileTree) : Prop :=
  ∀ table ∈ tables, ∀ method ∈ Method.all, t.has (l.templatePath table method) = true

structure Complete (l : Layout) (tables : List String) (t : FileTree) : Prop where
  folders : l.HasFolders t
  declared : l.declaredTables.run t = (.ok tables, t)
  tableFolders : l.HasTableFolders tables t
  templates : l.HasTemplates tables t

/-! ### The folders at the root -/

theorem HasFolders.mono (h : l.HasFolders t) (hle : t ≤ t') : l.HasFolders t' :=
  ⟨fun m hm => isDirectory_mono hle (h.methods m hm), isDirectory_mono hle h.tables,
    has_mono hle h.schema⟩

/-- Nothing has to be made to write the schema once there is a folder beside it. -/
theorem idle_makePath_root {method : Method}
    (h : t.isDirectory (Path.tidied (l.methodFolder method)) = true) :
    Idle (makePath l.root) t () := by
  rw [methodFolder, Path.tidied_join (isPart_name method)] at h
  by_cases hroot : Path.parts l.root = []
  · refine fun t' _ => ?_
    rw [makePath, hroot]
    rfl
  · refine idle_makePath (isDirectory_above (fun p hp => ?_) hroot h)
    rcases List.mem_append.1 hp with hp | hp
    · exact Path.isPart_of_mem_parts hp
    · rw [List.mem_singleton.1 hp]
      exact isPart_name method

theorem adds_ensureFolders (l : Layout) (t : FileTree) :
    Adds l.ensureFolders t fun _ t' => l.HasFolders t' := by
  refine Adds.bind (Adds.forIn (fun m t => t.isDirectory (Path.tidied (l.methodFolder m)) = true)
    isDirectory_mono fun m _ t' _ => ?_) fun _ t₁ _ hm => ?_
  · have hmake := adds_makePath l.root (isPart_name m) t'
    exact hmake.bind fun _ _ _ hdir => .pure ⟨rfl, hdir⟩
  refine (adds_makePath l.root isPart_tablesFolder t₁).bind fun _ t₂ hle₂ ht => ?_
  have hm₂ := fun m hmem => isDirectory_mono hle₂ (hm m hmem)
  have hroot : Idle (makePath l.root) t₂ () := idle_makePath_root (hm₂ .get (by decide))
  refine (adds_writeNew isPart_schemaFile hroot).bind fun _ t₃ hle₃ hs => .pure ?_
  exact ⟨fun m hmem => isDirectory_mono hle₃ (hm₂ m hmem), isDirectory_mono hle₃ ht, hs⟩

theorem HasFolders.idle_ensureFolders (h : l.HasFolders t) : Idle l.ensureFolders t () := by
  refine .bind (.forIn fun m hm => .bind (idle_makePath (h.methods m hm)) (.pure _)) ?_
  refine .bind (idle_makePath h.tables) ?_
  exact .bind (idle_writeNew _ h.schema) (.pure ())

/-! ### The declared tables -/

/-- The tables that a schema declares, from what reading it gave. -/
def tablesOf : Except FileFault String → Except FileFault (List String)
  | .ok script => .ok (Sql.declaredTables script)
  | .error .absent => .ok []
  | .error fault => .error fault

theorem run_declaredTables (l : Layout) (t : FileTree) :
    l.declaredTables.run t = (tablesOf (t.readText l.schemaPath), t) := by
  rw [declaredTables, run_get]
  cases t.readText l.schemaPath with
  | ok script => rfl
  | error fault => cases fault <;> rfl

theorem adds_declaredTables (l : Layout) (t : FileTree) :
    Adds l.declaredTables t fun tables t' => l.declaredTables.run t' = (.ok tables, t') := by
  have hrun := run_declaredTables l t
  have hsame : (l.declaredTables.run t).2 = t := by rw [hrun]
  constructor
  · rw [hsame]
  · intro tables htables
    rw [hsame]
    exact Prod.ext htables hsame

theorem idle_declaredTables (hschema : t.has l.schemaPath = true)
    (h : l.declaredTables.run t = (.ok tables, t)) : Idle l.declaredTables t tables := by
  intro t' hle
  rw [run_declaredTables] at h ⊢
  rw [readText_mono hle hschema, (Prod.mk.inj h).1]

/-! ### The folders and templates of the tables -/

theorem adds_makeTableFolders (l : Layout) (tables : List String) (t : FileTree) :
    Adds (l.makeTableFolders tables) t fun _ t' => l.HasTableFolders tables t' := by
  refine Adds.bind (Adds.forIn (fun table t => ∀ m ∈ Method.all,
    t.isDirectory (Path.tidied (l.tableMethodFolder table m)) = true) ?_ ?_) fun _ _ _ h => .pure h
  · exact fun hle h m hm => isDirectory_mono hle (h m hm)
  · intro table _ t' _
    refine Adds.bind (Adds.forIn (fun m t =>
      t.isDirectory (Path.tidied (l.tableMethodFolder table m)) = true)
      isDirectory_mono fun m _ t'' _ => ?_) fun _ _ _ h => .pure ⟨rfl, h⟩
    have hmake := adds_makePath (l.tableFolder table) (isPart_name m) t''
    exact hmake.bind fun _ _ _ hdir => .pure ⟨rfl, hdir⟩

theorem HasTableFolders.mono (h : l.HasTableFolders tables t) (hle : t ≤ t') :
    l.HasTableFolders tables t' :=
  fun table htable m hm => isDirectory_mono hle (h table htable m hm)

theorem HasTableFolders.idle_makeTableFolders (h : l.HasTableFolders tables t) :
    Idle (l.makeTableFolders tables) t () := by
  refine .bind (.forIn fun table htable => .bind (.forIn fun m hm => ?_) (.pure _)) (.pure ())
  exact .bind (idle_makePath (h table htable m hm)) (.pure _)

theorem adds_provision (h : l.HasTableFolders tables t) :
    Adds (l.provision tables) t fun _ t' => l.HasTemplates tables t' := by
  refine Adds.flatMapM (fun table t => ∀ m ∈ Method.all,
    t.has (l.templatePath table m) = true) ?_ ?_
  · exact fun hle h m hm => has_mono hle (h m hm)
  · intro table htable t' hle
    refine Adds.filterMapM (fun m t => t.has (l.templatePath table m) = true)
      has_mono fun m hm t'' hle' => ?_
    have hdir := isDirectory_mono (le_trans hle hle') (h table htable m hm)
    refine (adds_writeNew (isPart_template m) (idle_makePath hdir)).bind fun written t₃ _ hhas => ?_
    cases written with
    | false => exact .pure hhas
    | true => exact .pure hhas

theorem HasTemplates.idle_provision (h : l.HasTemplates tables t) :
    Idle (l.provision tables) t [] := by
  refine .flatMapM fun table htable => .filterMapM fun m hm => ?_
  exact .bind (idle_writeNew _ (h table htable m hm)) (.pure none)

/-! ### The whole layout -/

theorem adds_scaffold (l : Layout) (t : FileTree) :
    Adds l.scaffold t fun tables t' => l.Complete tables t' := by
  refine (adds_ensureFolders l t).bind fun _ t₁ _ hfolders => ?_
  refine (adds_declaredTables l t₁).bind fun tables t₂ hle₂ hdeclared => ?_
  refine (adds_makeTableFolders l tables t₂).bind fun _ t₃ hle₃ htables => ?_
  refine (adds_provision htables).bind fun _ t₄ hle₄ htemplates => .pure ?_
  have hschema := has_mono hle₂ hfolders.schema
  have hle := le_trans hle₃ hle₄
  exact {
    folders := hfolders.mono (le_trans hle₂ hle)
    declared := idle_declaredTables hschema hdeclared t₄ hle
    tableFolders := htables.mono hle₄
    templates := htemplates }

theorem Complete.idle_scaffold (h : l.Complete tables t) : Idle l.scaffold t tables := by
  refine .bind h.folders.idle_ensureFolders ?_
  refine .bind (idle_declaredTables h.folders.schema h.declared) ?_
  refine .bind h.tableFolders.idle_makeTableFolders ?_
  exact .bind h.templates.idle_provision (.pure tables)

end Layout
end QueryTree
