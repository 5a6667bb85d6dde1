import QueryTree.Proofs.Database.Width
import QueryTree.Proofs.Keyed
import QueryTree.Store.Basic

/-!
# The rows of an answer

A query is answered with the columns that its preparation has found, and with one row for each row that
the database gives. Where cells stand under these columns (`Carries`), a row has an entry for every
name, at its first place, with the last of the cells under it (`Answer.Shaped`), so that no entry is
missing if and only if no name is repeated. The rows of a single statement carry its columns
(`Store.query_reports`).
-/

namespace QueryTree

/-- Every row has the given columns: they are those of its statement, and it has a cell for each. -/
def Carries (columns : List String) (all : List Done) : Prop :=
  ∀ done ∈ all, ∀ cells ∈ done.rows, done.columns = columns ∧ cells.length = columns.length

namespace Answer

/-- A row is what is made of cells under columns. -/
structure Shaped (columns : List String) (cells : List Value) (row : List (String × Json)) : Prop where
  keys_eq : Keyed.keys row = columns.eraseDups
  /-- Every column holds the last of the cells under its name. -/
  get?_eq : ∀ name ∈ columns, ∃ (i : Nat) (cell : Value), columns[i]? = some name ∧
    name ∉ columns.drop (i + 1) ∧ cells[i]? = some cell ∧ Keyed.get? name row = some cell.toJson
  length_eq_iff : row.length = columns.length ↔ columns.Nodup

/-- The answer to a query that gives the rows: they are counted, and each stands under the columns. -/
def Reports (columns : List String) (rows : List (List Value)) (a : Answer) : Prop :=
  ∃ shaped, a = query columns shaped ∧ List.Forall₂ (Shaped columns) rows shaped ∧
    a.toJson = .object [("columns", .strings columns), ("rows", .array (shaped.map .object)),
      ("count", .ofNat rows.length)]

variable {columns : List String} {cells : List Value} {all : List Done} {name : String}

theorem keys_map_zip (h : cells.length = columns.length) :
    Keyed.keys ((columns.zip cells).map fun (name, cell) => (name, cell.toJson)) = columns := by
  rw [Keyed.keys, List.map_map]
  exact List.map_fst_zip h.ge

theorem keys_row (h : cells.length = columns.length) :
    Keyed.keys (row columns cells) = columns.eraseDups := by
  rw [row, Keyed.keys_ofList, keys_map_zip h]

theorem get?_row (h : cells.length = columns.length) (hname : name ∈ columns) :
    ∃ (i : Nat) (cell : Value), columns[i]? = some name ∧ name ∉ columns.drop (i + 1) ∧
      cells[i]? = some cell ∧ Keyed.get? name (row columns cells) = some cell.toJson := by
  have hkey : name ∈ Keyed.keys (row columns cells) := by
    rw [keys_row h]
    exact List.mem_eraseDups.2 hname
  obtain ⟨value, hvalue⟩ := Keyed.get?_of_mem hkey
  obtain ⟨pre, post, hpairs, hpost⟩ := Keyed.get?_ofList.1 hvalue
  -- the pair that is written last stands at the same place as its column and its cell
  have hcolumns : columns = Keyed.keys pre ++ name :: Keyed.keys post := by
    rw [← keys_map_zip h, hpairs, Keyed.keys_append, Keyed.keys_cons]
  have hplace : (columns.zip cells)[pre.length]?.map (fun (name, cell) => (name, cell.toJson)) =
      some (name, value) := by
    rw [← List.getElem?_map, hpairs, List.getElem?_append_right le_rfl, Nat.sub_self]
    rfl
  obtain ⟨⟨_, cell⟩, hpair, heq⟩ := Option.map_eq_some_iff.1 hplace
  cases heq
  obtain ⟨hcolumn, hcell⟩ := List.getElem?_zip_eq_some.1 hpair
  refine ⟨pre.length, cell, hcolumn, ?_, hcell, hvalue⟩
  have hdrop : columns.drop (pre.length + 1) = Keyed.keys post := by
    rw [hcolumns, List.append_cons]
    exact List.drop_left' (by simp [Keyed.keys])
  rwa [hdrop]

theorem length_row_eq_iff (h : cells.length = columns.length) :
    (row columns cells).length = columns.length ↔ columns.Nodup := by
  have hlength : (row columns cells).length = columns.eraseDups.length := by
    rw [← keys_row h, Keyed.keys, List.length_map]
  rw [hlength, length_eraseDups]
  exact Multiset.toFinset_card_eq_card_iff_nodup

theorem shaped_row (h : cells.length = columns.length) :
    Shaped columns cells (row columns cells) where
  keys_eq := keys_row h
  get?_eq _ hname := get?_row h hname
  length_eq_iff := length_row_eq_iff h

/-- The rows of statements that carry the columns are put under these. -/
theorem reports_ofQuery (h : Carries columns all) :
    (ofQuery columns all).Reports columns (all.flatMap Done.rows) := by
  have hrows : (all.flatMap fun d => d.rows.map (row d.columns)) =
      (all.flatMap Done.rows).map (row columns) := by
    rw [List.map_flatMap]
    refine List.flatMap_congr fun done hdone => List.map_congr_left fun cells hcells => ?_
    rw [(h done hdone cells hcells).1]
  have hshaped : List.Forall₂ (Shaped columns) (all.flatMap Done.rows)
      (all.flatMap fun d => d.rows.map (row d.columns)) := by
    rw [hrows, List.forall₂_map_right_iff, List.forall₂_same]
    intro cells hcells
    obtain ⟨done, hdone, hcells⟩ := List.mem_flatMap.1 hcells
    exact shaped_row (h done hdone cells hcells).2
  refine ⟨_, rfl, hshaped, ?_⟩
  rw [hshaped.length_eq]
  rfl

end Answer

theorem carries_of_wide {columns : List String} {all : List Done} (hwide : ∀ done ∈ all, done.Wide)
    (hcolumns : ∀ done ∈ all, done.rows ≠ [] → done.columns = columns) : Carries columns all := by
  intro done hdone cells hcells
  have hsame := hcolumns done hdone (List.ne_nil_of_mem hcells)
  exact ⟨hsame, hsame ▸ hwide done hdone cells hcells⟩

namespace Store

open Database

section Engine

variable {σ : Type} [Engine σ] {s : Store σ} {sql : String} {args : List Value}
  {columns : List String} {all : List Done} {session : σ}

theorem query_eq_ok (hcolumns : Engine.columns s.session sql = .ok columns)
    (hrun : Engine.run s.session sql args = (.ok all, session)) :
    s.query sql args = (.ok (.ofQuery columns all), { s with session }) := by
  rw [query, hcolumns, hrun]

end Engine

/-- Rows that carry the columns are reported under these, and a query over any engine reports what its
statements give under the columns that its preparation has found. With the engine of the program the rows
carry these if every statement with rows has them, as a statement that stands alone does. -/
theorem query_reports (columns : List String) (all : List Done) :
    (Carries columns all →
      (Answer.ofQuery columns all).Reports columns (all.flatMap Done.rows)) ∧
    (∀ {σ : Type} [Engine σ] (s : Store σ) (sql : String) (args : List Value) (session : σ),
      Engine.columns s.session sql = .ok columns →
        Engine.run s.session sql args = (.ok all, session) →
          s.query sql args = (.ok (.ofQuery columns all), { s with session })) ∧
    ∀ (s : Session) (sql : String) (args : List Value) (s' : Session),
      s.columns sql = .ok columns → s.run sql args = (.ok all, s') →
        ((∀ done ∈ all, done.rows ≠ [] → done.columns = columns) → Carries columns all) ∧
        ((statementsOf sql).length ≤ 1 → Carries columns all) := by
  refine ⟨Answer.reports_ofQuery, fun s sql args session => query_eq_ok,
    fun s sql args s' hcolumns hrun => ?_⟩
  have hwide := Session.wide_of_run hrun
  refine ⟨carries_of_wide hwide, fun hone => ?_⟩
  have hsame := Session.columns_of_run hone hcolumns hrun
  exact carries_of_wide hwide fun done hdone _ => hsame done hdone

/-- Of two columns with one name the first gives the place and the last the value. -/
theorem query_reports_repeated :
    let sql := "SELECT 1 AS a, 2 AS b, 3 AS a"
    let columns := ["a", "b", "a"]
    let rows : List (List Value) := [[.integer 1, .integer 2, .integer 3]]
    (start .empty none).query sql [] =
        (.ok (.ofQuery columns [⟨columns, rows, 0⟩]), start .empty none) ∧
      (Answer.ofQuery columns [⟨columns, rows, 0⟩]).Reports columns rows ∧
      Answer.ofQuery columns [⟨columns, rows, 0⟩] =
        .query columns [[("a", .int 3), ("b", .int 2)]] := by
  intro sql columns rows
  obtain ⟨hreports, hquery, hcarries⟩ := query_reports columns [⟨columns, rows, 0⟩]
  have hcolumns : (Session.start .empty).columns sql = .ok columns := by decide +kernel
  have hrun : (Session.start .empty).run sql [] = (.ok [⟨columns, rows, 0⟩], .start .empty) := by
    decide +kernel
  have hanswer := hquery (start .empty none) sql [] (.start .empty) hcolumns hrun
  obtain ⟨-, hcarries⟩ := hcarries (.start .empty) sql [] (.start .empty) hcolumns hrun
  have hone : (statementsOf sql).length ≤ 1 := by decide +kernel
  exact ⟨hanswer, hreports (hcarries hone), rfl⟩

end Store
end QueryTree
