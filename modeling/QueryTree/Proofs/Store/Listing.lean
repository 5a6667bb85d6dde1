import QueryTree.Proofs.Store.Reached
import QueryTree.Proofs.Store.Rows

/-!
# The tables of a store

A store finds its tables by a query of its own. What has to be known of an engine is how it answers that
one from its catalogue (`ListsTables`) and how its patterns match (`LikeRules`). Then the tables of an open
store are those that users have made, in order and except for the masked ones
(`Store.tables_of_reached`). With the engine of the program a single selection without slots
(`selection?`) gives the rows of its plan and leaves the session as it is (`Session.run_of_selection`), so
it is of this kind (`Session.listsTables`).
-/

namespace QueryTree

/-- The engine answers the query for the tables from the catalogue: it gives the names of the entries that
are tables and whose names the pattern does not match, in order. -/
structure ListsTables {σ : Type} [Engine σ] (like : List Char → List Char → Bool) (c : Catalogue)
    (session : σ) : Prop where
  columns_eq : Engine.columns session Store.tablesQuery = .ok ["name"]
  run_eq : ∃ (names : List String) (changes : Nat),
    (Engine.run session Store.tablesQuery []).1 =
        .ok [⟨["name"], names.map fun name => [.text name], changes⟩] ∧
      names.Perm ((c.filter fun e => e.kind = .table && !like "sqlite_%".toList e.name.toList).map
        Catalogue.Entry.name) ∧
      names.Pairwise (· ≤ ·)

namespace Store

variable {σ : Type} [Engine σ] {like : List Char → List Char → Bool} {c : Catalogue} {s : Store σ}

/-! ### The query for the tables -/

theorem execute_tablesQuery (hopen : s.isOpen = true) :
    s.execute tablesQuery [] = s.query tablesQuery [] := by
  have htrim : String.ofList (Text.trim tablesQuery.toList) = tablesQuery := by decide +kernel
  have hne : tablesQuery ≠ "" := by decide +kernel
  have hquery : Sql.classify tablesQuery = .query := by decide +kernel
  rw [execute, htrim, if_neg hne, hopen, hquery]
  rfl

theorem texts_ofQuery (names : List String) (changes : Nat) :
    Answer.texts "name"
      (.ofQuery ["name"] [⟨["name"], names.map fun name => [.text name], changes⟩]) = names := by
  have hrows : Answer.ofQuery ["name"] [⟨["name"], names.map fun name => [.text name], changes⟩] =
      .query ["name"] (names.map fun name => [("name", .string name)]) := by
    rw [Answer.ofQuery, List.flatMap_singleton, List.map_map]
    rfl
  rw [hrows, Answer.texts, List.filterMap_map]
  exact List.filterMap_some

/-- The list of the tables has every table of the catalogue that the pattern does not match. -/
theorem tables_eq (h : ListsTables like c s.session) (hopen : s.isOpen = true) :
    ∃ names, s.tables = .ok names ∧ names.Pairwise (· ≤ ·) ∧
      names.Perm (c.tables.filter fun name => !like "sqlite_%".toList name.toList) := by
  obtain ⟨names, changes, hrun, hperm, hsorted⟩ := h.run_eq
  rw [← Catalogue.filter_tables c fun name => !like "sqlite_%".toList name.toList] at hperm
  refine ⟨names, ?_, hsorted, hperm⟩
  have hanswer := query_eq_ok h.columns_eq (Prod.ext hrun rfl)
  rw [tables, execute_tablesQuery hopen, hanswer]
  exact congrArg Except.ok (texts_ofQuery names changes)

theorem mem_userTables_iff {name : String} :
    name ∈ c.userTables ↔ name ∈ c.tables ∧ Database.isReserved name = false := by
  rw [Catalogue.userTables, List.mem_filter, Bool.not_eq_true']

/-- The list of tables of an open store is sorted, and it has the tables that users have made, which are
those in the catalogue without a reserved name, except for the masked ones among them. In a store that
has come about it is without repetition. -/
theorem tables_of_reached {catalogue : σ → Catalogue} (hlike : LikeRules like)
    (hlists : ListsTables like (catalogue s.session) s.session) (hopen : s.isOpen = true) :
    ∃ names, s.tables = .ok names ∧ names.Pairwise (· ≤ ·) ∧
      (∀ name, name ∈ names ↔
        name ∈ (catalogue s.session).userTables ∧ isMasked name = false) ∧
      (Reached catalogue s → names.Pairwise (· < ·)) := by
  obtain ⟨names, htables, hsorted, hperm⟩ := tables_eq hlists hopen
  refine ⟨names, htables, hsorted, fun name => ?_, fun hreached => ?_⟩
  · have hreserved : isMasked name = false → Database.isReserved name = false := by
      intro hmasked
      rw [← Bool.not_eq_true] at hmasked ⊢
      exact mt Database.isMasked_of_isReserved hmasked
    rw [hperm.mem_iff, List.mem_filter, hlike.reserved, Bool.not_eq_true', mem_userTables_iff, and_assoc,
      and_iff_right_of_imp hreserved]
  · exact pairwise_lt_of_nodup hsorted (hperm.nodup_iff.2 (hreached.apart.filter _))

end Store

/-! ### The engine of the program -/

namespace Database

/-- The selection that a text asks for, if it is the only statement and has no slots. -/
def selection? (sql : String) : Option Select :=
  match statementsOf sql with
  | [rest] =>
    match Statement.read rest with
    | .ok ⟨.query (.select s), slots⟩ => if slots.count = 0 then some s else none
    | _ => none
  | _ => none

theorem selection?_eq_some {sql : String} {select : Select} (h : selection? sql = some select) :
    ∃ rest slots, statementsOf sql = [rest] ∧ slots.count = 0 ∧
      Statement.read rest = .ok ⟨.query (.select select), slots⟩ := by
  unfold selection? at h
  split at h
  · next rest hrests =>
    split at h
    · next hread =>
      split at h
      · next hcount =>
        cases h
        exact ⟨rest, _, hrests, hcount, hread⟩
      · cases h
    · cases h
  · cases h

theorem selection?_tablesQuery : selection? Store.tablesQuery = some tableNames := by
  decide +kernel

end Database

namespace Session

open Database

variable {s : Session} {sql : String} {select : Select} {plan : Plan} {rows : List (List Value)}

theorem ready_of_selection (h : selection? sql = some select)
    (hplan : Plan.ofSelect s.database [] select = .ok plan) :
    ∃ rest slots, statementsOf sql = [rest] ∧ slots.count = 0 ∧
      s.ready rest = .ok (slots, .answer plan) := by
  obtain ⟨rest, slots, hrests, hcount, hread⟩ := selection?_eq_some h
  have hquery : Plan.ofQuery s.database [] (.select select) = .ok plan := by
    rw [Plan.ofQuery, hplan]
  exact ⟨rest, slots, hrests, hcount, ready_eq_ok.2 ⟨_, hread, map_eq_ok.2 ⟨plan, hquery, rfl⟩, rfl⟩⟩

theorem run_of_selection (h : selection? sql = some select)
    (hplan : Plan.ofSelect s.database [] select = .ok plan)
    (hrows : ∀ binding, plan.rows binding = .ok rows) (args : List Value) :
    s.run sql args = (.ok [⟨plan.columns.map Prod.fst, rows, s.changes⟩], s) := by
  obtain ⟨rest, slots, hrests, hcount, hready⟩ := ready_of_selection h hplan
  have hbind : slots.bind args 0 = .ok ([], 0) := by
    rw [Slots.bind, hcount]
    rfl
  rw [run, hrests, runAll_cons, hready]
  dsimp only
  rw [hbind]
  dsimp only [perform]
  rw [hrows]
  rfl

theorem listsTables (s : Session) : ListsTables Value.matchesPattern s.catalogue s where
  columns_eq := by
    have hplan := ofSelect_tableNames s.database
    obtain ⟨rest, slots, hrests, -, hready⟩ := ready_of_selection selection?_tablesQuery hplan
    exact columns_of_ready hrests hready
  run_eq := by
    have hrun := run_of_selection selection?_tablesQuery (ofSelect_tableNames s.database)
      (rows_namesPlan _) []
    refine ⟨s.database.listedNames, s.changes, congrArg Prod.fst hrun, ?_, pairwise_le_mergeSort _⟩
    have htables : s.catalogue.tables = s.database.lastingNames := tables_catalogue s.database
    have hpattern : ∀ name : String, Value.matchesPattern "sqlite_%".toList name.toList =
        isMasked name := Value.likeRules_matchesPattern.reserved
    simp only [hpattern]
    rw [← Catalogue.filter_tables _ fun name => !isMasked name, htables]
    exact List.mergeSort_perm _ _

end Session

namespace Store

/-- A store whose users have given a script. -/
def scripted (script : String) : Store := ((start .empty none).perform (.applySchema script)).2

theorem sound_scripted (script : String) : (scripted script).Sound :=
  have hempty : Database.Apart Database.empty.titles := List.nodup_nil
  (sound_start hempty none).performs (.applySchema script)

theorem isOpen_scripted (script : String) : (scripted script).isOpen = true :=
  (isOpen_perform _ _).2 ⟨rfl, nofun⟩

/-- The index of a table, a masked table and a temporary one are not listed. -/
theorem tables_of_reached_scripted :
    let s := scripted "CREATE TABLE t (a UNIQUE); CREATE TABLE SQLITEX (a); CREATE TEMP TABLE u (a)"
    LikeRules Value.matchesPattern ∧
      ListsTables Value.matchesPattern (Session.catalogue s.session) s.session ∧ s.isOpen = true ∧
      Reached Session.catalogue s ∧ (Session.catalogue s.session).length = 3 ∧
      ∃ names, s.tables = .ok names ∧ names.Pairwise (· < ·) ∧ ∀ name, name ∈ names ↔ name = "t" := by
  intro s
  have hreached := (sound_scripted
    "CREATE TABLE t (a UNIQUE); CREATE TABLE SQLITEX (a); CREATE TEMP TABLE u (a)").reached
  have hlists := Session.listsTables s.session
  have hopen : s.isOpen = true := isOpen_scripted _
  have hcatalogue : Session.catalogue s.session =
      [⟨.table, "t"⟩, ⟨.index, "sqlite_autoindex_t_1"⟩, ⟨.table, "SQLITEX"⟩] := by
    decide +kernel
  obtain ⟨names, htables, -, hnames, hlt⟩ :=
    tables_of_reached Value.likeRules_matchesPattern hlists hopen
  refine ⟨Value.likeRules_matchesPattern, hlists, hopen, hreached, by rw [hcatalogue]; rfl, names,
    htables, hlt hreached, fun name => ?_⟩
  have husers : Catalogue.userTables
      [⟨.table, "t"⟩, ⟨.index, "sqlite_autoindex_t_1"⟩, ⟨.table, "SQLITEX"⟩] = ["t", "SQLITEX"] := by
    decide +kernel
  have hplain : isMasked "t" = false := by decide +kernel
  have hmasked : isMasked "SQLITEX" = true := by decide +kernel
  rw [hnames, hcatalogue, husers]
  constructor
  · rintro ⟨hname, hnot⟩
    rcases List.mem_pair.1 hname with rfl | rfl
    · rfl
    · rw [hmasked] at hnot
      cases hnot
  · rintro rfl
    exact ⟨List.mem_cons_self, hplain⟩

/-- A table whose name only looks like a reserved one is left out. -/
theorem tables_masked :
    let s := scripted "CREATE TABLE sqlitex (a)"
    Reached Session.catalogue s ∧ s.isOpen = true ∧
      Session.catalogue s.session = [⟨.table, "sqlitex"⟩] ∧
      "sqlitex" ∈ (Session.catalogue s.session).userTables ∧ s.tables = .ok [] := by
  intro s
  have hcatalogue : Session.catalogue s.session = [⟨.table, "sqlitex"⟩] := by decide +kernel
  have huser : "sqlitex" ∈ Catalogue.userTables [⟨.table, "sqlitex"⟩] := by decide +kernel
  have htables : s.tables = .ok [] := by decide +kernel
  exact ⟨(sound_scripted _).reached, isOpen_scripted _, hcatalogue, hcatalogue ▸ huser, htables⟩

end Store
end QueryTree
