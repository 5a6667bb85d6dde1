import Mathlib.Data.List.Forall2
import QueryTree.Proofs.Database.Run

/-!
# Rows as wide as their columns

The rows of a table carry its row numbers behind the columns, but what a query gives has exactly one
cell for each of its columns (`Plan.wide_ofQuery`). So every statement that is run gives rows as wide as
its columns (`Session.wide_of_run`), and where a text holds one statement only these columns are those
that are found when the text is prepared (`Session.columns_of_run`).
-/

namespace QueryTree.Database

/-- Every row that the plan gives has a cell for each of its columns. -/
def Plan.Wide (plan : Plan) : Prop :=
  ∀ binding rows, plan.rows binding = .ok rows → ∀ cells ∈ rows, cells.length = plan.columns.length

variable {db : Database} {plan : Plan} {prepared : Prepared}

/-! ### Selections -/

theorem length_of_mem_shownRows {outputs : List Labelled} {binding : Binding}
    {kept : List (List Value)} {p : List Value × List Value} (h : p ∈ shownRows outputs binding kept) :
    p.2.length = outputs.length := by
  unfold shownRows at h
  split at h
  · rw [List.mem_singleton.1 h]
    exact List.length_map _
  · obtain ⟨cells, -, rfl⟩ := List.mem_map.1 h
    exact List.length_map _

theorem exists_of_mem_sortRows {keys : List (SortKey × Bool)} {binding : Binding}
    {shown : List (List Value × List Value)} {cells : List Value}
    (h : cells ∈ sortRows keys binding shown) : ∃ p ∈ shown, p.2 = cells := by
  simp only [sortRows, List.mem_map, List.mem_mergeSort] at h
  obtain ⟨_, ⟨p, hp, rfl⟩, rfl⟩ := h
  exact ⟨p, hp, rfl⟩

theorem length_of_selectRows {outputs : List Labelled} {condition : Term}
    {keys : List (SortKey × Bool)} {limit : Option Term} {binding : Binding}
    {source rows : List (List Value)}
    (h : selectRows outputs condition keys limit binding source = .ok rows) :
    ∀ cells ∈ rows, cells.length = outputs.length := by
  have hsorted : ∀ cells ∈ sortRows keys binding
      (shownRows outputs binding (source.filter (condition.admits binding))),
      cells.length = outputs.length := by
    intro cells hcells
    obtain ⟨p, hp, rfl⟩ := exists_of_mem_sortRows hcells
    exact length_of_mem_shownRows hp
  cases limit with
  | none =>
    cases h
    exact hsorted
  | some t =>
    obtain ⟨most, -, h⟩ := bind_eq_ok.1 h
    cases h
    cases most with
    | none => exact hsorted
    | some n => exact fun cells hcells => hsorted cells (List.mem_of_mem_take hcells)

namespace Plan

theorem wide_ofSelect {named : Named} {s : Select} (h : ofSelect db named s = .ok plan) :
    plan.Wide := by
  obtain ⟨source, -, h⟩ := bind_eq_ok.1 h
  obtain ⟨widths, -, h⟩ := bind_eq_ok.1 h
  obtain ⟨limit, -, h⟩ := bind_eq_ok.1 (eq_ok_of_check h)
  obtain ⟨outputs, -, h⟩ := bind_eq_ok.1 h
  obtain ⟨condition, -, h⟩ := bind_eq_ok.1 h
  obtain ⟨keys, -, h⟩ := bind_eq_ok.1 h
  cases eq_ok_of_check h
  intro binding rows hrows cells hcells
  rw [List.length_map]
  cases source with
  | none => exact length_of_selectRows hrows cells hcells
  | some source =>
    obtain ⟨given, -, hrows⟩ := bind_eq_ok.1 hrows
    exact length_of_selectRows hrows cells hcells

/-! ### Rows of expressions -/

theorem length_of_termsOf {rows : List (List Expr)} {terms : List (List Term)}
    (h : termsOf rows = .ok terms) : ∀ row ∈ terms, row.length = (terms.headD []).length := by
  induction rows generalizing terms with
  | nil =>
    cases h
    exact fun row hrow => absurd hrow List.not_mem_nil
  | cons first rest ih =>
    unfold termsOf at h
    split at h
    · obtain ⟨head, hhead, h⟩ := bind_eq_ok.1 h
      obtain ⟨more, hmore, h⟩ := bind_eq_ok.1 h
      cases h
      intro row hrow
      rcases List.mem_cons.1 hrow with rfl | hrow
      · rfl
      · obtain ⟨source, -, hsource⟩ := exists_of_mem_mapM hmore hrow
        dsimp only at hsource
        split at hsource
        · cases hsource
        · next hlength =>
          simp only [bne_iff_ne, ne_eq, Decidable.not_not] at hlength
          rw [List.headD_cons, length_of_mapM hsource, length_of_mapM hhead, hlength]
    · obtain ⟨more, hmore, h⟩ := bind_eq_ok.1 h
      obtain ⟨head, -, h⟩ := bind_eq_ok.1 h
      dsimp only at h
      split at h
      · cases h
      · next hlength =>
        cases h
        intro row hrow
        rcases List.mem_cons.1 hrow with rfl | hrow
        · rfl
        · rw [ih hmore row hrow]
          cases more with
          | nil => cases hrow
          | cons next more => simpa using hlength

theorem wide_ofRows {rows : List (List Expr)} (h : ofRows rows = .ok plan) : plan.Wide := by
  obtain ⟨terms, hterms, h⟩ := bind_eq_ok.1 h
  cases h
  intro binding cells hcells row hrow
  cases hcells
  obtain ⟨source, hsource, rfl⟩ := List.mem_map.1 hrow
  simp only [List.length_map, List.length_range]
  exact length_of_termsOf hterms source hsource

/-! ### Queries -/

theorem wide_ofQuery (named : Named) :
    ∀ {q : Query}, ofQuery db named q = .ok plan → plan.Wide
  | .select s, h => wide_ofSelect (by rwa [ofQuery] at h)
  | .rows rows, h => wide_ofRows (by rwa [ofQuery] at h)
  | .named definitions body, h => wide_ofQuery (define db named definitions) (by rwa [ofQuery] at h)

theorem wide_fixed {columns : List String} {rows : List (List Value)}
    (h : ∀ cells ∈ rows, cells.length = columns.length) : (fixed columns rows).Wide := by
  intro binding given hgiven
  cases hgiven
  simpa [fixed] using h

end Plan

theorem wide_tableInfo (db : Database) (name : String) : (db.tableInfo name).Wide := by
  refine Plan.wide_fixed fun cells hcells => ?_
  obtain ⟨p, -, rfl⟩ := List.mem_map.1 hcells
  rfl

/-- Whatever plan a command is prepared to, its rows are as wide as its columns. -/
theorem wide_of_prepare {c : Command} (h : db.prepare c = .ok (.answer plan)) : plan.Wide := by
  cases c with
  | query q =>
    obtain ⟨_, hplan, heq⟩ := map_eq_ok.1 h
    cases heq
    exact Plan.wide_ofQuery [] hplan
  | foreignKeys =>
    cases h
    exact Plan.wide_fixed (by simp)
  | tableInfo table =>
    cases h
    exact wide_tableInfo db table
  | setting =>
    cases h
    exact Plan.wide_fixed (by simp)
  | createTable name written source temporary guarded columns =>
    obtain ⟨_, -, heq⟩ := map_eq_ok.1 h
    cases heq
  | dropTable name guarded => exact (leads_of_prepareDrop h).elim
  | insert table columns rows => exact (leads_of_prepareInsert h).elim
  | update table sets condition => exact (leads_of_prepareUpdate h).elim
  | delete table condition => exact (leads_of_prepareDelete h).elim
  | enforceKeys enforced => cases h

end QueryTree.Database

namespace QueryTree

/-- Every row has a cell for each of the columns. -/
def Done.Wide (done : Done) : Prop := ∀ cells ∈ done.rows, cells.length = done.columns.length

namespace Session

open Database

variable {s s' : Session} {prepared : Prepared} {binding : Binding} {done : Done}
  {args : List Value} {columns : List String} {all : List Done}

theorem columns_of_performed (h : s.perform binding prepared = (.ok done, s')) :
    done.columns = columnsOf prepared := by
  cases prepared with
  | answer plan =>
    obtain ⟨rows, -, heq⟩ := bind_eq_ok.1 (Prod.mk.inj h).1
    cases heq
    rfl
  | schema db =>
    cases h
    rfl
  | write run =>
    rw [perform] at h
    split at h
    · cases h
      rfl
    · cases (Prod.mk.inj h).1

theorem wide_of_performed (hplan : ∀ plan, prepared = .answer plan → plan.Wide)
    (h : s.perform binding prepared = (.ok done, s')) : done.Wide := by
  cases prepared with
  | answer plan =>
    obtain ⟨rows, hrows, heq⟩ := bind_eq_ok.1 (Prod.mk.inj h).1
    cases heq
    intro cells hcells
    rw [List.length_map]
    exact hplan plan rfl binding rows hrows cells hcells
  | schema db =>
    cases h
    exact fun cells hcells => absurd hcells List.not_mem_nil
  | write run =>
    rw [perform] at h
    split at h
    · cases h
      exact fun cells hcells => absurd hcells List.not_mem_nil
    · cases (Prod.mk.inj h).1

theorem wide_of_runAll {used : Nat} {rests : List Rest}
    (h : s.runAll args used rests = (.ok all, s')) : ∀ done ∈ all, done.Wide := by
  induction rests generalizing s used all with
  | nil =>
    cases (Prod.mk.inj h).1
    exact fun done hdone => absurd hdone List.not_mem_nil
  | cons rest more ih =>
    obtain ⟨slots, prepared, hready, binding, first, middle, hperform, used', later, hlater, rfl⟩ :=
      runAll_cons_eq_ok h
    obtain ⟨statement, -, hprepare, -⟩ := ready_eq_ok.1 hready
    have hfirst : first.Wide :=
      wide_of_performed (fun plan hplan => wide_of_prepare (hplan ▸ hprepare)) hperform
    exact List.forall_mem_cons.2 ⟨hfirst, ih hlater⟩

theorem wide_of_run {sql : String} (h : s.run sql args = (.ok all, s')) :
    ∀ done ∈ all, done.Wide :=
  wide_of_runAll h

theorem columns_of_ready {sql : String} {rest : Rest} {slots : Slots}
    (hrests : statementsOf sql = [rest]) (hready : s.ready rest = .ok (slots, prepared)) :
    s.columns sql = .ok (columnsOf prepared) := by
  obtain ⟨statement, hread, hprepare, -⟩ := ready_eq_ok.1 hready
  have hown : (do pure (columnsOf (← s.database.prepare (← Statement.read rest).command))) =
      Except.ok (columnsOf prepared) :=
    bind_eq_ok.2 ⟨statement, hread, bind_eq_ok.2 ⟨prepared, hprepare, rfl⟩⟩
  unfold Session.columns
  refine bind_eq_ok.2 ⟨[columnsOf prepared], ?_, ?_⟩
  · rw [hrests]
    exact mapM_eq_ok.2 (.cons hown .nil)
  · cases columnsOf prepared <;> rfl

/-- The rows of a text with one statement carry the columns that are found when it is prepared. -/
theorem columns_of_run {sql : String} (hone : (statementsOf sql).length ≤ 1)
    (hcolumns : s.columns sql = .ok columns) (h : s.run sql args = (.ok all, s')) :
    ∀ done ∈ all, done.columns = columns := by
  unfold run at h
  match hrests : statementsOf sql, hone with
  | [], _ =>
    rw [hrests] at h
    cases (Prod.mk.inj h).1
    exact fun done hdone => absurd hdone List.not_mem_nil
  | [rest], _ =>
    rw [hrests] at h
    obtain ⟨slots, prepared, hready, binding, first, middle, hperform, used', later, hlater, rfl⟩ :=
      runAll_cons_eq_ok h
    cases (Prod.mk.inj hlater).1
    rw [columns_of_ready hrests hready] at hcolumns
    intro done hdone
    rw [List.mem_singleton.1 hdone, columns_of_performed hperform, Except.ok.inj hcolumns]

end Session

end QueryTree
