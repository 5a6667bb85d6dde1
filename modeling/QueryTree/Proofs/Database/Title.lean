import Mathlib.Data.List.Nodup
import QueryTree.Database.Change
import QueryTree.Proofs.Outcome

/-!
# What tables are called

A database is looked at through the titles of its tables: whether they are temporary, and their names.
No two tables have the same title (`Apart`). What is written to rows only puts tables in the places of
others (`Rewritten`), which leaves the titles as they are, and declaring and dropping tables keeps them
apart (`leads_of_prepare`).
-/

namespace QueryTree.Database

/-- What tells the tables of a database apart: whether they are temporary, and their names. -/
abbrev Title := Bool × String

/-- Titles with the same key differ in the case of letters only. -/
def Title.key (a : Title) : Bool × List Char := (a.1, a.2.toList.map Char.toLower)

def Table.title (t : Table) : Title := (t.temporary, t.name)

def titles (db : Database) : List Title := db.tables.map Table.title

variable {db db' : Database} {t t' : Table} {name : String} {temporary : Bool} {a b : Title}
  {titles : List Title}

theorem isTable_iff : isTable name temporary t = true ↔ t.title.key = Title.key (temporary, name) := by
  simp [isTable, sameName, Text.sameLetters, Title.key, Table.title]

theorem has_iff :
    db.has name temporary = true ↔ Title.key (temporary, name) ∈ db.titles.map Title.key := by
  simp only [has, List.any_eq_true, isTable_iff, Database.titles, List.mem_map,
    exists_exists_and_eq_and]

/-- No two tables have the same title. -/
def Apart (titles : List Title) : Prop := (titles.map Title.key).Nodup

theorem Apart.eq_of_key (h : Apart titles) (ha : a ∈ titles) (hb : b ∈ titles)
    (hkey : a.key = b.key) : a = b :=
  List.inj_on_of_nodup_map h ha hb hkey

theorem Apart.concat (h : Apart titles) (hnew : a.key ∉ titles.map Title.key) :
    Apart (titles ++ [a]) := by
  rw [Apart, List.map_append, List.map_singleton]
  exact List.nodup_append'.2 ⟨h, List.nodup_singleton _, by simpa using hnew⟩

theorem Apart.filter (h : Apart titles) (p : Title → Bool) : Apart (titles.filter p) :=
  h.sublist ((List.filter_sublist).map _)

/-! ### One table in place of another -/

theorem titles_replace (h : Apart db.titles) (ht : t ∈ db.tables) (htitle : t'.title = t.title) :
    (db.replace t').titles = db.titles := by
  simp only [Database.titles, replace, List.map_map]
  refine List.map_congr_left fun u hu => ?_
  rw [Function.comp_apply]
  split
  · next hsame =>
    have hkey : u.title.key = t'.title.key := isTable_iff.1 hsame
    rw [htitle] at hkey ⊢
    exact h.eq_of_key (List.mem_map_of_mem ht) (List.mem_map_of_mem hu) hkey.symm
  · rfl

theorem mem_of_sequenceFor? {s : Table} (h : db.sequenceFor? t = some s) : s ∈ db.tables := by
  unfold sequenceFor? at h
  split at h
  · exact List.mem_of_find?_eq_some h
  · cases h

theorem titles_keepHighest (h : Apart db.titles) (t : Table) (highest : Int) :
    (db.keepHighest t highest).titles = db.titles := by
  unfold keepHighest
  split
  · rfl
  · next s hs =>
    dsimp only
    split
    · split
      · exact titles_replace h (mem_of_sequenceFor? hs) rfl
      · rfl
    · exact titles_replace h (mem_of_sequenceFor? hs) rfl

theorem replace_of_settle {count : Nat} {result : Database × Nat} (h : db.settle t count = .ok result) :
    result.1 = db.replace t := by
  obtain ⟨_, -, h⟩ := bind_eq_ok.1 h
  cases h
  rfl

theorem titles_remove (h : Apart db.titles) (t : Table) :
    (db.remove t).titles = db.titles.filter fun a => a.key ≠ t.title.key := by
  have hfilter : ∀ db' : Database, db'.titles = db.titles →
      (db'.tables.filter fun t' => !isTable t.name t.temporary t').map Table.title =
        db.titles.filter fun a => a.key ≠ t.title.key := by
    intro db' htitles
    rw [← htitles, Database.titles, List.filter_map]
    congr 1
    refine List.filter_congr fun u _ => ?_
    rw [Function.comp_apply, Bool.eq_iff_iff, Bool.not_eq_true', ← Bool.not_eq_true, isTable_iff,
      decide_eq_true_iff]
    rfl
  unfold remove
  split
  · next s hs => exact hfilter _ (titles_replace h (mem_of_sequenceFor? hs) rfl)
  · exact hfilter db rfl

theorem titles_append (db : Database) (t : Table) : (db.append t).titles = db.titles ++ [t.title] := by
  simp [Database.titles, append, Table.title]

theorem titles_add (db : Database) (t : Table) :
    (db.add t).titles = db.titles ++ [t.title] ∨
      (db.add t).titles = db.titles ++ [t.title] ++ [(t.temporary, sequenceName)] ∧
        Title.key (t.temporary, sequenceName) ∉ (db.titles ++ [t.title]).map Title.key := by
  unfold add
  dsimp only
  split
  · next hfirst =>
    refine .inr ⟨by rw [titles_append, titles_append]; rfl, ?_⟩
    rw [← titles_append, ← has_iff]
    simpa using (Bool.and_eq_true_iff.1 hfirst).2
  · exact .inl (titles_append db t)

/-! ### Tables by their names -/

theorem readable?_eq_some (h : db.readable? name = some t) :
    (∃ temporary, t = db.list temporary) ∨ db.table? name = some t := by
  unfold readable? at h
  split at h
  · exact .inl ⟨false, (Option.some.inj h).symm⟩
  split at h
  · exact .inl ⟨true, (Option.some.inj h).symm⟩
  · exact .inr h

theorem isList_list (db : Database) (temporary : Bool) : isList (db.list temporary) = true := by
  cases temporary <;> rfl

theorem mem_of_table? (h : db.table? name = some t) : t ∈ db.tables := by
  rw [table?, Option.orElse_eq_or, Option.or_eq_some_iff] at h
  rcases h with h | ⟨-, h⟩
  · exact List.mem_of_find?_eq_some h
  · exact List.mem_of_find?_eq_some h

theorem mem_of_lookUp (h : db.lookUp name = .ok t) : t ∈ db.tables := by
  unfold lookUp at h
  split at h
  · next u hu =>
    split at h
    · cases h
    · next hlist =>
      cases h
      rcases readable?_eq_some hu with ⟨temporary, rfl⟩ | htable
      · exact absurd (isList_list db temporary) hlist
      · exact mem_of_table? htable
  · cases h

/-! ### Rows -/

theorem title_place {number : Int} {values : List Value} (h : t.place number values = .ok t') :
    t'.title = t.title := by
  unfold Table.place at h
  dsimp only at h
  split at h
  · cases h
  split at h
  · cases h
  split at h
  · cases h
  · cases h
    rfl

theorem title_change {row : Row} {given : Option Value} {values : List Value}
    (h : t.change row given values = .ok t') : t'.title = t.title := by
  have hremoved : ∀ {number}, (t.remove row.number).place number values = .ok t' →
      t'.title = t.title := title_place
  cases given with
  | none => exact hremoved h
  | some v =>
    obtain ⟨number, -, h⟩ := bind_eq_ok.1 h
    exact hremoved h

theorem title_foldlM {β : Type} {f : Table → β → Except DatabaseFault Table}
    (hf : ∀ {t b t'}, f t b = .ok t' → t'.title = t.title) {l : List β} (h : l.foldlM f t = .ok t') :
    t'.title = t.title := by
  induction l generalizing t with
  | nil =>
    cases h
    rfl
  | cons b l ih =>
    rw [List.foldlM_cons] at h
    obtain ⟨u, hu, h⟩ := bind_eq_ok.1 h
    exact (ih h).trans (hf hu)

theorem title_insertRows {rows : List Placed} {last highest last' highest' : Option Int}
    (h : insertRows t last highest rows = (.ok t', last', highest')) : t'.title = t.title := by
  induction rows generalizing t last highest with
  | nil =>
    cases h
    rfl
  | cons row rows ih =>
    unfold insertRows at h
    split at h
    · cases h
    · next u number hadd =>
      have hplaced : ∃ number, t.place number (row.row t) = .ok u := by
        unfold Table.add at hadd
        split at hadd
        · obtain ⟨number, -, hadd⟩ := bind_eq_ok.1 hadd
          obtain ⟨_, hplace, hadd⟩ := bind_eq_ok.1 hadd
          cases hadd
          exact ⟨number, hplace⟩
        · obtain ⟨number, -, hadd⟩ := bind_eq_ok.1 hadd
          obtain ⟨_, hplace, hadd⟩ := bind_eq_ok.1 hadd
          cases hadd
          exact ⟨number, hplace⟩
      obtain ⟨_, hplace⟩ := hplaced
      exact (ih h).trans (title_place hplace)

/-! ### Commands -/

/-- What a prepared command that has no answer leads to, if it succeeds. -/
def Prepared.Leads (post : Database → Prop) : Prepared → Prop
  | .answer _ => False
  | .schema db => post db
  | .write run => ∀ binding result, (run binding).outcome = .ok result → post result.1

theorem Prepared.Leads.imp {post post' : Database → Prop} {prepared : Prepared}
    (h : prepared.Leads post) (himp : ∀ db, post db → post' db) : prepared.Leads post' := by
  cases prepared with
  | answer plan => exact h
  | schema db => exact himp db h
  | write run => exact fun binding result hrun => himp _ (h binding result hrun)

variable {prepared : Prepared}

/-- What writing rows makes of a database: a table of the same title takes the place of one, and a higher
number may be kept for it. -/
inductive Rewritten (db : Database) : Database → Prop where
  | rows {t t' : Table} (ht : t ∈ db.tables) (htitle : t'.title = t.title) :
      Rewritten db (db.replace t')
  | highest {t t' : Table} (ht : t ∈ db.tables) (htitle : t'.title = t.title) (number : Int) :
      Rewritten db ((db.replace t').keepHighest t' number)

theorem Rewritten.titles_eq (h : Rewritten db db') (hapart : Apart db.titles) :
    db'.titles = db.titles := by
  cases h with
  | rows ht htitle => exact titles_replace hapart ht htitle
  | @highest t t' ht htitle number =>
    have hreplaced := titles_replace hapart ht htitle
    exact (titles_keepHighest (hreplaced ▸ hapart) t' number).trans hreplaced

theorem leads_of_prepareInsert {columns : Option (List String)} {rows : List (List Expr)}
    (h : db.prepareInsert name columns rows = .ok prepared) : prepared.Leads (Rewritten db) := by
  obtain ⟨t, ht, h⟩ := bind_eq_ok.1 h
  obtain ⟨places, -, h⟩ := bind_eq_ok.1 h
  obtain ⟨plan, -, h⟩ := bind_eq_ok.1 h
  obtain ⟨_, -, h⟩ := bind_eq_ok.1 (eq_ok_of_check h)
  cases eq_ok_of_check h
  intro binding result hrun
  dsimp only at hrun
  split at hrun
  · cases hrun
  split at hrun
  · cases hrun
  next t' last highest hinsert =>
  split at hrun
  · next db' count hsettle =>
    cases hrun
    obtain rfl : db' = db.replace t' := replace_of_settle hsettle
    have hmem := mem_of_lookUp ht
    have htitle := title_insertRows hinsert
    cases highest with
    | none => exact .rows hmem htitle
    | some highest => exact .highest hmem htitle highest
  · cases hrun

theorem leads_of_prepareUpdate {sets : List (String × Expr)} {condition : Option Expr}
    (h : db.prepareUpdate name sets condition = .ok prepared) : prepared.Leads (Rewritten db) := by
  obtain ⟨t, ht, h⟩ := bind_eq_ok.1 h
  obtain ⟨sets, -, h⟩ := bind_eq_ok.1 h
  obtain ⟨condition, -, h⟩ := bind_eq_ok.1 h
  obtain ⟨_, -, h⟩ := bind_eq_ok.1 h
  cases h
  intro binding result hrun
  obtain ⟨t', hchanged, hsettle⟩ := bind_eq_ok.1 hrun
  rw [replace_of_settle hsettle]
  exact .rows (mem_of_lookUp ht) (title_foldlM title_change hchanged)

theorem leads_of_prepareDelete {condition : Option Expr}
    (h : db.prepareDelete name condition = .ok prepared) : prepared.Leads (Rewritten db) := by
  obtain ⟨t, ht, h⟩ := bind_eq_ok.1 h
  obtain ⟨condition, -, h⟩ := bind_eq_ok.1 h
  obtain ⟨_, -, h⟩ := bind_eq_ok.1 h
  obtain ⟨_, -, h⟩ := bind_eq_ok.1 h
  cases h
  intro binding result hsettle
  rw [replace_of_settle hsettle]
  exact .rows (mem_of_lookUp ht) rfl

theorem leads_of_prepareDrop {guarded : Bool} (h : db.prepareDrop name guarded = .ok prepared) :
    prepared.Leads fun db' => Apart db.titles → Apart db'.titles := by
  have hremoved : ∀ t, Apart db.titles → Apart (db.remove t).titles :=
    fun t hapart => titles_remove hapart t ▸ hapart.filter _
  unfold prepareDrop at h
  split at h
  · split at h
    · cases h
      exact id
    · cases h
  · next t hsome =>
    split at h
    · cases h
    split at h
    · cases h
      intro binding result hrun
      dsimp only at hrun
      split at hrun
      · cases hrun
        exact hremoved t
      · cases hrun
    · cases h
      exact hremoved t

theorem createTable_eq (db : Database) (name written source : String) (temporary guarded : Bool)
    (columns : Bool → Except DatabaseFault (List ColumnDecl)) :
    db.createTable name written source temporary guarded columns =
      if isReserved name then .error (.reservedName name)
      else if db.has name temporary then
        if guarded then (columns false).map fun _ => db else .error (.tableExists written)
      else (columns true).map fun decls => db.add (.ofDecls name source temporary decls) := by
  rw [Database.createTable]
  cases isReserved name
  · cases db.has name temporary
    · cases columns true <;> rfl
    · cases guarded
      · rfl
      · cases columns false <;> rfl
  · rfl

theorem apart_of_createTable {written source : String} {guarded : Bool}
    {columns : Bool → Except DatabaseFault (List ColumnDecl)}
    (h : db.createTable name written source temporary guarded columns = .ok db')
    (hapart : Apart db.titles) : Apart db'.titles := by
  rw [createTable_eq] at h
  split at h
  · cases h
  split at h
  · split at h
    · obtain ⟨_, -, rfl⟩ := map_eq_ok.1 h
      exact hapart
    · cases h
  · next hhas =>
    rw [has_iff] at hhas
    obtain ⟨decls, -, rfl⟩ := map_eq_ok.1 h
    have hadded : Apart (db.titles ++ [(temporary, name)]) := hapart.concat hhas
    rcases titles_add db (.ofDecls name source temporary decls) with htitles | ⟨htitles, hnew⟩
    · rw [htitles]
      exact hadded
    · rw [htitles]
      exact hadded.concat hnew

/-- A prepared command has an answer, or it keeps the titles apart. -/
theorem leads_of_prepare {c : Command} (h : db.prepare c = .ok prepared) :
    (∃ plan, prepared = .answer plan) ∨
      prepared.Leads fun db' => Apart db.titles → Apart db'.titles := by
  have hrows : ∀ {prepared : Prepared}, prepared.Leads (Rewritten db) →
      prepared.Leads fun db' => Apart db.titles → Apart db'.titles :=
    fun hleads => hleads.imp fun db' h hapart => h.titles_eq hapart ▸ hapart
  cases c with
  | createTable name written source temporary guarded columns =>
    obtain ⟨db', hcreate, rfl⟩ := map_eq_ok.1 h
    exact .inr (apart_of_createTable hcreate)
  | dropTable name guarded => exact .inr (leads_of_prepareDrop h)
  | insert table columns rows => exact .inr (hrows (leads_of_prepareInsert h))
  | update table sets condition => exact .inr (hrows (leads_of_prepareUpdate h))
  | delete table condition => exact .inr (hrows (leads_of_prepareDelete h))
  | query q =>
    obtain ⟨plan, -, rfl⟩ := map_eq_ok.1 h
    exact .inl ⟨plan, rfl⟩
  | enforceKeys enforced =>
    cases h
    exact .inr id
  | foreignKeys | tableInfo table | setting =>
    cases h
    exact .inl ⟨_, rfl⟩

end QueryTree.Database
