import QueryTree.Proofs.Database.Reading
import QueryTree.Proofs.Database.Run

/-!
# Tables stay

What a statement is to the tables (`Deed`) decides what it can do to them. Writing rows removes no table,
and neither does declaring one: what they leave behind has the tables from before (`Retains`). A guarded
declaration of a table that is there does nothing, so a list of guarded declarations that once succeeded
does nothing where its tables are there (`runAll_again`).
-/

namespace QueryTree

/-- What a statement is to the tables of a database, which are told apart by `κ`. -/
inductive Deed (κ : Type) where
  /-- A declaration with `IF NOT EXISTS`. -/
  | guarded (table : κ)
  | insert
  | update
  | delete
  | other

namespace Deed

variable {κ : Type}

def IsGuarded : Deed κ → Prop
  | guarded _ => True
  | _ => False

def IsWrite : Deed κ → Prop
  | insert | update | delete => True
  | _ => False

instance (deed : Deed κ) : Decidable deed.IsGuarded :=
  match deed with
  | guarded _ => isTrue trivial
  | insert | update | delete | other => isFalse id

instance (deed : Deed κ) : Decidable deed.IsWrite :=
  match deed with
  | insert | update | delete => isTrue trivial
  | guarded _ | other => isFalse id

theorem IsGuarded.exists {deed : Deed κ} (h : deed.IsGuarded) : ∃ table, deed = guarded table := by
  cases deed with
  | guarded table => exact ⟨table, rfl⟩
  | insert | update | delete | other => exact h.elim

end Deed
end QueryTree

namespace QueryTree.Database

variable {db db' db'' : Database} {t : Table} {name : String} {temporary : Bool}

/-- Every table of `db` is there in `db'`. -/
def Retains (db db' : Database) : Prop :=
  ∀ name temporary, db.has name temporary = true → db'.has name temporary = true

namespace Retains

theorem refl (db : Database) : Retains db db := fun _ _ h => h

theorem trans (h : Retains db db') (h' : Retains db' db'') : Retains db db'' :=
  fun name temporary hhas => h' name temporary (h name temporary hhas)

/-- A table that takes the place of the one of its name keeps the name. -/
theorem replace (db : Database) (t : Table) : Retains db (db.replace t) := by
  intro name temporary h
  obtain ⟨t', hmem, ht'⟩ := List.any_eq_true.1 h
  refine List.any_eq_true.2 ⟨_, List.mem_map_of_mem hmem, ?_⟩
  split
  · next hsame =>
    simp only [isTable, sameName, Text.sameLetters, Bool.and_eq_true, beq_iff_eq] at ht' hsame ⊢
    exact ⟨hsame.1.symm.trans ht'.1, hsame.2.symm.trans ht'.2⟩
  · exact ht'

theorem append (db : Database) (t : Table) : Retains db (db.append t) := by
  intro name temporary h
  rw [has, Database.append, List.any_append, Bool.or_eq_true]
  exact .inl h

theorem add (db : Database) (t : Table) : Retains db (db.add t) := by
  rw [Database.add]
  split
  · exact (append db t).trans (append _ _)
  · exact append db t

theorem keepHighest (db : Database) (t : Table) (highest : Int) :
    Retains db (db.keepHighest t highest) := by
  rw [Database.keepHighest]
  split
  · exact refl db
  · split
    · split
      · exact replace db _
      · exact refl db
    · exact replace db _

end Retains

theorem Rewritten.retains (h : Rewritten db db') : Retains db db' := by
  cases h with
  | rows => exact .replace db _
  | highest => exact (Retains.replace db _).trans (.keepHighest _ _ _)

theorem has_append_self (db : Database) (t : Table) :
    (db.append t).has t.name t.temporary = true := by
  rw [has, Database.append, List.any_append, Bool.or_eq_true]
  exact .inr (by simp [isTable, sameName, Text.sameLetters])

theorem has_add_self (db : Database) (t : Table) : (db.add t).has t.name t.temporary = true := by
  rw [Database.add]
  split
  · exact Retains.append _ _ _ _ (has_append_self db t)
  · exact has_append_self db t

/-! ### Commands -/

theorem createTable_keeps {written source : String} {guarded : Bool}
    {columns : Bool → Except DatabaseFault (List ColumnDecl)}
    (h : db.createTable name written source temporary guarded columns = .ok db') :
    Retains db db' ∧ db'.has name temporary = true := by
  rw [createTable_eq] at h
  split at h
  · cases h
  split at h
  · next hhas =>
    split at h
    · obtain ⟨_, -, rfl⟩ := map_eq_ok.1 h
      exact ⟨.refl db, hhas⟩
    · cases h
  · obtain ⟨decls, -, rfl⟩ := map_eq_ok.1 h
    exact ⟨.add db _, has_add_self db (.ofDecls name source temporary decls)⟩

/-- A declaration that succeeded does nothing in a database that has the table, if it is guarded. -/
theorem createTable_again {written source : String}
    {columns : Bool → Except DatabaseFault (List ColumnDecl)}
    (h : db.createTable name written source temporary true columns = .ok db')
    (hcolumns : ∀ decls, columns true = .ok decls → columns false = .ok decls)
    (hhas : db''.has name temporary = true) :
    db''.createTable name written source temporary true columns = .ok db'' := by
  rw [createTable_eq] at h ⊢
  split at h
  · cases h
  next hreserved =>
  rw [if_pos rfl] at h ⊢
  have hread : ∃ decls, columns false = .ok decls := by
    split at h
    · obtain ⟨decls, hdecls, -⟩ := map_eq_ok.1 h
      exact ⟨decls, hdecls⟩
    · obtain ⟨decls, hdecls, -⟩ := map_eq_ok.1 h
      exact ⟨decls, hcolumns decls hdecls⟩
  obtain ⟨decls, hdecls⟩ := hread
  rw [if_neg hreserved, if_pos hhas]
  exact map_eq_ok.2 ⟨decls, hdecls, rfl⟩

variable {prepared : Prepared}

/-- A table is known by its name and by whether it is temporary. -/
def Command.deed : Command → Deed (Bool × String)
  | .createTable name _ _ temporary true _ => .guarded (temporary, name)
  | .insert .. => .insert
  | .update .. => .update
  | .delete .. => .delete
  | _ => .other

/-- A statement that cannot be read does nothing to any table. -/
def deed (rest : Rest) : Deed (Bool × String) :=
  match Statement.read rest with
  | .ok statement => statement.command.deed
  | .error _ => .other

theorem leads_of_write {c : Command} (h : db.prepare c = .ok prepared) (hc : c.deed.IsWrite) :
    prepared.Leads (Rewritten db) := by
  cases c with
  | insert table columns rows => exact leads_of_prepareInsert h
  | update table sets condition => exact leads_of_prepareUpdate h
  | delete table condition => exact leads_of_prepareDelete h
  | createTable name written source temporary guarded columns => cases guarded <;> exact hc.elim
  | dropTable | query | foreignKeys | enforceKeys | tableInfo | setting => exact hc.elim

theorem eq_createTable_of_deed {c : Command} {table : Bool × String} (h : c.deed = .guarded table) :
    ∃ written source columns, c = .createTable table.2 written source table.1 true columns := by
  cases c with
  | createTable name written source temporary guarded columns =>
    cases guarded with
    | true =>
      cases h
      exact ⟨written, source, columns, rfl⟩
    | false => cases h
  | _ => cases h

theorem deed_of_read {rest : Rest} {statement : Statement} (h : Statement.read rest = .ok statement) :
    deed rest = statement.command.deed := by
  rw [deed, h]

end QueryTree.Database

namespace QueryTree.Session

open Database

variable {s s' : Session} {prepared : Prepared} {args : List Value} {used : Nat} {rest : Rest}
  {rests : List Rest} {slots : Slots} {dones : List Done} {table : Bool × String}

/-! ### Runs -/

/-- Running statements that only write rows keeps the tables, also where one of them fails. -/
theorem retains_of_writes (s : Session) (args : List Value) (used : Nat)
    (h : ∀ rest ∈ rests, (deed rest).IsWrite) :
    Retains s.database (s.runAll args used rests).2.database := by
  refine runAll_keeps (P := Retains s.database) ?_ args used (.refl _)
  intro rest hrest middle slots prepared binding hready hkept
  obtain ⟨statement, hread, hprepare, -⟩ := ready_eq_ok.1 hready
  have hleads := leads_of_write hprepare (deed_of_read hread ▸ h rest hrest)
  exact perform_of_leads (hleads.imp fun db' hwritten => hkept.trans hwritten.retains) hkept binding

/-- A guarded declaration, once it can be performed, leaves its table behind and can be performed again
where the table is there; then it changes nothing. -/
theorem ready_again (h : s.ready rest = .ok (slots, prepared)) (hdeed : deed rest = .guarded table) :
    ∃ db, prepared = .schema db ∧ Retains s.database db ∧ db.has table.2 table.1 = true ∧
      ∀ s'' : Session, s''.database.has table.2 table.1 = true →
        s''.ready rest = .ok (slots, .schema s''.database) := by
  obtain ⟨statement, hread, hprepare, hslots⟩ := ready_eq_ok.1 h
  obtain ⟨written, source, columns, hcommand⟩ :=
    eq_createTable_of_deed ((deed_of_read hread).symm.trans hdeed)
  have hlenient := lenient_of_read hread
  rw [hcommand] at hlenient hprepare
  obtain ⟨db, hcreate, rfl⟩ := map_eq_ok.1 hprepare
  obtain ⟨hretains, hhas⟩ := createTable_keeps hcreate
  refine ⟨db, rfl, hretains, hhas, fun s'' h'' => ready_eq_ok.2 ⟨statement, hread, ?_, hslots⟩⟩
  rw [hcommand]
  exact map_eq_ok.2 ⟨_, createTable_again hcreate hlenient h'', rfl⟩

/-- The database has all tables that the statements declare. -/
def Equipped (rests : List Rest) (db : Database) : Prop :=
  ∀ rest ∈ rests, ∀ table, deed rest = .guarded table → db.has table.2 table.1 = true

/-- Guarded declarations that all succeed keep the tables and leave theirs behind. They succeed again
where their tables are there, and then change nothing. -/
theorem runAll_again (h : ∀ rest ∈ rests, (deed rest).IsGuarded)
    (hrun : s.runAll args used rests = (.ok dones, s')) :
    Retains s.database s'.database ∧ Equipped rests s'.database ∧
      ∀ s'' : Session, Equipped rests s''.database →
        ∃ dones', s''.runAll args used rests = (.ok dones', s'') := by
  induction rests generalizing s used dones with
  | nil =>
    cases hrun
    exact ⟨.refl _, nofun, fun s'' _ => ⟨[], rfl⟩⟩
  | cons rest more ih =>
    obtain ⟨hrest, hmore⟩ := List.forall_mem_cons.1 h
    obtain ⟨table, hdeed⟩ := hrest.exists
    rw [runAll_cons] at hrun
    split at hrun
    · cases hrun
    next slots prepared hready =>
    split at hrun
    · cases hrun
    next values used' hbind =>
    obtain ⟨db, rfl, hretains, hhas, hagain⟩ := ready_again hready hdeed
    dsimp only [perform] at hrun
    generalize htail : runAll { s with database := db } args used' more = result at hrun
    obtain ⟨outcome, s₁⟩ := result
    obtain ⟨houtcome, rfl⟩ : outcome.map _ = .ok dones ∧ s₁ = s' := Prod.mk.inj hrun
    obtain ⟨dones', rfl, -⟩ := map_eq_ok.1 houtcome
    obtain ⟨hkept, hothers, hlater⟩ := ih hmore htail
    have hfirst : ∀ table', deed rest = .guarded table' → s₁.database.has table'.2 table'.1 = true := by
      intro table' hdeed'
      cases hdeed.symm.trans hdeed'
      exact hkept _ _ hhas
    refine ⟨hretains.trans hkept, List.forall_mem_cons.2 ⟨hfirst, hothers⟩, fun s'' h'' => ?_⟩
    obtain ⟨hown, hrests⟩ := List.forall_mem_cons.1 h''
    obtain ⟨more', hmore'⟩ := hlater s'' hrests
    refine ⟨⟨[], [], s''.changes⟩ :: more', ?_⟩
    rw [runAll_cons, hagain s'' (hown table hdeed)]
    simp only [hbind, perform, hmore']
    rfl

end QueryTree.Session
