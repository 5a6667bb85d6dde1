import QueryTree.Proofs.Database.Retained
import QueryTree.Proofs.Store.Closing

/-!
# Applying a schema again

What has to be known of an engine is how it reads a text, and three things about statements of the kinds
that it tells apart (`Tabular`): a guarded declaration of a table that is there has no effect, one of a new
table adds it, and writing rows removes no table. Then a schema script of guarded declarations that a store
has accepted is accepted again after whatever rows were written, and changes nothing in the database
(`Store.applySchema_again`).
-/

namespace QueryTree

/-- What is assumed of an engine. In a text it finds the statements that `reads` says; `contents` is all
that the database of a connection holds, the tables with their rows, and `Has` tells which tables these
are. -/
structure Tabular {σ δ κ : Type} [Engine σ] (reads : String → List (Deed κ)) (contents : σ → δ)
    (Has : δ → κ → Prop) : Prop where
  /-- Guarded declarations of tables that exist succeed without effect. They are known to be well-formed
  from having succeeded once. -/
  existing {sql : String} {s₀ s₁ s : σ} {dones : List Done}
    (hguarded : ∀ deed ∈ reads sql, deed.IsGuarded) (hrun : Engine.run s₀ sql [] = (.ok dones, s₁))
    (hhas : ∀ table, .guarded table ∈ reads sql → Has (contents s) table) :
    ∃ dones' s', Engine.run s sql [] = (.ok dones', s') ∧ contents s' = contents s
  /-- Guarded declarations that succeed add their tables and remove none. -/
  added {sql : String} {s s' : σ} {dones : List Done}
    (hguarded : ∀ deed ∈ reads sql, deed.IsGuarded) (hrun : Engine.run s sql [] = (.ok dones, s')) :
    ∀ table, Has (contents s) table ∨ .guarded table ∈ reads sql → Has (contents s') table
  /-- Inserts, updates and deletes, successful or failed, never remove a table. -/
  written {sql : String} (hwrites : ∀ deed ∈ reads sql, deed.IsWrite) (s : σ) (args : List Value) :
    ∀ table, Has (contents s) table → Has (contents (Engine.run s sql args).2) table

namespace Store

variable {σ δ κ : Type} [Engine σ] {reads : String → List (Deed κ)} {contents : σ → δ}
  {Has : δ → κ → Prop} {s s' : Store σ} {sql script : String} {texts : List String}
  {calls : List (String × List Json)}

/-! ### Statements of the schema -/

theorem command_eq_ok :
    s.command sql = (.ok (), s') ↔ ∃ dones session, Engine.run s.session sql [] = (.ok dones, session) ∧
      s' = { s with session } := by
  rw [command]
  generalize Engine.run s.session sql [] = result
  obtain ⟨_ | dones, session⟩ := result
  · constructor
    · exact nofun
    · rintro ⟨_, _, h, -⟩
      cases h
  · constructor
    · intro h
      cases h
      exact ⟨dones, session, rfl, rfl⟩
    · rintro ⟨_, _, h, rfl⟩
      cases h
      rfl

/-- A text of the schema keeps the tables. Once it has succeeded it does so again as long as the tables
stay, and then has no effect. -/
theorem command_again (h : Tabular reads contents Has) (hsql : ∀ deed ∈ reads sql, deed.IsGuarded)
    (hrun : s.command sql = (.ok (), s')) :
    (∀ table, Has (contents s.session) table → Has (contents s'.session) table) ∧
      ∀ later : Store σ,
        (∀ table, Has (contents s'.session) table → Has (contents later.session) table) →
          ∃ again, later.command sql = (.ok (), again) ∧
            contents again.session = contents later.session := by
  obtain ⟨dones, session, hsession, rfl⟩ := command_eq_ok.1 hrun
  have hadded := h.added hsql hsession
  refine ⟨fun table hhas => hadded table (.inl hhas), fun later hlater => ?_⟩
  obtain ⟨dones', again, hagain, hsame⟩ :=
    h.existing hsql hsession fun table htable => hlater table (hadded table (.inr htable))
  exact ⟨{ later with session := again }, command_eq_ok.2 ⟨dones', again, hagain, rfl⟩, hsame⟩

theorem applyStatements_again (h : Tabular reads contents Has)
    (htexts : ∀ sql ∈ texts, ∀ deed ∈ reads sql, deed.IsGuarded)
    (hrun : s.applyStatements texts = (.ok (), s')) :
    (∀ table, Has (contents s.session) table → Has (contents s'.session) table) ∧
      ∀ later : Store σ,
        (∀ table, Has (contents s'.session) table → Has (contents later.session) table) →
          ∃ again, later.applyStatements texts = (.ok (), again) ∧
            contents again.session = contents later.session := by
  induction texts generalizing s with
  | nil =>
    cases hrun
    exact ⟨fun _ => id, fun later _ => ⟨later, rfl, rfl⟩⟩
  | cons sql texts ih =>
    obtain ⟨hsql, htexts⟩ := List.forall_mem_cons.1 htexts
    rw [applyStatements] at hrun
    split at hrun
    · next middle hcommand =>
      obtain ⟨hfirst, hagain⟩ := command_again h hsql hcommand
      obtain ⟨hmore, hothers⟩ := ih htexts hrun
      refine ⟨fun table hhas => hmore table (hfirst table hhas), fun later hlater => ?_⟩
      obtain ⟨once, honce, hsame⟩ := hagain later fun table hhas => hlater table (hmore table hhas)
      obtain ⟨again, hrest, hrestSame⟩ := hothers once (hsame ▸ hlater)
      refine ⟨again, ?_, hrestSame.trans hsame⟩
      rw [applyStatements, honce]
      exact hrest
    · cases hrun

/-! ### Texts in between -/

theorem execute_keeps (h : Tabular reads contents Has) (s : Store σ)
    (hsql : ∀ deed ∈ reads (String.ofList (Text.trim sql.toList)), deed.IsWrite) (args : List Json) :
    ∀ table, Has (contents s.session) table → Has (contents (s.execute sql args).2.session) table := by
  intro table hhas
  rcases session_execute s sql args with hsame | ⟨values, hrun⟩
  · rwa [hsame]
  · rw [hrun]
    exact h.written hsql s.session values table hhas

/-- The store after one text after the other, whatever they are answered. -/
def executeAll (s : Store σ) (calls : List (String × List Json)) : Store σ :=
  calls.foldl (fun s call => (s.execute call.1 call.2).2) s

theorem executeAll_cons (s : Store σ) (call : String × List Json) (calls : List (String × List Json)) :
    s.executeAll (call :: calls) = (s.execute call.1 call.2).2.executeAll calls := List.foldl_cons ..

theorem isOpen_executeAll (s : Store σ) (calls : List (String × List Json)) :
    (s.executeAll calls).isOpen = s.isOpen := by
  induction calls generalizing s with
  | nil => rfl
  | cons call calls ih => rw [executeAll_cons, ih, isOpen_execute]

theorem executeAll_keeps (h : Tabular reads contents Has) (s : Store σ)
    (hcalls : ∀ call ∈ calls, ∀ deed ∈ reads (String.ofList (Text.trim call.1.toList)), deed.IsWrite) :
    ∀ table, Has (contents s.session) table → Has (contents (s.executeAll calls).session) table := by
  induction calls generalizing s with
  | nil => exact fun _ => id
  | cons call calls ih =>
    obtain ⟨hcall, hcalls⟩ := List.forall_mem_cons.1 hcalls
    intro table hhas
    rw [executeAll_cons]
    exact ih _ hcalls table (execute_keeps h s hcall call.2 table hhas)

/-! ### The schema again -/

/-- Over any engine that reads texts and treats tables as assumed, a script of which every statement is a
guarded declaration, and which has been applied, can be applied again after any inserts, updates and
deletes, successful or failed, and then changes neither a table nor a row. -/
theorem applySchema_again (h : Tabular reads contents Has)
    (hscript : ∀ sql ∈ Sql.prepareSchema script, ∀ deed ∈ reads sql, deed.IsGuarded)
    (hfirst : s.applySchema script = (.ok (), s'))
    (hcalls : ∀ call ∈ calls, ∀ deed ∈ reads (String.ofList (Text.trim call.1.toList)), deed.IsWrite) :
    ∃ again, (s'.executeAll calls).applySchema script = (.ok (), again) ∧
      contents again.session = contents (s'.executeAll calls).session := by
  have hopen' := isOpen_applySchema s script
  rw [hfirst] at hopen'
  rw [applySchema] at hfirst
  split at hfirst
  · next hopen =>
    have hopens : (s'.executeAll calls).isOpen = true :=
      (isOpen_executeAll s' calls).trans (hopen'.trans hopen)
    obtain ⟨-, hagain⟩ := applyStatements_again h hscript hfirst
    rw [applySchema, if_pos hopens]
    exact hagain _ (executeAll_keeps h s' hcalls)
  · cases hfirst

end Store

/-! ### The engine of the program -/

namespace Session

open Database

/-- What the statements of a text are to the tables. -/
def reads (sql : String) : List (Deed (Bool × String)) := (statementsOf sql).map deed

/-- The session's database has the table. -/
def Has (s : Session) (table : Bool × String) : Prop := s.database.has table.2 table.1 = true

theorem tabular : Tabular reads (id : Session → Session) Has where
  existing hguarded hrun hhas := by
    obtain ⟨-, -, hagain⟩ := runAll_again (List.forall_mem_map.1 hguarded) hrun
    obtain ⟨dones', hrun'⟩ := hagain _ fun rest hrest table hdeed =>
      hhas table (hdeed ▸ List.mem_map_of_mem hrest)
    exact ⟨dones', _, hrun', rfl⟩
  added hguarded hrun := by
    obtain ⟨hretains, hequipped, -⟩ := runAll_again (List.forall_mem_map.1 hguarded) hrun
    rintro table (hhas | htable)
    · exact hretains _ _ hhas
    · obtain ⟨rest, hrest, hdeed⟩ := List.mem_map.1 htable
      exact hequipped rest hrest table hdeed
  written hwrites s args table hhas :=
    retains_of_writes s args 0 (List.forall_mem_map.1 hwrites) _ _ hhas

end Session

namespace Store

/-! ### A library -/

def library : String := "CREATE TABLE books (title)"

/-- A text that writes and one that fails. -/
def visits : List (String × List Json) :=
  [("INSERT INTO books VALUES (?)", [.string "DROP"]), ("DELETE FROM book", [])]

def opened : Except StoreFault Unit × Store := (start .empty none).applySchema library

theorem applySchema_again_library :
    opened.1 = .ok () ∧ (opened.2.executeAll visits).session.changes = 1 ∧
      ∃ again, (opened.2.executeAll visits).applySchema library = (.ok (), again) ∧
        again.session = (opened.2.executeAll visits).session := by
  have hscript : ∀ sql ∈ Sql.prepareSchema library, ∀ deed ∈ Session.reads sql, deed.IsGuarded := by
    decide +kernel
  have hopened : opened.1 = .ok () := by decide +kernel
  have hfirst : opened = (.ok (), opened.2) := Prod.ext hopened rfl
  have hvisits : ∀ call ∈ visits, ∀ deed ∈ Session.reads (String.ofList (Text.trim call.1.toList)),
      deed.IsWrite := by decide +kernel
  have hchanges : (opened.2.executeAll visits).session.changes = 1 := by decide +kernel
  exact ⟨hopened, hchanges, applySchema_again Session.tabular hscript hfirst hvisits⟩

/-- A bracketed name with a quote in it hides the end of its statement. -/
def bracketed : String := "CREATE TABLE [a'] (x); INSERT INTO [a'] VALUES (1)"

def rowCounts (s : Store) : List (String × Nat) :=
  s.session.database.tables.map fun t => (t.name, t.rows.length)

/-- The one text that is applied begins with a guarded declaration, but a row comes in with it each
time. -/
theorem applySchema_bracketed :
    let first := (start .empty none).applySchema bracketed
    let second := first.2.applySchema bracketed
    Sql.prepareSchema bracketed =
        ["CREATE TABLE IF NOT EXISTS [a'] (x); INSERT INTO [a'] VALUES (1)"] ∧
      first.1 = .ok () ∧ rowCounts first.2 = [("a'", 1)] ∧
      second.1 = .ok () ∧ rowCounts second.2 = [("a'", 2)] := by
  decide +kernel

end Store
end QueryTree
