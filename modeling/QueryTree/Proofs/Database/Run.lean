import QueryTree.Database.Session
import QueryTree.Proofs.Database.Title

/-!
# Runs of statements

A text is run one statement after the other: each is read and prepared on the database as it then is
(`Session.ready`) and performed, up to the first fault. What every performed statement keeps is kept by the
run, whether it fails or not (`Session.runAll_keeps`). So the titles of the tables stay apart
(`Session.apart_run`).
-/

namespace QueryTree.Session

open Database

variable {s s' : Session} {prepared : Prepared} {args : List Value} {used : Nat} {rest : Rest}
  {rests more : List Rest} {slots : Slots} {all : List Done}

/-! ### One statement -/

/-- A statement as it is read and prepared, with its slots. -/
def ready (s : Session) (rest : Rest) : Except DatabaseFault (Slots × Prepared) := do
  let statement ← Statement.read rest
  pure (statement.slots, ← s.database.prepare statement.command)

theorem ready_eq_ok :
    s.ready rest = .ok (slots, prepared) ↔ ∃ statement, Statement.read rest = .ok statement ∧
      s.database.prepare statement.command = .ok prepared ∧ statement.slots = slots := by
  constructor
  · intro h
    obtain ⟨statement, hread, h⟩ := bind_eq_ok.1 h
    obtain ⟨_, hprepare, h⟩ := bind_eq_ok.1 h
    cases h
    exact ⟨statement, hread, hprepare, rfl⟩
  · rintro ⟨statement, hread, hprepare, rfl⟩
    exact bind_eq_ok.2 ⟨statement, hread, bind_eq_ok.2 ⟨prepared, hprepare, rfl⟩⟩

theorem runAll_cons (s : Session) (args : List Value) (used : Nat) (rest : Rest) (more : List Rest) :
    s.runAll args used (rest :: more) =
      match s.ready rest with
      | .error fault => (.error fault, s)
      | .ok (slots, prepared) =>
        match slots.bind args used with
        | .error fault => (.error fault, s)
        | .ok (values, used) =>
          match s.perform (fun n => values[n - 1]?.getD .null) prepared with
          | (.error fault, s) => (.error fault, s)
          | (.ok done, s) =>
            let (outcome, s) := s.runAll args used more
            (outcome.map (done :: ·), s) := rfl

/-- A run that succeeds performs its first statement, then the others. -/
theorem runAll_cons_eq_ok
    (h : s.runAll args used (rest :: more) = (.ok all, s')) :
    ∃ slots prepared, s.ready rest = .ok (slots, prepared) ∧
      ∃ binding done middle, s.perform binding prepared = (.ok done, middle) ∧
        ∃ used' later, middle.runAll args used' more = (.ok later, s') ∧ all = done :: later := by
  rw [runAll_cons] at h
  split at h
  · cases (Prod.mk.inj h).1
  next slots prepared hready =>
  split at h
  · cases (Prod.mk.inj h).1
  next values used' hbind =>
  split at h
  · cases (Prod.mk.inj h).1
  next done middle hperform =>
  obtain ⟨later, hlater, hall⟩ := map_eq_ok.1 (Prod.mk.inj h).1
  exact ⟨slots, prepared, hready, _, done, middle, hperform, used', later,
    Prod.ext hlater (Prod.mk.inj h).2, hall.symm⟩

/-- A command that fails leaves the database as it is. -/
theorem perform_of_leads {post : Database → Prop} (h : prepared.Leads post) (hfailed : post s.database)
    (binding : Binding) : post (s.perform binding prepared).2.database := by
  cases prepared with
  | answer plan => exact h.elim
  | schema db => exact h
  | write run =>
    rw [perform]
    cases hrun : (run binding).outcome with
    | error fault => exact hfailed
    | ok result => exact h binding result hrun

/-! ### All statements -/

theorem runAll_keeps {P : Database → Prop}
    (hstep : ∀ rest ∈ rests, ∀ (s : Session) slots prepared binding,
      s.ready rest = .ok (slots, prepared) → P s.database →
        P (s.perform binding prepared).2.database) (args : List Value) (used : Nat) (h : P s.database) :
    P (s.runAll args used rests).2.database := by
  induction rests generalizing s used with
  | nil => exact h
  | cons rest more ih =>
    obtain ⟨hrest, hmore⟩ := List.forall_mem_cons.1 hstep
    rw [runAll_cons]
    split
    · exact h
    next slots prepared hready =>
    split
    · exact h
    next values used' hbind =>
    have hperformed := hrest s slots prepared (fun n => values[n - 1]?.getD .null) hready h
    split
    · next hperform =>
      rw [hperform] at hperformed
      exact hperformed
    · next hperform =>
      rw [hperform] at hperformed
      exact ih hmore _ hperformed

/-- Whatever text is run, and whether it fails or not, the titles stay apart. -/
theorem apart_run (s : Session) (sql : String) (args : List Value)
    (hapart : Apart s.database.titles) : Apart (s.run sql args).2.database.titles := by
  refine runAll_keeps (P := fun db => Apart db.titles) ?_ args 0 hapart
  intro rest _ s slots prepared binding hready hapart
  obtain ⟨statement, -, hprepare, -⟩ := ready_eq_ok.1 hready
  rcases leads_of_prepare hprepare with ⟨plan, rfl⟩ | hleads
  · exact hapart
  · exact perform_of_leads hleads id binding hapart

end QueryTree.Session
