import QueryTree.Database.Grammar
import QueryTree.Proofs.Outcome

/-!
# What readers of commands give

Whether what the columns of a declaration say counts decides only about the faults that a reader notes
on its way. A noted fault ends the reading before its end, so columns that are read where they count are
read the same where they do not (`columnDecls_of_counting`), whatever statement they stand in
(`lenient_of_read`).
-/

namespace QueryTree.Database

namespace Reading

variable {α β : Type} {m m' : Reading α} {f f' : α → Reading β} {r r' r'' : Rest} {a : α} {b : β}

theorem run_bind_eq_ok :
    (m >>= f).run r = .ok (b, r'') ↔
      ∃ a r', m.run r = .ok (a, r') ∧ (f a).run r' = .ok (b, r'') := by
  rw [StateT.run_bind, bind_eq_ok]
  exact Prod.exists

/-- Where `m` ends with no fault noted, none was noted before and `m'` reads the same. -/
structure Agrees (m m' : Reading α) : Prop where
  before : ∀ {r a r'}, m.run r = .ok (a, r') → r'.pending = none → r.pending = none
  same : ∀ {r a r'}, m.run r = .ok (a, r') → r'.pending = none → m'.run r = .ok (a, r')

namespace Agrees

theorem pure (a : α) : Agrees (pure a : Reading α) (pure a) where
  before h hp := by
    cases h
    exact hp
  same h _ := h

theorem bind (h : Agrees m m') (hf : ∀ a, Agrees (f a) (f' a)) : Agrees (m >>= f) (m' >>= f') where
  before hrun hp := by
    obtain ⟨a, r', hm, hrest⟩ := run_bind_eq_ok.1 hrun
    exact h.before hm ((hf a).before hrest hp)
  same hrun hp := by
    obtain ⟨a, r', hm, hrest⟩ := run_bind_eq_ok.1 hrun
    have hnone := (hf a).before hrest hp
    exact run_bind_eq_ok.2 ⟨a, r', h.same hm hnone, (hf a).same hrest hp⟩

theorem ite {c : Prop} [Decidable c] {n n' : Reading α} (h : Agrees m m') (h' : Agrees n n') :
    Agrees (if c then m else n) (if c then m' else n') := by
  split
  · exact h
  · exact h'

theorem throw (fault : DatabaseFault) : Agrees (throw fault : Reading α) (throw fault) where
  before h _ := nomatch h
  same h _ := nomatch h

theorem get : Agrees get get where
  before h hp := by
    cases h
    exact hp
  same h _ := h

end Agrees

/-! ### Generic readers -/

theorem agrees_unexpected : Agrees (unexpected : Reading α) unexpected :=
  Agrees.get.bind fun _ => .throw _

theorem agrees_peek : Agrees peek peek := Agrees.get.bind fun _ => .pure _

theorem agrees_steps : Agrees steps steps := Agrees.get.bind fun _ => .pure _

theorem run_skip (r : Rest) :
    skip.run r = match r.pending with
      | some fault => .error fault
      | none => .ok ((), { r with tokens := r.tokens.drop 1 }) := by
  obtain ⟨tokens, closed, pending, steps⟩ := r
  cases pending <;> rfl

theorem agrees_skip : Agrees skip skip where
  before {r a r'} h _ := by
    rw [run_skip] at h
    cases hp : r.pending with
    | none => rfl
    | some fault =>
      rw [hp] at h
      cases h
  same h _ := h

theorem agrees_accept (test : Token → Bool) : Agrees (accept test) (accept test) :=
  agrees_peek.bind fun _ => .ite (agrees_skip.bind fun _ => .pure _) (.pure _)

theorem agrees_expect (test : Token → Bool) : Agrees (expect test) (expect test) :=
  (agrees_accept test).bind fun _ => .ite agrees_unexpected (.pure _)

theorem agrees_name : Agrees name name := by
  refine agrees_peek.bind fun t => ?_
  split
  · exact agrees_skip.bind fun _ => .pure _
  · exact agrees_unexpected

theorem agrees_list {item : Reading α} (h : Agrees item item) (fuel : Nat) :
    Agrees (list item fuel) (list item fuel) := by
  induction fuel with
  | zero => exact agrees_unexpected
  | succ fuel ih =>
    refine h.bind fun _ => (agrees_accept _).bind fun _ => .ite ?_ (.pure _)
    exact ih.bind fun _ => .pure _

theorem agrees_listed {item : Reading α} (h : Agrees item item) :
    Agrees (listed item) (listed item) := by
  refine (agrees_expect _).bind fun _ => agrees_steps.bind fun _ => ?_
  exact (agrees_list h _).bind fun _ => (agrees_expect _).bind fun _ => .pure _

/-! ### Noted faults -/

/-- A fault that is noted ends the reading later on; where it is not noted, nothing is lost. -/
theorem agrees_suspend (fault : DatabaseFault) : Agrees (suspend fault) (pure ()) where
  before h hp := by
    cases h
    cases hp
  same h hp := by
    cases h
    cases hp

theorem agrees_suspendIf (wrong : Bool) (fault : DatabaseFault) :
    Agrees (suspendIf wrong fault) (pure ()) := by
  cases wrong with
  | false => exact .pure ()
  | true => exact agrees_suspend fault

/-! ### Columns -/

theorem agrees_typeWords (fuel : Nat) : Agrees (typeWords fuel) (typeWords fuel) := by
  induction fuel with
  | zero => exact .pure _
  | succ fuel ih =>
    refine agrees_peek.bind fun t => ?_
    split
    · exact agrees_skip.bind fun _ => ih.bind fun _ => .pure _
    · exact .pure _

theorem agrees_typeSize : Agrees typeSize typeSize := by
  have hsign : Agrees sign sign :=
    (agrees_accept _).bind fun _ => .ite (.pure _) ((agrees_accept _).bind fun _ =>
      .ite (.pure _) (.pure _))
  refine hsign.bind fun _ => agrees_peek.bind fun t => ?_
  split
  · exact agrees_skip.bind fun _ => .pure _
  · exact agrees_skip.bind fun _ => .pure _
  · exact agrees_unexpected

theorem agrees_type : Agrees type type := by
  refine agrees_steps.bind fun _ => (agrees_typeWords _).bind fun words => agrees_peek.bind fun t => ?_
  refine .ite ?_ (.pure _)
  exact (agrees_listed agrees_typeSize).bind fun _ => .pure _

theorem agrees_referredColumn (declaring : Option Declaring) (column written : String) :
    Agrees (referredColumn declaring column written) (referredColumn none column written) := by
  refine agrees_peek.bind fun t => .ite ?_ (.pure _)
  refine (agrees_listed agrees_name).bind fun names => ?_
  exact (agrees_suspendIf _ _).bind fun _ => .pure _

theorem agrees_constraints (declaring : Option Declaring) (c : ColumnDecl) (fuel : Nat) :
    Agrees (constraints declaring c fuel) (constraints none c fuel) := by
  induction fuel generalizing c with
  | zero => exact .pure _
  | succ fuel ih =>
    refine (agrees_accept _).bind fun _ => .ite ?_ ?_
    · refine (agrees_expect _).bind fun _ => (agrees_accept _).bind fun autoincrement => ?_
      split
      · exact (agrees_suspend _).bind fun _ => ih _
      · exact ih _
    refine (agrees_accept _).bind fun _ => .ite ((agrees_expect _).bind fun _ => ih _) ?_
    refine (agrees_accept _).bind fun _ => .ite (ih _) ?_
    refine (agrees_accept _).bind fun _ => .ite (ih _) ?_
    refine (agrees_accept _).bind fun _ => .ite ?_ (.pure _)
    refine agrees_peek.bind fun _ => agrees_name.bind fun _ => ?_
    exact (agrees_referredColumn _ _ _).bind fun _ => ih _

theorem agrees_columnDecl (declaring : Option Declaring) :
    Agrees (columnDecl declaring) (columnDecl none) := by
  refine agrees_name.bind fun n => agrees_type.bind fun type => (agrees_suspendIf _ _).bind fun _ => ?_
  have hrest := agrees_steps.bind fun steps =>
    agrees_constraints declaring ⟨n, type, false, false, false, false, none⟩ steps
  split
  · exact (agrees_suspendIf _ _).bind fun _ => hrest
  · exact hrest

theorem run_finished (r : Rest) :
    finished.run r =
      if r.tokens = [] then
        match r.pending with
        | some fault => .error fault
        | none => .ok ((), r)
      else .error (fault r) := by
  obtain ⟨tokens, closed, pending, steps⟩ := r
  cases tokens <;> cases pending <;> rfl

theorem finished_eq_ok (h : finished.run r = .ok ((), r')) :
    r' = r ∧ r.tokens = [] ∧ r.pending = none := by
  rw [run_finished] at h
  split at h
  · next hnil =>
    split at h
    · cases h
    · next hnone =>
      cases h
      exact ⟨rfl, hnil, hnone⟩
  · cases h

theorem agrees_finished : Agrees finished finished where
  before h _ := (finished_eq_ok h).2.2
  same h _ := h

theorem agrees_columnList (declaring : Option Declaring) (fuel : Nat) :
    Agrees (columnList declaring fuel) (columnList none fuel) := by
  induction fuel generalizing declaring with
  | zero => exact agrees_unexpected
  | succ fuel ih =>
    refine (agrees_columnDecl _).bind fun c => (agrees_accept _).bind fun _ => .ite ?_ (.pure _)
    exact (ih _).bind fun _ => .pure _

theorem agrees_columnDecls (table : String) :
    Agrees (columnDecls table true) (columnDecls table false) := by
  refine agrees_steps.bind fun _ => (agrees_columnList _ _).bind fun _ => ?_
  exact (agrees_expect _).bind fun _ => agrees_finished.bind fun _ => .pure _

/-- Columns that are read where they count can also be read where they do not. -/
theorem columnDecls_of_counting {table : String} {columns : List ColumnDecl}
    (h : (columnDecls table true).run r = .ok (columns, r')) :
    (columnDecls table false).run r = .ok (columns, r') := by
  refine (agrees_columnDecls table).same h ?_
  obtain ⟨_, _, -, hlist⟩ := run_bind_eq_ok.1 h
  obtain ⟨_, _, -, hclose⟩ := run_bind_eq_ok.1 hlist
  obtain ⟨_, _, -, hend⟩ := run_bind_eq_ok.1 hclose
  obtain ⟨_, r₁, hfinished, hlast⟩ := run_bind_eq_ok.1 hend
  obtain ⟨rfl, -, hnone⟩ := finished_eq_ok hfinished
  obtain ⟨-, rfl⟩ := Prod.mk.inj (Except.ok.inj hlast)
  exact hnone

/-! ### What readers give -/

/-- All that the reader can give is of this kind. -/
def Gives (m : Reading α) (post : α → Prop) : Prop := ∀ r a r', m.run r = .ok (a, r') → post a

namespace Gives

variable {post : α → Prop} {post' : β → Prop}

theorem pure (h : post a) : Gives (pure a) post := by
  intro r a' r' hrun
  cases hrun
  exact h

theorem bind (hf : ∀ a, Gives (f a) post') : Gives (m >>= f) post' := by
  intro r b r' hrun
  obtain ⟨a, r₁, -, hrest⟩ := run_bind_eq_ok.1 hrun
  exact hf a r₁ b r' hrest

theorem ite {c : Prop} [Decidable c] (h : Gives m post) (h' : Gives m' post) :
    Gives (if c then m else m') post := by
  split
  · exact h
  · exact h'

end Gives

/-- Columns that can be read where what they say counts can also be read where it does not. -/
def Lenient : Command → Prop
  | .createTable _ _ _ _ _ columns => ∀ ds, columns true = .ok ds → columns false = .ok ds
  | _ => True

theorem gives_createTable : Gives createTable Lenient := by
  refine .bind fun _ => .bind fun _ => .bind fun _ => .bind fun _ => .bind fun _ => .bind fun n => ?_
  refine .bind fun _ => .bind fun rest => .bind fun _ => .pure fun ds hds => ?_
  obtain ⟨⟨_, r'⟩, hrun, rfl⟩ := map_eq_ok.1 hds
  exact map_eq_ok.2 ⟨_, columnDecls_of_counting hrun, rfl⟩

theorem gives_dropTable : Gives dropTable Lenient :=
  .bind fun _ => .bind fun _ => .bind fun _ => .pure trivial

theorem gives_insert : Gives Reading.insert Lenient := by
  refine .bind fun _ => .bind fun _ => .bind fun t => .ite ?_ ?_
  · exact .bind fun _ => .bind fun _ => .pure trivial
  · exact .bind fun _ => .bind fun _ => .pure trivial

theorem gives_update : Gives update Lenient :=
  .bind fun _ => .bind fun _ => .bind fun _ => .bind fun _ => .bind fun _ => .bind fun _ =>
    .pure trivial

theorem gives_delete : Gives delete Lenient :=
  .bind fun _ => .bind fun _ => .bind fun _ => .pure trivial

theorem gives_pragma : Gives pragma Lenient := by
  refine .bind fun _ => .bind fun _ => ?_
  split <;> exact .pure trivial

theorem gives_anyCommand : Gives anyCommand Lenient := by
  refine .bind fun _ => .ite gives_createTable (.bind fun _ => .ite gives_dropTable ?_)
  refine .bind fun _ => .ite gives_insert (.bind fun _ => .ite gives_update ?_)
  refine .bind fun _ => .ite gives_delete (.bind fun _ => .ite gives_pragma ?_)
  exact .bind fun _ => .pure trivial

theorem lenient_of_command {c : Command} (h : command.run r = .ok (c, r')) : Lenient c := by
  obtain ⟨c', r₁, hany, hend⟩ := run_bind_eq_ok.1 h
  obtain ⟨_, _, -, hpure⟩ := run_bind_eq_ok.1 hend
  obtain ⟨rfl, -⟩ := Prod.mk.inj (Except.ok.inj hpure)
  exact gives_anyCommand _ _ _ hany

end Reading

theorem lenient_of_read {rest : Rest} {st : Statement} (h : Statement.read rest = .ok st) :
    Reading.Lenient st.command := by
  obtain ⟨⟨command, r'⟩, hcommand, h⟩ := bind_eq_ok.1 h
  cases h
  exact Reading.lenient_of_command hcommand

end QueryTree.Database
