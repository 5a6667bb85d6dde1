import QueryTree.Proofs.Text.Blank
import QueryTree.Store.Basic

/-!
# Closed for good

What is asked of a store, one operation after the other. Its session goes through the texts that are run
and nothing else (`Kept.perform`), and it is open until it is closed (`isOpen_run`). From then on every operation gives its refusal and leaves the whole store as it is
(`perform_of_closed`), however many there are (`run_of_closed`), so that a run is what came before the
first closing, the closing and refusals (`run_close`).
-/

namespace QueryTree.Store

variable {σ : Type} [Engine σ]

inductive Operation where
  | execute (sql : String) (args : List Json)
  | applySchema (script : String)
  | tables
  | isHealthy
  | state
  | close

inductive Outcome where
  | executed (outcome : Except StoreFault Answer)
  | applied (outcome : Except StoreFault Unit)
  | listed (outcome : Except StoreFault (List String))
  | healthy (isUp : Bool)
  | state (isOpen : Bool)
  | closed (outcome : Except StoreFault Unit)

/-- One operation. The connection is taken out of the store before it is closed, so a fault of the
engine comes too late to keep the store open. -/
def perform (s : Store σ) : Operation → Outcome × Store σ
  | .execute sql args => (s.execute sql args).map .executed id
  | .applySchema script => (s.applySchema script).map .applied id
  | .tables => (.listed s.tables, (s.execute tablesQuery []).2)
  | .isHealthy => (.healthy s.isHealthy, s)
  | .state => (.state s.isOpen, s)
  | .close =>
    (.closed (if s.isOpen then (Engine.close s.session).mapError .database else .ok ()), s.close)

/-- Operations in their order, each on what the one before has left. -/
def run (s : Store σ) : List Operation → List Outcome × Store σ
  | [] => ([], s)
  | op :: ops =>
    let (outcome, s) := s.perform op
    let (outcomes, s) := run s ops
    (outcome :: outcomes, s)

/-- What is said without a connection. A text of blanks is found out first. -/
def refusal : Operation → Outcome
  | .execute sql _ =>
    .executed (.error (if Text.allBlank sql.toList then .emptyStatement else .closed))
  | .applySchema _ => .applied (.error .closed)
  | .tables => .listed (.error .closed)
  | .isHealthy => .healthy false
  | .state => .state false
  | .close => .closed (.ok ())

variable {s : Store σ}

theorem run_cons (s : Store σ) (op : Operation) (ops : List Operation) :
    s.run (op :: ops) =
      ((s.perform op).1 :: ((s.perform op).2.run ops).1, ((s.perform op).2.run ops).2) := rfl

theorem snd_perform_execute (s : Store σ) (sql : String) (args : List Json) :
    (s.perform (.execute sql args)).2 = (s.execute sql args).2 := by
  rw [perform, Prod.map_snd, id]

theorem snd_perform_applySchema (s : Store σ) (script : String) :
    (s.perform (.applySchema script)).2 = (s.applySchema script).2 := by
  rw [perform, Prod.map_snd, id]

theorem snd_perform_tables (s : Store σ) :
    (s.perform .tables).2 = (s.execute tablesQuery []).2 := by
  rw [perform]

/-! ### Open until closed -/

theorem isOpen_query (s : Store σ) (sql : String) (args : List Value) :
    (s.query sql args).2.isOpen = s.isOpen := by
  rw [query]
  split
  · rfl
  · split <;> rfl

theorem isOpen_mutate (s : Store σ) (sql : String) (args : List Value) :
    (s.mutate sql args).2.isOpen = s.isOpen := by
  rw [mutate]
  split <;> rfl

theorem isOpen_execute (s : Store σ) (sql : String) (args : List Json) :
    (s.execute sql args).2.isOpen = s.isOpen := by
  rw [execute]
  split
  · rfl
  split
  · rfl
  split
  · exact isOpen_query ..
  · exact isOpen_mutate ..

theorem isOpen_applyStatements (s : Store σ) (texts : List String) :
    (s.applyStatements texts).2.isOpen = s.isOpen := by
  induction texts generalizing s with
  | nil => rfl
  | cons sql texts ih =>
    rw [applyStatements]
    split
    · next hcommand =>
      have hopen : (s.command sql).2.isOpen = s.isOpen := rfl
      rw [ih, ← hopen, hcommand]
    · next hcommand =>
      have hopen : (s.command sql).2.isOpen = s.isOpen := rfl
      rw [← hopen, hcommand]

theorem isOpen_applySchema (s : Store σ) (script : String) :
    (s.applySchema script).2.isOpen = s.isOpen := by
  rw [applySchema]
  split
  · exact isOpen_applyStatements ..
  · rfl

theorem isOpen_perform (s : Store σ) (op : Operation) :
    (s.perform op).2.isOpen = true ↔ s.isOpen = true ∧ op ≠ .close := by
  cases op with
  | execute sql args => simp [snd_perform_execute, isOpen_execute]
  | applySchema script => simp [snd_perform_applySchema, isOpen_applySchema]
  | tables => simp [snd_perform_tables, isOpen_execute]
  | isHealthy | state => simp [perform]
  | close => simp [perform, close]

theorem isOpen_run (s : Store σ) (ops : List Operation) :
    (s.run ops).2.isOpen = true ↔ s.isOpen = true ∧ .close ∉ ops := by
  induction ops generalizing s with
  | nil => simp [run]
  | cons op ops ih =>
    rw [run_cons, ih, isOpen_perform, List.mem_cons, not_or, and_assoc, ne_comm]

/-! ### What a session goes through -/

theorem session_query (s : Store σ) (sql : String) (args : List Value) :
    (s.query sql args).2.session = s.session ∨
      (s.query sql args).2.session = (Engine.run s.session sql args).2 := by
  rw [query]
  split
  · exact .inl rfl
  · split
    · next hrun => exact .inr (congrArg Prod.snd hrun).symm
    · next hrun => exact .inr (congrArg Prod.snd hrun).symm

theorem session_mutate (s : Store σ) (sql : String) (args : List Value) :
    (s.mutate sql args).2.session = (Engine.run s.session sql args).2 := by
  rw [mutate]
  split
  · next hrun => exact (congrArg Prod.snd hrun).symm
  · next hrun => exact (congrArg Prod.snd hrun).symm

/-- A text that is answered either leaves the session as it is or is run once, without the blanks at its
ends. -/
theorem session_execute (s : Store σ) (sql : String) (args : List Json) :
    (s.execute sql args).2.session = s.session ∨
      ∃ values, (s.execute sql args).2.session =
        (Engine.run s.session (String.ofList (Text.trim sql.toList)) values).2 := by
  rw [execute]
  split
  · exact .inl rfl
  split
  · exact .inl rfl
  split
  · exact (session_query ..).imp_right fun h => ⟨_, h⟩
  · exact .inr ⟨_, session_mutate ..⟩

/-- What holds of a session however texts are run on it. -/
def Kept (P : σ → Prop) : Prop :=
  ∀ session sql args, P session → P (Engine.run session sql args).2

theorem Kept.execute {P : σ → Prop} (hkept : Kept P) (h : P s.session) (sql : String)
    (args : List Json) : P (s.execute sql args).2.session := by
  rcases session_execute s sql args with hsame | ⟨values, hrun⟩
  · rwa [hsame]
  · rw [hrun]
    exact hkept _ _ _ h

theorem Kept.applyStatements {P : σ → Prop} (hkept : Kept P) (h : P s.session) (texts : List String) :
    P (s.applyStatements texts).2.session := by
  induction texts generalizing s with
  | nil => exact h
  | cons sql texts ih =>
    have hfirst : P (s.command sql).2.session := hkept s.session sql [] h
    rw [Store.applyStatements]
    split
    · next hcommand =>
      rw [hcommand] at hfirst
      exact ih hfirst
    · next hcommand =>
      rw [hcommand] at hfirst
      exact hfirst

theorem Kept.perform {P : σ → Prop} (hkept : Kept P) (h : P s.session) (op : Operation) :
    P (s.perform op).2.session := by
  cases op with
  | execute sql args =>
    rw [snd_perform_execute]
    exact hkept.execute h sql args
  | applySchema script =>
    rw [snd_perform_applySchema, applySchema]
    split
    · exact hkept.applyStatements h _
    · exact h
  | tables =>
    rw [snd_perform_tables]
    exact hkept.execute h tablesQuery []
  | isHealthy | state | close => exact h

/-! ### Refusals -/

theorem execute_of_closed (h : s.isOpen = false) (sql : String) (args : List Json) :
    s.execute sql args =
      (.error (if Text.allBlank sql.toList then .emptyStatement else .closed), s) := by
  have hblank : String.ofList (Text.trim sql.toList) = "" ↔ Text.allBlank sql.toList = true := by
    rw [String.ofList_eq_empty_iff, Text.trim_eq_nil_iff]
  rw [execute]
  by_cases hsql : Text.allBlank sql.toList = true
  · rw [if_pos (hblank.2 hsql), if_pos hsql]
  · rw [if_neg (hblank.not.2 hsql), if_neg hsql, h]
    rfl

/-- A closed store refuses, and nothing of it changes. -/
theorem perform_of_closed (h : s.isOpen = false) (op : Operation) :
    s.perform op = (refusal op, s) := by
  have hclose : s.close = s := by rw [close, ← h]
  cases op with
  | execute sql args => rw [perform, execute_of_closed h]; rfl
  | applySchema script =>
    rw [perform, applySchema, h]
    rfl
  | tables =>
    rw [perform, tables, execute_of_closed h]
    rfl
  | isHealthy =>
    rw [perform, isHealthy, h]
    rfl
  | state =>
    rw [perform, h]
    rfl
  | close =>
    rw [perform, hclose, h]
    rfl

theorem run_of_closed (h : s.isOpen = false) (ops : List Operation) :
    s.run ops = (ops.map refusal, s) := by
  induction ops with
  | nil => rfl
  | cons op ops ih =>
    rw [run_cons, perform_of_closed h, ih, List.map_cons]

/-! ### Runs -/

theorem run_append (s : Store σ) (ops ops' : List Operation) :
    s.run (ops ++ ops') =
      ((s.run ops).1 ++ ((s.run ops).2.run ops').1, ((s.run ops).2.run ops').2) := by
  induction ops generalizing s with
  | nil => rfl
  | cons op ops ih =>
    rw [List.cons_append, run_cons, ih, run_cons]
    rfl

/-- From the first closing on, every operation is refused and the store stays as the closing has left
it: its database, and what its session remembers, are those of the operations before. -/
theorem run_close (s : Store σ) (before after : List Operation) :
    let opened := s.run before
    let closing := opened.2.perform .close
    s.run (before ++ .close :: after) = (opened.1 ++ closing.1 :: after.map refusal, closing.2) ∧
      closing.2 = { opened.2 with isOpen := false } ∧
      (opened.2.isOpen = true ↔ s.isOpen = true ∧ .close ∉ before) := by
  intro opened closing
  refine ⟨?_, rfl, isOpen_run s before⟩
  have hclosed : closing.2.isOpen = false := rfl
  have hafter : opened.2.run (.close :: after) = (closing.1 :: after.map refusal, closing.2) := by
    rw [run_cons, run_of_closed hclosed]
  rw [run_append, hafter]

/-- A blank text is refused as one, closed store or not. -/
theorem run_close_blank :
    ((start .empty none).run [.close, .execute " " []]).1 =
      [.closed (.ok ()), .executed (.error .emptyStatement)] := by
  rfl

end QueryTree.Store
