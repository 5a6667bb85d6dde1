import QueryTree.Store.Basic

/-!
# Engine calls one at a time

Whoever holds the lock of a store works for some engine calls on its database (`Work`): one for each
text of a schema, two for a query, one for any other text and one for a sign of life. What comes of
them all is what the store's functions give (`Plan.run_ofText`, `Need.run_schema`), and a
single call leaves it the same (`Work.finish_of_call`).
-/

namespace QueryTree.Store

variable {σ ω : Type} [Engine σ]

/-- What is asked of the store under its lock, and what is made of the outcome. -/
inductive Need (ω : Type) where
  /-- A text that is not blank, without blanks at its ends. -/
  | execute (sql : String) (args : List Value) (answer : Except StoreFault Answer → ω)
  | schema (script : String) (answer : Except StoreFault Unit → ω)
  | health (answer : Bool → ω)
  /-- The connection is taken away; it is closed behind the lock, where nobody else has it. -/
  | close (answer : ω)

/-- What whoever holds the lock has still to do: engine calls, or nothing. -/
inductive Work (ω : Type) where
  | done (answer : ω)
  /-- The texts of a schema in their order, up to the first that fails. -/
  | texts (first : String) (rest : List String) (answer : Except StoreFault Unit → ω)
  /-- The columns of a query, and after them its rows. -/
  | columns (sql : String) (args : List Value) (answer : Except StoreFault Answer → ω)
  | rows (names : List String) (sql : String) (args : List Value)
      (answer : Except StoreFault Answer → ω)
  | change (sql : String) (args : List Value) (answer : Except StoreFault Answer → ω)
  | ping (answer : Bool → ω)

def Work.ofTexts (answer : Except StoreFault Unit → ω) : List String → Work ω
  | [] => .done (answer (.ok ()))
  | text :: more => .texts text more answer

def Work.ofKind (sql : String) (args : List Value) (answer : Except StoreFault Answer → ω) :
    Sql.StatementKind → Work ω
  | .query => .columns sql args answer
  | .mutation => .change sql args answer

/-- Taking the lock: what there is to do then. A closed store has no connection to do it with. -/
def Need.enter (s : Store σ) : Need ω → Work ω × Store σ
  | .execute sql args answer =>
    (if s.isOpen then .ofKind sql args answer (Sql.classify sql)
      else .done (answer (.error .closed)), s)
  | .schema script answer =>
    (if s.isOpen then .ofTexts answer (Sql.prepareSchema script)
      else .done (answer (.error .closed)), s)
  | .health answer => (if s.isOpen then .ping answer else .done (answer false), s)
  | .close answer => (.done answer, s.close)

/-- The rows of a query whose columns are known. -/
def fetch (s : Store σ) (columns : List String) (sql : String) (args : List Value) :
    Except StoreFault Answer × Store σ :=
  match Engine.run s.session sql args with
  | (.ok all, session) => (.ok (.ofQuery columns all), { s with session })
  | (.error fault, session) => (.error (.database fault), { s with session })

/-- The next engine call, and what is to do behind it. -/
def Work.call (s : Store σ) : Work ω → Option (Work ω × Store σ)
  | .done _ => none
  | .texts text more answer =>
    match s.command text with
    | (.ok (), s) => some (.ofTexts answer more, s)
    | (.error fault, s) => some (.done (answer (.error (.schema text fault))), s)
  | .columns sql args answer =>
    match Engine.columns s.session sql with
    | .ok names => some (.rows names sql args answer, s)
    | .error fault => some (.done (answer (.error (.database fault))), s)
  | .rows names sql args answer =>
    let (outcome, s) := s.fetch names sql args
    some (.done (answer outcome), s)
  | .change sql args answer =>
    let (outcome, s) := s.mutate sql args
    some (.done (answer outcome), s)
  | .ping answer => some (.done (answer (Engine.ping s.session)), s)

/-- All that is left to do, at once. -/
def Work.finish (s : Store σ) : Work ω → ω × Store σ
  | .done answer => (answer, s)
  | .texts text more answer => (s.applyStatements (text :: more)).map answer id
  | .columns sql args answer => (s.query sql args).map answer id
  | .rows names sql args answer => (s.fetch names sql args).map answer id
  | .change sql args answer => (s.mutate sql args).map answer id
  | .ping answer => (answer (Engine.ping s.session), s)

variable {s s' : Store σ} {work work' : Work ω} {answer : Except StoreFault Answer → ω}

/-! ### Calls -/

theorem query_eq_fetch (s : Store σ) (sql : String) (args : List Value) :
    s.query sql args = match Engine.columns s.session sql with
      | .ok columns => s.fetch columns sql args
      | .error fault => (.error (.database fault), s) := by
  rw [query]
  cases Engine.columns s.session sql <;> rfl

theorem Work.finish_ofTexts (s : Store σ) (answer : Except StoreFault Unit → ω) (texts : List String) :
    (ofTexts answer texts).finish s = (s.applyStatements texts).map answer id := by
  cases texts <;> rfl

/-- A call is a part of what is to do. -/
theorem Work.finish_of_call (h : work.call s = some (work', s')) : work'.finish s' = work.finish s := by
  cases work with
  | done answer => cases h
  | texts text more answer =>
    rw [call] at h
    rw [finish, applyStatements]
    generalize s.command text = result at h ⊢
    obtain ⟨outcome, s₁⟩ := result
    cases outcome with
    | ok _ =>
      cases h
      exact finish_ofTexts _ answer more
    | error fault =>
      cases h
      rfl
  | columns sql args answer =>
    rw [call] at h
    rw [finish, query_eq_fetch]
    cases hcolumns : Engine.columns s.session sql with
    | ok names =>
      rw [hcolumns] at h
      cases h
      rfl
    | error fault =>
      rw [hcolumns] at h
      cases h
      rfl
  | rows | change | ping =>
    cases h
    rfl

/-! ### Under the lock -/

theorem Work.finish_ofKind (s : Store σ) (sql : String) (args : List Value)
    (answer : Except StoreFault Answer → ω) (kind : Sql.StatementKind) :
    (ofKind sql args answer kind).finish s = Prod.map answer id (match kind with
      | .query => s.query sql args
      | .mutation => s.mutate sql args) := by
  cases kind <;> rfl

/-- Taking the lock and all that is to do then, at once. -/
def Need.run (s : Store σ) (need : Need ω) : ω × Store σ :=
  (need.enter s).1.finish (need.enter s).2

theorem Need.run_execute (s : Store σ) (sql : String) (args : List Value)
    (answer : Except StoreFault Answer → ω) :
    (execute sql args answer).run s = Prod.map answer id (if !s.isOpen then (.error .closed, s)
      else match Sql.classify sql with
        | .query => s.query sql args
        | .mutation => s.mutate sql args) := by
  rw [run, enter]
  cases s.isOpen with
  | false => rfl
  | true => exact Work.finish_ofKind s sql args answer (Sql.classify sql)

theorem Need.run_schema (s : Store σ) (script : String) (answer : Except StoreFault Unit → ω) :
    (schema script answer).run s = (s.applySchema script).map answer id := by
  rw [run, enter, applySchema]
  cases s.isOpen with
  | false => rfl
  | true => exact Work.finish_ofTexts s answer (Sql.prepareSchema script)

theorem Need.run_health (s : Store σ) (answer : Bool → ω) :
    (health answer).run s = (answer s.isHealthy, s) := by
  rw [run, enter, isHealthy]
  cases s.isOpen <;> rfl

/-! ### Before the lock -/

/-- What an operation comes to before it takes the lock: it can be answered without the store, or it
has a need. -/
inductive Plan (ω : Type) where
  | answered (answer : ω)
  | needs (need : Need ω)

/-- The plan for a text with the values of its arguments; a blank one needs no store. -/
def Plan.ofText (sql : String) (args : List Json) (answer : Except StoreFault Answer → ω) : Plan ω :=
  let sql := String.ofList (Text.trim sql.toList)
  if sql = "" then .answered (answer (.error .emptyStatement))
  else .needs (.execute sql (args.map fun v => Value.ofBind (.ofJson v)) answer)

/-- The whole plan at once. -/
def Plan.run (s : Store σ) : Plan ω → ω × Store σ
  | .answered answer => (answer, s)
  | .needs need => need.run s

theorem Plan.run_ofText (s : Store σ) (sql : String) (args : List Json)
    (answer : Except StoreFault Answer → ω) :
    (ofText sql args answer).run s = (s.execute sql args).map answer id := by
  rw [ofText, Store.execute]
  split
  · rfl
  · refine (Need.run_execute s _ _ answer).trans ?_
    cases Sql.classify _ <;> rfl

end QueryTree.Store
