import QueryTree.Proofs.Distinct
import QueryTree.Proofs.Sql.Created
import QueryTree.Proofs.Sql.Prepared

/-!
# The tables of a script

A script is read for the tables that it declares, and it is applied statement by statement. Guarding a
script guards each of its pieces by itself (`piecesFrom_guardFrom`), and what is declared in the pieces
is declared in the script (`declaredFrom_pieces`). So both ways lead to the same tables where every
statement is plain (`declaredTables_eq_created`). Elsewhere they do not: a name is read up to its first
character that is no word character, and words inside quotes count (`declaredTables_quoted`).
-/

namespace QueryTree.Sql

open Text (isWord)

variable {c : Char} {s r rest temp p x : List Char} {ps : List (List Char)} {open? : Option Char}
  {inWord : Bool}

/-! ### Pieces of a script -/

/-- What is declared in the pieces of a script is declared in the script. -/
theorem declaredFrom_joinWith (ps : List (List Char)) :
    declaredFrom false (Text.joinWith [';'] ps) = ps.flatMap (declaredFrom false) := by
  induction ps with
  | nil => rw [Text.joinWith, declaredFrom_nil, List.flatMap_nil]
  | cons p ps ih =>
    by_cases hnil : ps = []
    · rw [hnil, Text.joinWith, List.flatMap_singleton]
    · have hends : Ends (';' :: Text.joinWith [';'] ps) := .inl ⟨_, rfl⟩
      have hnone : declaredAt? (';' :: Text.joinWith [';'] ps) = none := hends.declaredAt?_append []
      rw [Text.joinWith_cons hnil, List.append_assoc, List.singleton_append, hends.declaredFrom_append,
        declaredFrom_of_none hnone, (facts_of_isAside hends.isAside).1, ih, List.flatMap_cons]

theorem declaredFrom_pieces (s : List Char) :
    declaredFrom false s = (piecesFrom none s).flatMap (declaredFrom false) := by
  rw [← declaredFrom_joinWith, joinWith_piecesFrom]

/-! ### Guarding piece by piece -/

/-- Pieces guarded each by itself, where `inWord` is for the first. -/
def guardPieces (inWord : Bool) : List (List Char) → List (List Char)
  | [] => []
  | p :: ps => guardFrom inWord p :: ps.map (guardFrom false)

theorem guardPieces_false (ps : List (List Char)) :
    guardPieces false ps = ps.map (guardFrom false) := by
  cases ps <;> rfl

/-- Nothing, or a text that begins with a semicolon. -/
def Follows (x : List Char) : Prop := x = [] ∨ ∃ s, x = ';' :: s

theorem follows_of_piecesFrom (h : piecesFrom open? s = p :: ps) : ∃ x, s = p ++ x ∧ Follows x := by
  have hjoin := joinWith_piecesFrom open? s
  rw [h] at hjoin
  by_cases hnil : ps = []
  · rw [hnil, Text.joinWith] at hjoin
    exact ⟨[], by rw [List.append_nil, hjoin], .inl rfl⟩
  · rw [Text.joinWith_cons hnil, List.append_assoc] at hjoin
    exact ⟨_, hjoin.symm, .inr ⟨_, rfl⟩⟩

theorem Follows.head?_append (h : Follows x) (s : List Char) :
    head? (s ++ x) = (head? s).map fun (temp, r) => (temp, r ++ x) := by
  rcases h with rfl | ⟨b, rfl⟩
  · simp
  · exact head?_append_semicolon s b

theorem Follows.afterGuard?_append (h : Follows x) (s : List Char) :
    afterGuard? (s ++ x) = (afterGuard? s).map (· ++ x) := by
  rcases h with rfl | ⟨b, rfl⟩
  · simp
  · exact afterGuard?_append_semicolon s b

/-- Characters that are no quotes and no semicolons belong to the piece that they stand in. -/
theorem piecesFrom_append_of_forall {w : List Char} (hopen : ∀ q ∈ open?, isQuote q = true)
    (hw : ∀ c ∈ w, isQuote c = false ∧ c ≠ ';') (h : piecesFrom open? s = p :: ps) :
    piecesFrom open? (w ++ s) = (w ++ p) :: ps := by
  induction w with
  | nil => exact h
  | cons c w ih =>
    obtain ⟨⟨hc, hne⟩, hw⟩ := List.forall_mem_cons.1 hw
    have hsame : quoteAfter open? c = open? := by
      cases open? with
      | none => rw [quoteAfter, if_neg (by simp [hc])]
      | some q =>
        rw [quoteAfter, if_neg]
        rintro rfl
        rw [hopen c rfl] at hc
        cases hc
    exact piecesFrom_cons (fun hend => hne hend.2) (by rw [hsame]; exact ih hw)

/-- The words of a declaration and its guard, and what stands for them, are within a piece. -/
theorem within_declaration (h : head? s = some (temp, rest)) :
    (∃ w, s = w ++ (afterGuard? rest).getD rest ∧ ∀ c ∈ w, isQuote c = false ∧ c ≠ ';') ∧
      ∀ c ∈ "CREATE ".toList ++ temp ++ guardText, isQuote c = false ∧ c ≠ ';' := by
  have hboth : ∀ {w : List Char}, (∀ c ∈ w, isMark c = false) → ';' ∉ w → ∀ c ∈ w, isQuote c = false ∧ c ≠ ';' :=
    fun hmark hmem c hc => ⟨(ne_of_not_isMark (hmark c hc)).1, fun heq => hmem (heq ▸ hc)⟩
  obtain ⟨w, heq, hw, -⟩ := head?_eq_some_iff.1 h
  have hmem := hw.not_mem
  obtain ⟨taken, htaken, hmark, -⟩ := taken_declaration h
  constructor
  · refine ⟨taken, htaken, hboth hmark ?_⟩
    cases hguard : afterGuard? rest with
    | none =>
      rw [hguard, Option.getD_none, heq] at htaken
      rwa [← List.append_cancel_right htaken]
    | some r =>
      obtain ⟨g, rfl, hg, -⟩ := afterGuard?_eq_some_iff.1 hguard
      rw [hguard, Option.getD_some, heq, ← List.append_assoc] at htaken
      rw [← List.append_cancel_right htaken, List.mem_append, not_or]
      exact ⟨hmem, hg.not_mem⟩
  · obtain ⟨w₁, w₂, rfl, -⟩ := hw
    have htemp : ';' ∉ temp := fun hin => hmem (by simp [hin])
    have hcreate : ';' ∉ "CREATE ".toList := by decide
    have htable : ';' ∉ guardText := by decide
    refine hboth (not_isMark_declaration h) ?_
    simp only [List.mem_append, not_or]
    exact ⟨⟨hcreate, htemp⟩, htable⟩

/-- A character that opens no declaration in front of the script opens none in front of its piece. -/
theorem guardPieces_cons {guarded : List Char} (hopen : ∀ q ∈ open?, isQuote q = true)
    (hstep : ∀ p x, r = p ++ x → Follows x → guardFrom inWord (c :: p) = c :: guardFrom (isWord c) p)
    (ih : ∀ {open?}, (∀ q ∈ open?, isQuote q = true) →
      piecesFrom open? guarded = guardPieces (isWord c) (piecesFrom open? r)) :
    piecesFrom open? (c :: guarded) = guardPieces inWord (piecesFrom open? (c :: r)) := by
  by_cases hend : open?.isNone ∧ c = ';'
  · rw [piecesFrom, if_pos hend, piecesFrom, if_pos hend, ih isQuote_of_mem_none, hend.2,
      guardPieces, guardFrom_nil]
    exact congrArg _ (guardPieces_false _)
  · obtain ⟨p, ps, heq⟩ := List.exists_cons_of_ne_nil (piecesFrom_ne_nil (quoteAfter open? c) r)
    obtain ⟨x, hr, hx⟩ := follows_of_piecesFrom heq
    rw [piecesFrom_cons hend heq, guardPieces, hstep p x hr hx]
    refine piecesFrom_cons hend ?_
    rw [ih (isQuote_of_quoteAfter hopen), heq, guardPieces]

/-- Guarding a script guards its pieces. -/
theorem piecesFrom_guardFrom (hopen : ∀ q ∈ open?, isQuote q = true) :
    piecesFrom open? (guardFrom inWord s) = guardPieces inWord (piecesFrom open? s) := by
  fun_induction guardFrom inWord s generalizing open? with
  | case1 => rw [piecesFrom, guardPieces, guardFrom_nil, List.map_nil]
  | case2 c r ih => exact guardPieces_cons hopen (fun p _ _ _ => guardFrom_of_inWord c p) ih
  | case3 inWord c r hword temp rest hhead ih =>
    rw [Bool.not_eq_true] at hword
    subst hword
    obtain ⟨⟨w, heq, hw⟩, hwords⟩ := within_declaration hhead
    obtain ⟨p, ps, hpieces⟩ := List.exists_cons_of_ne_nil
      (piecesFrom_ne_nil open? ((afterGuard? rest).getD rest))
    obtain ⟨x, hbehind, hx⟩ := follows_of_piecesFrom hpieces
    have hguarded := ih hopen
    rw [hpieces, guardPieces] at hguarded
    -- the piece begins with the same declaration, and `p` is what comes behind its words
    have hpiece : guardFrom false (w ++ p) =
        "CREATE ".toList ++ temp ++ guardText ++ guardFrom false p := by
      have hfront := hx.head?_append (w ++ p)
      rw [List.append_assoc, ← hbehind, ← heq, hhead] at hfront
      obtain ⟨⟨temp', rest'⟩, hhead', hsame⟩ := Option.map_eq_some_iff.1 hfront.symm
      obtain ⟨rfl, rfl⟩ := Prod.mk.inj hsame
      have hp : (afterGuard? rest').getD rest' = p := by
        rw [hx.afterGuard?_append] at hbehind
        cases hguard : afterGuard? rest' with
        | none =>
          rw [hguard] at hbehind
          exact List.append_cancel_right hbehind
        | some r' =>
          rw [hguard] at hbehind
          exact List.append_cancel_right hbehind
      rw [guardFrom_of_head? hhead', hp]
    rw [piecesFrom_append_of_forall hopen hwords hguarded, heq,
      piecesFrom_append_of_forall hopen hw hpieces, guardPieces, hpiece]
  | case4 inWord c r hword hhead ih =>
    refine guardPieces_cons hopen (fun p x hr hx => guardFrom_of_none ?_ inWord) ih
    have hfront := hx.head?_append (c :: p)
    rw [List.cons_append, ← hr, hhead] at hfront
    exact Option.map_eq_none_iff.1 hfront.symm

/-! ### Tables -/

theorem createdTable?_nil : createdTable? (String.ofList []) = none := rfl

/-- The statements of guarded pieces create the tables that the pieces declare. -/
theorem filterMap_createdTable? (h : ∀ statement ∈ ((ps.map (guardFrom false)).map Text.trim).filter
      (fun s => !s.isEmpty), Plain statement) :
    ((((ps.map (guardFrom false)).map Text.trim).filter fun s => !s.isEmpty).map
        String.ofList).filterMap createdTable? =
      (ps.flatMap (declaredFrom false)).map String.ofList := by
  induction ps with
  | nil => rfl
  | cons p ps ih =>
    rw [List.map_cons, List.map_cons, List.filter_cons] at h ⊢
    rw [List.flatMap_cons, List.map_append]
    by_cases hempty : Text.trim (guardFrom false p) = []
    · have hdeclared := declaredFrom_of_plain (s := p) (by rw [hempty]; decide)
      rw [hempty, createdTable?_nil] at hdeclared
      rw [hempty] at h ⊢
      rw [hdeclared]
      exact ih h
    · rw [if_pos (by simpa using hempty)] at h ⊢
      obtain ⟨hp, hps⟩ := List.forall_mem_cons.1 h
      rw [List.map_cons, declaredFrom_of_plain hp, ← ih hps]
      cases hcreated : createdTable? (String.ofList (Text.trim (guardFrom false p))) with
      | none => rw [List.filterMap_cons_none hcreated]; rfl
      | some table => rw [List.filterMap_cons_some hcreated]; rfl

/-- The tables that a script declares are those that its statements create, each once and in the order
in which they are created first, if no statement holds the words of a declaration but at its front, and
each name behind a guard is of word characters and the name of no database. -/
theorem declaredTables_eq_created {script : String}
    (h : ∀ statement ∈ prepareSchema script, Plain statement.toList) :
    declaredTables script = ((prepareSchema script).filterMap createdTable?).eraseDups := by
  have hpieces : ∀ s, piecesFrom none (guardFrom false s) = (piecesFrom none s).map (guardFrom false) := by
    intro s
    rw [← guardPieces_false]
    exact piecesFrom_guardFrom isQuote_of_mem_none
  rw [prepareSchema_eq, statementsOf, hpieces] at h
  have hplain := fun statement hmem => h (String.ofList statement) (List.mem_map_of_mem hmem)
  simp only [String.toList_ofList] at hplain
  rw [declaredTables, foldl_distinct_eq_eraseDups, prepareSchema_eq, statementsOf, hpieces,
    filterMap_createdTable? hplain, ← declaredFrom_pieces, declaredFrom_tidyFrom]

/-- Names in quotes, in brackets and bare, one of them again, and a text that holds a semicolon. -/
def accounts : String :=
  "create temp table [a] (id);\n-- kept\nCREATE TABLE IF NOT EXISTS \"b\" (n DEFAULT ';');Create Table a (n)"

theorem declaredTables_accounts :
    (∀ statement ∈ prepareSchema accounts, Plain statement.toList) ∧
      declaredTables accounts = ((prepareSchema accounts).filterMap createdTable?).eraseDups ∧
      declaredTables accounts = ["a", "b"] :=
  have h : ∀ statement ∈ prepareSchema accounts, Plain statement.toList := by decide +kernel
  ⟨h, declaredTables_eq_created h, by decide +kernel⟩

/-- A name with a blank in it is cut, and a text in quotes is taken for a declaration. -/
theorem declaredTables_quoted :
    quotedTexts? "CREATE TABLE \"my table\" (x); INSERT INTO t VALUES ('create table x');" =
        some ["\"my table\"", "'create table x'"] ∧
      declaredTables "CREATE TABLE \"my table\" (x); INSERT INTO t VALUES ('create table x');" =
        ["my", "x"] ∧
      ((prepareSchema "CREATE TABLE \"my table\" (x); INSERT INTO t VALUES ('create table x');").filterMap
        createdTable?).eraseDups = ["my table"] := by
  decide +kernel

end QueryTree.Sql
