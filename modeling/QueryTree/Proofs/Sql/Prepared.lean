import QueryTree.Proofs.Sql.Guard
import QueryTree.Proofs.Sql.Statements

/-!
# Quoted texts of prepared statements

Preparing a schema script cuts it at no quoted text, and brings in none. The texts quoted in the
statements are those of the script in their order, but each of them is normalized and guarded like a
script of its own (`quotedTexts?_prepareSchema`): lines in a text lose the blanks at their ends, blank
lines in it vanish, and a declaration in it is guarded.
-/

namespace QueryTree.Sql

variable {c q : Char} {s body piece t : List Char} {ts : List (List Char)}
  {pieces tss : List (List Char)}

/-! ### Pieces -/

/-- The script begins like its first piece. -/
theorem head?_piece (h : piecesFrom none s = piece :: pieces) :
    ∀ d ∈ piece.head?, s.head? = some d := by
  intro d hd
  cases s with
  | nil =>
    cases h
    cases hd
  | cons c s =>
    rw [piecesFrom] at h
    split at h
    · cases h
      cases hd
    · split at h
      · cases h
        exact hd
      · cases h
        exact hd

theorem piecesFrom_quoted (hq : q ∉ body) (h : piecesFrom none s = piece :: pieces) :
    piecesFrom (some q) (body ++ q :: s) = (body ++ q :: piece) :: pieces := by
  induction body with
  | nil => exact piecesFrom_cons (by simp) (by rwa [quoteAfter, if_pos rfl])
  | cons c body ih =>
    obtain ⟨hne, hbody⟩ := List.ne_and_not_mem_of_not_mem_cons hq
    refine piecesFrom_cons (by simp) ?_
    rw [quoteAfter, if_neg hne.symm]
    exact ih hbody

theorem piecesFrom_append (ht : IsQuoted t) (h : piecesFrom none s = piece :: pieces) :
    piecesFrom none (t ++ s) = (t ++ piece) :: pieces := by
  obtain ⟨q, body, hq, hbody, rfl⟩ := ht
  have hne : q ≠ ';' := by
    rintro rfl
    exact absurd hq (by decide)
  have hopen : quoteAfter none q = some q := by rw [quoteAfter, if_pos hq]
  have hall := piecesFrom_cons (by simp [hne]) (hopen ▸ piecesFrom_quoted hbody h)
  simpa using hall

/-- The pieces of a woven text are woven of its quoted texts. -/
theorem Woven.forall₂_pieces (h : Woven s ts) :
    ∃ tss, List.Forall₂ Woven (piecesFrom none s) tss ∧ tss.flatten = ts := by
  induction h with
  | nil => exact ⟨[[]], .cons .nil .nil, rfl⟩
  | @live c s ts hc hopens h ih =>
    obtain ⟨tss, hall, rfl⟩ := ih
    by_cases hend : c = ';'
    · subst hend
      exact ⟨[] :: tss, .cons .nil hall, rfl⟩
    · obtain ⟨piece, pieces, heq⟩ := List.exists_cons_of_ne_nil (piecesFrom_ne_nil none s)
      rw [heq] at hall
      cases hall with
      | @cons _ us _ tss hpiece hpieces =>
        -- no comment starts at `c` in the piece, which is a beginning of the text behind it
        have hopen : quoteAfter none c = none := by rw [quoteAfter, if_neg (by simp [hc])]
        refine ⟨us :: tss, ?_, rfl⟩
        rw [piecesFrom_cons (by simp [hend]) (hopen ▸ heq)]
        exact .cons (.live hc (not_opens_of_head hopens fun d hd => .inl (head?_piece heq d hd)) hpiece)
          hpieces
  | @quoted t s ts ht h ih =>
    obtain ⟨tss, hall, rfl⟩ := ih
    obtain ⟨piece, pieces, heq⟩ := List.exists_cons_of_ne_nil (piecesFrom_ne_nil none s)
    rw [heq] at hall
    cases hall with
    | @cons _ us _ tss hpiece hpieces =>
      refine ⟨(t :: us) :: tss, ?_, rfl⟩
      rw [piecesFrom_append ht heq]
      exact .cons (.quoted ht hpiece) hpieces

/-! ### Trimming -/

theorem Woven.trimStart (h : Woven s ts) : Woven (Text.trimStart s) ts := by
  have hblanks : ∀ c ∈ s.takeWhile Text.isBlank, isMark c = false := fun c hc =>
    not_isMark_of_isBlank (List.mem_takeWhile_imp hc)
  rw [← List.takeWhile_append_dropWhile (p := Text.isBlank) (l := s)] at h
  exact h.of_append hblanks

theorem Woven.trimEnd (h : Woven s ts) : Woven (Text.trimEnd s) ts := by
  induction h with
  | nil => exact .nil
  | live hc hopens h ih =>
    rw [Text.trimEnd_cons]
    split
    · next hempty =>
      rwa [List.isEmpty_iff.1 (Bool.and_eq_true_iff.1 hempty).1] at ih
    · exact .live hc (not_opens_of_head hopens fun d hd => .inl (Text.head?_trimEnd hd)) ih
  | @quoted t s ts ht h ih =>
    have happend : Text.trimEnd (t ++ s) = t ++ Text.trimEnd s := by
      obtain ⟨q, body, hq, -, rfl⟩ := ht
      have hall := Text.trimEnd_append_cons (isBlank_of_isQuote hq) (q :: body) s
      simpa using hall
    rw [happend]
    exact .quoted ht ih

theorem Woven.trim (h : Woven s ts) : Woven (Text.trim s) ts := h.trimStart.trimEnd

/-! ### Statements -/

/-- The quoted texts of each statement in turn. -/
theorem mapM_quotedFrom?_trim {tss : List (List (List Char))} (h : List.Forall₂ Woven pieces tss) :
    (((pieces.map Text.trim).filter fun s => !s.isEmpty).mapM (quotedFrom? .plain)).map List.flatten =
      some tss.flatten := by
  induction h with
  | nil => rfl
  | @cons piece us pieces tss hpiece hpieces ih =>
    have hus := hpiece.trim.quotedFrom?_eq
    rw [List.map_cons]
    by_cases hempty : Text.trim piece = []
    · rw [hempty] at hus ⊢
      obtain rfl : [] = us := Option.some.inj hus
      exact ih
    · rw [List.filter_cons_of_pos (by simpa using hempty), List.mapM_cons, hus]
      obtain ⟨uss, huss, hflat⟩ := Option.map_eq_some_iff.1 ih
      rw [huss, List.flatten_cons, ← hflat]
      rfl

theorem Woven.mapM_statementsOf (h : Woven s ts) :
    ((statementsOf s).mapM (quotedFrom? .plain)).map List.flatten = some ts := by
  obtain ⟨tss, hall, rfl⟩ := h.forall₂_pieces
  exact mapM_quotedFrom?_trim hall

theorem Woven.isQuoted (h : Woven s ts) : ∀ t ∈ ts, IsQuoted t := by
  induction h with
  | nil => exact nofun
  | live hc hopens h ih => exact ih
  | quoted ht h ih => exact List.forall_mem_cons.2 ⟨ht, ih⟩

/-! ### Scripts -/

/-- The texts quoted in a script outside its comments; none if a quote is left open. -/
def quotedTexts? (script : String) : Option (List String) :=
  (quotedFrom? .plain script.toList).map fun ts => ts.map String.ofList

theorem stripFrom_of_isQuoted (ht : IsQuoted t) : stripFrom .plain t = t := by
  obtain ⟨q, body, hq, hbody, rfl⟩ := ht
  have hquoted : stripFrom (.quoted q) (body ++ [q]) = body ++ [q] := by
    induction body with
    | nil => rw [List.nil_append, stripFrom, if_pos rfl]; rfl
    | cons c body ih =>
      obtain ⟨hne, hbody⟩ := List.ne_and_not_mem_of_not_mem_cons hbody
      rw [List.cons_append, stripFrom, if_neg hne.symm, ih hbody]
  rw [stripFrom_cons (not_opens_of_ne (ne_of_isQuote hq)), if_pos hq, hquoted]

/-- What becomes of a quoted text by itself. -/
theorem makeIdempotent_normalizeSchema (ht : IsQuoted t) :
    makeIdempotent (normalizeSchema (String.ofList t)) =
      String.ofList (guardFrom false (tidyFrom false t)) := by
  rw [makeIdempotent, normalizeSchema, String.toList_ofList, String.toList_ofList, normalizeChars_eq,
    stripFrom_of_isQuoted ht]

theorem mapM_quotedTexts? (statements : List (List Char)) :
    (statements.map String.ofList).mapM quotedTexts? =
      (statements.mapM (quotedFrom? .plain)).map fun tss => tss.map fun ts => ts.map String.ofList := by
  induction statements with
  | nil => rfl
  | cons s statements ih =>
    rw [List.map_cons, List.mapM_cons, List.mapM_cons, ih, quotedTexts?, String.toList_ofList]
    cases quotedFrom? .plain s with
    | none => rfl
    | some ts => cases statements.mapM (quotedFrom? .plain) <;> rfl

theorem prepareSchema_eq (script : String) :
    prepareSchema script =
      (statementsOf (guardFrom false (tidyFrom false (stripFrom .plain script.toList)))).map
        String.ofList := by
  rw [prepareSchema, makeIdempotent, normalizeSchema, normalizeChars_eq, splitStatements,
    String.toList_ofList, String.toList_ofList]

/-- The texts quoted in the prepared statements of a script. -/
theorem mapM_prepareSchema {script : String} {texts : List String}
    (h : quotedTexts? script = some texts) :
    ((prepareSchema script).mapM quotedTexts?).map List.flatten =
      some (texts.map fun text => makeIdempotent (normalizeSchema text)) := by
  obtain ⟨ts, hts, rfl⟩ := Option.map_eq_some_iff.1 h
  have hwoven := woven_stripFrom hts
  obtain ⟨tss, htss, hflat⟩ := Option.map_eq_some_iff.1
    ((hwoven.tidyFrom false).guardFrom false).mapM_statementsOf
  have halone : ∀ t ∈ ts, String.ofList (guardFrom false (tidyFrom false t)) =
      makeIdempotent (normalizeSchema (String.ofList t)) := fun t ht =>
    (makeIdempotent_normalizeSchema (hwoven.isQuoted t ht)).symm
  rw [prepareSchema_eq, mapM_quotedTexts?, htss, Option.map_some, Option.map_some, ← List.map_flatten, hflat]
  simp only [List.map_map, Function.comp_def]
  exact congrArg some (List.map_congr_left halone)

/-- Preparing a script whose quotes are all closed leaves the quotes of its statements closed, and the
texts in them are those of the script, each prepared by itself. So all of them come out unchanged just
if preparing changes none of them. -/
theorem quotedTexts?_prepareSchema {script : String} {texts : List String}
    (h : quotedTexts? script = some texts) :
    ((prepareSchema script).mapM quotedTexts?).map List.flatten =
        some (texts.map fun text => makeIdempotent (normalizeSchema text)) ∧
      (((prepareSchema script).mapM quotedTexts?).map List.flatten = some texts ↔
        ∀ text ∈ texts, makeIdempotent (normalizeSchema text) = text) := by
  rw [mapM_prepareSchema h]
  refine ⟨rfl, fun heq => ?_, fun hall => ?_⟩
  · exact List.map_inj_left.1 ((Option.some.inj heq).trans (List.map_id texts).symm)
  · exact congrArg some ((List.map_congr_left hall).trans (List.map_id texts))

/-- A script with marks of comments and a semicolon inside quotes, and quotes inside comments. -/
def nested : String := "INSERT INTO t VALUES ('a;b', \"--c\") -- it's\n; SELECT '/*' /* \" */"

theorem quotedTexts?_nested :
    quotedTexts? nested = some ["'a;b'", "\"--c\"", "'/*'"] ∧
      ((prepareSchema nested).mapM quotedTexts?).map List.flatten =
        some ["'a;b'", "\"--c\"", "'/*'"] :=
  have h : quotedTexts? nested = some ["'a;b'", "\"--c\"", "'/*'"] := by decide +kernel
  ⟨h, (quotedTexts?_prepareSchema h).2.2 (by decide +kernel)⟩

/-- One text loses the blank at the end of its first line, and in another a table is guarded. -/
theorem quotedTexts?_changed :
    quotedTexts? "INSERT INTO t VALUES ('a \nb', 'create table x');" =
        some ["'a \nb'", "'create table x'"] ∧
      ((prepareSchema "INSERT INTO t VALUES ('a \nb', 'create table x');").mapM quotedTexts?).map
        List.flatten = some ["'a\nb'", "'CREATE TABLE IF NOT EXISTS x'"] := by
  decide +kernel

end QueryTree.Sql
