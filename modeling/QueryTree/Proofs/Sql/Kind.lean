import Mathlib.Data.List.Infix
import QueryTree.Http.Execution
import QueryTree.Proofs.Sql.Lines
import QueryTree.Proofs.Text.Letter
import QueryTree.Proofs.Sql.Comments

/-!
# The kind of a statement

A statement is classified by the first word behind the blanks and the closed comments in front of it
(`classify_eq_query_iff`). So more of those in front, blanks behind, the case of letters and comments
anywhere make no difference to its kind, and what a store does with a text is decided by the text
before it is trimmed.
-/

namespace QueryTree.Sql

open Text (isBlank sameLetters trim trimStart trimEnd isAlpha_toLower isBlank_toLower
  not_isBlank_of_isAlpha toLower_eq_iff toLower_of_not_isAlpha)

variable {c d : Char} {s r t p word body : List Char} {keyword : String}

/-- What is skipped in front of a statement: blanks, and comments with the marks that end them. -/
inductive Skipped : List Char → Prop
  | nil : Skipped []
  | blank {c : Char} {p : List Char} (hc : isBlank c = true) (h : Skipped p) : Skipped (c :: p)
  | line {body p : List Char} (hbody : '\n' ∉ body) (h : Skipped p) :
      Skipped ('-' :: '-' :: (body ++ '\n' :: p))
  | block {body p : List Char} (hbody : ¬ ['*', '/'] <:+: body ++ ['*']) (h : Skipped p) :
      Skipped ('/' :: '*' :: (body ++ '*' :: '/' :: p))

/-- What decides the kind of a statement. -/
def headOf (s : List Char) : List Char := trimStart (stripFrom .plain s)

/-! ### What is skipped -/

theorem stripFrom_line_append (h : '\n' ∉ body) (s : List Char) :
    stripFrom .line (body ++ '\n' :: s) = '\n' :: stripFrom .plain s := by
  induction body with
  | nil => rw [List.nil_append, stripFrom, if_pos rfl]
  | cons c body ih =>
    obtain ⟨hne, hbody⟩ := List.ne_and_not_mem_of_not_mem_cons h
    rw [List.cons_append, stripFrom, if_neg (Ne.symm hne), ih hbody]

theorem stripFrom_block_append (h : ¬ ['*', '/'] <:+: body ++ ['*']) (s : List Char) :
    stripFrom .block (body ++ '*' :: '/' :: s) = stripFrom .plain s := by
  induction body with
  | nil => rfl
  | cons c body ih =>
    rw [List.cons_append, List.infix_cons_iff, not_or] at h
    rw [List.cons_append, stripFrom]
    · exact ih h.2
    · -- a mark that began at `c` would lie in the body and the star behind it
      rintro r rfl hr
      cases body with
      | nil => cases hr
      | cons d body =>
        obtain ⟨rfl, -⟩ := List.cons.inj hr
        exact h.1 ⟨body ++ ['*'], rfl⟩

theorem stripFrom_blank (hc : isBlank c = true) (s : List Char) :
    stripFrom .plain (c :: s) = c :: stripFrom .plain s := by
  obtain ⟨hdash, -, hslash⟩ := ne_of_isBlank hc
  have hquote : isQuote c = false := by
    rw [← Bool.not_eq_true]
    intro hquote
    rw [isBlank_of_isQuote hquote] at hc
    cases hc
  rw [stripFrom_cons (not_opens_of_ne ⟨hdash, hslash⟩), hquote, if_neg Bool.false_ne_true]

theorem headOf_blank (hc : isBlank c = true) (s : List Char) : headOf (c :: s) = headOf s := by
  rw [headOf, stripFrom_blank hc, Text.trimStart_of_blank hc, headOf]

theorem headOf_line (h : '\n' ∉ body) (s : List Char) :
    headOf ('-' :: '-' :: (body ++ '\n' :: s)) = headOf s := by
  rw [headOf, stripFrom, stripFrom_line_append h, Text.trimStart_of_blank (by decide), headOf]

theorem headOf_block (h : ¬ ['*', '/'] <:+: body ++ ['*']) (s : List Char) :
    headOf ('/' :: '*' :: (body ++ '*' :: '/' :: s)) = headOf s := by
  rw [headOf, stripFrom, stripFrom_block_append h, Text.trimStart_of_blank (by decide), headOf]

theorem Skipped.headOf_append (h : Skipped p) (s : List Char) : headOf (p ++ s) = headOf s := by
  induction h with
  | nil => rfl
  | blank hc _ ih => rw [List.cons_append, headOf_blank hc, ih]
  | line hbody _ ih =>
    rw [List.cons_append, List.cons_append, List.append_assoc, List.cons_append, headOf_line hbody, ih]
  | block hbody _ ih =>
    rw [List.cons_append, List.cons_append, List.append_assoc, List.cons_append, List.cons_append,
      headOf_block hbody, ih]

/-- What is skipped ends where the first character stands that decides the kind. -/
theorem exists_skipped (h : headOf s ≠ []) :
    ∃ p r, Skipped p ∧ s = p ++ r ∧ headOf s = stripFrom .plain r := by
  fun_induction lexemes s with
  | case1 => exact absurd rfl h
  | case2 r ih =>
    cases hbreak : Text.breakOn ['\n'] r with
    | none =>
      refine absurd ?_ h
      rw [headOf, stripFrom, stripFrom_line, Slot.through, hbreak]
      dsimp only
      split <;> rfl
    | some sides =>
      obtain ⟨body, r'⟩ := sides
      have hbody : '\n' ∉ body := fun hmem => Text.not_infix_of_breakOn (by decide) hbreak
        ((List.singleton_infix_iff '\n' _).2 (List.mem_append_left _ hmem))
      have hr : r = body ++ '\n' :: r' := by simpa using Text.eq_append_of_breakOn hbreak
      have hrest : (Slot.through ['\n'] r).2 = r' := by rw [Slot.through, hbreak]
      rw [hrest] at ih
      rw [hr, headOf_line hbody] at h ⊢
      obtain ⟨p, r'', hp, hr', hhead⟩ := ih h
      exact ⟨_, r'', .line hbody hp, by simp [hr'], hhead⟩
  | case3 r ih =>
    cases hbreak : Text.breakOn ['*', '/'] r with
    | none =>
      refine absurd ?_ h
      rw [headOf, stripFrom, stripFrom_block, Slot.through, hbreak]
      rfl
    | some sides =>
      obtain ⟨body, r'⟩ := sides
      have hbody := Text.not_infix_of_breakOn (by decide) hbreak
      have hr : r = body ++ '*' :: '/' :: r' := by simpa using Text.eq_append_of_breakOn hbreak
      have hrest : (Slot.through ['*', '/'] r).2 = r' := by rw [Slot.through, hbreak]
      rw [hrest] at ih
      rw [hr, headOf_block hbody] at h ⊢
      obtain ⟨p, r'', hp, hr', hhead⟩ := ih h
      exact ⟨_, r'', .block hbody hp, by simp [hr'], hhead⟩
  | case4 c r _ _ hc ih =>
    refine ⟨[], c :: r, .nil, rfl, ?_⟩
    rw [headOf, stripFrom_cons (not_opens_of_ne (ne_of_isQuote hc)),
      Text.trimStart_of_visible (isBlank_of_isQuote hc)]
  | case5 c r hline hblock hc ih =>
    cases hblank : isBlank c with
    | true =>
      rw [headOf_blank hblank] at h ⊢
      obtain ⟨p, r', hp, rfl, hhead⟩ := ih h
      exact ⟨c :: p, r', .blank hblank hp, rfl, hhead⟩
    | false =>
      refine ⟨[], c :: r, .nil, rfl, ?_⟩
      rw [headOf, stripFrom_cons (not_opens_of_forall hline hblock), Text.trimStart_of_visible hblank]

/-! ### Letters -/

theorem isQuote_toLower (c : Char) : isQuote c.toLower = isQuote c := by
  rw [isQuote, isQuote, Bool.eq_iff_iff]
  simp only [Bool.or_eq_true, beq_iff_eq, toLower_eq_iff (d := '\'') (by decide),
    toLower_eq_iff (d := '"') (by decide), toLower_eq_iff (d := '\x60') (by decide)]

theorem not_isAlpha_of_isQuote (h : isQuote c = true) : c.isAlpha = false := by
  simp only [isQuote, Bool.or_eq_true, beq_iff_eq] at h
  rcases h with (rfl | rfl) | rfl <;> decide

theorem head?_map_toLower (hd : d.isAlpha = false) (s : List Char) :
    (s.map Char.toLower).head? = some d ↔ s.head? = some d := by
  rw [List.head?_map, Option.map_eq_some_iff]
  simp only [toLower_eq_iff hd, exists_eq_right]

theorem opens_map_toLower (c : Char) (s : List Char) :
    Opens c.toLower (s.map Char.toLower) ↔ Opens c s := by
  rw [Opens, Opens, toLower_eq_iff (by decide), toLower_eq_iff (by decide),
    head?_map_toLower (by decide), head?_map_toLower (by decide)]

/-- Case makes no difference to what is stripped. -/
theorem map_toLower_stripFrom {region : Region}
    (hregion : ∀ q, region = .quoted q → isQuote q = true) (s : List Char) :
    (stripFrom region s).map Char.toLower = stripFrom region (s.map Char.toLower) := by
  have hplain : ∀ q, Region.plain = .quoted q → isQuote q = true := by rintro q ⟨⟩
  have hline : ∀ q, Region.line = .quoted q → isQuote q = true := by rintro q ⟨⟩
  have hblock : ∀ q, Region.block = .quoted q → isQuote q = true := by rintro q ⟨⟩
  fun_induction stripFrom region s with
  | case1 region => cases region <;> rfl
  | case2 q c r ih =>
    have hq := hregion q rfl
    have hclose := toLower_eq_iff (c := c) (not_isAlpha_of_isQuote hq)
    rw [List.map_cons, List.map_cons, stripFrom, ih]
    · simp only [hclose]
    · intro q' h
      split at h
      · cases h
      · cases h
        exact hq
  | case3 r ih =>
    rw [List.map_cons, List.map_cons, ih hplain]
    rfl
  | case4 c r hne ih =>
    rw [ih hline, List.map_cons, stripFrom, if_neg]
    rwa [toLower_eq_iff (by decide)]
  | case5 r ih => exact ih hplain
  | case6 c r hends ih =>
    rw [ih hblock, List.map_cons, stripFrom]
    intro r' hc hr
    obtain ⟨d, r, rfl⟩ := List.exists_cons_of_ne_nil (l := r) (by rintro rfl; cases hr)
    obtain ⟨hd, -⟩ := List.cons.inj hr
    rw [toLower_eq_iff (by decide)] at hc hd
    exact hends r hc (hd ▸ rfl)
  | case7 r ih => exact ih hline
  | case8 r ih => exact congrArg (' ' :: ·) (ih hblock)
  | case9 c r hdash hslash ih =>
    have hopens := not_opens_of_forall hdash hslash
    rw [List.map_cons, List.map_cons, stripFrom_cons (mt (opens_map_toLower c r).1 hopens),
      isQuote_toLower]
    cases hc : isQuote c with
    | true =>
      rw [hc] at ih
      rw [toLower_of_not_isAlpha (not_isAlpha_of_isQuote hc)]
      refine congrArg (c :: ·) (ih fun q h => ?_)
      cases h
      exact hc
    | false =>
      rw [hc] at ih
      exact congrArg (c.toLower :: ·) (ih hplain)

theorem map_toLower_headOf (s : List Char) :
    (headOf s).map Char.toLower = headOf (s.map Char.toLower) := by
  have hblank : isBlank ∘ Char.toLower = isBlank := funext isBlank_toLower
  have hplain : ∀ q, Region.plain = .quoted q → isQuote q = true := by rintro q ⟨⟩
  rw [headOf, headOf, ← map_toLower_stripFrom hplain, trimStart, trimStart, List.dropWhile_map, hblank]

/-! ### Keywords -/

theorem beginsWith_iff : beginsWith keyword s = true ↔
    ∃ word rest, s = word ++ rest ∧ sameLetters word keyword.toList = true := by
  rw [beginsWith, ← String.length_toList]
  constructor
  · intro h
    exact ⟨_, _, (List.take_append_drop keyword.toList.length s).symm, h⟩
  · rintro ⟨word, rest, rfl, h⟩
    have hlength : word.length = keyword.toList.length := by
      have hmap := congrArg List.length (beq_iff_eq.1 h)
      rwa [List.length_map, List.length_map] at hmap
    rwa [← hlength, List.take_left]

theorem beginsWith_congr (h : s.map Char.toLower = t.map Char.toLower) :
    beginsWith keyword s = beginsWith keyword t := by
  rw [beginsWith, beginsWith, sameLetters, sameLetters, List.map_take, List.map_take, h]

/-- A word that is a keyword up to case is made of letters. -/
theorem letters_of_sameLetters (hkeyword : keyword ∈ queryKeywords)
    (h : sameLetters word keyword.toList = true) : word ≠ [] ∧ ∀ c ∈ word, c.isAlpha = true := by
  have hletters : ∀ k ∈ queryKeywords,
      k.toList.map Char.toLower ≠ [] ∧ (k.toList.map Char.toLower).all Char.isAlpha = true := by
    decide
  obtain ⟨hne, halpha⟩ := hletters keyword hkeyword
  rw [← beq_iff_eq.1 h] at hne halpha
  refine ⟨mt (congrArg (List.map Char.toLower)) hne, fun c hc => ?_⟩
  rw [← isAlpha_toLower]
  exact List.all_eq_true.1 halpha _ (List.mem_map_of_mem hc)

/-- Letters open neither a quote nor a comment. -/
theorem facts_of_isAlpha (h : c.isAlpha = true) : isQuote c = false ∧ c ≠ '-' ∧ c ≠ '/' := by
  refine ⟨?_, ?_, ?_⟩
  · rw [← Bool.not_eq_true]
    intro hquote
    rw [not_isAlpha_of_isQuote hquote] at h
    cases h
  · rintro rfl
    exact absurd h (by decide)
  · rintro rfl
    exact absurd h (by decide)

theorem stripFrom_letters (h : ∀ c ∈ word, c.isAlpha = true) (s : List Char) :
    stripFrom .plain (word ++ s) = word ++ stripFrom .plain s := by
  induction word with
  | nil => rfl
  | cons c word ih =>
    obtain ⟨hc, hword⟩ := List.forall_mem_cons.1 h
    obtain ⟨hquote, hne⟩ := facts_of_isAlpha hc
    rw [List.cons_append, stripFrom_cons (not_opens_of_ne hne), hquote, if_neg Bool.false_ne_true,
      ih hword, List.cons_append]

/-- What stands for a comment does not begin with a letter. -/
theorem not_isAlpha_of_opens (h : Opens c s) :
    ∀ d ∈ (stripFrom .plain (c :: s)).head?, d.isAlpha = false := by
  intro d hd
  rcases h with ⟨rfl, hs⟩ | ⟨rfl, hs⟩
  · obtain ⟨r, rfl⟩ := List.head?_eq_some_iff.1 hs
    rw [stripFrom] at hd
    rw [head_stripFrom_line r d hd]
    decide
  · obtain ⟨r, rfl⟩ := List.head?_eq_some_iff.1 hs
    rw [stripFrom] at hd
    cases hd
    decide

/-- A word at the front of what is left of a script stood at the front of the script. -/
theorem exists_of_stripFrom (h : ∀ c ∈ word, c.isAlpha = true)
    (hs : stripFrom .plain s = word ++ t) : ∃ r, s = word ++ r := by
  induction word generalizing s with
  | nil => exact ⟨s, rfl⟩
  | cons c word ih =>
    obtain ⟨hc, hword⟩ := List.forall_mem_cons.1 h
    cases s with
    | nil => cases hs
    | cons d s =>
      have hopens : ¬ Opens d s := by
        intro hopens
        have hnot := not_isAlpha_of_opens hopens c (by rw [hs]; rfl)
        rw [hc] at hnot
        cases hnot
      rw [stripFrom_cons hopens, List.cons_append] at hs
      obtain ⟨rfl, htail⟩ := List.cons.inj hs
      rw [(facts_of_isAlpha hc).1, if_neg Bool.false_ne_true] at htail
      obtain ⟨r, rfl⟩ := ih hword htail
      exact ⟨r, rfl⟩

theorem trimStart_letters (hne : word ≠ []) (h : ∀ c ∈ word, c.isAlpha = true) (s : List Char) :
    trimStart (word ++ s) = word ++ s := by
  cases word with
  | nil => exact absurd rfl hne
  | cons c word => exact Text.trimStart_of_visible (not_isBlank_of_isAlpha (h c List.mem_cons_self)) _

/-! ### Classifying -/

theorem classify_eq_query_iff_head (sql : String) :
    classify sql = .query ↔
      ∃ keyword ∈ queryKeywords, beginsWith keyword (headOf sql.toList) = true := by
  rw [← List.any_eq_true, classify]
  change (if queryKeywords.any (beginsWith · (headOf sql.toList)) then _ else _) = _ ↔ _
  split
  · next h => exact iff_of_true rfl h
  · next h => exact iff_of_false nofun h

/-- A text is a query exactly if past what is skipped it begins with one of the keywords. -/
theorem classify_eq_query_iff (sql : String) :
    classify sql = .query ↔ ∃ p word rest, Skipped p ∧ sql.toList = p ++ (word ++ rest) ∧
      ∃ keyword ∈ queryKeywords, sameLetters word keyword.toList = true := by
  rw [classify_eq_query_iff_head]
  constructor
  · rintro ⟨keyword, hkeyword, h⟩
    obtain ⟨word, t, hhead, hword⟩ := beginsWith_iff.1 h
    obtain ⟨hne, hletters⟩ := letters_of_sameLetters hkeyword hword
    have hsome : headOf sql.toList ≠ [] := by
      rw [hhead]
      exact List.append_ne_nil_of_left_ne_nil hne t
    obtain ⟨p, r, hp, hsql, hr⟩ := exists_skipped hsome
    obtain ⟨rest, rfl⟩ := exists_of_stripFrom hletters (hr.symm.trans hhead)
    exact ⟨p, word, rest, hp, hsql, keyword, hkeyword, hword⟩
  · rintro ⟨p, word, rest, hp, hsql, keyword, hkeyword, hword⟩
    obtain ⟨hne, hletters⟩ := letters_of_sameLetters hkeyword hword
    refine ⟨keyword, hkeyword, beginsWith_iff.2 ⟨word, stripFrom .plain rest, ?_, hword⟩⟩
    rw [hsql, hp.headOf_append, headOf, stripFrom_letters hletters, trimStart_letters hne hletters]

theorem classify_eq_of_iff {a b : String} (h : classify a = .query ↔ classify b = .query) :
    classify a = classify b := by
  cases ha : classify a with
  | query => exact (h.1 ha).symm
  | mutation =>
    cases hb : classify b with
    | query =>
      rw [h.2 hb] at ha
      cases ha
    | mutation => rfl

theorem classify_congr {a b : String} (h : (headOf a.toList).map Char.toLower =
    (headOf b.toList).map Char.toLower) : classify a = classify b := by
  refine classify_eq_of_iff ?_
  simp only [classify_eq_query_iff_head, beginsWith_congr h]

theorem classify_append (h : Skipped p) (sql : String) :
    classify (String.ofList p ++ sql) = classify sql := by
  refine classify_congr ?_
  rw [String.toList_append, String.toList_ofList, h.headOf_append]

theorem skipped_of_blanks (h : ∀ c ∈ p, isBlank c = true) : Skipped p := by
  induction p with
  | nil => exact .nil
  | cons c p ih =>
    obtain ⟨hc, hp⟩ := List.forall_mem_cons.1 h
    exact .blank hc (ih hp)

theorem trimEnd_append_letters (hne : word ≠ []) (h : ∀ c ∈ word, c.isAlpha = true) (p r : List Char) :
    trimEnd (p ++ (word ++ r)) = p ++ (word ++ trimEnd r) := by
  obtain ⟨w, c, rfl⟩ := (List.eq_nil_or_concat word).resolve_left hne
  have hc : isBlank c = false := not_isBlank_of_isAlpha (h c (by simp))
  simpa using Text.trimEnd_append_cons hc (p ++ w) r

theorem classify_trimEnd (s : List Char) :
    classify (String.ofList (trimEnd s)) = classify (String.ofList s) := by
  refine classify_eq_of_iff ?_
  simp only [classify_eq_query_iff, String.toList_ofList]
  constructor
  · rintro ⟨p, word, rest, hp, hs, hword⟩
    obtain ⟨b, hb, -⟩ := Text.exists_trimEnd_append s
    exact ⟨p, word, rest ++ b, hp, by rw [hb, hs]; simp, hword⟩
  · rintro ⟨p, word, rest, hp, rfl, keyword, hkeyword, hword⟩
    obtain ⟨hne, hletters⟩ := letters_of_sameLetters hkeyword hword
    exact ⟨p, word, trimEnd rest, hp, trimEnd_append_letters hne hletters p rest, keyword, hkeyword,
      hword⟩

theorem classify_trim (sql : String) : classify (String.ofList (trim sql.toList)) = classify sql := by
  have hblanks : Skipped (sql.toList.takeWhile isBlank) :=
    skipped_of_blanks fun c hc => List.mem_takeWhile_imp hc
  have hsql :
      String.ofList (sql.toList.takeWhile isBlank) ++ String.ofList (trimStart sql.toList) = sql := by
    rw [← String.ofList_append, trimStart, List.takeWhile_append_dropWhile, String.ofList_toList]
  calc classify (String.ofList (trim sql.toList))
    _ = classify (String.ofList (trimStart sql.toList)) := classify_trimEnd _
    _ = classify
          (String.ofList (sql.toList.takeWhile isBlank) ++ String.ofList (trimStart sql.toList)) :=
      (classify_append hblanks _).symm
    _ = classify sql := by rw [hsql]

theorem classify_of_sameLetters {a b : String} (h : sameLetters a.toList b.toList = true) :
    classify b = classify a := by
  refine classify_congr ?_
  rw [map_toLower_headOf, map_toLower_headOf, beq_iff_eq.1 h]

theorem classify_stripComments (sql : String) : classify (stripComments sql) = classify sql := by
  refine classify_congr ?_
  rw [toList_stripComments, headOf, (uncommented_stripFrom sql.toList).stripFrom_eq, headOf]

end QueryTree.Sql

namespace QueryTree

open Sql (classify)

/-- The kind of statement that an answer belongs to. -/
def Answer.kind : Answer → Sql.StatementKind
  | query .. => .query
  | mutation .. => .mutation

variable {σ : Type} [Engine σ]

/-- A store treats a text as what it is before its ends are trimmed. -/
theorem Store.execute_eq (s : Store σ) (sql : String) (args : List Json) :
    s.execute sql args =
      let text := String.ofList (Text.trim sql.toList)
      let values := args.map fun v => Value.ofBind (.ofJson v)
      if text = "" then (.error .emptyStatement, s)
      else if !s.isOpen then (.error .closed, s)
      else match classify sql with
        | .query => s.query text values
        | .mutation => s.mutate text values := by
  rw [execute]
  generalize hkind : classify (String.ofList (Text.trim sql.toList)) = kind
  obtain rfl : classify sql = kind := (Sql.classify_trim sql).symm.trans hkind
  rfl

theorem Store.kind_of_query {s s' : Store σ} {sql : String} {args : List Value} {a : Answer}
    (h : s.query sql args = (.ok a, s')) : a.kind = .query := by
  rw [query] at h
  split at h
  · cases h
  split at h
  · cases h
    rfl
  · cases h

theorem Store.kind_of_mutate {s s' : Store σ} {sql : String} {args : List Value} {a : Answer}
    (h : s.mutate sql args = (.ok a, s')) : a.kind = .mutation := by
  rw [mutate] at h
  split at h
  · cases h
    rfl
  · cases h

theorem Store.kind_of_execute {s s' : Store σ} {sql : String} {args : List Json} {a : Answer}
    (h : s.execute sql args = (.ok a, s')) : a.kind = classify sql := by
  rw [execute_eq] at h
  dsimp only at h
  split at h
  · cases h
  split at h
  · cases h
  split at h
  · next hkind => rw [hkind, kind_of_query h]
  · next hkind => rw [hkind, kind_of_mutate h]

theorem Route.kind_of_run {r : Route} {params : ParamSet} {s : Store σ} {a : Answer}
    (h : (r.run params s).1.outcome = .ok a) : a.kind = classify (r.run params s).1.sql := by
  rw [run] at h ⊢
  split
  · next hblank =>
    rw [if_pos hblank] at h
    cases h
  · next hblank =>
    rw [if_neg hblank] at h
    dsimp only at h ⊢
    generalize he : s.execute _ _ = result at h
    obtain ⟨outcome, s'⟩ := result
    have ho : outcome = .ok a := h
    exact Store.kind_of_execute (ho ▸ he)

/-- Blanks and closed comments in front, blanks at the ends, the case of letters and comments anywhere
make no difference to the kind of a statement, which is that of the word behind what is skipped. A store
treats a text according to its kind from before its ends are trimmed, so the answer of a route is of
the kind of the text that was rendered. -/
theorem Sql.classify_invariant {p : List Char} {sql sql' : String} (hp : Skipped p)
    (hcase : Text.sameLetters sql.toList sql'.toList = true) :
    classify (String.ofList p ++ sql) = classify sql ∧
      classify (String.ofList (Text.trim sql.toList)) = classify sql ∧
      classify sql' = classify sql ∧
      classify (stripComments sql) = classify sql ∧
      (classify sql = .query ↔ ∃ front word rest, Skipped front ∧ sql.toList = front ++ (word ++ rest) ∧
        ∃ keyword ∈ queryKeywords, Text.sameLetters word keyword.toList = true) ∧
      (∀ {σ : Type} [Engine σ] (s : Store σ) (args : List Json), s.execute sql args =
        let text := String.ofList (Text.trim sql.toList)
        let values := args.map fun v => Value.ofBind (.ofJson v)
        if text = "" then (.error .emptyStatement, s)
        else if !s.isOpen then (.error .closed, s)
        else match classify sql with
          | .query => s.query text values
          | .mutation => s.mutate text values) ∧
      ∀ {σ : Type} [Engine σ] (r : Route) (params : ParamSet) (s : Store σ) (answer : Answer),
        (r.run params s).1.outcome = .ok answer →
          answer.kind = classify (r.run params s).1.sql :=
  ⟨classify_append hp sql, classify_trim sql, classify_of_sameLetters hcase, classify_stripComments sql,
    classify_eq_query_iff sql, fun s args => s.execute_eq sql args, fun _ _ _ _ => Route.kind_of_run⟩

/-- A line comment with a quote in it and a block comment of stars. -/
theorem Sql.classify_invariant_commented :
    Skipped ['\u3000', '-', '-', 'é', '\'', '\n', '/', '*', '"', '*', '*', '/'] ∧
      Text.sameLetters "sElect 'A' -- \n".toList "SELECT 'a' -- \n".toList = true ∧
      classify "\u3000--é'\n/*\"**/sElect 'A' -- \n" = .query ∧
      classify "SELECT 'a' -- \n" = .query ∧ classify "/*SELECT" = .mutation := by
  have hp : Skipped ['\u3000', '-', '-', 'é', '\'', '\n', '/', '*', '"', '*', '*', '/'] :=
    .blank (by decide) <| @Skipped.line ['é', '\''] _ (by decide) <|
      @Skipped.block ['"', '*'] [] (by decide) .nil
  have hcase : Text.sameLetters "sElect 'A' -- \n".toList "SELECT 'a' -- \n".toList = true := by decide
  obtain ⟨hfront, -, hsame, -⟩ := classify_invariant hp hcase
  have hselect : classify "sElect 'A' -- \n" = .query := by decide +kernel
  exact ⟨hp, hcase, hfront.trans hselect, hsame.trans hselect, by decide +kernel⟩

end QueryTree
