import QueryTree.Proofs.Sql.Comments

/-!
# The slots that a script keeps

Stripping looks for comments everywhere but in quoted texts; the count of the slots passes over names in
brackets as well. A name in brackets that holds a quote or opens a comment sets the two apart, and a slot
can go with what is stripped (`count_stripComments_bracketed`). As long as each comment that is stripped
is one that the count passes over (`PassesComments`), the script has the same marks without its comments
(`count_stripComments`). That is so if the names in brackets have neither quotes nor comments in them
(`passesComments_of_names`).
-/

namespace QueryTree.Sql.Slot

variable {c q : Char} {s r t w k rest text : List Char} {before after : List Lexeme} {l : Lexeme}
  {ls : List Lexeme} {n : Nat} {place : Nat × List Char}

/-! ### The lexeme at the front -/

theorem lexemes_nil : lexemes [] = [] := by rw [lexemes]

theorem lexemes_hidden (h : hiddenAt? s = some (text, rest)) :
    lexemes s = .hidden text :: lexemes rest := by
  cases s with
  | nil => cases h
  | cons c r =>
    rw [lexemes]
    split
    · next h' =>
      rw [h] at h'
      cases h'
      rfl
    · next h' =>
      rw [h] at h'
      cases h'

theorem lexemes_mark (r : List Char) :
    lexemes ('?' :: r) = .mark (r.takeWhile Char.isDigit) :: lexemes (r.dropWhile Char.isDigit) := by
  rw [lexemes]
  rfl

theorem lexemes_live (h : hiddenAt? (c :: r) = none) (hc : c ≠ '?') :
    lexemes (c :: r) = .live c :: lexemes r := by
  rw [lexemes]
  split
  · next h' =>
    rw [h] at h'
    cases h'
  · rw [if_neg hc]

theorem hiddenAt?_of_isQuote (hc : Sql.isQuote c = true) (r : List Char) :
    hiddenAt? (c :: r) = some (c :: (closeQuote c r).1, (closeQuote c r).2) := by
  unfold hiddenAt?
  split
  · next heq => cases heq; cases hc
  · next heq => cases heq; cases hc
  · next heq => cases heq; cases hc
  · next heq => cases heq; rw [if_pos hc]
  · next heq => cases heq

theorem hiddenAt?_eq_none_iff :
    hiddenAt? (c :: r) = none ↔ ¬ Opens c r ∧ c ≠ '[' ∧ ¬ Sql.isQuote c = true := by
  constructor
  · intro h
    obtain ⟨hline, hblock, hbracket, hquote⟩ := hiddenAt?_eq_none h
    exact ⟨not_or.2 ⟨hline, hblock⟩, hbracket, hquote⟩
  · rintro ⟨hopens, hbracket, hquote⟩
    unfold hiddenAt?
    split
    · next heq => cases heq; exact absurd (.inl ⟨rfl, rfl⟩) hopens
    · next heq => cases heq; exact absurd (.inr ⟨rfl, rfl⟩) hopens
    · next heq => cases heq; exact absurd rfl hbracket
    · next heq => cases heq; rw [if_neg hquote]
    · rfl

/-! ### Another text behind some lexemes -/

/-- The text `w` begins like `r`, or in a way that changes nothing ahead of it. -/
def Follows (r w : List Char) : Prop := ∀ c ∈ w.head?, r.head? = some c ∨ c = '\n' ∨ c = ' '

theorem head_closeQuote (q : Char) (s : List Char) : ∀ c ∈ (closeQuote q s).2.head?, c ≠ q := by
  fun_induction closeQuote q s with
  | case1 | case2 =>
    intro c hc
    cases hc
  | case3 r ih => exact ih
  | case4 c r hc =>
    rintro d ⟨⟩
    exact hc
  | case5 c r hc ih => exact ih

theorem closeQuote_of_ne (hc : c ≠ q) (s : List Char) :
    closeQuote q (c :: s) = (c :: (closeQuote q s).1, (closeQuote q s).2) := by
  rw [closeQuote.eq_def]
  exact if_neg hc

/-- A closed quoted text is cut off again in front of a text that does not begin with the quote. -/
theorem closeQuote_again (hne : (closeQuote q s).2 ≠ []) (hw : ∀ c ∈ w.head?, c ≠ q) :
    closeQuote q ((closeQuote q s).1 ++ w) = ((closeQuote q s).1, w) := by
  fun_induction closeQuote q s with
  | case1 | case2 => exact absurd rfl hne
  | case3 r ih =>
    rw [List.cons_append, List.cons_append, closeQuote, if_pos rfl]
    dsimp only
    rw [if_pos rfl, ih hne]
  | case4 c r hc =>
    cases w with
    | nil => rw [List.append_nil, closeQuote, if_pos rfl]
    | cons d w =>
      rw [List.singleton_append, closeQuote, if_pos rfl]
      dsimp only
      rw [if_neg (hw d rfl)]
  | case5 c r hc ih => rw [List.cons_append, closeQuote_of_ne hc, ih hne]

theorem hiddenAt?_append (h : hiddenAt? s = some (text, rest)) (hne : rest ≠ [])
    (hw : Follows rest w) : hiddenAt? (text ++ w) = some (text, w) := by
  unfold hiddenAt? at h
  split at h
  · cases h
    rw [List.cons_append, List.cons_append, hiddenAt?, through_again fun h => absurd h hne]
  · cases h
    rw [List.cons_append, List.cons_append, hiddenAt?, through_again fun h => absurd h hne]
  · cases h
    rw [List.cons_append, hiddenAt?, through_again fun h => absurd h hne]
  · next q r _ _ _ =>
    split at h
    · next hq =>
      cases h
      have hhead : ∀ c ∈ w.head?, c ≠ q := by
        intro c hc
        rcases hw c hc with hrest | rfl | rfl
        · exact head_closeQuote q r c hrest
        · rintro rfl
          cases hq
        · rintro rfl
          cases hq
      rw [List.cons_append, hiddenAt?_of_isQuote hq, closeQuote_again hne hhead]
    · cases h
  · cases h

theorem follows_of_lexemes_eq (h : lexemes r = before ++ after) (hw : Follows [] w) :
    Follows r (before.flatMap Lexeme.text ++ w) := by
  have htext := flatMap_text_lexemes r
  rw [h, List.flatMap_append] at htext
  intro c hc
  cases hbefore : before.flatMap Lexeme.text with
  | nil =>
    rw [hbefore] at hc
    exact (hw c hc).elim nofun .inr
  | cons d s =>
    rw [hbefore] at hc htext
    rw [← htext]
    exact .inl hc

/-- Lexemes in front of other ones are there again in front of a text that changes nothing ahead of it. -/
theorem lexemes_append (h : lexemes s = before ++ after) (hafter : after ≠ []) (hw : Follows [] w) :
    lexemes (before.flatMap Lexeme.text ++ w) = before ++ lexemes w := by
  have hnext : ∀ {r : List Char} {before : List Lexeme}, lexemes r = before ++ after → r ≠ [] := by
    rintro r before heq rfl
    rw [lexemes_nil] at heq
    exact hafter (List.append_eq_nil_iff.1 heq.symm).2
  fun_induction lexemes s generalizing before with
  | case1 => exact absurd (List.append_eq_nil_iff.1 h.symm).2 hafter
  | case2 c r text rest hidden ih =>
    cases before with
    | nil => rfl
    | cons l before =>
      obtain ⟨rfl, htail⟩ := List.cons.inj h
      rw [List.flatMap_cons, List.append_assoc]
      show lexemes (text ++ (before.flatMap Lexeme.text ++ w)) = .hidden text :: (before ++ lexemes w)
      rw [lexemes_hidden (hiddenAt?_append hidden (hnext htail) (follows_of_lexemes_eq htail hw)),
        ih htail]
  | case3 r _ ih =>
    cases before with
    | nil => rfl
    | cons l before =>
      obtain ⟨rfl, htail⟩ := List.cons.inj h
      have hdigits : ∀ c ∈ r.takeWhile Char.isDigit, c.isDigit = true :=
        fun c hc => List.mem_takeWhile_imp hc
      have hhead : ∀ c ∈ (before.flatMap Lexeme.text ++ w).head?, ¬ c.isDigit = true := by
        intro c hc
        rcases follows_of_lexemes_eq htail hw c hc with hrest | rfl | rfl
        · have hnot := List.head?_dropWhile_not Char.isDigit r
          rw [hrest] at hnot
          simpa using hnot
        · decide
        · decide
      obtain ⟨htake, hdrop⟩ := takeWhile_dropWhile_of_head hhead
      rw [List.flatMap_cons, List.append_assoc]
      show lexemes ('?' :: (r.takeWhile Char.isDigit ++ (before.flatMap Lexeme.text ++ w))) =
        .mark (r.takeWhile Char.isDigit) :: (before ++ lexemes w)
      rw [lexemes_mark, List.takeWhile_append_of_pos hdigits, List.dropWhile_append_of_pos hdigits,
        htake, hdrop, List.append_nil, ih htail]
  | case4 c r hidden hc ih =>
    cases before with
    | nil => rfl
    | cons l before =>
      obtain ⟨rfl, htail⟩ := List.cons.inj h
      obtain ⟨hopens, hbracket, hquote⟩ := hiddenAt?_eq_none_iff.1 hidden
      have hopens' : ¬ Opens c (before.flatMap Lexeme.text ++ w) := by
        refine not_opens_of_head hopens fun d hd => ?_
        refine (follows_of_lexemes_eq htail hw d hd).imp_right ?_
        rintro (rfl | rfl) <;> decide
      rw [List.flatMap_cons, List.append_assoc]
      show lexemes (c :: (before.flatMap Lexeme.text ++ w)) = .live c :: (before ++ lexemes w)
      rw [lexemes_live (hiddenAt?_eq_none_iff.2 ⟨hopens', hbracket, hquote⟩) hc, ih htail]

theorem exists_lexemes_of_cons (h : lexemes s = l :: ls) : ∃ r, lexemes r = ls := by
  cases s with
  | nil => cases (lexemes_nil.symm.trans h)
  | cons c r =>
    rw [lexemes] at h
    split at h
    · exact ⟨_, (List.cons.inj h).2⟩
    · split at h
      · exact ⟨_, (List.cons.inj h).2⟩
      · exact ⟨_, (List.cons.inj h).2⟩

/-- The last lexemes of a text are those of the text that they make up. -/
theorem lexemes_of_append (h : lexemes s = before ++ after) :
    lexemes (after.flatMap Lexeme.text) = after := by
  induction before generalizing s with
  | nil =>
    rw [List.nil_append] at h
    rw [← h, flatMap_text_lexemes]
  | cons l before ih =>
    obtain ⟨r, hr⟩ := exists_lexemes_of_cons h
    exact ih hr

/-! ### Places -/

/-- The comments among lexemes that stand `n` characters behind the front, each with its place. -/
def commentsFrom (n : Nat) : List Sql.Lexeme → List (Nat × List Char)
  | [] => []
  | l :: ls =>
    if l.isComment then (n, l.text) :: commentsFrom (n + l.text.length) ls
    else commentsFrom (n + l.text.length) ls

/-- What the count passes over in one, each with its place. -/
def hiddenFrom (n : Nat) : List Lexeme → List (Nat × List Char)
  | [] => []
  | .hidden text :: ls => (n, text) :: hiddenFrom (n + text.length) ls
  | l :: ls => hiddenFrom (n + l.text.length) ls

/-- Each comment of the script is passed over by the count, from where it begins to where it ends. -/
def PassesComments (script : String) : Prop :=
  ∀ comment ∈ commentsFrom 0 (Sql.lexemes script.toList),
    comment ∈ hiddenFrom 0 (lexemes script.toList)

instance (script : String) : Decidable (PassesComments script) :=
  inferInstanceAs (Decidable (∀ comment ∈ commentsFrom 0 (Sql.lexemes script.toList),
    comment ∈ hiddenFrom 0 (lexemes script.toList)))

theorem le_of_mem_commentsFrom {ls : List Sql.Lexeme} (h : place ∈ commentsFrom n ls) :
    n ≤ place.1 := by
  fun_induction commentsFrom n ls with
  | case1 => cases h
  | case2 n l ls _ ih =>
    rcases List.mem_cons.1 h with rfl | h
    · exact Nat.le_refl n
    · exact Nat.le_of_add_right_le (ih h)
  | case3 n l ls _ ih => exact Nat.le_of_add_right_le (ih h)

theorem hiddenFrom_append (n : Nat) (before after : List Lexeme) :
    hiddenFrom n (before ++ after) =
      hiddenFrom n before ++ hiddenFrom (n + (before.flatMap Lexeme.text).length) after := by
  fun_induction hiddenFrom n before with
  | case1 => rfl
  | case2 n text ls ih =>
    rw [List.cons_append, hiddenFrom, ih, List.flatMap_cons, List.length_append, ← Nat.add_assoc]
    rfl
  | case3 n l ls hl ih =>
    rw [List.cons_append, hiddenFrom.eq_3 _ _ _ hl, ih, List.flatMap_cons, List.length_append,
      ← Nat.add_assoc]

theorem exists_of_mem_hiddenFrom (h : place ∈ hiddenFrom n ls) :
    ∃ before after, ls = before ++ .hidden place.2 :: after ∧
      place.1 = n + (before.flatMap Lexeme.text).length := by
  fun_induction hiddenFrom n ls with
  | case1 => cases h
  | case2 n text ls ih =>
    rcases List.mem_cons.1 h with rfl | h
    · exact ⟨[], ls, rfl, rfl⟩
    · obtain ⟨before, after, rfl, hplace⟩ := ih h
      refine ⟨.hidden text :: before, after, rfl, ?_⟩
      rw [hplace, List.flatMap_cons, List.length_append, Nat.add_assoc]
      rfl
  | case3 n l ls hl ih =>
    obtain ⟨before, after, rfl, hplace⟩ := ih h
    refine ⟨l :: before, after, rfl, ?_⟩
    rw [hplace, List.flatMap_cons, List.length_append, Nat.add_assoc]

/-- What is passed over does not go beyond the last lexeme. -/
theorem le_of_mem_hiddenFrom (h : place ∈ hiddenFrom n ls) :
    place.1 + place.2.length ≤ n + (ls.flatMap Lexeme.text).length := by
  obtain ⟨before, after, rfl, hplace⟩ := exists_of_mem_hiddenFrom h
  rw [hplace, List.flatMap_append, List.flatMap_cons, List.length_append, List.length_append]
  simp only [Lexeme.text]
  omega

/-! ### Without the comments -/

/-- The digits behind the marks of a text. -/
def markDigits (s : List Char) : List (List Char) := (marks (lexemes s)).map Prod.fst

theorem map_fst_marks_append (before after : List Lexeme) :
    (marks (before ++ after)).map Prod.fst =
      (marks before).map Prod.fst ++ (marks after).map Prod.fst := by
  fun_induction marks before with
  | case1 => rfl
  | case2 d ls ih =>
    rw [List.cons_append, marks, List.map_cons, ih]
    rfl
  | case3 l ls hl ih => rw [List.cons_append, marks.eq_3 _ _ hl, ih]

theorem count_eq_foldl_markDigits (sql : String) :
    count sql = (markDigits sql.toList).foldl following 0 := by
  rw [count, scan_eq_foldl_cuts, Utf8.ofString, cuts_encode,
    foldl_afterMark fun m hm => isDigit_of_mem_marks hm, markDigits, List.foldl_map]

/-- A text that the count passes over ends the lexemes in front of it, and behind it the rest is cut as
it would be alone. -/
theorem exists_of_place (h : (n + t.length, k) ∈ hiddenFrom n (lexemes (t ++ (k ++ rest)))) :
    ∃ before, before.flatMap Lexeme.text = t ∧
      lexemes (t ++ (k ++ rest)) = before ++ .hidden k :: lexemes rest := by
  obtain ⟨before, after, heq, hplace⟩ := exists_of_mem_hiddenFrom h
  have htext := flatMap_text_lexemes (t ++ (k ++ rest))
  rw [heq, List.flatMap_append, List.flatMap_cons] at htext
  obtain ⟨hbefore, hrest⟩ := List.append_inj htext (Nat.add_left_cancel hplace.symm)
  have hafter : after.flatMap Lexeme.text = rest := List.append_cancel_left hrest
  have hsplit : lexemes (t ++ (k ++ rest)) = (before ++ [.hidden k]) ++ after := by
    rw [heq, List.append_assoc, List.singleton_append]
  exact ⟨before, hbefore, by rw [heq, ← hafter, lexemes_of_append hsplit]⟩

/-- What is passed over behind `k` is passed over in the text there. -/
theorem mem_hiddenFrom_rest (h : (n + t.length, k) ∈ hiddenFrom n (lexemes (t ++ (k ++ rest))))
    (hk : k ≠ []) (hplace : place ∈ hiddenFrom n (lexemes (t ++ (k ++ rest))))
    (hle : n + t.length + k.length ≤ place.1) :
    place ∈ hiddenFrom (n + t.length + k.length) (lexemes rest) := by
  obtain ⟨before, hbefore, heq⟩ := exists_of_place h
  have hlength := List.length_pos_iff.2 hk
  rw [heq, hiddenFrom_append, hbefore, hiddenFrom] at hplace
  rcases List.mem_append.1 hplace with hfront | hback
  · have hends := le_of_mem_hiddenFrom hfront
    rw [hbefore] at hends
    omega
  · rcases List.mem_cons.1 hback with rfl | hback
    · dsimp only at hle
      omega
    · exact hback

/-- What stands for a comment changes no mark, neither in front of it nor behind. -/
theorem markDigits_comment {w' : List Char}
    (h : (n + t.length, k) ∈ hiddenFrom n (lexemes (t ++ (k ++ rest))))
    (hw' : w' = '\n' :: w ∨ w' = ' ' :: w ∨ w' = [] ∧ w = []) (ih : markDigits w = markDigits rest) :
    markDigits (t ++ w') = markDigits (t ++ (k ++ rest)) := by
  obtain ⟨before, rfl, heq⟩ := exists_of_place h
  have hfollows : Follows [] w' := by
    rcases hw' with rfl | rfl | ⟨rfl, -⟩
    · rintro c ⟨⟩
      exact .inr (.inl rfl)
    · rintro c ⟨⟩
      exact .inr (.inr rfl)
    · exact nofun
  have hrest : (marks (lexemes w')).map Prod.fst = markDigits w := by
    rcases hw' with rfl | rfl | ⟨rfl, rfl⟩
    · rw [lexemes_live rfl (by decide)]
      rfl
    · rw [lexemes_live rfl (by decide)]
      rfl
    · rfl
  rw [markDigits, markDigits, lexemes_append heq (List.cons_ne_nil _ _) hfollows, heq,
    map_fst_marks_append, map_fst_marks_append, hrest, ih]
  rfl

/-- If a comment and those behind it are passed over, those behind it are so in the text there. -/
theorem passes_comment {l : Sql.Lexeme} (hl : l.isComment = true)
    (h : ∀ comment ∈ commentsFrom (n + t.length) (l :: Sql.lexemes rest),
      comment ∈ hiddenFrom n (lexemes (t ++ (l.text ++ rest)))) :
    (n + t.length, l.text) ∈ hiddenFrom n (lexemes (t ++ (l.text ++ rest))) ∧
      ∀ comment ∈ commentsFrom (n + t.length + l.text.length) (Sql.lexemes rest),
        comment ∈ hiddenFrom (n + t.length + l.text.length) (lexemes rest) := by
  rw [commentsFrom, if_pos hl] at h
  obtain ⟨hplace, hbehind⟩ := List.forall_mem_cons.1 h
  have hne : l.text ≠ [] := by
    cases l with
    | line | block => exact List.cons_ne_nil _ _
    | quoted | live => cases hl
  exact ⟨hplace, fun comment hcomment =>
    mem_hiddenFrom_rest hplace hne (hbehind comment hcomment) (le_of_mem_commentsFrom hcomment)⟩

/-- Stripping leaves the marks of a text as they are, also behind a text `t` that is not stripped, if the
count passes over each comment of it. -/
theorem markDigits_stripFrom
    (h : ∀ comment ∈ commentsFrom (n + t.length) (Sql.lexemes s),
      comment ∈ hiddenFrom n (lexemes (t ++ s))) :
    markDigits (t ++ stripFrom .plain s) = markDigits (t ++ s) := by
  rw [stripFrom_eq_flatMap]
  fun_induction Sql.lexemes s generalizing n t with
  | case1 => rfl
  | case2 r ih =>
    have hs : '-' :: '-' :: r =
        (Sql.Lexeme.line (through ['\n'] r).1).text ++ (through ['\n'] r).2 := by
      rw [Sql.Lexeme.text, List.cons_append, List.cons_append, through_append]
    rw [hs] at h ⊢
    obtain ⟨hplace, hbehind⟩ := passes_comment rfl h
    refine markDigits_comment hplace ?_ (ih (t := []) hbehind)
    rw [List.flatMap_cons, Sql.Lexeme.kept]
    by_cases hends : (through ['\n'] r).1.getLast? = some '\n'
    · rw [if_pos hends]
      exact .inl rfl
    · rw [if_neg hends, through_eq_nil hends, Sql.lexemes_nil]
      exact .inr (.inr ⟨rfl, rfl⟩)
  | case3 r ih =>
    have hs : '/' :: '*' :: r =
        (Sql.Lexeme.block (through ['*', '/'] r).1).text ++ (through ['*', '/'] r).2 := by
      rw [Sql.Lexeme.text, List.cons_append, List.cons_append, through_append]
    rw [hs] at h ⊢
    obtain ⟨hplace, hbehind⟩ := passes_comment rfl h
    exact markDigits_comment hplace (.inr (.inl rfl)) (ih (t := []) hbehind)
  | case4 c r _ _ hc ih =>
    have hs : t ++ c :: r = (t ++ c :: (through [c] r).1) ++ (through [c] r).2 := by
      rw [List.append_assoc, List.cons_append, through_append]
    rw [hs] at h ⊢
    rw [List.flatMap_cons, ← List.append_assoc]
    refine ih fun comment hcomment => h comment ?_
    rw [List.length_append, ← Nat.add_assoc] at hcomment
    exact hcomment
  | case5 c r _ _ _ ih =>
    have hs : t ++ c :: r = (t ++ [c]) ++ r := by
      rw [List.append_assoc, List.singleton_append]
    rw [hs] at h ⊢
    rw [List.flatMap_cons, ← List.append_assoc]
    refine ih fun comment hcomment => h comment ?_
    rw [List.length_append, ← Nat.add_assoc] at hcomment
    exact hcomment

/-! ### Names in brackets -/

/-- The text has neither quotes nor comments in it. -/
def Plain (s : List Char) : Prop := ∀ l ∈ Sql.lexemes s, ∃ c, l = .live c

theorem commentsFrom_live (hc : Sql.isQuote c = false) (h : ¬ Opens c r) (n : Nat) :
    commentsFrom n (Sql.lexemes (c :: r)) = commentsFrom (n + 1) (Sql.lexemes r) := by
  rw [Sql.lexemes_live hc h]
  rfl

theorem Plain.of_cons (h : Plain (c :: s)) : Sql.isQuote c = false ∧ ¬ Opens c s ∧ Plain s := by
  by_cases hopens : Opens c s
  · rcases hopens with ⟨rfl, hs⟩ | ⟨rfl, hs⟩
    · obtain ⟨s, rfl⟩ := List.head?_eq_some_iff.1 hs
      obtain ⟨_, heq⟩ := h _ (by rw [Sql.lexemes]; exact List.mem_cons_self)
      cases heq
    · obtain ⟨s, rfl⟩ := List.head?_eq_some_iff.1 hs
      obtain ⟨_, heq⟩ := h _ (by rw [Sql.lexemes]; exact List.mem_cons_self)
      cases heq
  cases hc : Sql.isQuote c with
  | true =>
    obtain ⟨_, heq⟩ := h _ (by rw [lexemes_quoted hc]; exact List.mem_cons_self)
    cases heq
  | false =>
    rw [Plain, Sql.lexemes_live hc hopens] at h
    exact ⟨rfl, hopens, (List.forall_mem_cons.1 h).2⟩

theorem Plain.commentsFrom_append (h : Plain s) (hlast : r = [] ∨ s.getLast? = some ']') (n : Nat) :
    commentsFrom n (Sql.lexemes (s ++ r)) = commentsFrom (n + s.length) (Sql.lexemes r) := by
  induction s generalizing n with
  | nil => rfl
  | cons c s ih =>
    obtain ⟨hc, hopens, hs⟩ := h.of_cons
    cases s with
    | nil =>
      have hopens' : ¬ Opens c r := by
        rcases hlast with rfl | hlast
        · exact hopens
        · cases hlast
          exact not_opens_of_ne (by decide)
      exact commentsFrom_live hc hopens' n
    | cons d s =>
      have hopens' : ¬ Opens c (d :: s ++ r) := hopens
      rw [List.cons_append, commentsFrom_live hc hopens', ih hs (by simpa using hlast), Nat.add_assoc,
        Nat.add_comm 1]
      rfl

theorem commentsFrom_digits (hs : ∀ c ∈ s, c.isDigit = true) (n : Nat) :
    commentsFrom n (Sql.lexemes (s ++ r)) = commentsFrom (n + s.length) (Sql.lexemes r) := by
  induction s generalizing n with
  | nil => rfl
  | cons c s ih =>
    obtain ⟨hc, hs⟩ := List.forall_mem_cons.1 hs
    have hne : ∀ d, d.isDigit = false → c ≠ d := by
      rintro d hd rfl
      rw [hc] at hd
      cases hd
    have hquote : Sql.isQuote c = false := by
      rw [Bool.eq_false_iff]
      intro hquote
      simp only [Sql.isQuote, Bool.or_eq_true, beq_iff_eq] at hquote
      rcases hquote with (rfl | rfl) | rfl <;> cases hc
    rw [List.cons_append, commentsFrom_live hquote
      (not_opens_of_ne ⟨hne '-' (by decide), hne '/' (by decide)⟩), ih hs, Nat.add_assoc,
      Nat.add_comm 1]
    rfl

/-- A doubled quote ends one quoted text and begins the next. -/
theorem commentsFrom_closeQuote (hq : Sql.isQuote q = true) (s : List Char) (n : Nat) :
    commentsFrom (n + (through [q] s).1.length) (Sql.lexemes (through [q] s).2) =
      commentsFrom (n + (closeQuote q s).1.length) (Sql.lexemes (closeQuote q s).2) := by
  fun_induction closeQuote q s generalizing n with
  | case1 => rfl
  | case2 =>
    rw [through_singleton, if_pos rfl]
  | case3 r ih =>
    rw [through_singleton, if_pos rfl, lexemes_quoted hq]
    show commentsFrom (n + 1 + ((through [q] r).1.length + 1)) (Sql.lexemes (through [q] r).2) =
      commentsFrom (n + ((closeQuote q r).1.length + 1 + 1)) (Sql.lexemes (closeQuote q r).2)
    have hstart : n + 1 + ((through [q] r).1.length + 1) = n + 2 + (through [q] r).1.length := by omega
    rw [hstart, ih (n + 2)]
    congr 1
    omega
  | case4 c r hc => rw [through_singleton, if_pos rfl]
  | case5 c r hc ih =>
    rw [through_singleton, if_neg hc]
    show commentsFrom (n + ((through [q] r).1.length + 1)) (Sql.lexemes (through [q] r).2) =
      commentsFrom (n + ((closeQuote q r).1.length + 1)) (Sql.lexemes (closeQuote q r).2)
    rw [Nat.add_comm _ 1, ← Nat.add_assoc, ih (n + 1), Nat.add_assoc, Nat.add_comm 1]

/-- Of a text that the count passes over, stripping finds the whole to be a comment, or no comment in
it. -/
theorem commentsFrom_hidden (h : hiddenAt? s = some (text, rest))
    (hname : ∀ name, text = '[' :: name → Plain name) :
    commentsFrom n (Sql.lexemes s) = (n, text) :: commentsFrom (n + text.length) (Sql.lexemes rest) ∨
      commentsFrom n (Sql.lexemes s) = commentsFrom (n + text.length) (Sql.lexemes rest) := by
  unfold hiddenAt? at h
  split at h
  · cases h
    rw [Sql.lexemes]
    exact .inl rfl
  · cases h
    rw [Sql.lexemes]
    exact .inl rfl
  · next r =>
    cases h
    have hlast : (through [']'] r).2 = [] ∨ (through [']'] r).1.getLast? = some ']' := by
      by_cases hlast : (through [']'] r).1.getLast? = some ']'
      · exact .inr hlast
      · exact .inl (through_eq_nil hlast)
    have hplain := (hname _ rfl).commentsFrom_append hlast (n + 1)
    rw [through_append] at hplain
    right
    rw [commentsFrom_live (by decide) (not_opens_of_ne (by decide)), hplain, Nat.add_assoc,
      Nat.add_comm 1]
    rfl
  · next q r _ _ _ =>
    split at h
    · next hq =>
      cases h
      right
      rw [lexemes_quoted hq]
      show commentsFrom (n + ((through [q] r).1.length + 1)) (Sql.lexemes (through [q] r).2) =
        commentsFrom (n + ((closeQuote q r).1.length + 1)) (Sql.lexemes (closeQuote q r).2)
      rw [Nat.add_comm _ 1, ← Nat.add_assoc, commentsFrom_closeQuote hq, Nat.add_assoc, Nat.add_comm 1]
    · cases h
  · cases h

theorem commentsFrom_subset (h : ∀ name, .hidden ('[' :: name) ∈ lexemes s → Plain name) :
    commentsFrom n (Sql.lexemes s) ⊆ hiddenFrom n (lexemes s) := by
  fun_induction lexemes s generalizing n with
  | case1 =>
    rw [Sql.lexemes_nil]
    exact List.Subset.refl _
  | case2 c r text rest hidden ih =>
    have hname : ∀ name, text = '[' :: name → Plain name :=
      fun name heq => h name (heq ▸ List.mem_cons_self)
    have hrest := ih (n := n + text.length) fun name hmem => h name (List.mem_cons_of_mem _ hmem)
    rw [hiddenFrom]
    rcases commentsFrom_hidden hidden hname (n := n) with heq | heq
    · rw [heq]
      exact List.cons_subset_cons _ hrest
    · rw [heq]
      exact List.subset_cons_of_subset _ hrest
  | case3 r _ ih =>
    have hdigits := commentsFrom_digits (s := r.takeWhile Char.isDigit) (r := r.dropWhile Char.isDigit)
      (fun c hc => List.mem_takeWhile_imp hc) (n + 1)
    rw [List.takeWhile_append_dropWhile, Nat.add_assoc, Nat.add_comm 1] at hdigits
    rw [commentsFrom_live (by decide) (not_opens_of_ne (by decide)), hdigits]
    exact ih fun name hmem => h name (List.mem_cons_of_mem _ hmem)
  | case4 c r hidden hc ih =>
    obtain ⟨hopens, -, hquote⟩ := hiddenAt?_eq_none_iff.1 hidden
    rw [commentsFrom_live (Bool.eq_false_iff.2 hquote) hopens]
    exact ih fun name hmem => h name (List.mem_cons_of_mem _ hmem)

/-- Where the names in brackets have neither quotes nor comments in them, stripping and counting agree
on the comments. -/
theorem passesComments_of_names {script : String}
    (h : ∀ name, .hidden ('[' :: name) ∈ lexemes script.toList → Plain name) :
    PassesComments script :=
  commentsFrom_subset h

/-! ### Slots -/

/-- Without its comments, a script has the marks that it has with them, and as many slots. -/
theorem count_stripComments {script : String} (h : PassesComments script) :
    markDigits (stripComments script).toList = markDigits script.toList ∧
      count (stripComments script) = count script := by
  have hdigits := markDigits_stripFrom (n := 0) (t := []) h
  rw [List.nil_append, List.nil_append, ← toList_stripComments] at hdigits
  exact ⟨hdigits, by rw [count_eq_foldl_markDigits, count_eq_foldl_markDigits, hdigits]⟩

theorem count_stripComments_bracketed :
    stripComments "SELECT [a--b], ?" = "SELECT [a" ∧ count "SELECT [a--b], ?" = 1 ∧
      count (stripComments "SELECT [a--b], ?") = 0 := by
  decide +kernel

/-- Marks in live text, in quoted texts, in names in brackets and in comments. -/
def commented : String :=
  "SELECT [n?], 'it''s -- ?', ? -- \"?\n/* ' */FROM t WHERE a = ?/**/3 AND b = ?4 --?\nAND [o'clock] = ?"

theorem count_stripComments_commented :
    PassesComments commented ∧
      stripComments commented =
        "SELECT [n?], 'it''s -- ?', ? \n FROM t WHERE a = ? 3 AND b = ?4 \nAND [o'clock] = ?" ∧
      markDigits (stripComments commented).toList = [[], [], ['4'], []] ∧
      count (stripComments commented) = 5 := by
  have hpasses : PassesComments commented := by decide +kernel
  obtain ⟨hdigits, hcount⟩ := count_stripComments hpasses
  refine ⟨hpasses, by decide +kernel, hdigits.trans ?_, hcount.trans ?_⟩
  · decide +kernel
  · decide +kernel

end QueryTree.Sql.Slot
