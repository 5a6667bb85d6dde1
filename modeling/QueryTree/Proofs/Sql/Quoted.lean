import QueryTree.Sql.Comment

/-!
# The quoted texts of a script

`quotedFrom?` reads the quoted texts of a script, past its comments. A text without comments is woven
of single characters and of closed quoted texts (`Woven`), and then reading gives those
(`Woven.quotedFrom?_eq`). What is left of a script when its comments are gone is woven of its quoted
texts (`woven_stripFrom`).
-/

namespace QueryTree.Sql

/-- A character put in front of the first text. -/
def consFirst (c : Char) : List (List Char) → List (List Char)
  | [] => [[c]]
  | t :: ts => (c :: t) :: ts

/-- The quoted texts outside comments, with their quotes and in order, from inside the given region
on; none if a quote is left open. -/
def quotedFrom? : Region → List Char → Option (List (List Char))
  | .quoted _, [] => none
  | _, [] => some []
  | .quoted q, c :: r =>
    if c = q then (quotedFrom? .plain r).map ([c] :: ·)
    else (quotedFrom? (.quoted q) r).map (consFirst c)
  | .line, c :: r => if c = '\n' then quotedFrom? .plain r else quotedFrom? .line r
  | .block, '*' :: '/' :: r => quotedFrom? .plain r
  | .block, _ :: r => quotedFrom? .block r
  | .plain, '-' :: '-' :: r => quotedFrom? .line r
  | .plain, '/' :: '*' :: r => quotedFrom? .block r
  | .plain, c :: r =>
    if isQuote c then (quotedFrom? (.quoted c) r).map (consFirst c) else quotedFrom? .plain r

/-- A quote, a text without it, and the quote again. -/
def IsQuoted (t : List Char) : Prop :=
  ∃ q body, isQuote q = true ∧ q ∉ body ∧ t = q :: (body ++ [q])

/-- A comment starts at `c` in front of `s`. -/
def Opens (c : Char) (s : List Char) : Prop :=
  (c = '-' ∧ s.head? = some '-') ∨ (c = '/' ∧ s.head? = some '*')

/-- A text without comments, made of the quoted texts and of other characters. -/
inductive Woven : List Char → List (List Char) → Prop
  | nil : Woven [] []
  | live {c : Char} {s : List Char} {ts : List (List Char)} (hc : isQuote c = false)
      (hopens : ¬ Opens c s) (h : Woven s ts) : Woven (c :: s) ts
  | quoted {t s : List Char} {ts : List (List Char)} (ht : IsQuoted t) (h : Woven s ts) :
      Woven (t ++ s) (t :: ts)

variable {c q : Char} {s s' body : List Char} {ts : List (List Char)}

/-! ### Characters -/

theorem ne_of_isQuote (h : isQuote c = true) : c ≠ '-' ∧ c ≠ '/' := by
  constructor <;> rintro rfl <;> exact absurd h (by decide)

theorem not_opens_of_ne (h : c ≠ '-' ∧ c ≠ '/') : ¬ Opens c s := by
  rintro (⟨rfl, -⟩ | ⟨rfl, -⟩)
  · exact h.1 rfl
  · exact h.2 rfl

/-- No comment starts where neither row for one matches. -/
theorem not_opens_of_forall (hline : ∀ r, c = '-' → s = '-' :: r → False)
    (hblock : ∀ r, c = '/' → s = '*' :: r → False) : ¬ Opens c s := by
  rintro (⟨rfl, hd⟩ | ⟨rfl, hd⟩)
  · obtain ⟨r, rfl⟩ := List.head?_eq_some_iff.1 hd
    exact hline r rfl rfl
  · obtain ⟨r, rfl⟩ := List.head?_eq_some_iff.1 hd
    exact hblock r rfl rfl

/-- No comment starts in front of a text that begins like another one, or in a way that starts none. -/
theorem not_opens_of_head (h : ¬ Opens c s)
    (hs : ∀ d ∈ s'.head?, s.head? = some d ∨ d ≠ '-' ∧ d ≠ '*') : ¬ Opens c s' := by
  rintro (⟨rfl, hd⟩ | ⟨rfl, hd⟩)
  · rcases hs _ hd with heq | ⟨hne, -⟩
    · exact h (.inl ⟨rfl, heq⟩)
    · exact hne rfl
  · rcases hs _ hd with heq | ⟨-, hne⟩
    · exact h (.inr ⟨rfl, heq⟩)
    · exact hne rfl

theorem quotedFrom?_cons (h : ¬ Opens c s) :
    quotedFrom? .plain (c :: s) =
      if isQuote c then (quotedFrom? (.quoted c) s).map (consFirst c) else quotedFrom? .plain s := by
  rw [quotedFrom?]
  · rintro r rfl rfl
    exact h (.inl ⟨rfl, rfl⟩)
  · rintro r rfl rfl
    exact h (.inr ⟨rfl, rfl⟩)

theorem stripFrom_cons (h : ¬ Opens c s) :
    stripFrom .plain (c :: s) =
      c :: stripFrom (if isQuote c then .quoted c else .plain) s := by
  rw [stripFrom]
  · rintro r rfl rfl
    exact h (.inl ⟨rfl, rfl⟩)
  · rintro r rfl rfl
    exact h (.inr ⟨rfl, rfl⟩)

/-! ### Reading -/

theorem quotedFrom?_quoted (h : q ∉ body) :
    quotedFrom? (.quoted q) (body ++ q :: s) = (quotedFrom? .plain s).map ((body ++ [q]) :: ·) := by
  induction body with
  | nil => rw [List.nil_append, quotedFrom?, if_pos rfl]; rfl
  | cons c body ih =>
    obtain ⟨hne, hbody⟩ := List.ne_and_not_mem_of_not_mem_cons h
    rw [List.cons_append, quotedFrom?, if_neg (Ne.symm hne), ih hbody, Option.map_map]
    rfl

theorem quotedFrom?_append (h : IsQuoted body) :
    quotedFrom? .plain (body ++ s) = (quotedFrom? .plain s).map (body :: ·) := by
  obtain ⟨q, body, hq, hbody, rfl⟩ := h
  rw [List.cons_append, quotedFrom?_cons (not_opens_of_ne (ne_of_isQuote hq)), if_pos hq,
    List.append_assoc, List.singleton_append, quotedFrom?_quoted hbody, Option.map_map]
  rfl

theorem Woven.quotedFrom?_eq (h : Woven s ts) : quotedFrom? .plain s = some ts := by
  induction h with
  | nil => rfl
  | live hc hopens h ih => rw [quotedFrom?_cons hopens, if_neg (by simp [hc]), ih]
  | quoted ht h ih => rw [quotedFrom?_append ht, ih, Option.map_some]

/-! ### Without comments -/

theorem head_stripFrom_line (s : List Char) : ∀ d ∈ (stripFrom .line s).head?, d = '\n' := by
  induction s with
  | nil => exact nofun
  | cons c s ih =>
    rw [stripFrom]
    split
    · next hc => rintro d ⟨⟩; exact hc
    · exact ih

theorem head_stripFrom (s : List Char) :
    ∀ d ∈ (stripFrom .plain s).head?, s.head? = some d ∨ d ≠ '-' ∧ d ≠ '*' := by
  intro d hd
  cases s with
  | nil => cases hd
  | cons c s =>
    by_cases hopens : Opens c s
    · right
      rcases hopens with ⟨rfl, hs⟩ | ⟨rfl, hs⟩
      · obtain ⟨r, rfl⟩ := List.head?_eq_some_iff.1 hs
        rw [stripFrom] at hd
        rw [head_stripFrom_line r d hd]
        decide
      · obtain ⟨r, rfl⟩ := List.head?_eq_some_iff.1 hs
        rw [stripFrom] at hd
        cases hd
        decide
    · rw [stripFrom_cons hopens] at hd
      exact .inl hd

/-- What is left of a script holds the texts, from inside the given region on. -/
def Continues : Region → List Char → List (List Char) → Prop
  | .quoted q, s, ts => ∃ body s' ts', s = body ++ q :: s' ∧ q ∉ body ∧ ts = (body ++ [q]) :: ts' ∧
      Woven s' ts'
  | _, s, ts => Woven s ts

theorem continues_stripFrom {region : Region} (h : quotedFrom? region s = some ts) :
    Continues region (stripFrom region s) ts := by
  -- both functions read the script in the same cases, so those of the reader are enough
  fun_induction quotedFrom? region s generalizing ts with
  | case1 q => cases h
  | case2 region hquoted =>
    cases h
    cases region with
    | quoted q => exact absurd rfl (hquoted q)
    | plain | line | block => exact Woven.nil
  | case3 q r ih =>
    obtain ⟨us, hus, rfl⟩ := Option.map_eq_some_iff.1 h
    rw [stripFrom, if_pos rfl]
    exact ⟨[], _, us, rfl, List.not_mem_nil, rfl, ih hus⟩
  | case4 q c r hne ih =>
    obtain ⟨us, hus, rfl⟩ := Option.map_eq_some_iff.1 h
    obtain ⟨body, s', vs, hs', hbody, rfl, hwoven⟩ := ih hus
    rw [stripFrom, if_neg hne, hs']
    refine ⟨c :: body, s', vs, rfl, fun hmem => ?_, rfl, hwoven⟩
    rcases List.mem_cons.1 hmem with heq | hmem
    · exact hne heq.symm
    · exact hbody hmem
  | case5 r ih =>
    rw [stripFrom, if_pos rfl]
    exact .live (by decide) (not_opens_of_ne (by decide)) (ih h)
  | case6 c r hne ih =>
    rw [stripFrom, if_neg hne]
    exact ih h
  | case7 r ih =>
    rw [stripFrom]
    exact ih h
  | case8 c r hends ih =>
    rw [stripFrom]
    · exact ih h
    · exact hends
  | case9 r ih =>
    rw [stripFrom]
    exact ih h
  | case10 r ih =>
    rw [stripFrom]
    exact .live (by decide) (not_opens_of_ne (by decide)) (ih h)
  | case11 c r _ _ hc ih =>
    obtain ⟨us, hus, rfl⟩ := Option.map_eq_some_iff.1 h
    obtain ⟨body, s', vs, hs', hbody, rfl, hwoven⟩ := ih hus
    rw [stripFrom_cons (not_opens_of_ne (ne_of_isQuote hc)), if_pos hc, hs']
    have ht : IsQuoted (c :: (body ++ [c])) := ⟨c, body, hc, hbody, rfl⟩
    have hall := Woven.quoted ht hwoven
    rw [List.cons_append, List.append_assoc] at hall
    exact hall
  | case12 c r hline hblock hc ih =>
    have hopens := not_opens_of_forall hline hblock
    rw [stripFrom_cons hopens, if_neg hc]
    exact .live (Bool.not_eq_true _ ▸ hc) (not_opens_of_head hopens (head_stripFrom r)) (ih h)

/-- A script whose quotes are all closed is, without its comments, woven of its quoted texts. -/
theorem woven_stripFrom (h : quotedFrom? .plain s = some ts) : Woven (stripFrom .plain s) ts :=
  continues_stripFrom h

end QueryTree.Sql
