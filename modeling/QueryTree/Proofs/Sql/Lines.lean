import QueryTree.Proofs.Sql.Quoted
import QueryTree.Proofs.Text.Blank
import QueryTree.Proofs.Text.Split
import QueryTree.Sql.Schema

/-!
# Lines of a script

A script loses the blanks at the ends of its lines and its blank lines. `tidyFrom` does so in one pass
over the characters (`normalizeChars_eq`). The pass does not know of quotes: what it makes of a woven
text is woven of the quoted texts with their own lines tidied (`Woven.tidyFrom`).
-/

namespace QueryTree.Sql

open Text (isBlank)

variable {c d q : Char} {s r : List Char} {ts : List (List Char)} {started : Bool}

/-- Nothing but blanks is left of the line. -/
def blankLine : List Char → Bool
  | [] => true
  | c :: r => c == '\n' || (isBlank c && blankLine r)

/-- A text without the blanks at the ends of its lines and without its blank lines; `started` says
that a visible character comes before it. -/
def tidyFrom (started : Bool) : List Char → List Char
  | [] => []
  | c :: r =>
    if isBlank c && (blankLine r || (c == '\n' && !started)) then tidyFrom started r
    else c :: tidyFrom (started || !isBlank c) r

theorem tidyFrom_cons_of_visible (hc : isBlank c = false) (started : Bool) (s : List Char) :
    tidyFrom started (c :: s) = c :: tidyFrom true s := by
  rw [tidyFrom, hc, Bool.false_and, if_neg Bool.false_ne_true, Bool.not_false, Bool.or_true]

theorem tidyFrom_cons_of_ne (hc : c ≠ '\n') (started : Bool) (s : List Char) :
    tidyFrom started (c :: s) =
      if isBlank c && blankLine s then tidyFrom started s
      else c :: tidyFrom (started || !isBlank c) s := by
  rw [tidyFrom, beq_false_of_ne hc, Bool.false_and, Bool.or_false]

theorem tidyFrom_newline (started : Bool) (s : List Char) :
    tidyFrom started ('\n' :: s) =
      if blankLine s || !started then tidyFrom started s else '\n' :: tidyFrom started s := by
  have hblank : isBlank '\n' = true := by decide
  rw [tidyFrom, hblank, Bool.true_and, beq_self_eq_true, Bool.true_and, Bool.not_true, Bool.or_false]

/-! ### Line by line -/

/-- The lines that are kept. -/
def keptLines (lines : List (List Char)) : List (List Char) :=
  (lines.map Text.trimEnd).filter fun line => !line.isEmpty

theorem keptLines_cons_of_blank {line : List Char} (h : Text.trimEnd line = [])
    (lines : List (List Char)) : keptLines (line :: lines) = keptLines lines := by
  rw [keptLines, List.map_cons, h]
  rfl

theorem keptLines_cons {line : List Char} (h : Text.trimEnd line ≠ [])
    (lines : List (List Char)) :
    keptLines (line :: lines) = Text.trimEnd line :: keptLines lines := by
  rw [keptLines, List.map_cons, List.filter_cons_of_pos (by simpa using h)]
  rfl

theorem joinWith_cons_eq_flatMap (line : List Char) (lines : List (List Char)) :
    Text.joinWith ['\n'] (line :: lines) = line ++ lines.flatMap ('\n' :: ·) := by
  induction lines generalizing line with
  | nil => rw [Text.joinWith, List.flatMap_nil, List.append_nil]
  | cons line' lines ih =>
    rw [Text.joinWith, ih, List.flatMap_cons, List.append_assoc]
    rfl

/-- What the pass makes of a text with the given first line and the given lines behind it. -/
structure Tidies (s line : List Char) (lines : List (List Char)) : Prop where
  blank : blankLine s = (Text.trimEnd line).isEmpty
  started : tidyFrom true s = Text.trimEnd line ++ (keptLines lines).flatMap ('\n' :: ·)
  fresh : tidyFrom false s = Text.joinWith ['\n'] (keptLines (line :: lines))

variable {line next : List Char} {lines : List (List Char)}

theorem Tidies.newline (h : Tidies s next lines) : Tidies ('\n' :: s) [] (next :: lines) where
  blank := rfl
  started := by
    rw [tidyFrom_newline, h.blank, h.started, Bool.not_true, Bool.or_false]
    by_cases hnext : Text.trimEnd next = []
    · rw [keptLines_cons_of_blank hnext, hnext]
      rfl
    · rw [keptLines_cons hnext, if_neg (by simpa using hnext), List.flatMap_cons]
      rfl
  fresh := by
    rw [tidyFrom_newline, Bool.not_false, Bool.or_true, if_pos rfl, h.fresh,
      keptLines_cons_of_blank (show Text.trimEnd [] = [] from rfl)]

/-- A blank in front of blanks is at the end of its line. -/
theorem Tidies.dropped (h : Tidies s line lines) (hc : c ≠ '\n')
    (hdrop : isBlank c = true ∧ Text.trimEnd line = []) : Tidies (c :: s) (c :: line) lines := by
  have hcons : Text.trimEnd (c :: line) = [] := by
    rw [Text.trimEnd_cons, hdrop.1, hdrop.2]
    rfl
  have hblank : (isBlank c && blankLine s) = true := by
    rw [hdrop.1, h.blank, hdrop.2]
    rfl
  refine ⟨?_, ?_, ?_⟩
  · rw [blankLine, hblank, hcons, Bool.or_true]
    rfl
  · rw [tidyFrom_cons_of_ne hc, if_pos hblank, h.started, hcons, hdrop.2]
  · rw [tidyFrom_cons_of_ne hc, if_pos hblank, h.fresh, keptLines_cons_of_blank hcons,
      keptLines_cons_of_blank hdrop.2]

theorem Tidies.kept (h : Tidies s line lines) (hc : c ≠ '\n')
    (hkept : ¬ (isBlank c = true ∧ Text.trimEnd line = [])) : Tidies (c :: s) (c :: line) lines := by
  have hblank : (isBlank c && blankLine s) = false := by
    rw [h.blank, ← Bool.not_eq_true, Bool.and_eq_true, List.isEmpty_iff]
    exact hkept
  have hcons : Text.trimEnd (c :: line) = c :: Text.trimEnd line := by
    rw [Text.trimEnd_cons, if_neg]
    rwa [Bool.and_eq_true, List.isEmpty_iff, and_comm]
  refine ⟨?_, ?_, ?_⟩
  · rw [blankLine, hblank, hcons, beq_false_of_ne hc]
    rfl
  · rw [tidyFrom_cons_of_ne hc, hblank, if_neg Bool.false_ne_true, Bool.true_or, h.started, hcons]
    rfl
  · rw [tidyFrom_cons_of_ne hc, hblank, if_neg Bool.false_ne_true, Bool.false_or,
      keptLines_cons (by simp [hcons]), hcons, joinWith_cons_eq_flatMap]
    cases hvisible : isBlank c with
    | false => rw [Bool.not_false, h.started]; rfl
    | true =>
      have hline : Text.trimEnd line ≠ [] := fun hnil => hkept ⟨hvisible, hnil⟩
      rw [Bool.not_true, h.fresh, keptLines_cons hline, joinWith_cons_eq_flatMap]
      rfl

theorem tidies_of_splitBy (h : Text.splitBy (· == '\n') s = line :: lines) :
    Tidies s line lines := by
  -- `Tidies` says how the pass goes on at the start of a script and later, since each needs the other
  induction s generalizing line lines with
  | nil =>
    obtain ⟨rfl, rfl⟩ := List.cons.inj h
    exact ⟨rfl, rfl, rfl⟩
  | cons c s ih =>
    by_cases hc : c = '\n'
    · subst hc
      rw [Text.splitBy, if_pos (by decide)] at h
      obtain ⟨rfl, hs⟩ := List.cons.inj h
      obtain ⟨next, rest, rfl⟩ := List.exists_cons_of_ne_nil (hs ▸ Text.splitBy_ne_nil _ s)
      exact (ih hs).newline
    · obtain ⟨line', lines', hs, hcons⟩ := Text.splitBy_cons_of_neg (p := (· == '\n')) (r := s)
        (beq_false_of_ne hc)
      obtain ⟨rfl, rfl⟩ := List.cons.inj (h.symm.trans hcons)
      by_cases hdrop : isBlank c = true ∧ Text.trimEnd line' = []
      · exact (ih hs).dropped hc hdrop
      · exact (ih hs).kept hc hdrop

theorem normalizeChars_eq (script : List Char) :
    normalizeChars script = tidyFrom false (stripFrom .plain script) := by
  obtain ⟨line, lines, hlines⟩ := List.exists_cons_of_ne_nil
    (Text.splitBy_ne_nil (· == '\n') (stripFrom .plain script))
  rw [normalizeChars, (tidies_of_splitBy hlines).fresh, hlines]
  rfl

/-! ### Quoted texts -/

theorem isBlank_of_isQuote (h : isQuote c = true) : isBlank c = false := by
  simp only [isQuote, Bool.or_eq_true, beq_iff_eq] at h
  rcases h with (rfl | rfl) | rfl <;> decide

theorem ne_of_isBlank (h : isBlank c = true) : c ≠ '-' ∧ c ≠ '*' ∧ c ≠ '/' := by
  refine ⟨?_, ?_, ?_⟩ <;> rintro rfl <;> exact absurd h (by decide)

theorem blankLine_append (hc : isBlank c = false) (r s : List Char) :
    blankLine (r ++ c :: s) = blankLine (r ++ [c]) := by
  induction r with
  | nil => simp [blankLine, hc]
  | cons d r ih => rw [List.cons_append, blankLine, ih, List.cons_append, blankLine]

/-- What comes before a visible character is tidied whatever comes behind it. -/
theorem tidyFrom_append (hc : isBlank c = false) (started : Bool) (r : List Char) :
    ∃ r', (∀ s, tidyFrom started (r ++ c :: s) = r' ++ c :: tidyFrom true s) ∧ ∀ d ∈ r', d ∈ r := by
  induction r generalizing started with
  | nil => exact ⟨[], fun s => tidyFrom_cons_of_visible hc started s, nofun⟩
  | cons e r ih =>
    by_cases hdrop : isBlank e && (blankLine (r ++ [c]) || (e == '\n' && !started))
    · obtain ⟨r', hr', hmem⟩ := ih started
      refine ⟨r', fun s => ?_, fun d hd => List.mem_cons_of_mem e (hmem d hd)⟩
      rw [List.cons_append, tidyFrom, blankLine_append hc, if_pos hdrop, hr']
    · obtain ⟨r', hr', hmem⟩ := ih (started || !isBlank e)
      refine ⟨e :: r', fun s => ?_, fun d hd => ?_⟩
      · rw [List.cons_append, tidyFrom, blankLine_append hc, if_neg hdrop, hr', List.cons_append]
      · exact (List.mem_cons.1 hd).elim (fun heq => heq ▸ List.mem_cons_self)
          fun hd => List.mem_cons_of_mem e (hmem d hd)

theorem tidyFrom_quoted {t : List Char} (ht : IsQuoted t) :
    IsQuoted (tidyFrom false t) ∧
      ∀ started s, tidyFrom started (t ++ s) = tidyFrom false t ++ tidyFrom true s := by
  obtain ⟨q, body, hq, hbody, rfl⟩ := ht
  have hvisible := isBlank_of_isQuote hq
  obtain ⟨body', hbody', hmem⟩ := tidyFrom_append hvisible true body
  have halone : tidyFrom false (q :: (body ++ [q])) = q :: (body' ++ [q]) := by
    rw [tidyFrom_cons_of_visible hvisible, hbody']
    rfl
  refine ⟨⟨q, body', hq, fun h => hbody (hmem q h), halone⟩, fun started s => ?_⟩
  rw [halone, List.cons_append, tidyFrom_cons_of_visible hvisible, List.append_assoc,
    List.singleton_append, hbody', List.cons_append, List.append_assoc, List.singleton_append]

theorem head_tidyFrom_of_blankLine (h : blankLine s = true) :
    ∀ d ∈ (tidyFrom true s).head?, d = '\n' := by
  induction s with
  | nil => exact nofun
  | cons c s ih =>
    by_cases hc : c = '\n'
    · subst hc
      rw [tidyFrom_newline, Bool.not_true, Bool.or_false]
      split
      · next hblank => exact ih hblank
      · rintro d ⟨⟩
        rfl
    · rw [blankLine, beq_false_of_ne hc, Bool.false_or] at h
      rw [tidyFrom_cons_of_ne hc, if_pos h]
      exact ih (Bool.and_eq_true_iff.1 h).2

/-- Behind a visible character, a text begins as before or with a line end. -/
theorem head_tidyFrom (s : List Char) :
    ∀ d ∈ (tidyFrom true s).head?, s.head? = some d ∨ d ≠ '-' ∧ d ≠ '*' := by
  intro d hd
  cases s with
  | nil => cases hd
  | cons c s =>
    rw [tidyFrom, Bool.not_true, Bool.and_false, Bool.or_false] at hd
    split at hd
    · next hdrop =>
      rw [head_tidyFrom_of_blankLine (Bool.and_eq_true_iff.1 hdrop).2 d hd]
      exact .inr (by decide)
    · exact .inl hd

theorem Woven.tidyFrom (h : Woven s ts) (started : Bool) :
    Woven (tidyFrom started s) (ts.map (Sql.tidyFrom false)) := by
  induction h generalizing started with
  | nil => exact .nil
  | @live c s ts hc hopens h ih =>
    rw [Sql.tidyFrom]
    split
    · exact ih started
    · refine .live hc ?_ (ih _)
      cases hblank : isBlank c with
      | false =>
        rw [Bool.not_false, Bool.or_true]
        exact not_opens_of_head hopens (head_tidyFrom s)
      | true => exact not_opens_of_ne ⟨(ne_of_isBlank hblank).1, (ne_of_isBlank hblank).2.2⟩
  | quoted ht h ih =>
    obtain ⟨hquoted, happend⟩ := tidyFrom_quoted ht
    rw [happend]
    exact .quoted hquoted (ih true)

end QueryTree.Sql
