import QueryTree.Proofs.Sql.Comments
import QueryTree.Proofs.Sql.Lines

/-!
# Normal scripts

A script in normal form has no comments, no blank lines and no blanks at the ends of its lines
(`Normal`). Those are the scripts that normalizing leaves as they are (`normalizeChars_eq_self_iff`), and
normalizing leads to them. Lines are tidied without regard to quotes, which moves no quote and brings no
two characters together that open a comment (`Uncommented.tidyFrom`).
-/

namespace QueryTree.Sql

open Slot (through)
open Text (isBlank)

variable {c q : Char} {s line : List Char} {lines : List (List Char)}

/-- The lines of a text; the empty text has none. -/
def linesOf (s : List Char) : List (List Char) :=
  if s.isEmpty then [] else Text.splitBy (· == '\n') s

structure Normal (s : List Char) : Prop where
  /-- No line is blank. -/
  shown : ∀ line ∈ linesOf s, Text.allBlank line = false
  /-- No line ends in a blank. -/
  tight : ∀ line ∈ linesOf s, ∀ c ∈ line.getLast?, isBlank c = false
  /-- There is no comment outside quoted text. -/
  uncommented : ∀ l ∈ lexemes s, l.isComment = false

/-! ### Lines -/

theorem not_allBlank_of_getLast? (hne : s ≠ []) (h : ∀ c ∈ s.getLast?, isBlank c = false) :
    Text.allBlank s = false := by
  rw [Text.allBlank, List.all_eq_false]
  refine ⟨s.getLast hne, List.getLast_mem hne, ?_⟩
  simp [h _ (List.getLast?_eq_some_getLast hne)]

theorem mem_keptLines (h : line ∈ keptLines lines) :
    line ≠ [] ∧ ∃ whole ∈ lines, line = Text.trimEnd whole := by
  obtain ⟨hmap, hne⟩ := List.mem_filter.1 h
  obtain ⟨whole, hwhole, rfl⟩ := List.mem_map.1 hmap
  exact ⟨by simpa using hne, whole, hwhole, rfl⟩

theorem keptLines_of_tight (h : ∀ line ∈ lines, line ≠ [] ∧ Text.trimEnd line = line) :
    keptLines lines = lines := by
  have hmap : lines.map Text.trimEnd = lines := by
    conv_rhs => rw [← List.map_id lines]
    exact List.map_congr_left fun line hline => (h line hline).2
  rw [keptLines, hmap, List.filter_eq_self]
  intro line hline
  simpa using (h line hline).1

theorem linesOf_joinWith (hne : ∀ line ∈ lines, line ≠ []) (hend : ∀ line ∈ lines, '\n' ∉ line) :
    linesOf (Text.joinWith ['\n'] lines) = lines := by
  cases lines with
  | nil => rfl
  | cons line lines =>
    have hjoin : Text.joinWith ['\n'] (line :: lines) ≠ [] := by
      rw [joinWith_cons_eq_flatMap]
      simp [hne line]
    have hsplit : ∀ piece ∈ line :: lines, ∀ c ∈ piece, (c == '\n') = false := by
      rintro piece hpiece c hc
      rw [beq_eq_false_iff_ne]
      rintro rfl
      exact hend piece hpiece hc
    rw [linesOf, if_neg (by simpa using hjoin), Text.splitBy_joinWith (List.cons_ne_nil _ _) hsplit rfl]

/-! ### Quotes -/

theorem mem_of_mem_tidyFrom {started : Bool} (h : c ∈ tidyFrom started s) : c ∈ s := by
  induction s generalizing started with
  | nil => exact h
  | cons d s ih =>
    rw [tidyFrom] at h
    split at h
    · exact List.mem_cons_of_mem d (ih h)
    · exact (List.mem_cons.1 h).elim (fun heq => heq ▸ List.mem_cons_self)
        fun h => List.mem_cons_of_mem d (ih h)

theorem through_of_not_mem (h : q ∉ s) : through [q] s = (s, []) := by
  induction s with
  | nil => rfl
  | cons c s ih =>
    obtain ⟨hne, hs⟩ := List.ne_and_not_mem_of_not_mem_cons h
    rw [through_singleton, if_neg hne.symm, ih hs]

theorem through_append_cons (h : q ∉ s) (rest : List Char) :
    through [q] (s ++ q :: rest) = (s ++ [q], rest) := by
  induction s with
  | nil => rw [List.nil_append, through_singleton, if_pos rfl, List.nil_append]
  | cons c s ih =>
    obtain ⟨hne, hs⟩ := List.ne_and_not_mem_of_not_mem_cons h
    rw [List.cons_append, through_singleton, if_neg hne.symm, ih hs, List.cons_append]

/-- A visible mark is found at the same place of a text whose lines are tidied. -/
theorem through_tidyFrom (hq : isBlank q = false) (s : List Char) :
    (through [q] (tidyFrom true s)).2 = tidyFrom true (through [q] s).2 := by
  by_cases hmem : q ∈ s
  · obtain ⟨body, rest, rfl, hbody⟩ := List.eq_append_cons_of_mem hmem
    obtain ⟨body', hbody', hsub⟩ := tidyFrom_append hq true body
    rw [hbody', through_append_cons hbody, through_append_cons fun h => hbody (hsub q h)]
  · rw [through_of_not_mem hmem, through_of_not_mem fun h => hmem (mem_of_mem_tidyFrom h)]
    rfl

/-! ### Comments -/

theorem uncommented_live (hc : isQuote c = false) (h : ¬ Opens c s) :
    Uncommented (c :: s) ↔ Uncommented s := by
  simp [Uncommented, lexemes_live hc h, Lexeme.isComment]

theorem uncommented_quoted (hq : isQuote q = true) (s : List Char) :
    Uncommented (q :: s) ↔ Uncommented (through [q] s).2 := by
  simp [Uncommented, lexemes_quoted hq, Lexeme.isComment]

theorem Uncommented.tidyFrom (h : Uncommented s) (started : Bool) :
    Uncommented (Sql.tidyFrom started s) := by
  unfold Uncommented at h
  fun_induction lexemes s generalizing started with
  | case1 => exact uncommented_stripFrom []
  | case2 r ih | case3 r ih => simp [Lexeme.isComment] at h
  | case4 c r _ _ hc ih =>
    have hvisible := isBlank_of_isQuote hc
    rw [tidyFrom_cons_of_visible hvisible, uncommented_quoted hc, through_tidyFrom hvisible]
    exact ih (fun l hl => h l (List.mem_cons_of_mem _ hl)) true
  | case5 c r hline hblock hc ih =>
    have hopens := not_opens_of_forall hline hblock
    have hr : ∀ l ∈ lexemes r, l.isComment = false := fun l hl => h l (List.mem_cons_of_mem _ hl)
    rw [Bool.not_eq_true] at hc
    rw [Sql.tidyFrom]
    split
    · exact ih hr started
    · have hnext : ¬ Opens c (Sql.tidyFrom (started || !isBlank c) r) := by
        cases hblank : isBlank c with
        | false =>
          rw [Bool.not_false, Bool.or_true]
          exact not_opens_of_head hopens (head_tidyFrom r)
        | true => exact not_opens_of_ne ⟨(ne_of_isBlank hblank).1, (ne_of_isBlank hblank).2.2⟩
      exact (uncommented_live hc hnext).2 (ih hr _)

/-! ### Normal form -/

theorem normalizeChars_eq_joinWith (s : List Char) :
    normalizeChars s =
      Text.joinWith ['\n'] (keptLines (Text.splitBy (· == '\n') (stripFrom .plain s))) := rfl

theorem linesOf_normalizeChars (s : List Char) :
    linesOf (normalizeChars s) = keptLines (Text.splitBy (· == '\n') (stripFrom .plain s)) := by
  rw [normalizeChars_eq_joinWith, linesOf_joinWith]
  · exact fun line hline => (mem_keptLines hline).1
  · rintro line hline hmem
    obtain ⟨-, whole, hwhole, rfl⟩ := mem_keptLines hline
    have hend := (Text.mem_of_mem_splitBy hwhole (Text.mem_of_mem_trimEnd hmem)).2
    exact absurd hend (by decide)

theorem normal_normalizeChars (s : List Char) : Normal (normalizeChars s) where
  shown line hline := by
    rw [linesOf_normalizeChars] at hline
    obtain ⟨hne, whole, -, rfl⟩ := mem_keptLines hline
    exact not_allBlank_of_getLast? hne (Text.isBlank_getLast?_trimEnd whole)
  tight line hline := by
    rw [linesOf_normalizeChars] at hline
    obtain ⟨-, whole, -, rfl⟩ := mem_keptLines hline
    exact Text.isBlank_getLast?_trimEnd whole
  uncommented := by
    rw [normalizeChars_eq]
    exact (uncommented_stripFrom s).tidyFrom false

theorem Normal.normalizeChars_eq_self (h : Normal s) : normalizeChars s = s := by
  rw [normalizeChars_eq_joinWith, Uncommented.stripFrom_eq h.uncommented]
  by_cases hs : s = []
  · rw [hs]
    rfl
  · have hlines : linesOf s = Text.splitBy (· == '\n') s := by
      rw [linesOf, if_neg (by simpa using hs)]
    rw [keptLines_of_tight, Text.joinWith_splitBy]
    intro line hline
    rw [← hlines] at hline
    refine ⟨?_, Text.trimEnd_of_getLast? (h.tight line hline)⟩
    rintro rfl
    exact absurd (h.shown [] hline) (by decide)

/-- The scripts in normal form are those that normalizing leaves as they are. -/
theorem normalizeChars_eq_self_iff : normalizeChars s = s ↔ Normal s :=
  ⟨fun h => h ▸ normal_normalizeChars s, Normal.normalizeChars_eq_self⟩

theorem withoutBlanks_tidyFrom (started : Bool) (s : List Char) :
    Text.withoutBlanks (tidyFrom started s) = Text.withoutBlanks s := by
  induction s generalizing started with
  | nil => rfl
  | cons c s ih =>
    rw [tidyFrom]
    split
    · next hdrop => rw [ih, Text.withoutBlanks_of_blank (Bool.and_eq_true_iff.1 hdrop).1]
    · exact Text.withoutBlanks_congr_cons c (ih _)

/-- Normalizing leads to a normal form, which it leaves as it is; outside comments nothing but blanks is
lost on the way. -/
theorem normalizeSchema_normal (script : String) :
    Normal (normalizeSchema script).toList ∧
      normalizeSchema (normalizeSchema script) = normalizeSchema script ∧
      Text.withoutBlanks (normalizeSchema script).toList =
        Text.withoutBlanks (stripComments script).toList := by
  have hlist : (normalizeSchema script).toList = normalizeChars script.toList := by
    rw [normalizeSchema, String.toList_ofList]
  have hnormal := normal_normalizeChars script.toList
  have hagain : normalizeSchema (normalizeSchema script) = normalizeSchema script := by
    rw [normalizeSchema, hlist, hnormal.normalizeChars_eq_self, normalizeSchema]
  rw [hlist, toList_stripComments]
  refine ⟨hnormal, hagain, ?_⟩
  rw [normalizeChars_eq, withoutBlanks_tidyFrom]

end QueryTree.Sql
