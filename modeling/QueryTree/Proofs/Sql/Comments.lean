import Mathlib.Data.List.Basic
import QueryTree.Proofs.Sql.Quoted
import QueryTree.Proofs.Sql.Slots
import QueryTree.Proofs.Text.Split

/-!
# What a script loses with its comments

`lexemes` cuts a script into quoted texts, comments and single characters, each quoted text and comment
through the mark that ends it or, where nothing does, up to the end. Stripping leaves of each lexeme
what `Lexeme.kept` says (`stripFrom_eq_flatMap`), and what is left is cut at the same places
(`lexemes_stripFrom`): taking a comment out brings no two characters together that open another one.
-/

namespace QueryTree.Sql

open Slot (through)

/-- What a script is made of. -/
inductive Lexeme where
  /-- A quoted text with its quotes. -/
  | quoted (text : List Char)
  /-- Two dashes, and this up to the end of the line. -/
  | line (body : List Char)
  /-- A slash with a star, and this up to a star with a slash. -/
  | block (body : List Char)
  | live (c : Char)
  deriving DecidableEq, Repr

namespace Lexeme

def text : Lexeme → List Char
  | quoted s => s
  | line s => '-' :: '-' :: s
  | block s => '/' :: '*' :: s
  | live c => [c]

def isComment : Lexeme → Bool
  | line _ | block _ => true
  | _ => false

/-- What stands for the lexeme when comments are gone: the end of its line for a line comment, if it
has one, a space for a block comment, and everything else as it is. -/
def kept : Lexeme → List Char
  | line s => if s.getLast? = some '\n' then ['\n'] else []
  | block _ => [' ']
  | l => l.text

def quotedTexts : Lexeme → List (List Char)
  | quoted s => [s]
  | _ => []

end Lexeme

variable {c d q : Char} {s t mark rest : List Char} {l : Lexeme}

/-! ### Up to a mark -/

theorem through_of_after? (h : Text.after? mark (c :: s) = some rest) :
    through mark (c :: s) = (mark, rest) := by
  simp [through, Text.breakOn, h]

theorem through_of_after?_eq_none (h : Text.after? mark (c :: s) = none) :
    through mark (c :: s) = (c :: (through mark s).1, (through mark s).2) := by
  simp only [through, Text.breakOn, h]
  cases Text.breakOn mark s <;> rfl

theorem through_singleton (q c : Char) (s : List Char) :
    through [q] (c :: s) =
      if c = q then ([q], s) else (c :: (through [q] s).1, (through [q] s).2) := by
  by_cases hc : c = q
  · have hmark : Text.after? [q] (c :: s) = some s := by simp [Text.after?, hc]
    rw [if_pos hc, through_of_after? hmark]
  · have hmark : Text.after? [q] (c :: s) = none := by simp [Text.after?, hc]
    rw [if_neg hc, through_of_after?_eq_none hmark]

theorem length_through_le (mark s : List Char) : (through mark s).2.length ≤ s.length := by
  have h := congrArg List.length (Slot.through_append mark s)
  simp only [List.length_append] at h
  omega

/-- A text through its mark is cut off again in front of another one. -/
theorem through_again (h : (through mark s).2 = [] → t = []) :
    through mark ((through mark s).1 ++ t) = ((through mark s).1, t) := by
  cases hbreak : Text.breakOn mark s with
  | some sides =>
    have hs : through mark s = (sides.1 ++ mark, sides.2) := by rw [through, hbreak]
    rw [hs, through, Text.breakOn_again hbreak]
  | none =>
    have hs : through mark s = (s, []) := by rw [through, hbreak]
    rw [hs] at h ⊢
    obtain rfl := h rfl
    rw [List.append_nil, hs]

/-- What no mark ends goes on to the end. -/
theorem through_eq_nil (h : (through [q] s).1.getLast? ≠ some q) : (through [q] s).2 = [] := by
  cases hbreak : Text.breakOn [q] s with
  | none => rw [through, hbreak]
  | some sides =>
    have hs : through [q] s = (sides.1 ++ [q], sides.2) := by rw [through, hbreak]
    rw [hs, List.getLast?_concat] at h
    exact absurd rfl h

/-! ### Cutting -/

def lexemes : List Char → List Lexeme
  | [] => []
  | '-' :: '-' :: r => .line (through ['\n'] r).1 :: lexemes (through ['\n'] r).2
  | '/' :: '*' :: r => .block (through ['*', '/'] r).1 :: lexemes (through ['*', '/'] r).2
  | c :: r =>
    if isQuote c then .quoted (c :: (through [c] r).1) :: lexemes (through [c] r).2
    else .live c :: lexemes r
termination_by s => s.length
decreasing_by
  · exact Nat.lt_succ_of_le (Nat.le_succ_of_le (length_through_le ['\n'] r))
  · exact Nat.lt_succ_of_le (Nat.le_succ_of_le (length_through_le ['*', '/'] r))
  · exact Nat.lt_succ_of_le (length_through_le [c] r)
  · exact Nat.lt_succ_self _

theorem lexemes_nil : lexemes [] = [] := by rw [lexemes]

theorem lexemes_cons (h : ¬ Opens c s) :
    lexemes (c :: s) =
      if isQuote c then .quoted (c :: (through [c] s).1) :: lexemes (through [c] s).2
      else .live c :: lexemes s := by
  rw [lexemes]
  · rintro r rfl rfl
    exact h (.inl ⟨rfl, rfl⟩)
  · rintro r rfl rfl
    exact h (.inr ⟨rfl, rfl⟩)

theorem lexemes_live (hc : isQuote c = false) (h : ¬ Opens c s) :
    lexemes (c :: s) = .live c :: lexemes s := by
  rw [lexemes_cons h, hc, if_neg Bool.false_ne_true]

theorem lexemes_quoted (hq : isQuote q = true) (s : List Char) :
    lexemes (q :: s) = .quoted (q :: (through [q] s).1) :: lexemes (through [q] s).2 := by
  rw [lexemes_cons (not_opens_of_ne (ne_of_isQuote hq)), if_pos hq]

/-- The lexemes are the script, cut. -/
theorem flatMap_text (s : List Char) : (lexemes s).flatMap Lexeme.text = s := by
  fun_induction lexemes s with
  | case1 => rfl
  | case2 r ih | case3 r ih | case4 c r _ _ _ ih =>
    simp [Lexeme.text, ih, Slot.through_append]
  | case5 c r _ _ _ ih => simp [Lexeme.text, ih]

/-! ### Stripping -/

theorem getLast?_cons_of_ne (h : c ≠ d) (s : List Char) :
    (c :: s).getLast? = some d ↔ s.getLast? = some d := by
  cases hs : s.getLast? with
  | none => simp [List.getLast?_cons, hs, h]
  | some e => simp [List.getLast?_cons, hs]

theorem stripFrom_quoted (q : Char) (s : List Char) :
    stripFrom (.quoted q) s = (through [q] s).1 ++ stripFrom .plain (through [q] s).2 := by
  induction s with
  | nil => rfl
  | cons c s ih =>
    rw [stripFrom, through_singleton]
    by_cases hc : c = q
    · simp [hc]
    · simp [hc, ih]

theorem stripFrom_line (s : List Char) :
    stripFrom .line s = (if (through ['\n'] s).1.getLast? = some '\n' then ['\n'] else []) ++
      stripFrom .plain (through ['\n'] s).2 := by
  induction s with
  | nil => rfl
  | cons c s ih =>
    rw [stripFrom, through_singleton]
    by_cases hc : c = '\n'
    · simp [hc]
    · simp [hc, ih, getLast?_cons_of_ne hc]

theorem stripFrom_block (s : List Char) :
    stripFrom .block s = stripFrom .plain (through ['*', '/'] s).2 := by
  induction s with
  | nil => rfl
  | cons c s ih =>
    cases h : Text.after? ['*', '/'] (c :: s) with
    | some rest =>
      obtain ⟨rfl, rfl⟩ := List.cons.inj (Text.after?_eq_some_iff.1 h)
      rw [through_of_after? h]
      rfl
    | none =>
      rw [through_of_after?_eq_none h, stripFrom, ih]
      rintro r rfl rfl
      simp [Text.after?] at h

theorem stripFrom_eq_flatMap (s : List Char) :
    stripFrom .plain s = (lexemes s).flatMap Lexeme.kept := by
  fun_induction lexemes s with
  | case1 => rfl
  | case2 r ih => rw [stripFrom, stripFrom_line, ih, List.flatMap_cons, Lexeme.kept]
  | case3 r ih =>
    rw [stripFrom, stripFrom_block, ih]
    rfl
  | case4 c r _ _ hc ih =>
    rw [stripFrom_cons (not_opens_of_ne (ne_of_isQuote hc)), if_pos hc, stripFrom_quoted, ih]
    rfl
  | case5 c r hline hblock hc ih =>
    rw [stripFrom_cons (not_opens_of_forall hline hblock), if_neg hc, ih]
    rfl

/-! ### Stripping again -/

/-- What the lexeme is cut into when comments are gone. -/
def Lexeme.settled : Lexeme → List Lexeme
  | line s => if s.getLast? = some '\n' then [live '\n'] else []
  | block _ => [live ' ']
  | l => [l]

theorem Lexeme.not_isComment_settled (l : Lexeme) : ∀ l' ∈ l.settled, l'.isComment = false := by
  cases l with
  | line s =>
    rw [settled]
    split <;> simp [isComment]
  | quoted | block | live => simp [settled, isComment]

theorem Lexeme.flatMap_quotedTexts_settled (l : Lexeme) :
    l.settled.flatMap quotedTexts = l.quotedTexts := by
  cases l with
  | line s =>
    rw [settled]
    split <;> rfl
  | quoted | block | live => simp [settled, quotedTexts]

theorem lexemes_stripFrom (s : List Char) :
    lexemes (stripFrom .plain s) = (lexemes s).flatMap Lexeme.settled := by
  fun_induction lexemes s with
  | case1 => exact lexemes_nil
  | case2 r ih =>
    rw [stripFrom, stripFrom_line, List.flatMap_cons, ← ih, Lexeme.settled]
    split
    · exact lexemes_live (by decide) (not_opens_of_ne (by decide))
    · rfl
  | case3 r ih =>
    rw [stripFrom, stripFrom_block, lexemes_live (by decide) (not_opens_of_ne (by decide)), ih]
    rfl
  | case4 c r _ _ hc ih =>
    rw [stripFrom_cons (not_opens_of_ne (ne_of_isQuote hc)), if_pos hc, stripFrom_quoted,
      lexemes_quoted hc, through_again, ih]
    · rfl
    · intro h
      rw [h]
      rfl
  | case5 c r hline hblock hc ih =>
    have hopens := not_opens_of_forall hline hblock
    rw [stripFrom_cons hopens, if_neg hc, lexemes_live (Bool.not_eq_true _ ▸ hc)
      (not_opens_of_head hopens (head_stripFrom r)), ih]
    rfl

/-- The script has no comments. -/
def Uncommented (s : List Char) : Prop := ∀ l ∈ lexemes s, l.isComment = false

theorem uncommented_stripFrom (s : List Char) : Uncommented (stripFrom .plain s) := by
  intro l hl
  rw [lexemes_stripFrom, List.mem_flatMap] at hl
  obtain ⟨l', -, hl⟩ := hl
  exact l'.not_isComment_settled l hl

theorem Uncommented.stripFrom_eq (h : Uncommented s) : stripFrom .plain s = s := by
  have hkept : ∀ l ∈ lexemes s, l.kept = l.text := by
    intro l hl
    have hl := h l hl
    cases l with
    | quoted | live => rfl
    | line | block => cases hl
  rw [stripFrom_eq_flatMap, List.flatMap_congr hkept, flatMap_text]

theorem quotedTexts_stripFrom (s : List Char) :
    (lexemes (stripFrom .plain s)).flatMap Lexeme.quotedTexts =
      (lexemes s).flatMap Lexeme.quotedTexts := by
  rw [lexemes_stripFrom, List.flatMap_assoc]
  exact List.flatMap_congr fun l _ => l.flatMap_quotedTexts_settled

theorem toList_stripComments (script : String) :
    (stripComments script).toList = stripFrom .plain script.toList := by
  rw [stripComments, String.toList_ofList]

/-- Stripping leaves of each lexeme of a script what is to be kept of it. No comment is left, the quoted
texts are the same, and stripping again changes nothing. -/
theorem stripComments_keeps (script : String) :
    (lexemes script.toList).flatMap Lexeme.text = script.toList ∧
      (stripComments script).toList = (lexemes script.toList).flatMap Lexeme.kept ∧
      (∀ l ∈ lexemes (stripComments script).toList, l.isComment = false) ∧
      (lexemes (stripComments script).toList).flatMap Lexeme.quotedTexts =
        (lexemes script.toList).flatMap Lexeme.quotedTexts ∧
      stripComments (stripComments script) = stripComments script := by
  have hgone := uncommented_stripFrom script.toList
  have hagain : stripComments (stripComments script) = stripComments script := by
    rw [stripComments, toList_stripComments, hgone.stripFrom_eq, stripComments]
  rw [toList_stripComments]
  exact ⟨flatMap_text _, stripFrom_eq_flatMap _, hgone, quotedTexts_stripFrom _, hagain⟩

example : stripComments "a-/*b*/-'--c'--d\n/*" = "a- -'--c'\n " := by decide +kernel

end QueryTree.Sql
