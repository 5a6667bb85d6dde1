import Mathlib.Data.List.TakeDrop
import QueryTree.Text.Split

/-!
# Splitting what was joined

Splitting gives back the pieces that were joined, and joining the pieces gives back the text; breaking
at the last occurrence of a character gives the two sides of it.
-/

namespace QueryTree.Text

variable {p q : Char → Bool} {s r : List Char} {c : Char}

theorem splitBy_ne_nil (p : Char → Bool) (s : List Char) : splitBy p s ≠ [] := by
  cases s with
  | nil => simp [splitBy]
  | cons c r =>
    rw [splitBy]
    split
    · simp
    · split <;> simp

theorem splitBy_cons_of_neg (hc : p c = false) :
    ∃ piece pieces, splitBy p r = piece :: pieces ∧
      splitBy p (c :: r) = (c :: piece) :: pieces := by
  cases hs : splitBy p r with
  | nil => exact absurd hs (splitBy_ne_nil p r)
  | cons piece pieces =>
    refine ⟨piece, pieces, rfl, ?_⟩
    rw [splitBy, if_neg (by simp [hc]), hs]

theorem splitBy_of_all (hs : ∀ c ∈ s, p c = false) : splitBy p s = [s] := by
  induction s with
  | nil => rfl
  | cons c s ih =>
    obtain ⟨piece, pieces, h, h'⟩ := splitBy_cons_of_neg (r := s) (hs c (by simp))
    rw [ih fun c hc => hs c (by simp [hc])] at h
    cases h
    exact h'

theorem splitBy_append (hs : ∀ c ∈ s, p c = false) (hc : p c = true) :
    splitBy p (s ++ c :: r) = s :: splitBy p r := by
  induction s with
  | nil => rw [List.nil_append, splitBy, if_pos hc]
  | cons d s ih =>
    obtain ⟨piece, pieces, h, h'⟩ := splitBy_cons_of_neg (r := s ++ c :: r) (hs d (by simp))
    rw [ih fun c hc => hs c (by simp [hc])] at h
    cases h
    exact h'

theorem splitBy_append_cons (s r : List Char) (hc : p c = true) :
    splitBy p (s ++ c :: r) = splitBy p s ++ splitBy p r := by
  induction s with
  | nil =>
    rw [List.nil_append, splitBy.eq_2, if_pos hc]
    rfl
  | cons d s ih =>
    cases hd : p d with
    | true => rw [List.cons_append, splitBy, if_pos hd, ih, splitBy, if_pos hd, List.cons_append]
    | false =>
      obtain ⟨piece, pieces, hs, hcons⟩ := splitBy_cons_of_neg (r := s) hd
      obtain ⟨piece', pieces', hs', hcons'⟩ := splitBy_cons_of_neg (r := s ++ c :: r) hd
      rw [ih, hs, List.cons_append] at hs'
      obtain ⟨rfl, rfl⟩ := List.cons.inj hs'
      rw [List.cons_append, hcons', hcons, List.cons_append]

/-- Pieces without separators are what splitting their join gives. -/
theorem splitBy_joinWith {pieces : List (List Char)} (hne : pieces ≠ [])
    (hp : ∀ s ∈ pieces, ∀ c ∈ s, p c = false) (hc : p c = true) :
    splitBy p (joinWith [c] pieces) = pieces := by
  induction pieces with
  | nil => exact absurd rfl hne
  | cons s pieces ih =>
    cases pieces with
    | nil => rw [joinWith, splitBy_of_all (hp s (by simp))]
    | cons t pieces =>
      rw [joinWith, List.append_assoc, List.singleton_append, splitBy_append (hp s (by simp)) hc,
        ih (by simp) fun s hs => hp s (by simp [hs])]

theorem joinWith_cons {sep piece : List Char} {pieces : List (List Char)} (h : pieces ≠ []) :
    joinWith sep (piece :: pieces) = piece ++ sep ++ joinWith sep pieces := by
  cases pieces with
  | nil => exact absurd rfl h
  | cons t pieces => rw [joinWith]

theorem joinWith_cons_cons (sep piece : List Char) (pieces : List (List Char)) :
    joinWith sep ((c :: piece) :: pieces) = c :: joinWith sep (piece :: pieces) := by
  cases pieces with
  | nil => rfl
  | cons t pieces => rw [joinWith, joinWith]; rfl

theorem mem_joinWith {sep : List Char} {pieces : List (List Char)} (h : c ∈ joinWith sep pieces) :
    c ∈ sep ∨ ∃ s ∈ pieces, c ∈ s := by
  induction pieces with
  | nil => cases h
  | cons s pieces ih =>
    cases pieces with
    | nil => exact .inr ⟨s, List.mem_cons_self, h⟩
    | cons t pieces =>
      rw [joinWith, List.mem_append, List.mem_append] at h
      rcases h with (h | h) | h
      · exact .inr ⟨s, List.mem_cons_self, h⟩
      · exact .inl h
      · exact (ih h).imp_right fun ⟨u, hu, hc⟩ => ⟨u, List.mem_cons_of_mem s hu, hc⟩

/-- A text is the join of its pieces. -/
theorem joinWith_eq_intercalate (sep : List Char) (pieces : List (List Char)) :
    joinWith sep pieces = sep.intercalate pieces := by
  induction pieces with
  | nil => rfl
  | cons piece pieces ih =>
    cases pieces with
    | nil => rw [List.intercalate_singleton, joinWith]
    | cons next pieces => rw [joinWith_cons (List.cons_ne_nil _ _), ih, List.intercalate_cons_cons]

theorem sublist_joinWith_filter (sep : List Char) (keep : List Char → Bool) (pieces : List (List Char)) :
    (joinWith sep (pieces.filter keep)).Sublist (joinWith sep pieces) := by
  induction pieces with
  | nil => exact .slnil
  | cons piece pieces ih =>
    by_cases hnil : pieces = []
    · subst hnil
      rw [List.filter_cons]
      split
      · exact .refl _
      · exact List.nil_sublist _
    rw [joinWith_cons hnil]
    have hrest := ih.trans (List.sublist_append_right (piece ++ sep) _)
    rw [List.filter_cons]
    split
    · by_cases hkept : pieces.filter keep = []
      · rw [hkept, List.append_assoc]
        exact List.sublist_append_left piece _
      · rw [joinWith_cons hkept]
        exact ih.append_left _
    · exact hrest

theorem joinWith_splitBy (c : Char) (s : List Char) : joinWith [c] (splitBy (· == c) s) = s := by
  induction s with
  | nil => rfl
  | cons d s ih =>
    by_cases hd : d = c
    · subst hd
      rw [splitBy, if_pos (beq_self_eq_true d), joinWith_cons (splitBy_ne_nil _ s), ih]
      rfl
    · obtain ⟨piece, pieces, hs, hcons⟩ := splitBy_cons_of_neg (p := (· == c)) (r := s)
        (beq_false_of_ne hd)
      rw [hcons, joinWith_cons_cons, ← hs, ih]

/-- A piece is made of characters of the text that do not separate. -/
theorem mem_of_mem_splitBy {piece : List Char} (h : piece ∈ splitBy p s) (hc : c ∈ piece) :
    c ∈ s ∧ p c = false := by
  induction s generalizing piece with
  | nil =>
    rw [splitBy, List.mem_singleton] at h
    subst h
    cases hc
  | cons d s ih =>
    cases hd : p d with
    | true =>
      rw [splitBy, if_pos hd] at h
      rcases List.mem_cons.1 h with rfl | h
      · cases hc
      · exact ⟨List.mem_cons_of_mem d (ih h hc).1, (ih h hc).2⟩
    | false =>
      obtain ⟨first, pieces, hs, hcons⟩ := splitBy_cons_of_neg (r := s) hd
      rw [hs] at ih
      rw [hcons] at h
      rcases List.mem_cons.1 h with rfl | h
      · rcases List.mem_cons.1 hc with rfl | hc
        · exact ⟨List.mem_cons_self, hd⟩
        · have hmem := ih List.mem_cons_self hc
          exact ⟨List.mem_cons_of_mem d hmem.1, hmem.2⟩
      · have hmem := ih (List.mem_cons_of_mem first h) hc
        exact ⟨List.mem_cons_of_mem d hmem.1, hmem.2⟩

theorem splitBy_congr (h : ∀ c ∈ s, p c = q c) : splitBy p s = splitBy q s := by
  induction s with
  | nil => rfl
  | cons d s ih =>
    rw [splitBy, splitBy, h d List.mem_cons_self, ih fun c hc => h c (List.mem_cons_of_mem d hc)]

theorem breakOn_mark (mark r : List Char) : breakOn mark (mark ++ r) = some ([], r) := by
  cases h : mark ++ r with
  | nil =>
    obtain ⟨rfl, rfl⟩ := List.append_eq_nil_iff.1 h
    rfl
  | cons c s => rw [breakOn, after?_eq_some_iff.2 h.symm]

/-- The first occurrence of the mark is the first one with any text behind it. -/
theorem breakOn_again {mark before after : List Char} (h : breakOn mark s = some (before, after))
    (r : List Char) : breakOn mark (before ++ mark ++ r) = some (before, r) := by
  induction s generalizing before with
  | nil =>
    rw [breakOn] at h
    split at h
    · cases h
      exact breakOn_mark mark r
    · cases h
  | cons c s ih =>
    rw [breakOn] at h
    split at h
    · cases h
      exact breakOn_mark mark r
    · next hnone =>
      obtain ⟨⟨front, back⟩, hbreak, heq⟩ := Option.map_eq_some_iff.1 h
      cases heq
      have hnone' : after? mark (c :: (front ++ mark ++ r)) = none := by
        rw [Option.eq_none_iff_forall_ne_some]
        intro r' hr'
        have hmark : mark <+: c :: (front ++ mark) :=
          List.prefix_of_prefix_length_le ⟨r', (after?_eq_some_iff.1 hr').symm⟩
            (List.prefix_append (c :: (front ++ mark)) r) (by simp; omega)
        have hfront : c :: (front ++ mark) <+: c :: s := by
          rw [eq_append_of_breakOn hbreak]
          exact List.prefix_append (c :: (front ++ mark)) after
        obtain ⟨r'', hr''⟩ := hmark.trans hfront
        rw [after?_eq_some_iff.2 hr''.symm] at hnone
        cases hnone
      rw [List.cons_append, List.cons_append, breakOn, hnone']
      exact congrArg (Option.map _) (ih hbreak)

/-- The text before a mark, and the mark but for its last character, does not hold the mark. -/
theorem not_infix_of_breakOn {mark before after : List Char} (hmark : mark ≠ [])
    (h : breakOn mark s = some (before, after)) : ¬ mark <:+: before ++ mark.dropLast := by
  have hshort : mark.dropLast.length < mark.length := by
    rw [List.length_dropLast]
    exact Nat.sub_one_lt (mt List.length_eq_zero_iff.1 hmark)
  induction s generalizing before with
  | nil =>
    rw [breakOn, if_neg hmark] at h
    cases h
  | cons c s ih =>
    rw [breakOn] at h
    split at h
    · cases h
      intro hinfix
      exact absurd hinfix.length_le (Nat.not_le.2 hshort)
    · next hnone =>
      obtain ⟨⟨front, back⟩, hbreak, heq⟩ := Option.map_eq_some_iff.1 h
      cases heq
      rw [List.cons_append, List.infix_cons_iff, not_or]
      refine ⟨fun hmark' => ?_, ih hbreak⟩
      have hfront : c :: (front ++ mark.dropLast) <+: c :: s := by
        rw [eq_append_of_breakOn hbreak, List.append_assoc]
        exact List.prefix_append_right_inj (c :: front) |>.2
          ((List.dropLast_prefix mark).trans (List.prefix_append mark after))
      obtain ⟨r, hr⟩ := hmark'.trans hfront
      rw [after?_eq_some_iff.2 hr.symm] at hnone
      cases hnone
theorem breakOnLast_append {before after : List Char} (h : c ∉ after) :
    breakOnLast c (before ++ c :: after) = some (before, after) := by
  have hrev : (before ++ c :: after).reverse = after.reverse ++ c :: before.reverse := by simp
  have hafter : ∀ d ∈ after.reverse, (d != c) = true := by
    intro d hd
    rw [bne_iff_ne]
    rintro rfl
    exact h (List.mem_reverse.1 hd)
  rw [breakOnLast, hrev, List.span_eq_takeWhile_dropWhile, List.takeWhile_append_of_pos hafter,
    List.dropWhile_append_of_pos hafter]
  simp

theorem breakOnLast_eq_some_iff {before after : List Char} :
    breakOnLast c s = some (before, after) ↔ s = before ++ c :: after ∧ c ∉ after := by
  constructor
  · intro h
    rw [breakOnLast, List.span_eq_takeWhile_dropWhile] at h
    split at h
    · cases h
    next after' d before' heq =>
      obtain ⟨htake, hdrop⟩ := Prod.mk.inj heq
      cases h
      have hd : d = c := by
        have hhead := List.head?_dropWhile_not (· != c) s.reverse
        rw [hdrop] at hhead
        simpa using hhead
      have hs : s.reverse = after' ++ d :: before' := by
        rw [← htake, ← hdrop, List.takeWhile_append_dropWhile]
      refine ⟨?_, fun hc => ?_⟩
      · rw [← List.reverse_reverse s, hs, hd]
        simp
      · rw [List.mem_reverse, ← htake] at hc
        simpa using List.all_eq_true.1 (List.all_takeWhile) c hc
  · rintro ⟨rfl, h⟩
    exact breakOnLast_append h

end QueryTree.Text
