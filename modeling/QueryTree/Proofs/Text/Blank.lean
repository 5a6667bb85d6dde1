import Mathlib.Data.List.DropRight
import Mathlib.Data.List.TakeWhile
import QueryTree.Text.Blank

/-!
# Trimming

What trimming the ends of a text does, character by character.
-/

namespace QueryTree.Text

variable {c : Char} {s r : List Char}

/-- Dropping ends at a character that is to stay. -/
theorem dropWhile_append_cons {p : Char → Bool} (hc : p c = false) (r s : List Char) :
    (r ++ c :: s).dropWhile p = r.dropWhile p ++ c :: s := by
  induction r with
  | nil => rw [List.nil_append, List.dropWhile_cons, hc]; rfl
  | cons d r ih =>
    rw [List.cons_append, List.dropWhile_cons, List.dropWhile_cons, ih]
    split <;> rfl

theorem rdropWhile_append_cons {p : Char → Bool} (hc : p c = false) (r s : List Char) :
    (r ++ c :: s).rdropWhile p = r ++ c :: s.rdropWhile p := by
  rw [List.rdropWhile, List.reverse_append, List.reverse_cons, List.append_assoc,
    List.singleton_append, dropWhile_append_cons hc, List.reverse_append, List.reverse_cons,
    List.reverse_reverse, List.append_assoc, List.singleton_append, List.rdropWhile]

/-- A text begins like what is left of it when its end is cut off. -/
theorem head?_rdropWhile {p : Char → Bool} (h : (s.rdropWhile p).head? = some c) :
    s.head? = some c := by
  obtain ⟨r, hr⟩ := List.rdropWhile_prefix p s
  rw [← hr, List.head?_append, h, Option.some_or]

theorem getLast?_rdropWhile_not {p : Char → Bool} (s : List Char) :
    ∀ c ∈ (s.rdropWhile p).getLast?, p c = false := by
  intro c hc
  rw [List.rdropWhile, List.getLast?_reverse] at hc
  have hhead := List.head?_dropWhile_not p s.reverse
  rw [hc] at hhead
  simpa using hhead

theorem trimEnd_cons (c : Char) (s : List Char) :
    trimEnd (c :: s) = if (trimEnd s).isEmpty && isBlank c then [] else c :: trimEnd s := by
  have hempty : (trimEnd s).isEmpty = (s.reverse.dropWhile isBlank).isEmpty := List.isEmpty_reverse
  rw [hempty, trimEnd, trimEnd, List.reverse_cons, List.dropWhile_append]
  cases hs : s.reverse.dropWhile isBlank with
  | nil => cases hc : isBlank c <;> simp [hc]
  | cons d r => simp

/-- The blanks behind a visible character are those at the end of the text. -/
theorem trimEnd_append_cons (hc : isBlank c = false) (r s : List Char) :
    trimEnd (r ++ c :: s) = r ++ c :: trimEnd s := rdropWhile_append_cons hc r s

theorem trimStart_of_blank (hc : isBlank c = true) (s : List Char) :
    trimStart (c :: s) = trimStart s := by
  rw [trimStart, List.dropWhile_cons, hc, if_pos rfl, trimStart]

theorem trimStart_of_visible (hc : isBlank c = false) (s : List Char) : trimStart (c :: s) = c :: s := by
  rw [trimStart, List.dropWhile_cons, hc, if_neg Bool.false_ne_true]

theorem head?_trimEnd {d : Char} (h : d ∈ (trimEnd s).head?) : s.head? = some d := head?_rdropWhile h

theorem isBlank_getLast?_trimEnd (s : List Char) :
    ∀ c ∈ (trimEnd s).getLast?, isBlank c = false := getLast?_rdropWhile_not s

theorem trimEnd_of_getLast? (h : ∀ c ∈ s.getLast?, isBlank c = false) : trimEnd s = s := by
  rcases List.eq_nil_or_concat s with rfl | ⟨s, c, rfl⟩
  · rfl
  · rw [List.concat_eq_append] at h ⊢
    rw [trimEnd_append_cons (h c (by simp))]
    rfl

theorem trimStart_of_head? (h : ∀ c ∈ s.head?, isBlank c = false) : trimStart s = s := by
  cases s with
  | nil => rfl
  | cons c s => exact trimStart_of_visible (h c rfl) s

theorem isBlank_head?_trimStart (s : List Char) : ∀ c ∈ (trimStart s).head?, isBlank c = false := by
  intro c hc
  have hhead := List.head?_dropWhile_not isBlank s
  rw [trimStart] at hc
  rw [hc] at hhead
  simpa using hhead

theorem trim_trim (s : List Char) : trim (trim s) = trim s := by
  have hhead : ∀ c ∈ (trim s).head?, isBlank c = false := fun c hc =>
    isBlank_head?_trimStart s c (head?_trimEnd hc)
  have hlast : ∀ c ∈ (trim s).getLast?, isBlank c = false := isBlank_getLast?_trimEnd (trimStart s)
  rw [trim.eq_1 (trim s), trimStart_of_head? hhead, trimEnd_of_getLast? hlast]

theorem exists_trimEnd_append (s : List Char) :
    ∃ b, s = trimEnd s ++ b ∧ ∀ c ∈ b, isBlank c = true := by
  refine ⟨(s.reverse.takeWhile isBlank).reverse, ?_, fun c hc => ?_⟩
  · rw [trimEnd, ← List.reverse_append, List.takeWhile_append_dropWhile, List.reverse_reverse]
  · exact List.mem_takeWhile_imp (List.mem_reverse.1 hc)

theorem exists_append_trim (s : List Char) :
    ∃ b b', s = b ++ trim s ++ b' ∧ (∀ c ∈ b, isBlank c = true) ∧ ∀ c ∈ b', isBlank c = true := by
  obtain ⟨b', heq, hb'⟩ := exists_trimEnd_append (trimStart s)
  refine ⟨s.takeWhile isBlank, b', ?_, fun c hc => List.mem_takeWhile_imp hc, hb'⟩
  rw [trim, List.append_assoc, ← heq, trimStart, List.takeWhile_append_dropWhile]

/-- Trimming takes off what blanks were put around a text without any. -/
theorem trim_append {b b' : List Char} (hb : ∀ c ∈ b, isBlank c = true)
    (hb' : ∀ c ∈ b', isBlank c = true) (hs : ∀ c ∈ s, isBlank c = false) : trim (b ++ s ++ b') = s := by
  have hlast : ∀ c ∈ s.getLast?, isBlank c = false := fun c hc => hs c (List.mem_of_getLast? hc)
  have hdrop : b'.dropWhile isBlank = [] := List.dropWhile_eq_nil_iff.2 hb'
  have hend : trimEnd (s ++ b') = s := by
    have hreverse : ∀ c ∈ b'.reverse, isBlank c = true := fun c hc => hb' c (List.mem_reverse.1 hc)
    rw [trimEnd, List.reverse_append, List.dropWhile_append_of_pos hreverse, ← trimEnd,
      trimEnd_of_getLast? hlast]
  rw [trim, trimStart, List.append_assoc, List.dropWhile_append_of_pos hb]
  cases s with
  | nil =>
    rw [List.nil_append, hdrop]
    rfl
  | cons c s =>
    rw [List.cons_append, List.dropWhile_cons, hs c List.mem_cons_self, if_neg Bool.false_ne_true]
    exact hend

theorem trim_eq_nil_iff : trim s = [] ↔ allBlank s = true := by
  rw [allBlank, List.all_eq_true]
  constructor
  · intro h
    obtain ⟨b, b', heq, hb, hb'⟩ := exists_append_trim s
    rw [h, List.append_nil] at heq
    rw [heq]
    exact fun c hc => (List.mem_append.1 hc).elim (hb c) (hb' c)
  · intro h
    have hnil : ∀ c ∈ ([] : List Char), isBlank c = true := nofun
    have hnone : ∀ c ∈ ([] : List Char), isBlank c = false := nofun
    have htrim := trim_append h hnil hnone
    rwa [List.append_nil, List.append_nil] at htrim

theorem mem_of_mem_trimEnd (h : c ∈ trimEnd s) : c ∈ s := by
  rw [trimEnd, List.mem_reverse] at h
  exact List.mem_reverse.1 ((List.dropWhile_sublist isBlank).subset h)

/-! ### Without blanks -/

/-- The visible characters of a text. -/
def withoutBlanks (s : List Char) : List Char := s.filter fun c => !isBlank c

theorem withoutBlanks_append (s r : List Char) :
    withoutBlanks (s ++ r) = withoutBlanks s ++ withoutBlanks r := List.filter_append s r

theorem withoutBlanks_of_blank (hc : isBlank c = true) (s : List Char) :
    withoutBlanks (c :: s) = withoutBlanks s := by
  simp [withoutBlanks, hc]

theorem withoutBlanks_congr_cons (c : Char) (h : withoutBlanks s = withoutBlanks r) :
    withoutBlanks (c :: s) = withoutBlanks (c :: r) := by
  simp only [withoutBlanks, List.filter_cons] at h ⊢
  rw [h]

theorem withoutBlanks_trimStart (s : List Char) : withoutBlanks (trimStart s) = withoutBlanks s := by
  induction s with
  | nil => rfl
  | cons c s ih =>
    cases hc : isBlank c with
    | true => rw [trimStart_of_blank hc, withoutBlanks_of_blank hc, ih]
    | false => rw [trimStart_of_visible hc]

theorem withoutBlanks_trimEnd (s : List Char) : withoutBlanks (trimEnd s) = withoutBlanks s := by
  induction s with
  | nil => rfl
  | cons c s ih =>
    rw [trimEnd_cons]
    split
    · next hdrop =>
      obtain ⟨hempty, hc⟩ := Bool.and_eq_true_iff.1 hdrop
      rw [withoutBlanks_of_blank hc, ← ih, List.isEmpty_iff.1 hempty]
    · exact withoutBlanks_congr_cons c ih

theorem withoutBlanks_trim (s : List Char) : withoutBlanks (trim s) = withoutBlanks s := by
  rw [trim, withoutBlanks_trimEnd, withoutBlanks_trimStart]

end QueryTree.Text
