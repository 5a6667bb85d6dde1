import Mathlib.Data.List.Basic
import QueryTree.Database.Change

/-!
# Patterns

What `LIKE` is assumed to do is said of any way to match texts (`LikeRules`). The pattern that is meant
for the reserved names matches every one of these (`isMasked_of_isReserved`), but it matches more: its
underscore stands for any character (`LikeRules.reserved`).
-/

namespace QueryTree

open Database

/-- How texts match patterns: an underscore stands for any one character, a percent sign for any text,
and what is neither for itself, a letter in either case. -/
structure LikeRules (like : List Char → List Char → Bool) : Prop where
  nil {text : List Char} : like [] text = true ↔ text = []
  one {pattern text : List Char} :
    like ('_' :: pattern) text = true ↔ ∃ c rest, text = c :: rest ∧ like pattern rest = true
  many {pattern text : List Char} :
    like ('%' :: pattern) text = true ↔ ∃ skipped rest, text = skipped ++ rest ∧ like pattern rest = true
  letter {m : Char} {pattern text : List Char} (hone : m ≠ '_') (hmany : m ≠ '%') :
    like (m :: pattern) text = true ↔
      ∃ c rest, text = c :: rest ∧ c.toLower = m.toLower ∧ like pattern rest = true

/-- The pattern for reserved names matches the name: it begins with `sqlite`, and all that counts of the
rest is that there is some. -/
def isMasked (name : String) : Bool :=
  Text.sameLetters (name.toList.take 6) "sqlite".toList && decide (6 < name.toList.length)

namespace LikeRules

variable {like : List Char → List Char → Bool} {w pattern text : List Char}

/-- A pattern that begins with letters. -/
theorem append (h : LikeRules like) (hone : '_' ∉ w) (hmany : '%' ∉ w) :
    like (w ++ pattern) text = true ↔
      Text.sameLetters (text.take w.length) w = true ∧ like pattern (text.drop w.length) = true := by
  induction w generalizing text with
  | nil => simp [Text.sameLetters]
  | cons m w ih =>
    rw [List.mem_cons, not_or] at hone hmany
    rw [List.cons_append, h.letter (Ne.symm hone.1) (Ne.symm hmany.1)]
    cases text with
    | nil => simp [Text.sameLetters]
    | cons c rest =>
      have hstep : (∃ c' rest', c :: rest = c' :: rest' ∧ c'.toLower = m.toLower ∧
          like (w ++ pattern) rest' = true) ↔
            c.toLower = m.toLower ∧ like (w ++ pattern) rest = true := by
        constructor
        · rintro ⟨_, _, hcons, h⟩
          cases hcons
          exact h
        · exact fun h => ⟨c, rest, rfl, h⟩
      rw [hstep, ih hone.2 hmany.2, ← and_assoc]
      simp [Text.sameLetters]

theorem rest (h : LikeRules like) : like ['%'] text = true :=
  h.many.2 ⟨text, [], (List.append_nil text).symm, h.nil.2 rfl⟩

/-- What the pattern for reserved names matches. -/
theorem reserved (h : LikeRules like) (name : String) :
    like "sqlite_%".toList name.toList = isMasked name := by
  have hpattern : "sqlite_%".toList = "sqlite".toList ++ ['_', '%'] := by decide
  have hlength : "sqlite".toList.length = 6 := by decide
  have hrest : like ['_', '%'] (name.toList.drop 6) = true ↔ 6 < name.toList.length := by
    rw [h.one, ← Nat.not_le, ← List.drop_eq_nil_iff, ← ne_eq, List.ne_nil_iff_exists_cons]
    simp only [h.rest, and_true]
  rw [Bool.eq_iff_iff, hpattern, h.append (by decide) (by decide), hlength, hrest, isMasked,
    Bool.and_eq_true, decide_eq_true_iff]

end LikeRules

namespace Database

variable {name : String}

theorem isReserved_iff :
    isReserved name = true ↔ (name.toList.map Char.toLower).take 7 = "sqlite_".toList := by
  have hlower : "sqlite_".toList.map Char.toLower = "sqlite_".toList := by decide
  simp only [isReserved, reservedStart, sameName, Text.sameLetters, beq_iff_eq, String.toList_ofList,
    List.map_take, hlower]
  rfl

theorem isMasked_of_isReserved (h : isReserved name = true) : isMasked name = true := by
  have hlower := isReserved_iff.1 h
  have hlength : 6 < name.toList.length := by
    have hseven := congrArg List.length hlower
    rw [List.length_take, List.length_map] at hseven
    have hlast : "sqlite_".toList.length = 7 := by decide
    omega
  have hletters : Text.sameLetters (name.toList.take 6) "sqlite".toList = true := by
    have hsix : ((name.toList.map Char.toLower).take 7).take 6 = "sqlite".toList := by
      rw [hlower]
      decide
    rw [List.take_take] at hsix
    have hsame : "sqlite".toList.map Char.toLower = "sqlite".toList := by decide
    rw [Text.sameLetters, beq_iff_eq, List.map_take, hsame]
    exact hsix
  rw [isMasked, hletters, decide_eq_true hlength]
  rfl

end Database

/-! ### The engine of the program -/

namespace Value

variable {m c : Char} {pattern rest text : List Char}

theorem matchesPattern_many_cons :
    matchesPattern ('%' :: pattern) (c :: rest) = true ↔
      matchesPattern pattern (c :: rest) = true ∨ matchesPattern ('%' :: pattern) rest = true := by
  rw [matchesPattern, Bool.or_eq_true]

theorem matchesPattern_many :
    matchesPattern ('%' :: pattern) text = true ↔
      ∃ skipped rest, text = skipped ++ rest ∧ matchesPattern pattern rest = true := by
  induction text with
  | nil =>
    rw [matchesPattern]
    constructor
    · exact fun h => ⟨[], [], rfl, h⟩
    · rintro ⟨skipped, rest, hnil, h⟩
      obtain ⟨rfl, rfl⟩ := List.append_eq_nil_iff.1 hnil.symm
      exact h
  | cons c text ih =>
    rw [matchesPattern_many_cons, ih]
    constructor
    · rintro (h | ⟨skipped, rest, rfl, h⟩)
      · exact ⟨[], _, rfl, h⟩
      · exact ⟨c :: skipped, rest, rfl, h⟩
    · rintro ⟨skipped, rest, hcons, h⟩
      rcases List.cons_eq_append_iff.1 hcons with ⟨rfl, rfl⟩ | ⟨skipped, rfl, rfl⟩
      · exact .inl h
      · exact .inr ⟨skipped, rest, rfl, h⟩

theorem matchesPattern_letter (hone : m ≠ '_') (hmany : m ≠ '%') :
    matchesPattern (m :: pattern) text = true ↔
      ∃ c rest, text = c :: rest ∧ c.toLower = m.toLower ∧ matchesPattern pattern rest = true := by
  cases text with
  | nil => simp [matchesPattern]
  | cons c rest =>
    have hstep : matchesPattern (m :: pattern) (c :: rest) =
        (m.toLower == c.toLower && matchesPattern pattern rest) := by
      rw [matchesPattern]
      · exact hmany
      · exact hone
    rw [hstep, Bool.and_eq_true, beq_iff_eq]
    constructor
    · rintro ⟨hletter, h⟩
      exact ⟨c, rest, rfl, hletter.symm, h⟩
    · rintro ⟨_, _, hcons, hletter, h⟩
      cases hcons
      exact ⟨hletter.symm, h⟩

theorem likeRules_matchesPattern : LikeRules matchesPattern where
  nil := by simp [matchesPattern]
  one {pattern text} := by
    cases text with
    | nil => simp [matchesPattern]
    | cons c rest => simp [matchesPattern]
  many := matchesPattern_many
  letter := matchesPattern_letter

end Value
end QueryTree
