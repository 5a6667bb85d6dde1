/-!
# Splitting and searching

Cutting a character list at single characters (`splitBy`), at the first occurrence of a mark
(`breakOn`), and gluing pieces together (`joinWith`).
-/

namespace QueryTree.Text

/-- The pieces between the characters of class `p`; there is always at least one piece. -/
def splitBy (p : Char → Bool) : List Char → List (List Char)
  | [] => [[]]
  | c :: r =>
    if p c then [] :: splitBy p r
    else match splitBy p r with
      | [] => [[c]]
      | piece :: pieces => (c :: piece) :: pieces

def joinWith (sep : List Char) : List (List Char) → List Char
  | [] => []
  | [s] => s
  | s :: t :: r => s ++ sep ++ joinWith sep (t :: r)

/-- What follows `mark` at the front of the text. -/
def after? : (mark s : List Char) → Option (List Char)
  | [], s => some s
  | _ :: _, [] => none
  | m :: ms, c :: r => if c = m then after? ms r else none

theorem after?_eq_some_iff {mark s r : List Char} : after? mark s = some r ↔ s = mark ++ r := by
  induction mark generalizing s with
  | nil => simp [after?, eq_comm]
  | cons m ms ih =>
    cases s with
    | nil => simp [after?]
    | cons c t => by_cases h : c = m <;> simp [after?, h, ih]

/-- The text before and after the first occurrence of `mark`. -/
def breakOn (mark : List Char) : List Char → Option (List Char × List Char)
  | [] => if mark = [] then some ([], []) else none
  | c :: r =>
    match after? mark (c :: r) with
    | some after => some ([], after)
    | none => (breakOn mark r).map fun (before, after) => (c :: before, after)

/-- `part` stands somewhere in the text. -/
def hasPart (part s : List Char) : Bool := (breakOn part s).isSome

/-- The text before and after the last `c`. -/
def breakOnLast (c : Char) (s : List Char) : Option (List Char × List Char) :=
  match s.reverse.span (· != c) with
  | (_, []) => none
  | (after, _ :: before) => some (before.reverse, after.reverse)

theorem eq_append_of_breakOn {mark s before after : List Char}
    (h : breakOn mark s = some (before, after)) : s = before ++ mark ++ after := by
  induction s generalizing before with
  | nil =>
    rw [breakOn] at h
    split at h
    · next hm => cases h; simp [hm]
    · cases h
  | cons c r ih =>
    rw [breakOn] at h
    split at h
    · next a ha => cases h; simpa using after?_eq_some_iff.1 ha
    · obtain ⟨⟨b, a⟩, hb, hc⟩ := Option.map_eq_some_iff.1 h
      cases hc
      rw [ih hb]
      rfl

end QueryTree.Text
