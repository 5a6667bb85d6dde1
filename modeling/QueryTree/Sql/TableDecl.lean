import QueryTree.Sql.Comment
import QueryTree.Text.Blank
import QueryTree.Text.Word
/-!
# CREATE TABLE in a script

`head?` recognises the words of a table declaration at the front of a text, up to the blanks behind
`TABLE`. On it rest the rewriting that guards every declaration with `IF NOT EXISTS`, and the list of
the tables that a script declares. Neither looks at quotes: the words count wherever a word starts.
-/

namespace QueryTree.Sql

open Text (afterKeyword? afterSome? isBlank isWord)

/-- `keyword` and the blanks behind it, of which there must be some. -/
def afterWordAndBlanks? (keyword : String) (s : List Char) : Option (List Char) :=
  (afterKeyword? keyword.toList s).bind (afterSome? isBlank)

/-- `IF NOT EXISTS` and the blanks behind it. -/
def afterGuard? (s : List Char) : Option (List Char) :=
  ((afterWordAndBlanks? "if" s).bind (afterWordAndBlanks? "not")).bind (afterWordAndBlanks? "exists")

/-- `TEMP` or `TEMPORARY` and the blanks behind it. -/
def afterTemp? (s : List Char) : Option (List Char) :=
  (afterWordAndBlanks? "temp" s).orElse fun _ => afterWordAndBlanks? "temporary" s

/-- The words of a declaration: the text of `TEMP` or `TEMPORARY` with its blanks, and what follows
the blanks behind `TABLE`. -/
def head? (s : List Char) : Option (List Char × List Char) := do
  let r ← afterWordAndBlanks? "create" s
  match afterTemp? r with
  | some t => return (r.take (r.length - t.length), ← afterWordAndBlanks? "table" t)
  | none => return ([], ← afterWordAndBlanks? "table" r)

theorem length_afterKeyword?_le {word s r : List Char} (h : afterKeyword? word s = some r) :
    r.length ≤ s.length := by
  induction word generalizing s with
  | nil =>
    cases h
    exact Nat.le_refl _
  | cons w ws ih =>
    cases s with
    | nil => simp [afterKeyword?] at h
    | cons c t =>
      rw [afterKeyword?] at h
      split at h
      · exact Nat.le_succ_of_le (ih h)
      · cases h

theorem length_dropWhile_le {α : Type} (p : α → Bool) (s : List α) :
    (s.dropWhile p).length ≤ s.length := (List.dropWhile_sublist p).length_le

theorem length_afterSome?_lt {p : Char → Bool} {s r : List Char} (h : afterSome? p s = some r) :
    r.length < s.length := by
  cases s with
  | nil => cases h
  | cons c t =>
    rw [afterSome?] at h
    split at h
    · cases h
      exact Nat.lt_succ_of_le (length_dropWhile_le ..)
    · cases h

theorem length_afterWordAndBlanks?_lt {keyword : String} {s r : List Char}
    (h : afterWordAndBlanks? keyword s = some r) : r.length < s.length := by
  obtain ⟨t, ht, hr⟩ := Option.bind_eq_some_iff.1 h
  exact Nat.lt_of_lt_of_le (length_afterSome?_lt hr) (length_afterKeyword?_le ht)

theorem length_afterGuard?_lt {s r : List Char} (h : afterGuard? s = some r) :
    r.length < s.length := by
  obtain ⟨t, ht, hr⟩ := Option.bind_eq_some_iff.1 h
  obtain ⟨u, hu, ht⟩ := Option.bind_eq_some_iff.1 ht
  have := length_afterWordAndBlanks?_lt hu
  have := length_afterWordAndBlanks?_lt ht
  have := length_afterWordAndBlanks?_lt hr
  omega

theorem length_afterTemp?_lt {s r : List Char} (h : afterTemp? s = some r) :
    r.length < s.length := by
  unfold afterTemp? at h
  cases ht : afterWordAndBlanks? "temp" s with
  | none =>
    rw [ht] at h
    exact length_afterWordAndBlanks?_lt h
  | some t =>
    rw [ht] at h
    cases h
    exact length_afterWordAndBlanks?_lt ht

theorem length_head?_lt {s temp r : List Char} (h : head? s = some (temp, r)) :
    r.length < s.length := by
  obtain ⟨t, ht, h⟩ := Option.bind_eq_some_iff.1 h
  have h₁ := length_afterWordAndBlanks?_lt ht
  split at h
  · next u hu =>
    obtain ⟨v, hv, h⟩ := Option.bind_eq_some_iff.1 h
    cases h
    have h₂ := length_afterTemp?_lt hu
    have h₃ := length_afterWordAndBlanks?_lt hv
    omega
  · obtain ⟨v, hv, h⟩ := Option.bind_eq_some_iff.1 h
    cases h
    exact Nat.lt_trans (length_afterWordAndBlanks?_lt hv) h₁

def guardText : List Char := "TABLE IF NOT EXISTS ".toList

/-- Every declaration guarded; `inWord` says that a word character comes before the text. -/
def guardFrom (inWord : Bool) : List Char → List Char
  | [] => []
  | c :: r =>
    if inWord then c :: guardFrom (isWord c) r
    else match _h : head? (c :: r) with
      | some (temp, rest) =>
        "CREATE ".toList ++ temp ++ guardText ++ guardFrom false ((afterGuard? rest).getD rest)
      | none => c :: guardFrom (isWord c) r
termination_by s => s.length
decreasing_by
  · exact Nat.lt_succ_self _
  · have h₁ := length_head?_lt _h
    cases hg : afterGuard? rest with
    | none => exact h₁
    | some g => exact Nat.lt_trans (length_afterGuard?_lt hg) h₁
  · exact Nat.lt_succ_self _

/-- Guards every declaration with `IF NOT EXISTS`, once. -/
def makeIdempotent (script : String) : String := String.ofList (guardFrom false script.toList)

/-- A name, without the one quote or bracket that may stand in front of it. -/
def nameAt? (s : List Char) : Option (List Char) :=
  let bare (s : List Char) : Option (List Char) :=
    let name := s.takeWhile isWord
    if name.isEmpty then none else some name
  match s with
  | c :: r => if isQuote c || c == '[' then bare r else bare s
  | [] => none

/-- The table named behind the guard at the front of the text, and what follows the guard. -/
def guardedAt? (s : List Char) : Option (List Char × List Char) := do
  let r ← afterGuard? s
  return (← nameAt? r, r)

/-- The table that a declaration at the front of the text names, and what follows the words in front
of the name. `IF` is the name where no other follows the guard. -/
def declaredAt? (s : List Char) : Option (List Char × List Char) := do
  let (_, r) ← head? s
  match guardedAt? r with
  | some named => return named
  | none => return (← nameAt? r, r)

/-- What follows a name at the front of the text, without the quote or bracket that closes it; the
flag says that none does, so that a word character comes before what follows. -/
def afterBareName (s : List Char) : Bool × List Char :=
  match s.dropWhile isWord with
  | c :: r => if isQuote c || c == ']' then (false, r) else (true, c :: r)
  | [] => (true, [])

/-- The same, where a quote or bracket may stand in front of the name. -/
def afterName : List Char → Bool × List Char
  | c :: r => afterBareName (if isQuote c || c == '[' then r else c :: r)
  | [] => afterBareName []

theorem length_afterBareName_le (s : List Char) : (afterBareName s).2.length ≤ s.length := by
  have := length_dropWhile_le isWord s
  unfold afterBareName
  split
  · next c r h =>
    rw [h] at this
    split
    · exact Nat.le_of_succ_le this
    · exact this
  · exact Nat.zero_le _

theorem length_afterName_le (s : List Char) : (afterName s).2.length ≤ s.length := by
  cases s with
  | nil => exact Nat.le_refl _
  | cons c r =>
    refine Nat.le_trans (length_afterBareName_le _) ?_
    split
    · exact Nat.le_succ _
    · exact Nat.le_refl _

theorem length_guardedAt?_lt {s name rest : List Char} (h : guardedAt? s = some (name, rest)) :
    rest.length < s.length := by
  obtain ⟨r, hr, h⟩ := Option.bind_eq_some_iff.1 h
  obtain ⟨_, _, h⟩ := Option.bind_eq_some_iff.1 h
  cases h
  exact length_afterGuard?_lt hr

theorem length_declaredAt?_lt {s name rest : List Char} (h : declaredAt? s = some (name, rest)) :
    rest.length < s.length := by
  obtain ⟨⟨temp, r⟩, hr, h⟩ := Option.bind_eq_some_iff.1 h
  have h₁ := length_head?_lt hr
  dsimp only at h
  split at h
  · next hg =>
    cases h
    exact Nat.lt_trans (length_guardedAt?_lt hg) h₁
  · obtain ⟨_, _, h⟩ := Option.bind_eq_some_iff.1 h
    cases h
    exact h₁

/-- The names of all declarations, in order, with repetitions. -/
def declaredFrom (inWord : Bool) : List Char → List (List Char)
  | [] => []
  | c :: r =>
    if inWord then declaredFrom (isWord c) r
    else match _h : declaredAt? (c :: r) with
      | some (name, rest) => name :: declaredFrom (afterName rest).1 (afterName rest).2
      | none => declaredFrom (isWord c) r
termination_by s => s.length
decreasing_by
  · exact Nat.lt_succ_self _
  · exact Nat.lt_of_le_of_lt (length_afterName_le rest) (length_declaredAt?_lt _h)
  · exact Nat.lt_succ_self _

/-- The tables that a script declares outside comments, each once, in order of first appearance. -/
def declaredTables (script : String) : List String :=
  ((declaredFrom false (stripFrom .plain script.toList)).map String.ofList).foldl
    (fun names name => if names.contains name then names else names ++ [name]) []

end QueryTree.Sql
