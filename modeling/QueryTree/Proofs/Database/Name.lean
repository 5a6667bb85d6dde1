import QueryTree.Database.Grammar
import QueryTree.Proofs.Sql.Declared
import QueryTree.Proofs.Sql.Guard

/-!
# Names at the front of a text

A name is bare, in quotes or in brackets (`nameOf?_lexeme`). One of word characters alone is read the
same by the database and by what finds the names of declared tables (`nameAt?_of_nameOf?`).
-/

namespace QueryTree.Database.Reading

open Token (lexeme quoted isNameStart isNamePart)

variable {c q : Char} {r content : List Char} {name text trail : String} {kind : TokenKind} {n : Nat}

/-- The token of this kind is no name. -/
def Nameless (kind : TokenKind) : Prop := ∀ text trail, nameOf? ⟨kind, text, trail⟩ = none

theorem nameless_blobLexeme (r : List Char) : Nameless (Token.blobLexeme r).1 := by
  intro text trail
  unfold Token.blobLexeme
  dsimp only
  split <;> rfl

theorem nameless_numberLexeme (s : List Char) : Nameless (Token.numberLexeme s).1 := by
  intro text trail
  unfold Token.numberLexeme Token.numberOf
  dsimp only
  split
  · split
    · rfl
    · split
      · rfl
      · split <;> rfl
  · rfl

theorem content_eq {content? : Option (List Char)} {make : String → TokenKind}
    (hmake : ∀ s, nameOf? ⟨make s, text, trail⟩ = some s)
    (h : nameOf? ⟨((content?.map String.ofList).map make).getD .illegal, text, trail⟩ = some name) :
    content? = some name.toList := by
  cases content? with
  | none => cases h
  | some content =>
    obtain rfl : String.ofList content = name := Option.some.inj ((hmake _).symm.trans h)
    rw [String.toList_ofList]

theorem exists_of_takeWhile_lt (h : (r.takeWhile (· != c)).length < r.length) :
    ∃ rest, r = r.takeWhile (· != c) ++ c :: rest := by
  have hsplit := List.takeWhile_append_dropWhile (p := (· != c)) (l := r)
  cases hdrop : r.dropWhile (· != c) with
  | nil =>
    rw [hdrop, List.append_nil] at hsplit
    rw [hsplit] at h
    exact absurd h (Nat.lt_irrefl _)
  | cons d rest =>
    have hhead := List.head?_dropWhile_not (· != c) r
    rw [hdrop] at hhead
    obtain rfl : d = c := by simpa using hhead
    exact ⟨rest, by rw [← hdrop, hsplit]⟩

/-- A name is bare, in quotes or in brackets. -/
theorem nameOf?_lexeme (h : nameOf? ⟨(lexeme c r).1, text, trail⟩ = some name) :
    (lexeme c r = (.word, (r.takeWhile isNamePart).length) ∧ name = text) ∨
      (Sql.isQuote c = true ∧ (quoted c r).1 = some name.toList) ∨
      (c = '[' ∧ ∃ rest, r = name.toList ++ ']' :: rest) := by
  have hnameless : ∀ {kind}, Nameless kind → nameOf? ⟨kind, text, trail⟩ ≠ some name := by
    intro kind hkind hname
    rw [hkind] at hname
    cases hname
  generalize hlexeme : lexeme c r = l at h ⊢
  unfold lexeme at hlexeme
  -- in the order of the lexer: texts, names in quotes, names in brackets, then what is no name
  split at hlexeme
  · next hc =>
    subst hc hlexeme
    exact .inr (.inl ⟨rfl, content_eq (fun _ => rfl) h⟩)
  split at hlexeme
  · next hc =>
    subst hlexeme
    exact .inr (.inl ⟨by rcases hc with rfl | rfl <;> rfl, content_eq (fun _ => rfl) h⟩)
  split at hlexeme
  · next hc =>
    dsimp only at hlexeme
    split at hlexeme
    · next hcloses =>
      subst hlexeme
      obtain rfl : String.ofList _ = name := Option.some.inj h
      rw [String.toList_ofList]
      exact .inr (.inr ⟨hc, exists_of_takeWhile_lt hcloses⟩)
    · subst hlexeme
      cases h
  split at hlexeme
  · subst hlexeme
    cases h
  split at hlexeme
  · subst hlexeme
    dsimp only at h
    split at h <;> cases h
  split at hlexeme
  · subst hlexeme
    exact absurd h (hnameless (nameless_blobLexeme _))
  split at hlexeme
  · subst hlexeme
    rw [nameOf?] at h
    dsimp only at h
    split at h
    · cases h
    · cases h
      exact .inl ⟨rfl, rfl⟩
  split at hlexeme
  · subst hlexeme
    exact absurd h (hnameless (nameless_numberLexeme _))
  split at hlexeme
  · subst hlexeme
    cases h
  split at hlexeme <;>
  · subst hlexeme
    cases h

/-- Where the content holds no quote, it reaches up to the first one. -/
theorem exists_of_quoted (h : (quoted q r).1 = some content) (hq : q ∉ content) :
    ∃ rest, r = content ++ q :: rest := by
  induction r generalizing content with
  | nil => cases h
  | cons d r ih =>
    unfold quoted at h
    split at h
    · next hd =>
      subst hd
      split at h
      · split at h
        · obtain ⟨content', -, rfl⟩ := Option.map_eq_some_iff.1 h
          exact absurd List.mem_cons_self hq
        · cases h
          exact ⟨_, rfl⟩
      · cases h
        exact ⟨[], rfl⟩
    · obtain ⟨content', hcontent', rfl⟩ := Option.map_eq_some_iff.1 h
      obtain ⟨rest, rfl⟩ := ih hcontent' fun hmem => hq (List.mem_cons_of_mem d hmem)
      exact ⟨rest, rfl⟩

theorem isNamePart_of_isWord (h : Text.isWord c = true) : isNamePart c = true := by
  rw [Text.isWord] at h
  split at h
  · rw [isNamePart, h, Bool.true_or, Bool.true_or]
  · next hc =>
    rw [isNamePart, decide_eq_true (Nat.le_of_not_lt hc), Bool.or_true]

theorem takeWhile_isWord (h : ∀ d ∈ r.takeWhile isNamePart, Text.isWord d = true) :
    r.takeWhile Text.isWord = r.takeWhile isNamePart := by
  induction r with
  | nil => rfl
  | cons d r ih =>
    cases hd : Text.isWord d with
    | true =>
      have hpart := isNamePart_of_isWord hd
      rw [List.takeWhile_cons, hpart, if_pos rfl] at h
      rw [List.takeWhile_cons, List.takeWhile_cons, hd, hpart, if_pos rfl, if_pos rfl,
        ih (List.forall_mem_cons.1 h).2]
    | false =>
      cases hpart : isNamePart d with
      | true =>
        rw [List.takeWhile_cons, hpart, if_pos rfl] at h
        rw [(List.forall_mem_cons.1 h).1] at hd
        cases hd
      | false =>
        rw [List.takeWhile_cons, List.takeWhile_cons, hd, hpart]
        rfl

theorem nameAt?_enclosed {d : Char} {rest : List Char} (hc : (Sql.isQuote c || c == '[') = true)
    (hd : Text.isWord d = false) (h : Sql.IsWordName content) :
    Sql.nameAt? (c :: (content ++ d :: rest)) = some content := by
  have htake : (content ++ d :: rest).takeWhile Text.isWord = content := by
    rw [List.takeWhile_append_of_pos h.2, List.takeWhile_cons, hd, if_neg Bool.false_ne_true,
      List.append_nil]
  rw [Sql.nameAt?, if_pos hc]
  dsimp only
  rw [htake, if_neg (by simpa using h.1)]

theorem nameAt?_bare (h : Sql.IsWordName (c :: r.takeWhile isNamePart)) :
    Sql.nameAt? (c :: r) = some (c :: r.takeWhile isNamePart) := by
  obtain ⟨hc, hr⟩ := List.forall_mem_cons.1 h.2
  have hopens : (Sql.isQuote c || c == '[') = false := by
    rw [← Bool.not_eq_true, Bool.or_eq_true, beq_iff_eq]
    rintro (hquote | rfl)
    · rw [(Sql.facts_of_isMark (Sql.isMark_of_isQuote hquote)).2.2] at hc
      cases hc
    · exact absurd hc (by decide)
  rw [Sql.nameAt?, hopens, if_neg Bool.false_ne_true]
  dsimp only
  rw [List.takeWhile_cons, hc, if_pos rfl, takeWhile_isWord hr]
  rfl

/-- A name of word characters, in whatever quotes, is the one that is declared. -/
theorem nameAt?_of_nameOf?
    (h : nameOf? ⟨(lexeme c r).1, String.ofList (c :: r.take (lexeme c r).2), trail⟩ = some name)
    (hname : Sql.IsWordName name.toList) : Sql.nameAt? (c :: r) = some name.toList := by
  rcases nameOf?_lexeme h with ⟨hlexeme, rfl⟩ | ⟨hquote, hcontent⟩ | ⟨rfl, rest, rfl⟩
  · have htake : r.take (r.takeWhile isNamePart).length = r.takeWhile isNamePart :=
      (List.prefix_iff_eq_take.1 (List.takeWhile_prefix _)).symm
    rw [hlexeme, htake, String.toList_ofList] at hname ⊢
    exact nameAt?_bare hname
  · have hword := (Sql.facts_of_isMark (Sql.isMark_of_isQuote hquote)).2.2
    obtain ⟨rest, rfl⟩ := exists_of_quoted hcontent (hname.not_mem hword)
    exact nameAt?_enclosed (by rw [hquote, Bool.true_or]) hword hname
  · exact nameAt?_enclosed rfl (by decide) hname

theorem exists_scan_eq {s : List Char} (h : (Token.afterGap .blank 0 s).2 = c :: r) :
    ∃ trail rest, Token.scan s =
      ⟨(lexeme c r).1, String.ofList (c :: r.take (lexeme c r).2), trail⟩ :: rest := by
  rw [Token.scan]
  split
  · next hnil =>
    rw [hnil] at h
    cases h
  · next c' r' heq =>
    rw [h] at heq
    obtain ⟨rfl, rfl⟩ := List.cons.inj heq
    exact ⟨_, _, rfl⟩

end QueryTree.Database.Reading
