import QueryTree.Proofs.Database.Name
import QueryTree.Proofs.Sql.Rewriting

/-!
# The table that a statement creates

The name behind a guarded declaration is read off the tokens of the database (`createdTable?`). In a
plain statement the words of a declaration stand at the front or nowhere, and the name behind them is of
word characters (`Plain`). Then nothing behind the front was guarded (`guardFrom_of_bare`), and the
piece of the script that the statement was made of declares the table that the statement creates and no
other (`declaredFrom_of_plain`).
-/

namespace QueryTree.Sql

open Text (isBlank isWord)
open Database.Reading (nameOf? isSymbol)

variable {c : Char} {s r rest temp : List Char} {inWord : Bool}

/-! ### Names as the database reads them -/

/-- The table that tokens name, behind the name of a database if one is given. -/
def tableOf? : List Database.Token → Option String
  | t :: dot :: u :: _ => if isSymbol "." dot then nameOf? u else nameOf? t
  | t :: _ => nameOf? t
  | [] => none

/-- What follows the words of a guarded declaration at the front of the text. -/
def createdAt? (s : List Char) : Option (List Char) := (behindHead? s).bind afterGuard?

/-- The table that a statement creates if it begins with a guarded declaration. -/
def createdTable? (statement : String) : Option String :=
  (createdAt? statement.toList).bind fun r => tableOf? (Database.Token.scan r)

/-- At the front of the text is a name of word characters, bare or in quotes or brackets, and it is not
the name of a database. -/
def namesPlainly (s : List Char) : Bool :=
  (Database.Token.afterGap .blank 0 s).2 == s &&
    match Database.Token.scan s with
    | t :: rest =>
      (nameOf? t).any (fun name => !name.toList.isEmpty && name.toList.all isWord) &&
        !rest.head?.any (isSymbol ".")
    | [] => false

theorem tableOf?_of_not_dot {t : Database.Token} {rest : List Database.Token}
    (h : rest.head?.any (isSymbol ".") = false) : tableOf? (t :: rest) = nameOf? t := by
  cases rest with
  | nil => rfl
  | cons dot rest =>
    cases rest with
    | nil => rfl
    | cons u rest =>
      rw [List.head?_cons, Option.any_some] at h
      rw [tableOf?, h, if_neg Bool.false_ne_true]

theorem nameAt?_of_namesPlainly (h : namesPlainly s = true) :
    ∃ name, nameAt? s = some name ∧ tableOf? (Database.Token.scan s) = some (String.ofList name) := by
  rw [namesPlainly, Bool.and_eq_true, beq_iff_eq] at h
  obtain ⟨hgap, h⟩ := h
  cases s with
  | nil =>
    rw [Database.Token.scan] at h
    cases h
  | cons c r =>
    obtain ⟨trail, rest, hscan⟩ := Database.Reading.exists_scan_eq hgap
    rw [hscan] at h ⊢
    rw [Bool.and_eq_true, Option.any_eq_true, Bool.not_eq_true'] at h
    obtain ⟨⟨name, hname, hword⟩, hdot⟩ := h
    rw [Bool.and_eq_true, List.all_eq_true] at hword
    have hplain : IsWordName name.toList := ⟨by simpa using hword.1, hword.2⟩
    refine ⟨name.toList, Database.Reading.nameAt?_of_nameOf? hname hplain, ?_⟩
    rw [tableOf?_of_not_dot hdot, hname, String.ofList_toList]

/-! ### Texts without declarations -/

/-- The words of a declaration stand nowhere in the text; `inWord` says that a word character comes
before it. -/
def bare (inWord : Bool) : List Char → Bool
  | [] => true
  | c :: r => (inWord || (head? (c :: r)).isNone) && bare (isWord c) r

/-- A statement whose declaration, if it holds one, is guarded and names its table plainly. -/
structure Plain (s : List Char) : Prop where
  /-- The words of a declaration stand at the front or nowhere. -/
  alone : ∀ front c rest, s = front ++ c :: rest → isWord c = false → head? rest = none
  /-- A guard and a plain name follow them. -/
  named : ∀ r, behindHead? s = some r → ∃ r', afterGuard? r = some r' ∧ namesPlainly r' = true

theorem bare_cons : bare inWord (c :: s) = true ↔
    (inWord = true ∨ head? (c :: s) = none) ∧ bare (isWord c) s = true := by
  rw [bare, Bool.and_eq_true, Bool.or_eq_true, Option.isNone_iff_eq_none]

theorem bare_iff : bare inWord s = true ↔ (inWord = true ∨ head? s = none) ∧
    ∀ front c rest, s = front ++ c :: rest → isWord c = false → head? rest = none := by
  induction s generalizing inWord with
  | nil => exact ⟨fun _ => ⟨.inr rfl, by simp⟩, fun _ => rfl⟩
  | cons c s ih =>
    rw [bare_cons, ih]
    refine and_congr_right fun _ => ⟨fun ⟨hs, hlater⟩ front d rest heq hd => ?_, fun h => ⟨?_, ?_⟩⟩
    · cases front with
      | nil =>
        obtain ⟨rfl, rfl⟩ := List.cons.inj heq
        exact hs.resolve_left (by simp [hd])
      | cons e front => exact hlater front d rest (List.cons.inj heq).2 hd
    · exact (Bool.eq_false_or_eq_true (isWord c)).imp_right fun hc => h [] c s rfl hc
    · rintro front d rest rfl hd
      exact h (c :: front) d rest rfl hd

theorem plain_iff : Plain s ↔ bare true s = true ∧
    ((behindHead? s).all fun r => (afterGuard? r).any namesPlainly) = true := by
  rw [bare_iff, Option.all_eq_true]
  simp only [Option.any_eq_true]
  exact ⟨fun h => ⟨⟨.inl trivial, h.alone⟩, h.named⟩, fun h => ⟨h.1.2, h.2⟩⟩

instance (s : List Char) : Decidable (Plain s) := decidable_of_iff' _ plain_iff

theorem head?_of_bare (h : bare false s = true) : head? s = none := by
  cases s with
  | nil => rfl
  | cons c s => exact (bare_cons.1 h).1.resolve_left Bool.false_ne_true

theorem bare_of_bare (h : bare inWord s = true) : bare true s = true := by
  cases s with
  | nil => rfl
  | cons c s => exact bare_cons.2 ⟨.inl rfl, (bare_cons.1 h).2⟩

theorem exists_bare_of_suffix (hs : s <:+ r) (h : bare inWord r = true) :
    ∃ inWord', bare inWord' s = true := by
  obtain ⟨front, rfl⟩ := hs
  induction front generalizing inWord with
  | nil => exact ⟨inWord, h⟩
  | cons c front ih => exact ih (bare_cons.1 h).2

theorem bare_behind_blank (hc : isBlank c = true) (h : bare inWord (r ++ c :: s) = true) :
    bare false s = true := by
  obtain ⟨_, hcons⟩ := exists_bare_of_suffix (List.suffix_append r (c :: s)) h
  have hs := (bare_cons.1 hcons).2
  rwa [(facts_of_isAside (isAside_of_isBlank hc)).1] at hs

theorem declaredFrom_of_bare (h : bare inWord s = true) : declaredFrom inWord s = [] := by
  induction s generalizing inWord with
  | nil => rw [declaredFrom_nil]
  | cons c s ih =>
    obtain ⟨hhead, hs⟩ := bare_cons.1 h
    rcases hhead with rfl | hhead
    · rw [declaredFrom_of_inWord, ih hs]
    · have hnone : declaredAt? (c :: s) = none := by
        rw [declaredAt?_eq, behindHead?, hhead]
        rfl
      rw [declaredFrom_of_none hnone, ih hs]

theorem bare_afterBareName (h : bare inWord s = true) :
    bare (afterBareName s).1 (afterBareName s).2 = true := by
  obtain ⟨_, hrest⟩ := exists_bare_of_suffix (List.dropWhile_suffix isWord) h
  rw [afterBareName]
  split
  · next c r hdrop =>
    rw [hdrop] at hrest
    split
    · next hends =>
      have hword : isWord c = false := by
        rcases Bool.or_eq_true_iff.1 hends with hquote | hbracket
        · exact (facts_of_isMark (isMark_of_isQuote hquote)).2.2
        · rw [beq_iff_eq.1 hbracket]
          decide
      have hr := (bare_cons.1 hrest).2
      rwa [hword] at hr
    · exact bare_of_bare hrest
  · rfl

theorem bare_afterName (h : bare inWord s = true) : bare (afterName s).1 (afterName s).2 = true := by
  cases s with
  | nil => rfl
  | cons c s =>
    rw [afterName]
    split
    · exact bare_afterBareName (bare_cons.1 h).2
    · exact bare_afterBareName h

/-! ### Guarding and trimming -/

theorem Visible.trimEnd (h : Visible s) : Visible (Text.trimEnd s) :=
  fun c hc => h c (Text.head?_trimEnd hc)

theorem trimEnd_guard (r : List Char) :
    Text.trimEnd ("IF NOT EXISTS ".toList ++ r) =
      'I' :: Text.trimEnd ("F NOT EXISTS ".toList ++ r) := by
  have hguard : "IF NOT EXISTS ".toList = 'I' :: "F NOT EXISTS ".toList := by decide
  rw [hguard]
  exact Text.trimEnd_append_cons (by decide) [] _

/-- A guarded declaration without the blanks at the end of the text. -/
theorem trimEnd_guarded (temp r : List Char) :
    Text.trimEnd ("CREATE ".toList ++ temp ++ guardText ++ r) =
      "CREATE ".toList ++ (temp ++ ("TABLE ".toList ++ Text.trimEnd ("IF NOT EXISTS ".toList ++ r))) := by
  have hguard : guardText = "TABLE ".toList ++ 'I' :: "F NOT EXISTS ".toList := by decide
  have hall := Text.trimEnd_append_cons (c := 'I') (by decide)
    ("CREATE ".toList ++ (temp ++ "TABLE ".toList)) ("F NOT EXISTS ".toList ++ r)
  rw [hguard, trimEnd_guard]
  simpa only [List.append_assoc, List.cons_append] using hall

theorem visible_trimEnd_guard (r : List Char) :
    Visible (Text.trimEnd ("IF NOT EXISTS ".toList ++ r)) := by
  rw [trimEnd_guard]
  exact visible_cons (by decide) _

theorem bare_trimEnd_cons (h : bare inWord (Text.trimEnd (c :: s)) = true) :
    bare (isWord c) (Text.trimEnd s) = true := by
  rw [Text.trimEnd_cons] at h
  split at h
  · next hempty =>
    rw [List.isEmpty_iff.1 (Bool.and_eq_true_iff.1 hempty).1]
    rfl
  · exact (bare_cons.1 h).2

/-- Where a guarded text holds no declaration, nothing was guarded. -/
theorem guardFrom_of_bare (h : bare inWord (Text.trimEnd (guardFrom inWord s)) = true) :
    guardFrom inWord s = s ∧ bare inWord s = true := by
  fun_induction guardFrom inWord s with
  | case1 => exact ⟨rfl, rfl⟩
  | case2 c s ih =>
    obtain ⟨hs, hbare⟩ := ih (bare_trimEnd_cons h)
    exact ⟨by rw [hs], bare_cons.2 ⟨.inl rfl, hbare⟩⟩
  | case3 inWord c s hword temp rest hhead ih =>
    rw [Bool.not_eq_true] at hword
    rw [hword, trimEnd_guarded] at h
    have hnone := head?_of_bare h
    rw [head?_respelled hhead (visible_trimEnd_guard _)] at hnone
    cases hnone
  | case4 inWord c s hword hhead ih =>
    obtain ⟨hs, hbare⟩ := ih (bare_trimEnd_cons h)
    exact ⟨by rw [hs], bare_cons.2 ⟨.inr hhead, hbare⟩⟩

/-! ### One statement -/

/-- What a guarded declaration with a plain name behind it declares. -/
theorem declaredFrom_of_head? (hhead : head? s = some (temp, rest))
    (hbare : bare false ((afterGuard? rest).getD rest) = true) {name : List Char}
    (hname : nameAt? ((afterGuard? rest).getD rest) = some name) :
    declaredFrom false s = [name] := by
  have hat : declaredAt? s = some (name, (afterGuard? rest).getD rest) := by
    rw [declaredAt?_eq, behindHead?, hhead, Option.map_some, Option.bind_some, tableAt?]
    cases hguard : afterGuard? rest with
    | none =>
      rw [hguard] at hname
      rw [Option.bind_none, Option.orElse_none, named?]
      exact congrArg (Option.map (·, rest)) hname
    | some r =>
      rw [hguard] at hname
      rw [Option.bind_some, named?]
      dsimp only [Option.getD_some] at hname ⊢
      rw [hname]
      rfl
  cases s with
  | nil => cases hhead
  | cons c s => rw [declaredFrom_of_some hat, declaredFrom_of_bare (bare_afterName hbare)]

/-- Where a guard is read in a trimmed text, something follows it. -/
theorem trimEnd_of_afterGuard? {r' : List Char} (hr : Visible r)
    (h : afterGuard? (Text.trimEnd ("IF NOT EXISTS ".toList ++ r)) = some r') :
    Text.trimEnd ("IF NOT EXISTS ".toList ++ r) = "IF NOT EXISTS".toList ++ ' ' :: Text.trimEnd r ∧
      r' = Text.trimEnd r := by
  have hword : "IF NOT EXISTS".toList = "IF NOT EXIST".toList ++ ['S'] := by decide
  have hguard : ∀ s, "IF NOT EXISTS ".toList ++ s = "IF NOT EXISTS".toList ++ ' ' :: s := by
    have hblank : "IF NOT EXISTS ".toList = "IF NOT EXISTS".toList ++ [' '] := by decide
    intro s
    rw [hblank, List.append_assoc]
    rfl
  have htrim : Text.trimEnd ("IF NOT EXISTS ".toList ++ r) =
      "IF NOT EXISTS".toList ++ Text.trimEnd (' ' :: r) := by
    rw [hguard, hword, List.append_assoc, List.append_assoc]
    exact Text.trimEnd_append_cons (by decide) _ _
  rw [Text.trimEnd_cons] at htrim
  split at htrim
  · have hnone : afterGuard? ("IF NOT EXISTS".toList ++ []) = none := by decide
    rw [htrim, hnone] at h
    cases h
  · rw [htrim, ← hguard, afterGuard?_respelled hr.trimEnd] at h
    exact ⟨htrim, (Option.some.inj h).symm⟩

theorem nameAt?_trimEnd (s : List Char) : nameAt? (Text.trimEnd s) = nameAt? s := by
  obtain ⟨b, heq, hb⟩ := Text.exists_trimEnd_append s
  have hends : Ends b := .inr hb
  conv_rhs => rw [heq, hends.nameAt?_append]

/-- What begins with no declaration declares nothing, and its statement creates nothing. -/
theorem declaredFrom_of_head?_none (hhead : head? s = none)
    (h : Plain (Text.trimEnd (guardFrom false s))) :
    declaredFrom false s = [] ∧ createdAt? (Text.trimEnd (guardFrom false s)) = none := by
  cases s with
  | nil =>
    rw [declaredFrom_nil, guardFrom_nil]
    exact ⟨rfl, rfl⟩
  | cons c r =>
    rw [guardFrom_of_none hhead] at h ⊢
    obtain ⟨hr, hbare⟩ := guardFrom_of_bare (bare_trimEnd_cons (plain_iff.1 h).1)
    rw [hr] at h ⊢
    refine ⟨declaredFrom_of_bare (bare_cons.2 ⟨.inr hhead, hbare⟩), ?_⟩
    rw [createdAt?, Option.bind_eq_none_iff]
    intro r₁ hbehind
    obtain ⟨r₂, hguard, -⟩ := h.named _ hbehind
    obtain ⟨⟨temp, _⟩, hmore, rfl⟩ := Option.map_eq_some_iff.1 hbehind
    -- with the blanks back at its end the text still begins with the declaration
    obtain ⟨b, heq, -⟩ := Text.exists_trimEnd_append (c :: r)
    have hall := head?_append_of_ne_nil hmore (by rintro rfl; cases hguard) b
    rw [← heq, hhead] at hall
    cases hall

/-- What begins with a declaration declares the table that its statement creates. -/
theorem declaredFrom_of_head?_some (hhead : head? s = some (temp, rest))
    (h : Plain (Text.trimEnd (guardFrom false s))) :
    ∃ name r, declaredFrom false s = [name] ∧
      createdAt? (Text.trimEnd (guardFrom false s)) = some r ∧
      tableOf? (Database.Token.scan r) = some (String.ofList name) := by
  rw [guardFrom_of_head? hhead, trimEnd_guarded] at h ⊢
  generalize hrest : guardFrom false ((afterGuard? rest).getD rest) = guarded at h ⊢
  have hvisible : Visible guarded := hrest ▸ visible_guardFrom (visible_behind hhead)
  have hbehind := congrArg (Option.map Prod.snd) (head?_respelled hhead (visible_trimEnd_guard guarded))
  obtain ⟨r, hguard, hnames⟩ := h.named _ hbehind
  obtain ⟨htrim, rfl⟩ := trimEnd_of_afterGuard? hvisible hguard
  have hbare := (plain_iff.1 h).1
  rw [htrim, ← List.append_assoc, ← List.append_assoc, ← List.append_assoc] at hbare
  have hfree := bare_behind_blank (by decide) hbare
  rw [← hrest] at hfree
  obtain ⟨hsame, hbare⟩ := guardFrom_of_bare hfree
  obtain ⟨name, hname, hread⟩ := nameAt?_of_namesPlainly hnames
  rw [← hrest, hsame, nameAt?_trimEnd] at hname
  refine ⟨name, _, declaredFrom_of_head? hhead hbare hname, ?_, hread⟩
  rw [createdAt?, behindHead?, hbehind, Option.map_some, Option.bind_some, hguard]

/-- The tables of a piece are those that its statement creates. -/
theorem declaredFrom_of_plain (h : Plain (Text.trim (guardFrom false s))) :
    (declaredFrom false s).map String.ofList =
      (createdTable? (String.ofList (Text.trim (guardFrom false s)))).toList := by
  rw [Text.trim, trimStart_guardFrom] at h
  rw [Text.trim, trimStart_guardFrom, ← declaredFrom_trimStart, createdTable?, String.toList_ofList]
  cases hhead : head? (Text.trimStart s) with
  | none =>
    obtain ⟨hdeclared, hcreated⟩ := declaredFrom_of_head?_none hhead h
    rw [hdeclared, hcreated]
    rfl
  | some declared =>
    obtain ⟨name, r, hdeclared, hcreated, hread⟩ := declaredFrom_of_head?_some hhead h
    rw [hdeclared, hcreated, Option.bind_some, hread]
    rfl

end QueryTree.Sql
