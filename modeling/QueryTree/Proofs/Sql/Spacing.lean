import QueryTree.Proofs.Sql.Words

/-!
# Declared names and blanks

How many blanks stand at a place, and which, does not matter to the names that a text declares:
`squeeze` leaves one space of them (`declaredFrom_squeeze`), and those at both ends of a text declare
nothing. So a script declares the same names when its lines are tidied (`declaredFrom_tidyFrom`). A
semicolon ends every declaration in front of it (`declaredFrom_append`).
-/

namespace QueryTree.Sql

open Text (afterKeyword? afterSome? isBlank isWord foldCase)

variable {c : Char} {s r rest name x a : List Char} {keyword : String} {inWord : Bool}
  {t u v : List Char → List Char} {f g : List Char → Option (List Char)}

/-! ### Reading names -/

/-- A name at the front of the text, and the text. -/
def named? (s : List Char) : Option (List Char × List Char) := (nameAt? s).map (·, s)

/-- What follows the words of a declaration at the front of the text. -/
def behindHead? (s : List Char) : Option (List Char) := (head? s).map Prod.snd

theorem behindHead?_eq (s : List Char) :
    behindHead? s = (afterWordAndBlanks? "create" s).bind fun r =>
      afterWordAndBlanks? "table" ((afterTemp? r).getD r) := by
  rw [behindHead?, head?_eq]
  cases afterWordAndBlanks? "create" s with
  | none => rfl
  | some r =>
    rw [Option.bind_some, Option.bind_some]
    cases afterTemp? r with
    | none =>
      dsimp only [Option.getD_none]
      cases afterWordAndBlanks? "table" r <;> rfl
    | some t =>
      dsimp only [Option.getD_some]
      cases afterWordAndBlanks? "table" t <;> rfl

/-- The name is behind the guard, if one is there, and else behind the words of the declaration. -/
def tableAt? (s : List Char) : Option (List Char × List Char) :=
  ((afterGuard? s).bind named?).orElse fun _ => named? s

theorem guardedAt?_eq (s : List Char) : guardedAt? s = (afterGuard? s).bind named? := by
  rw [guardedAt?]
  cases afterGuard? s with
  | none => rfl
  | some r =>
    rw [Option.bind_some, named?]
    cases hname : nameAt? r with
    | none => simp [hname]
    | some name => simp [hname]

theorem declaredAt?_eq (s : List Char) : declaredAt? s = (behindHead? s).bind tableAt? := by
  rw [declaredAt?, behindHead?]
  cases head? s with
  | none => rfl
  | some p =>
    rw [Option.map_some, Option.bind_some, tableAt?, ← guardedAt?_eq, named?]
    cases hguarded : guardedAt? p.2 with
    | some named => simp [hguarded]
    | none => cases hname : nameAt? p.2 <;> simp [hguarded, hname]

theorem declaredFrom_nil (inWord : Bool) : declaredFrom inWord [] = [] := by
  rw [declaredFrom]

theorem declaredFrom_of_inWord (c : Char) (s : List Char) :
    declaredFrom true (c :: s) = declaredFrom (isWord c) s := by
  rw [declaredFrom, if_pos rfl]

theorem declaredFrom_of_none (h : declaredAt? (c :: s) = none) (inWord : Bool) :
    declaredFrom inWord (c :: s) = declaredFrom (isWord c) s := by
  rw [declaredFrom]
  split
  · rfl
  · split
    · next heq => rw [h] at heq; cases heq
    · rfl

theorem declaredFrom_of_some (h : declaredAt? (c :: s) = some (name, rest)) :
    declaredFrom false (c :: s) =
      name :: declaredFrom (afterName rest).1 (afterName rest).2 := by
  rw [declaredFrom, if_neg Bool.false_ne_true]
  split
  · next heq =>
    rw [h] at heq
    cases heq
    rfl
  · next heq => rw [h] at heq; cases heq

/-! ### Characters beside names -/

/-- A character that is no part of a name and no quote or bracket around one. -/
def isAside (c : Char) : Bool := !isWord c && !isQuote c && c != '[' && c != ']'

theorem facts_of_isAside (h : isAside c = true) :
    isWord c = false ∧ isQuote c = false ∧ c ≠ '[' ∧ c ≠ ']' := by
  simpa [isAside, and_assoc] using h

/-- The blank characters, by number. -/
def blanks : List Nat :=
  [9, 10, 11, 12, 13, 0x20, 0x85, 0xA0, 0x1680, 0x2000, 0x2001, 0x2002, 0x2003, 0x2004, 0x2005, 0x2006,
    0x2007, 0x2008, 0x2009, 0x200A, 0x2028, 0x2029, 0x202F, 0x205F, 0x3000]

theorem isAside_of_isBlank (h : isBlank c = true) : isAside c = true := by
  have hmem : c.toNat ∈ blanks := by
    simp only [isBlank, Bool.or_eq_true, Bool.and_eq_true, decide_eq_true_eq, beq_iff_eq] at h
    simp only [blanks, List.mem_cons, List.not_mem_nil, or_false]
    omega
  have hall : (blanks.all fun n => isAside (Char.ofNat n)) = true := by decide +kernel
  rw [← Char.ofNat_toNat c]
  exact List.all_eq_true.1 hall _ hmem

theorem nameAt?_of_isAside (h : isAside c = true) (s : List Char) : nameAt? (c :: s) = none := by
  obtain ⟨hword, hquote, hbracket, -⟩ := facts_of_isAside h
  rw [nameAt?, hquote, beq_false_of_ne hbracket, Bool.or_false, if_neg Bool.false_ne_true]
  dsimp only
  rw [List.takeWhile_cons, hword, if_neg Bool.false_ne_true]
  rfl

/-! ### One space for every run of blanks -/

/-- Every run of blanks as one space. -/
def squeeze : List Char → List Char
  | [] => []
  | c :: r =>
    if isBlank c then if r.head?.any isBlank then squeeze r else ' ' :: squeeze r
    else c :: squeeze r

theorem squeeze_of_visible (hc : isBlank c = false) (s : List Char) :
    squeeze (c :: s) = c :: squeeze s := by
  rw [squeeze, hc, if_neg Bool.false_ne_true]

theorem squeeze_of_blank (hc : isBlank c = true) (s : List Char) :
    squeeze (c :: s) = ' ' :: squeeze (s.dropWhile isBlank) := by
  induction s generalizing c with
  | nil => rw [squeeze, if_pos hc]; rfl
  | cons d s ih =>
    rw [squeeze, if_pos hc, List.head?_cons, Option.any_some, List.dropWhile_cons]
    cases hd : isBlank d with
    | true => rw [if_pos rfl, if_pos rfl, ih hd]
    | false => rw [if_neg Bool.false_ne_true, if_neg Bool.false_ne_true]

theorem Visible.squeeze (h : Visible s) : Visible (squeeze s) := by
  cases s with
  | nil => exact visible_nil
  | cons c s =>
    rw [squeeze_of_visible (h c rfl)]
    exact visible_cons (h c rfl) _

theorem nameAt?_squeeze (s : List Char) : nameAt? (squeeze s) = nameAt? s := by
  have htake : ∀ s : List Char, (squeeze s).takeWhile isWord = s.takeWhile isWord := by
    intro s
    induction s with
    | nil => rfl
    | cons c s ih =>
      cases hc : isBlank c with
      | true =>
        rw [squeeze_of_blank hc, List.takeWhile_cons, List.takeWhile_cons,
          (facts_of_isAside (isAside_of_isBlank hc)).1]
        rfl
      | false => rw [squeeze_of_visible hc, List.takeWhile_cons, List.takeWhile_cons, ih]
  cases s with
  | nil => rfl
  | cons c s =>
    cases hc : isBlank c with
    | true =>
      rw [squeeze_of_blank hc, nameAt?_of_isAside (by decide),
        nameAt?_of_isAside (isAside_of_isBlank hc)]
    | false =>
      rw [squeeze_of_visible hc, nameAt?, nameAt?, ← squeeze_of_visible hc]
      dsimp only
      rw [htake, htake]

theorem dropWhile_isWord_squeeze (s : List Char) :
    (squeeze s).dropWhile isWord = squeeze (s.dropWhile isWord) := by
  induction s with
  | nil => rfl
  | cons c s ih =>
    cases hc : isBlank c with
    | true =>
      rw [squeeze_of_blank hc, List.dropWhile_cons, List.dropWhile_cons,
        (facts_of_isAside (isAside_of_isBlank hc)).1, if_neg Bool.false_ne_true, squeeze_of_blank hc]
      rfl
    | false =>
      rw [squeeze_of_visible hc, List.dropWhile_cons, List.dropWhile_cons, ih]
      split
      · rfl
      · rw [squeeze_of_visible hc]

theorem afterBareName_squeeze (s : List Char) :
    afterBareName (squeeze s) = ((afterBareName s).1, squeeze (afterBareName s).2) := by
  rw [afterBareName, afterBareName, dropWhile_isWord_squeeze]
  cases s.dropWhile isWord with
  | nil => rfl
  | cons c r =>
    cases hc : isBlank c with
    | true =>
      obtain ⟨-, hquote, -, hbracket⟩ := facts_of_isAside (isAside_of_isBlank hc)
      have hends : (isQuote c || c == ']') = false := by
        rw [hquote, beq_false_of_ne hbracket, Bool.or_false]
      rw [squeeze_of_blank hc]
      dsimp only
      rw [hends, if_neg Bool.false_ne_true, squeeze_of_blank hc]
      rfl
    | false =>
      rw [squeeze_of_visible hc]
      dsimp only
      split
      · rfl
      · rw [squeeze_of_visible hc]

theorem afterName_squeeze (s : List Char) :
    afterName (squeeze s) = ((afterName s).1, squeeze (afterName s).2) := by
  cases s with
  | nil => rfl
  | cons c s =>
    cases hc : isBlank c with
    | true =>
      obtain ⟨-, hquote, hbracket, -⟩ := facts_of_isAside (isAside_of_isBlank hc)
      have hopens : (isQuote c || c == '[') = false := by
        rw [hquote, beq_false_of_ne hbracket, Bool.or_false]
      have hspace : afterName (squeeze (c :: s)) = afterBareName (squeeze (c :: s)) := by
        rw [squeeze_of_blank hc]
        rfl
      rw [hspace, afterBareName_squeeze, afterName, hopens, if_neg Bool.false_ne_true]
    | false =>
      rw [squeeze_of_visible hc, afterName, afterName, ← squeeze_of_visible hc]
      split
      · exact afterBareName_squeeze s
      · exact afterBareName_squeeze (c :: s)

/-! ### Readers in a changed text -/

/-- The reader finds in a text changed by `t` what it finds in the text, and leaves the rest changed
by `u`. -/
def Commutes (t u : List Char → List Char) (f : List Char → Option (List Char)) : Prop :=
  ∀ s, f (t s) = (f s).map u

theorem Commutes.bind (hf : Commutes t u f) (hg : Commutes u v g) :
    Commutes t v fun s => (f s).bind g := by
  intro s
  dsimp only
  rw [hf]
  cases f s with
  | none => rfl
  | some r => exact hg r

theorem Commutes.orElse (hf : Commutes t u f) (hg : Commutes t u g) :
    Commutes t u fun s => (f s).orElse fun _ => g s := by
  intro s
  dsimp only
  rw [hf, hg]
  cases f s <;> rfl

theorem commutes_behindHead? (hcreate : Commutes t u (afterWordAndBlanks? "create"))
    (htemp : Commutes u u afterTemp?) (htable : Commutes u u (afterWordAndBlanks? "table")) :
    Commutes t u behindHead? := by
  intro s
  rw [behindHead?_eq, behindHead?_eq, hcreate]
  cases afterWordAndBlanks? "create" s with
  | none => rfl
  | some r =>
    dsimp only [Option.map_some, Option.bind_some]
    rw [htemp]
    cases afterTemp? r with
    | none => exact htable r
    | some r' => exact htable r'

/-! ### Readers that do not count blanks -/

/-- The reader finds the same where runs of blanks are one space. -/
def Squeezes (f : List Char → Option (List Char)) : Prop := ∀ s, f (squeeze s) = (f s).map squeeze

theorem squeezes_afterKeyword? {word : List Char} (h : ∀ k ∈ word, k.isLower = true) :
    Squeezes (afterKeyword? word) := by
  intro s
  induction word generalizing s with
  | nil => rfl
  | cons k word ih =>
    obtain ⟨hk, hword⟩ := List.forall_mem_cons.1 h
    cases s with
    | nil => rfl
    | cons c s =>
      cases hc : isBlank c with
      | true =>
        have hne : ∀ d, isBlank d = true → foldCase d ≠ k := by
          rintro d hd rfl
          rw [not_isLower_of_isBlank hd] at hk
          cases hk
        rw [squeeze_of_blank hc, afterKeyword?, afterKeyword?, if_neg (hne _ (by decide)),
          if_neg (hne c hc)]
        rfl
      | false =>
        rw [squeeze_of_visible hc, afterKeyword?, afterKeyword?, ih hword]
        split <;> rfl

theorem squeezes_afterBlanks? : Squeezes (afterSome? isBlank) := by
  intro s
  cases s with
  | nil => rfl
  | cons c s =>
    cases hc : isBlank c with
    | true =>
      have hdrop := dropWhile_blanks (List.forall_mem_nil _) (visible_dropWhile s).squeeze
      rw [squeeze_of_blank hc, afterSome?, afterSome?, if_pos (by decide), if_pos hc, Option.map_some]
      exact congrArg some hdrop
    | false =>
      rw [squeeze_of_visible hc, afterSome?, afterSome?, hc]
      rfl

theorem squeezes_afterWordAndBlanks? (h : isKeyword keyword = true) :
    Squeezes (afterWordAndBlanks? keyword) := by
  rw [isKeyword, Bool.and_eq_true, List.all_eq_true] at h
  exact Commutes.bind (squeezes_afterKeyword? h.2) squeezes_afterBlanks?

theorem squeezes_afterGuard? : Squeezes afterGuard? :=
  Commutes.bind
    (Commutes.bind (squeezes_afterWordAndBlanks? (by decide)) (squeezes_afterWordAndBlanks? (by decide)))
    (squeezes_afterWordAndBlanks? (by decide))

theorem squeezes_afterTemp? : Squeezes afterTemp? :=
  Commutes.orElse (squeezes_afterWordAndBlanks? (by decide)) (squeezes_afterWordAndBlanks? (by decide))

theorem squeezes_behindHead? : Squeezes behindHead? :=
  commutes_behindHead? (squeezes_afterWordAndBlanks? (by decide)) squeezes_afterTemp?
    (squeezes_afterWordAndBlanks? (by decide))

theorem named?_squeeze (s : List Char) :
    named? (squeeze s) = (named? s).map fun (name, r) => (name, squeeze r) := by
  rw [named?, named?, nameAt?_squeeze]
  cases nameAt? s <;> rfl

theorem declaredAt?_squeeze (s : List Char) :
    declaredAt? (squeeze s) = (declaredAt? s).map fun (name, r) => (name, squeeze r) := by
  rw [declaredAt?_eq, declaredAt?_eq, squeezes_behindHead?]
  cases behindHead? s with
  | none => rfl
  | some r =>
    dsimp only [Option.map_some, Option.bind_some]
    rw [tableAt?, tableAt?, squeezes_afterGuard?, named?_squeeze]
    cases afterGuard? r with
    | none => rfl
    | some r' =>
      dsimp only [Option.map_some, Option.bind_some]
      rw [named?_squeeze]
      cases named? r' <;> rfl

theorem declaredAt?_of_isBlank (hc : isBlank c = true) (s : List Char) :
    declaredAt? (c :: s) = none := by
  rw [declaredAt?_eq, behindHead?, head?_of_isBlank hc]
  rfl

theorem declaredFrom_cons_of_isBlank (hc : isBlank c = true) (inWord : Bool) (s : List Char) :
    declaredFrom inWord (c :: s) = declaredFrom false s := by
  rw [declaredFrom_of_none (declaredAt?_of_isBlank hc s), (facts_of_isAside (isAside_of_isBlank hc)).1]

theorem declaredFrom_trimStart (s : List Char) :
    declaredFrom false (Text.trimStart s) = declaredFrom false s := by
  induction s with
  | nil => rfl
  | cons c s ih =>
    cases hc : isBlank c with
    | true => rw [Text.trimStart_of_blank hc, declaredFrom_cons_of_isBlank hc, ih]
    | false => rw [Text.trimStart_of_visible hc]

/-- The blanks of a text may be squeezed without a change to what it declares. -/
theorem declaredFrom_squeeze (inWord : Bool) (s : List Char) :
    declaredFrom inWord (squeeze s) = declaredFrom inWord s := by
  -- on the length, since a run of blanks and a declaration leave out more than one character
  induction hn : s.length using Nat.strong_induction_on generalizing s inWord with
  | _ n ih =>
    subst hn
    cases s with
    | nil => rfl
    | cons c s =>
      cases hc : isBlank c with
      | true =>
        have hshorter : (s.dropWhile isBlank).length < (c :: s).length :=
          Nat.lt_succ_of_le (length_dropWhile_le isBlank s)
        rw [squeeze_of_blank hc, declaredFrom_cons_of_isBlank (by decide),
          declaredFrom_cons_of_isBlank hc, ih _ hshorter false _ rfl]
        exact declaredFrom_trimStart s
      | false =>
        have hlater := ih s.length (Nat.lt_succ_self _) (isWord c) s rfl
        cases inWord with
        | true => rw [squeeze_of_visible hc, declaredFrom_of_inWord, declaredFrom_of_inWord, hlater]
        | false =>
          have hsqueeze := declaredAt?_squeeze (c :: s)
          rw [squeeze_of_visible hc] at hsqueeze ⊢
          cases hat : declaredAt? (c :: s) with
          | none =>
            rw [hat] at hsqueeze
            rw [declaredFrom_of_none hsqueeze, declaredFrom_of_none hat, hlater]
          | some named =>
            obtain ⟨name, rest⟩ := named
            rw [hat] at hsqueeze
            have hshorter : (afterName rest).2.length < (c :: s).length :=
              Nat.lt_of_le_of_lt (length_afterName_le rest) (length_declaredAt?_lt hat)
            rw [declaredFrom_of_some hsqueeze, declaredFrom_of_some hat, afterName_squeeze,
              ih _ hshorter _ _ rfl]

/-! ### The end of a text -/

/-- Nothing but blanks, or a text that begins with a semicolon. -/
def Ends (x : List Char) : Prop := (∃ s, x = ';' :: s) ∨ ∀ c ∈ x, isBlank c = true

theorem Ends.isAside (h : Ends (c :: s)) : isAside c = true := by
  rcases h with ⟨_, heq⟩ | hall
  · obtain ⟨rfl, -⟩ := List.cons.inj heq
    decide
  · exact isAside_of_isBlank (hall c List.mem_cons_self)

theorem Ends.nameAt?_append (h : Ends x) (r : List Char) : nameAt? (r ++ x) = nameAt? r := by
  have htake : ∀ r : List Char, (r ++ x).takeWhile isWord = r.takeWhile isWord := by
    intro r
    induction r with
    | nil =>
      cases x with
      | nil => rfl
      | cons c x =>
        rw [List.nil_append, List.takeWhile_cons, (facts_of_isAside h.isAside).1]
        rfl
    | cons d r ih => rw [List.cons_append, List.takeWhile_cons, List.takeWhile_cons, ih]
  cases r with
  | nil =>
    cases x with
    | nil => rfl
    | cons c x => exact nameAt?_of_isAside h.isAside x
  | cons c r =>
    rw [List.cons_append, nameAt?, nameAt?, ← List.cons_append]
    dsimp only
    rw [htake, htake]

theorem Ends.afterBareName_append (h : Ends x) (r : List Char) :
    afterBareName (r ++ x) = ((afterBareName r).1, (afterBareName r).2 ++ x) := by
  cases x with
  | nil => simp
  | cons c x =>
    obtain ⟨hword, hquote, -, hbracket⟩ := facts_of_isAside h.isAside
    rw [afterBareName, afterBareName, Text.dropWhile_append_cons hword]
    cases r.dropWhile isWord with
    | nil =>
      rw [List.nil_append]
      dsimp only
      rw [hquote, beq_false_of_ne hbracket]
      rfl
    | cons d r =>
      rw [List.cons_append]
      dsimp only
      split <;> rfl

theorem Ends.afterName_append (h : Ends x) (r : List Char) :
    afterName (r ++ x) = ((afterName r).1, (afterName r).2 ++ x) := by
  cases r with
  | nil =>
    have hbare : afterName ([] ++ x) = afterBareName x := by
      cases x with
      | nil => rfl
      | cons c x =>
        obtain ⟨-, hquote, hbracket, -⟩ := facts_of_isAside h.isAside
        rw [List.nil_append, afterName, hquote, beq_false_of_ne hbracket]
        rfl
    rw [hbare]
    exact h.afterBareName_append []
  | cons c r =>
    rw [List.cons_append, afterName, afterName]
    split
    · exact h.afterBareName_append r
    · exact h.afterBareName_append (c :: r)

/-- The reader takes words of the given kind and all blanks behind them. -/
structure Takes (P : List Char → Prop) (f : List Char → Option (List Char)) : Prop where
  iff : ∀ {s r}, f s = some r ↔ ∃ w, s = w ++ r ∧ P w ∧ Visible r
  not_mem : ∀ {w}, P w → ';' ∉ w

theorem takes_afterGuard? : Takes SpellsGuard afterGuard? := ⟨afterGuard?_eq_some_iff, (·.not_mem)⟩

theorem takes_behindHead? : Takes (fun w => ∃ temp, SpellsHead temp w) behindHead? where
  iff {s r} := by
    rw [behindHead?, Option.map_eq_some_iff]
    constructor
    · rintro ⟨⟨temp, _⟩, h, rfl⟩
      obtain ⟨w, rfl, hw, hr⟩ := head?_eq_some_iff.1 h
      exact ⟨w, rfl, ⟨temp, hw⟩, hr⟩
    · rintro ⟨w, rfl, ⟨temp, hw⟩, hr⟩
      exact ⟨(temp, r), head?_eq_some_iff.2 ⟨w, rfl, hw, hr⟩, rfl⟩
  not_mem := fun ⟨_, hw⟩ => hw.not_mem

/-- What is left behind the words reaches up to the end. -/
theorem Ends.exists_of_append_eq {w : List Char} (h : Ends x) (heq : w ++ r = a ++ x) (hw : ';' ∉ w)
    (hr : Visible r) (hne : r ≠ []) : ∃ r', a = w ++ r' ∧ r = r' ++ x := by
  rcases h with ⟨s, rfl⟩ | hall
  · exact Sql.exists_of_append_eq heq hw
  · rcases List.append_eq_append_iff.1 heq with ⟨r', rfl, rfl⟩ | ⟨w', rfl, rfl⟩
    · exact ⟨r', rfl, rfl⟩
    · obtain ⟨c, r, rfl⟩ := List.exists_cons_of_ne_nil hne
      have hblank := hall c (List.mem_append_right w' List.mem_cons_self)
      rw [hr c rfl] at hblank
      cases hblank

/-- What is found with a name behind words is found just so with an end behind it. -/
theorem Takes.bind_append {P : List Char → Prop} {find : List Char → Option (List Char × List Char)}
    (hf : Takes P f) (h : Ends x) (hnil : find [] = none)
    (hfind : ∀ r, find (r ++ x) = (find r).map fun (name, r) => (name, r ++ x)) (a : List Char) :
    (f (a ++ x)).bind find = ((f a).bind find).map fun (name, r) => (name, r ++ x) := by
  have hne : ∀ {r p}, find r = some p → r ≠ [] := by
    rintro r p hp rfl
    rw [hnil] at hp
    cases hp
  refine Option.ext fun p => ?_
  rw [Option.bind_eq_some_iff, Option.map_eq_some_iff]
  constructor
  · rintro ⟨r, hr, hp⟩
    obtain ⟨w, heq, hw, hvisible⟩ := hf.iff.1 hr
    obtain ⟨r', rfl, rfl⟩ := h.exists_of_append_eq heq.symm (hf.not_mem hw) hvisible (hne hp)
    rw [hfind] at hp
    obtain ⟨p', hp', rfl⟩ := Option.map_eq_some_iff.1 hp
    exact ⟨p', Option.bind_eq_some_iff.2 ⟨r', hf.iff.2 ⟨w, rfl, hw, hvisible.of_append⟩, hp'⟩, rfl⟩
  · rintro ⟨p', hbind, rfl⟩
    obtain ⟨r, hr, hp'⟩ := Option.bind_eq_some_iff.1 hbind
    obtain ⟨w, rfl, hw, hvisible⟩ := hf.iff.1 hr
    refine ⟨r ++ x, hf.iff.2 ⟨w, List.append_assoc .., hw, hvisible.append (hne hp') x⟩, ?_⟩
    rw [hfind, hp']
    rfl

theorem Ends.named?_append (h : Ends x) (r : List Char) :
    named? (r ++ x) = (named? r).map fun (name, r) => (name, r ++ x) := by
  rw [named?, named?, h.nameAt?_append]
  cases nameAt? r <;> rfl

theorem Ends.declaredAt?_append (h : Ends x) (a : List Char) :
    declaredAt? (a ++ x) = (declaredAt? a).map fun (name, r) => (name, r ++ x) := by
  rw [declaredAt?_eq, declaredAt?_eq]
  refine takes_behindHead?.bind_append h rfl (fun r => ?_) a
  rw [tableAt?, tableAt?, takes_afterGuard?.bind_append h rfl h.named?_append, h.named?_append]
  cases (afterGuard? r).bind named? <;> rfl

/-- What is declared in front of an end and behind it is declared apart. -/
theorem Ends.declaredFrom_append (h : Ends x) (inWord : Bool) (a : List Char) :
    declaredFrom inWord (a ++ x) = declaredFrom inWord a ++ declaredFrom false x := by
  fun_induction declaredFrom inWord a with
  | case1 inWord =>
    cases x with
    | nil => rw [List.nil_append, declaredFrom_nil, declaredFrom_nil, List.append_nil]
    | cons c x =>
      have hnone : declaredAt? (c :: x) = none := h.declaredAt?_append []
      rw [List.nil_append, List.nil_append, declaredFrom_of_none hnone, declaredFrom_of_none hnone]
  | case2 c r ih => rw [List.cons_append, declaredFrom_of_inWord, ih]
  | case3 inWord c r hword name rest hat ih =>
    have hmore : declaredAt? (c :: (r ++ x)) = some (name, rest ++ x) := by
      rw [← List.cons_append, h.declaredAt?_append, hat]
      rfl
    rw [Bool.not_eq_true] at hword
    rw [hword, List.cons_append, declaredFrom_of_some hmore, h.afterName_append, ih,
      List.cons_append]
  | case4 inWord c r hword hat ih =>
    have hmore : declaredAt? (c :: (r ++ x)) = none := by
      rw [← List.cons_append, h.declaredAt?_append, hat]
      rfl
    rw [List.cons_append, declaredFrom_of_none hmore, ih]

theorem declaredFrom_blanks (hs : ∀ c ∈ s, isBlank c = true) : declaredFrom false s = [] := by
  induction s with
  | nil => rw [declaredFrom_nil]
  | cons c s ih =>
    obtain ⟨hc, hs⟩ := List.forall_mem_cons.1 hs
    rw [declaredFrom_cons_of_isBlank hc, ih hs]

theorem declaredFrom_trimEnd (inWord : Bool) (s : List Char) :
    declaredFrom inWord (Text.trimEnd s) = declaredFrom inWord s := by
  obtain ⟨b, heq, hb⟩ := Text.exists_trimEnd_append s
  have hends : Ends b := .inr hb
  conv_rhs => rw [heq, hends.declaredFrom_append, declaredFrom_blanks hb, List.append_nil]

/-! ### Lines -/

theorem trimEnd_ne_nil_of_not_blankLine (h : blankLine s = false) : Text.trimEnd s ≠ [] := by
  induction s with
  | nil => cases h
  | cons c s ih =>
    rw [blankLine, Bool.or_eq_false_iff, Bool.and_eq_false_iff] at h
    rw [Text.trimEnd_cons]
    rcases h.2 with hc | hs
    · rw [hc, Bool.and_false]
      exact List.cons_ne_nil _ _
    · rw [List.isEmpty_eq_false_iff.2 (ih hs)]
      exact List.cons_ne_nil _ _

theorem head?_trimEnd (h : Text.trimEnd s ≠ []) : (Text.trimEnd s).head? = s.head? := by
  obtain ⟨d, r, hd⟩ := List.exists_cons_of_ne_nil h
  have hmem : d ∈ (Text.trimEnd s).head? := by rw [hd]; rfl
  rw [Text.head?_trimEnd hmem, hd, List.head?_cons]

theorem any_head?_of_blankLine (h : blankLine s = true) (hne : s ≠ []) :
    s.head?.any isBlank = true := by
  obtain ⟨c, s, rfl⟩ := List.exists_cons_of_ne_nil hne
  rw [blankLine, Bool.or_eq_true, beq_iff_eq, Bool.and_eq_true] at h
  rcases h with rfl | ⟨hc, -⟩
  · rfl
  · exact hc

theorem head?_tidyFrom (h : blankLine s = false) : (tidyFrom true s).head? = s.head? := by
  cases s with
  | nil => rfl
  | cons c s =>
    rw [blankLine, Bool.or_eq_false_iff] at h
    rw [tidyFrom, Bool.not_true, Bool.and_false, Bool.or_false, h.2, if_neg Bool.false_ne_true]
    rfl

/-- Behind a visible character, a text is tidied up to the number of blanks at a place. -/
theorem squeeze_tidyFrom (s : List Char) :
    squeeze (tidyFrom true s) = squeeze (Text.trimEnd s) := by
  induction s with
  | nil => rfl
  | cons c s ih =>
    cases hc : isBlank c with
    | false =>
      rw [tidyFrom_cons_of_visible hc, squeeze_of_visible hc, ih, Text.trimEnd_cons, hc, Bool.and_false,
        if_neg Bool.false_ne_true, squeeze_of_visible hc]
    | true =>
      rw [tidyFrom, hc, Bool.true_and, Bool.not_true, Bool.and_false, Bool.or_false, Text.trimEnd_cons,
        hc, Bool.and_true]
      cases hblank : blankLine s with
      | true =>
        rw [if_pos rfl, ih]
        by_cases hempty : Text.trimEnd s = []
        · rw [hempty]
          rfl
        · -- the blank belongs to the run that goes on with `s`
          have hne : s ≠ [] := by
            rintro rfl
            exact hempty rfl
          have hnext : (Text.trimEnd s).head?.any isBlank = true := by
            rw [head?_trimEnd hempty]
            exact any_head?_of_blankLine hblank hne
          rw [if_neg (by simpa using hempty), squeeze.eq_2, if_pos hc, if_pos hnext]
      | false =>
        have hvisible := trimEnd_ne_nil_of_not_blankLine hblank
        rw [if_neg Bool.false_ne_true, if_neg (by simpa using hvisible), Bool.true_or, squeeze, squeeze,
          ih, head?_tidyFrom hblank, head?_trimEnd hvisible]

theorem squeeze_trimStart_tidyFrom (s : List Char) :
    squeeze (Text.trimStart (tidyFrom false s)) = squeeze (Text.trim s) := by
  induction s with
  | nil => rfl
  | cons c s ih =>
    rw [Text.trim]
    cases hc : isBlank c with
    | false =>
      rw [tidyFrom_cons_of_visible hc, Text.trimStart_of_visible hc, Text.trimStart_of_visible hc,
        squeeze_of_visible hc, squeeze_tidyFrom, Text.trimEnd_cons, hc, Bool.and_false,
        if_neg Bool.false_ne_true, squeeze_of_visible hc]
    | true =>
      rw [Text.trimStart_of_blank hc, ← Text.trim, ← ih, tidyFrom, hc, Bool.not_true, Bool.or_false]
      split
      · rfl
      · rw [Text.trimStart_of_blank hc]

/-- A script declares the same tables when the blanks at the ends of its lines and its blank lines are
gone. -/
theorem declaredFrom_tidyFrom (s : List Char) :
    declaredFrom false (tidyFrom false s) = declaredFrom false s := by
  rw [← declaredFrom_trimStart, ← declaredFrom_squeeze, squeeze_trimStart_tidyFrom, declaredFrom_squeeze,
    Text.trim, declaredFrom_trimEnd, declaredFrom_trimStart]

end QueryTree.Sql
