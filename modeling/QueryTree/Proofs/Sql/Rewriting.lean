import QueryTree.Proofs.Sql.Spacing

/-!
# Guarding twice

A declaration begins with its first word, so none begins inside the words of another one or of a guard:
the readers find in a guarded text what they find in the text (`commutes_behindHead?_guardFrom`), and
guarding twice is guarding once (`guardFrom_guardFrom`). `Spans` says what is copied and what is put in
the place of a declaration, in terms of the words alone.
-/

namespace QueryTree.Sql

open Text (afterKeyword? afterSome? isBlank isWord foldCase)

variable {c : Char} {s r rest temp w b g word : List Char} {keyword : String} {inWord : Bool}

/-! ### Guarded texts -/

theorem guardFrom_of_head? (h : head? s = some (temp, rest)) :
    guardFrom false s =
      "CREATE ".toList ++ temp ++ guardText ++ guardFrom false ((afterGuard? rest).getD rest) := by
  cases s with
  | nil => cases h
  | cons c s => exact guardFrom_of_some h

theorem visible_guardFrom (h : Visible s) : Visible (guardFrom false s) := by
  cases hhead : head? s with
  | some declared =>
    rw [guardFrom_of_head? hhead]
    exact visible_cons (by decide) _
  | none =>
    cases s with
    | nil =>
      rw [guardFrom_nil]
      exact visible_nil
    | cons c s =>
      rw [guardFrom_of_none hhead]
      exact visible_cons (h c rfl) _

theorem trimStart_guardFrom (s : List Char) :
    Text.trimStart (guardFrom false s) = guardFrom false (Text.trimStart s) := by
  induction s with
  | nil => rw [guardFrom_nil, Text.trimStart, List.dropWhile_nil, guardFrom_nil]
  | cons c s ih =>
    cases hc : isBlank c with
    | true =>
      rw [guardFrom_of_none (head?_of_isBlank hc s), (facts_of_isAside (isAside_of_isBlank hc)).1,
        Text.trimStart_of_blank hc, Text.trimStart_of_blank hc, ih]
    | false =>
      have hguarded := visible_guardFrom (visible_cons hc s)
      rw [Text.trimStart_of_visible hc]
      exact dropWhile_blanks (List.forall_mem_nil _) hguarded

/-- Where no declaration begins, the text is guarded as inside a word. -/
theorem guardFrom_of_head?_none (h : head? s = none) : guardFrom false s = guardFrom true s := by
  cases s with
  | nil => rw [guardFrom_nil, guardFrom_nil]
  | cons c s => rw [guardFrom_of_none h, guardFrom_of_inWord]

/-! ### Readers in a guarded text -/

theorem isWord_of_isLower (h : (foldCase c).isLower = true) : isWord c = true := by
  by_cases hlong : c.toNat = 0x17F
  · have hc : c = Char.ofNat 0x17F := by rw [← hlong, Char.ofNat_toNat]
    rw [hc]
    decide +kernel
  by_cases hkelvin : c.toNat = 0x212A
  · have hc : c = Char.ofNat 0x212A := by rw [← hkelvin, Char.ofNat_toNat]
    rw [hc]
    decide +kernel
  rw [foldCase, if_neg hlong, if_neg hkelvin] at h
  have halpha := Text.isAlpha_of_isLower_toLower h
  rw [isWord, if_pos (Text.toNat_lt_of_isAlpha halpha), Char.isAlphanum, halpha]
  rfl

/-- Inside a word, letters of a word are copied. -/
theorem commutes_afterKeyword?_guardFrom (h : ∀ k ∈ word, k.isLower = true) :
    Commutes (guardFrom true) (guardFrom true) (afterKeyword? word) := by
  intro s
  induction word generalizing s with
  | nil => rfl
  | cons k word ih =>
    obtain ⟨hk, hword⟩ := List.forall_mem_cons.1 h
    cases s with
    | nil => rw [guardFrom_nil]; rfl
    | cons c s =>
      rw [guardFrom_of_inWord, afterKeyword?, afterKeyword?]
      split
      · next hfold =>
        have hc : isWord c = true := isWord_of_isLower (hfold ▸ hk)
        rw [hc, ih hword]
      · rfl

theorem commutes_afterBlanks?_guardFrom :
    Commutes (guardFrom true) (guardFrom false) (afterSome? isBlank) := by
  intro s
  cases s with
  | nil => rw [guardFrom_nil]; rfl
  | cons c s =>
    rw [guardFrom_of_inWord, afterSome?, afterSome?]
    cases hc : isBlank c with
    | false => rfl
    | true =>
      rw [(facts_of_isAside (isAside_of_isBlank hc)).1, if_pos rfl, if_pos rfl]
      exact congrArg some (trimStart_guardFrom s)

theorem commutes_inWord (hkey : isKeyword keyword = true) :
    Commutes (guardFrom true) (guardFrom false) (afterWordAndBlanks? keyword) := by
  rw [isKeyword, Bool.and_eq_true, List.all_eq_true] at hkey
  exact (commutes_afterKeyword?_guardFrom hkey.2).bind commutes_afterBlanks?_guardFrom

theorem commutes_guardFrom (hkey : isKeyword keyword = true) (hne : keyword ≠ "create") :
    Commutes (guardFrom false) (guardFrom false) (afterWordAndBlanks? keyword) := by
  intro s
  cases hhead : head? s with
  | none =>
    rw [guardFrom_of_head?_none hhead]
    exact commutes_inWord hkey s
  | some declared =>
    obtain ⟨temp, rest⟩ := declared
    obtain ⟨_, rfl, ⟨w₁, w₂, rfl, hcreate, -⟩, -⟩ := head?_eq_some_iff.1 hhead
    rw [guardFrom_of_head? hhead, List.append_assoc, List.append_assoc, List.append_assoc,
      afterWordAndBlanks?_of_ne spells_create (by decide) hkey hne.symm,
      afterWordAndBlanks?_of_ne hcreate (by decide) hkey hne.symm]
    rfl

theorem commutes_behindHead?_guardFrom : Commutes (guardFrom true) (guardFrom false) behindHead? :=
  commutes_behindHead? (commutes_inWord (by decide))
    ((commutes_guardFrom (by decide) (by decide)).orElse (commutes_guardFrom (by decide) (by decide)))
    (commutes_guardFrom (by decide) (by decide))

theorem head?_guardFrom (h : head? s = none) : head? (guardFrom true s) = none := by
  have hbehind := commutes_behindHead?_guardFrom s
  rw [behindHead?, behindHead?, h] at hbehind
  exact Option.map_eq_none_iff.1 hbehind

/-! ### Guarding again -/

theorem declaration_append (temp r : List Char) :
    "CREATE ".toList ++ temp ++ guardText ++ r =
      "CREATE ".toList ++ (temp ++ ("TABLE ".toList ++ ("IF NOT EXISTS ".toList ++ r))) := by
  have hguard : guardText = "TABLE ".toList ++ "IF NOT EXISTS ".toList := by decide
  simp only [hguard, List.append_assoc]

theorem visible_behind (h : head? s = some (temp, rest)) :
    Visible ((afterGuard? rest).getD rest) := by
  obtain ⟨_, -, -, hrest⟩ := head?_eq_some_iff.1 h
  cases hguard : afterGuard? rest with
  | none => exact hrest
  | some r =>
    obtain ⟨_, -, -, hr⟩ := afterGuard?_eq_some_iff.1 hguard
    exact hr

theorem guardFrom_guardFrom (inWord : Bool) (s : List Char) :
    guardFrom inWord (guardFrom inWord s) = guardFrom inWord s := by
  fun_induction guardFrom inWord s with
  | case1 => exact guardFrom_nil _
  | case2 c r ih => rw [guardFrom_of_inWord, ih]
  | case3 inWord c r hword temp rest hhead ih =>
    rw [Bool.not_eq_true] at hword
    subst hword
    have hvisible := visible_guardFrom (visible_behind hhead)
    have hagain := head?_respelled hhead
      (spellsGuard_guard.visible (guardFrom false ((afterGuard? rest).getD rest)))
    rw [← declaration_append] at hagain
    rw [guardFrom_of_head? hagain, afterGuard?_respelled hvisible, Option.getD_some, ih]
  | case4 inWord c r hword hhead ih =>
    have hnone := head?_guardFrom hhead
    rw [guardFrom_of_inWord] at hnone
    rw [guardFrom_of_none hnone, ih]

/-! ### Every declaration -/

/-- Wherever the words of a declaration stand with no word character in front of them, the guard follows;
`inWord` says that one comes before the text. -/
def Guarded (inWord : Bool) (s : List Char) : Prop :=
  ∀ front temp w rest, s = front ++ (w ++ rest) → (front.getLast?.map isWord).getD inWord = false →
    SpellsHead temp w → "IF NOT EXISTS ".toList <+: rest

theorem guarded_cons : Guarded inWord (c :: s) ↔
    (inWord = false → ∀ temp w rest, c :: s = w ++ rest → SpellsHead temp w →
      "IF NOT EXISTS ".toList <+: rest) ∧ Guarded (isWord c) s := by
  have hlast : ∀ front : List Char, (((c :: front).getLast?).map isWord).getD inWord =
      (front.getLast?.map isWord).getD (isWord c) := by
    intro front
    rw [List.getLast?_cons]
    cases front.getLast? <;> rfl
  constructor
  · intro h
    refine ⟨fun hword temp w rest heq => h [] temp w rest heq hword, ?_⟩
    rintro front temp w rest rfl hword
    exact h (c :: front) temp w rest rfl (by rwa [hlast])
  · rintro ⟨hfront, h⟩ front temp w rest heq hword
    cases front with
    | nil => exact hfront hword temp w rest heq
    | cons d front =>
      obtain ⟨rfl, rfl⟩ := List.cons.inj heq
      exact h front temp w rest rfl (by rwa [hlast] at hword)

/-- Inside a word no declaration begins. -/
theorem guarded_cons_inWord (h : Guarded (isWord c) s) : Guarded true (c :: s) :=
  guarded_cons.2 ⟨fun hword => absurd hword (by decide), h⟩

theorem Spells.append_blanks (h : Spells keyword w) (hb : ∀ c ∈ b, isBlank c = true) :
    Spells keyword (w ++ b) := by
  obtain ⟨letters, blanks, rfl, hmap, hne, hblanks⟩ := h
  exact ⟨letters, blanks ++ b, List.append_assoc .., hmap, List.append_ne_nil_of_left_ne_nil hne b,
    List.forall_mem_append.2 ⟨hblanks, hb⟩⟩

/-- The words are read with all the blanks behind them. -/
theorem SpellsHead.head?_eq (h : SpellsHead temp w) (rest : List Char) :
    head? (w ++ rest) = some (temp, rest.dropWhile isBlank) := by
  obtain ⟨w₁, w₂, rfl, hw₁, htemp, hw₂⟩ := h
  have hlast : Spells "table" (w₂ ++ rest.takeWhile isBlank) :=
    hw₂.append_blanks fun c hc => List.mem_takeWhile_imp hc
  refine head?_eq_some_iff.2 ⟨_, ?_, ⟨w₁, _, rfl, hw₁, htemp, hlast⟩, visible_dropWhile rest⟩
  simp only [List.append_assoc, List.takeWhile_append_dropWhile]

theorem SpellsGuard.afterGuard?_eq (h : SpellsGuard w) (rest : List Char) :
    afterGuard? (w ++ rest) = some (rest.dropWhile isBlank) := by
  obtain ⟨w₁, w₂, w₃, rfl, hw₁, hw₂, hw₃⟩ := h
  have hlast : Spells "exists" (w₃ ++ rest.takeWhile isBlank) :=
    hw₃.append_blanks fun c hc => List.mem_takeWhile_imp hc
  refine afterGuard?_eq_some_iff.2 ⟨_, ?_, ⟨w₁, w₂, _, rfl, hw₁, hw₂, hlast⟩, visible_dropWhile rest⟩
  simp only [List.append_assoc, List.takeWhile_append_dropWhile]

theorem guarded_nil (inWord : Bool) : Guarded inWord [] := by
  intro front temp w rest heq _ hw
  have hnil := hw.head?_eq rest
  rw [(List.append_eq_nil_iff.1 heq.symm).2] at hnil
  cases hnil

theorem guarded_of_head?_none (h : head? (c :: s) = none) (hs : Guarded (isWord c) s) :
    Guarded inWord (c :: s) := by
  refine guarded_cons.2 ⟨fun _ temp w rest heq hw => ?_, hs⟩
  rw [heq, hw.head?_eq] at h
  cases h

theorem guarded_blanks (hb : ∀ c ∈ b, isBlank c = true) (hs : Guarded false s) :
    Guarded false (b ++ s) := by
  induction b with
  | nil => exact hs
  | cons c b ih =>
    obtain ⟨hc, hb⟩ := List.forall_mem_cons.1 hb
    refine guarded_of_head?_none (head?_of_isBlank hc _) ?_
    rw [(facts_of_isAside (isAside_of_isBlank hc)).1]
    exact ih hb

/-- No declaration begins inside a word and the blanks behind it. -/
theorem guarded_inWord (h : ∀ c ∈ w, isWord c = true) (hne : b ≠ []) (hb : ∀ c ∈ b, isBlank c = true)
    (hs : Guarded false s) : Guarded true (w ++ (b ++ s)) := by
  induction w with
  | nil =>
    obtain ⟨c, b, rfl⟩ := List.exists_cons_of_ne_nil hne
    obtain ⟨hc, hb⟩ := List.forall_mem_cons.1 hb
    refine guarded_cons_inWord ?_
    rw [(facts_of_isAside (isAside_of_isBlank hc)).1]
    exact guarded_blanks hb hs
  | cons c w ih =>
    obtain ⟨hc, hw⟩ := List.forall_mem_cons.1 h
    refine guarded_cons_inWord ?_
    rw [hc]
    exact ih hw

theorem isWord_of_map_foldCase (hkey : isKeyword keyword = true) (h : w.map foldCase = keyword.toList) :
    ∀ c ∈ w, isWord c = true := by
  rw [isKeyword, ← h, Bool.and_eq_true, List.all_map, List.all_eq_true] at hkey
  exact fun c hc => isWord_of_isLower (hkey.2 c hc)

/-- Only at the front of a word with its blanks may a declaration begin. -/
theorem Spells.guarded_append (h : Spells keyword w) (hkey : isKeyword keyword = true)
    (hfront : inWord = false → ∀ temp w' rest, w ++ s = w' ++ rest → SpellsHead temp w' →
      "IF NOT EXISTS ".toList <+: rest) (hs : Guarded false s) : Guarded inWord (w ++ s) := by
  obtain ⟨letters, blanks, rfl, hmap, hne, hblanks⟩ := h
  have hword := isWord_of_map_foldCase hkey hmap
  obtain ⟨c, letters, rfl⟩ := List.exists_cons_of_ne_nil (facts_of_isKeyword hkey hmap).1
  obtain ⟨hc, hletters⟩ := List.forall_mem_cons.1 hword
  rw [List.append_assoc] at hfront ⊢
  refine guarded_cons.2 ⟨hfront, ?_⟩
  rw [hc]
  exact guarded_inWord hletters hne hblanks hs

theorem Spells.guarded_other (h : Spells keyword w) (hkey : isKeyword keyword = true)
    (hne : keyword ≠ "create") (hs : Guarded false s) : Guarded inWord (w ++ s) := by
  refine h.guarded_append hkey (fun _ temp w' rest heq hw' => ?_) hs
  have hhead := hw'.head?_eq rest
  rw [← heq, Sql.head?_eq, afterWordAndBlanks?_of_ne h hkey (by decide) hne] at hhead
  cases hhead

theorem SpellsGuard.guarded_append (h : SpellsGuard w) (hs : Guarded false s) : Guarded inWord (w ++ s) := by
  obtain ⟨w₁, w₂, w₃, rfl, hw₁, hw₂, hw₃⟩ := h
  have h₃ : Guarded false (w₃ ++ s) := hw₃.guarded_other (by decide) (by decide) hs
  have h₂ : Guarded false (w₂ ++ (w₃ ++ s)) := hw₂.guarded_other (by decide) (by decide) h₃
  rw [List.append_assoc, List.append_assoc]
  exact hw₁.guarded_other (by decide) (by decide) h₂

theorem guarded_temp (h : temp = [] ∨ SpellsTemp temp) (hs : Guarded false s) :
    Guarded false (temp ++ s) := by
  rcases h with rfl | h | h
  · exact hs
  · exact h.guarded_other (by decide) (by decide) hs
  · exact h.guarded_other (by decide) (by decide) hs

theorem SpellsHead.exists_concat (h : SpellsHead temp w) : ∃ front d, w = front ++ [d] ∧ isBlank d = true := by
  obtain ⟨w₁, w₂, rfl, -, -, letters, blanks, rfl, -, hne, hblanks⟩ := h
  rcases List.eq_nil_or_concat blanks with rfl | ⟨blanks, d, rfl⟩
  · exact absurd rfl hne
  · rw [List.concat_eq_append] at hblanks ⊢
    exact ⟨w₁ ++ (temp ++ (letters ++ blanks)), d, by simp only [List.append_assoc], hblanks d (by simp)⟩

/-- Where a text ends in `TABLE` and one blank, words of a declaration that end among its last blanks end
with that blank. -/
theorem SpellsHead.blanks_eq_nil (h : SpellsHead temp w) (hb : ∀ c ∈ b, isBlank c = true)
    (heq : w ++ b = r ++ "TABLE ".toList) : b = [] := by
  rcases List.eq_nil_or_concat b with rfl | ⟨b, d, rfl⟩
  · rfl
  · obtain ⟨front, e, rfl, he⟩ := h.exists_concat
    rw [List.concat_eq_append] at hb heq
    have hinit : front ++ [e] ++ b = r ++ "TABL".toList ++ ['E'] := by
      have htable : r ++ "TABLE ".toList = r ++ "TABL".toList ++ ['E'] ++ [' '] := by simp
      rw [htable, ← List.append_assoc] at heq
      exact (List.append_inj' heq rfl).1
    have hmem : 'E' ∈ [e] ++ b := by
      have hlast := congrArg List.getLast? hinit
      rw [List.append_assoc, List.getLast?_append, List.getLast?_concat] at hlast
      exact List.mem_of_getLast? (by simpa [List.getLast?_cons] using hlast)
    have hblank : isBlank 'E' = true := by
      rcases List.mem_append.1 hmem with hmem | hmem
      · exact List.mem_singleton.1 hmem ▸ he
      · exact hb 'E' (List.mem_append_left _ hmem)
    exact absurd hblank (by decide)

/-- Behind the words that stand for a declaration comes the guard. -/
theorem guard_prefix_of_eq (htemp : temp = [] ∨ SpellsTemp temp) {temp' : List Char}
    (heq : "CREATE ".toList ++ (temp ++ ("TABLE ".toList ++ ("IF NOT EXISTS ".toList ++ s))) = w ++ rest)
    (hw : SpellsHead temp' w) : "IF NOT EXISTS ".toList <+: rest := by
  have hwords : SpellsHead temp ("CREATE ".toList ++ (temp ++ "TABLE ".toList)) :=
    ⟨_, _, rfl, spells_create, htemp, spells_table⟩
  have hhead : head? (w ++ rest) = some (temp, "IF NOT EXISTS ".toList ++ s) := by
    rw [← heq]
    exact head?_eq_some_iff.2 ⟨_, by simp only [List.append_assoc], hwords, spellsGuard_guard.visible s⟩
  -- Read from the front, the declaration takes all blanks behind `w`: the guard stands behind these.
  rw [hw.head?_eq] at hhead
  have hdrop := (Prod.mk.inj (Option.some.inj hhead)).2
  have hsplit := List.takeWhile_append_dropWhile (p := isBlank) (l := rest)
  rw [hdrop] at hsplit
  have hfront : w ++ rest.takeWhile isBlank = "CREATE ".toList ++ temp ++ "TABLE ".toList := by
    have hall : w ++ rest.takeWhile isBlank ++ ("IF NOT EXISTS ".toList ++ s) =
        "CREATE ".toList ++ temp ++ "TABLE ".toList ++ ("IF NOT EXISTS ".toList ++ s) := by
      rw [List.append_assoc w, hsplit, ← heq]
      simp only [List.append_assoc]
    exact List.append_cancel_right hall
  have hnil := hw.blanks_eq_nil (fun c hc => List.mem_takeWhile_imp hc) hfront
  rw [← hsplit, hnil]
  exact List.prefix_append _ s

/-- Every declaration in a guarded text is guarded. -/
theorem guarded_guardFrom (inWord : Bool) (s : List Char) : Guarded inWord (guardFrom inWord s) := by
  fun_induction guardFrom inWord s with
  | case1 => exact guarded_nil _
  | case2 c r ih => exact guarded_cons_inWord ih
  | case3 inWord c r hword temp rest hhead ih =>
    obtain ⟨_, -, ⟨_, _, -, -, htemp, -⟩, -⟩ := head?_eq_some_iff.1 hhead
    generalize guardFrom false ((afterGuard? rest).getD rest) = guarded at ih ⊢
    have hguard : Guarded false ("IF NOT EXISTS ".toList ++ guarded) :=
      spellsGuard_guard.guarded_append ih
    have htable : Guarded false ("TABLE ".toList ++ ("IF NOT EXISTS ".toList ++ guarded)) :=
      spells_table.guarded_other (by decide) (by decide) hguard
    rw [declaration_append]
    exact spells_create.guarded_append (by decide)
      (fun _ _ _ _ heq hw => guard_prefix_of_eq htemp heq hw) (guarded_temp htemp htable)
  | case4 inWord c r hword hhead ih =>
    have hnone := head?_guardFrom hhead
    rw [guardFrom_of_inWord] at hnone
    exact guarded_of_head?_none hnone ih

/-! ### What is copied -/

/-- A piece of a script as guarding sees it. -/
inductive Span where
  | text (c : Char)
  | declaration (words temp guard : List Char)
  deriving DecidableEq, Repr

namespace Span

def source : Span → List Char
  | text c => [c]
  | declaration words _ guard => words ++ guard

/-- What stands for the span in the guarded script. -/
def target : Span → List Char
  | text c => [c]
  | declaration _ temp _ => "CREATE ".toList ++ temp ++ "TABLE IF NOT EXISTS ".toList

end Span

/-- The script cut at its declarations, from the left, each with all its blanks and with its guard if it
has one; `inWord` says that a word character comes before the script. -/
inductive Spans : Bool → List Char → List Span → Prop
  | nil {inWord : Bool} : Spans inWord [] []
  | text {inWord : Bool} {c : Char} {s : List Char} {spans : List Span}
      (h : inWord = false → ∀ temp w rest, c :: s = w ++ rest → ¬ SpellsHead temp w)
      (hs : Spans (isWord c) s spans) : Spans inWord (c :: s) (.text c :: spans)
  | declaration {temp w g s : List Char} {spans : List Span} (hw : SpellsHead temp w)
      (hg : SpellsGuard g ∨ g = [] ∧ ∀ g' rest, s = g' ++ rest → ¬ SpellsGuard g') (hs : Visible s)
      (h : Spans false s spans) : Spans false (w ++ (g ++ s)) (.declaration w temp g :: spans)

variable {spans : List Span}

theorem Spans.source_eq (h : Spans inWord s spans) : s = spans.flatMap Span.source := by
  induction h with
  | nil => rfl
  | text _ _ ih => exact congrArg _ ih
  | declaration _ _ _ _ ih =>
    rw [List.flatMap_cons, ← ih, Span.source, List.append_assoc]

theorem Spans.guardFrom_eq (h : Spans inWord s spans) :
    guardFrom inWord s = spans.flatMap Span.target := by
  induction h with
  | nil => exact guardFrom_nil _
  | @text inWord c s spans h _ ih =>
    rw [List.flatMap_cons, ← ih]
    cases inWord with
    | true => exact guardFrom_of_inWord c s
    | false =>
      have hnone : head? (c :: s) = none := by
        rw [Option.eq_none_iff_forall_ne_some]
        rintro ⟨temp, rest⟩ hhead
        obtain ⟨w, heq, hw, -⟩ := head?_eq_some_iff.1 hhead
        exact h rfl temp w rest heq hw
      exact guardFrom_of_none hnone false
  | @declaration temp w g s spans hw hg hs _ ih =>
    have hvisible : Visible (g ++ s) := by
      rcases hg with hg | ⟨rfl, -⟩
      · exact hg.visible s
      · exact hs
    have hhead : head? (w ++ (g ++ s)) = some (temp, g ++ s) :=
      head?_eq_some_iff.2 ⟨w, rfl, hw, hvisible⟩
    have hguard : (afterGuard? (g ++ s)).getD (g ++ s) = s := by
      rcases hg with hg | ⟨rfl, hnone⟩
      · rw [afterGuard?_eq_some_iff.2 ⟨g, rfl, hg, hs⟩, Option.getD_some]
      · rw [List.nil_append]
        cases hg : afterGuard? s with
        | none => rfl
        | some rest =>
          obtain ⟨g, heq, hg, -⟩ := afterGuard?_eq_some_iff.1 hg
          exact absurd hg (hnone g rest heq)
    rw [guardFrom_of_head? hhead, hguard, ih]
    rfl

theorem exists_spans (inWord : Bool) (s : List Char) : ∃ spans, Spans inWord s spans := by
  induction inWord, s using guardFrom.induct with
  | case1 => exact ⟨[], .nil⟩
  | case2 c r ih =>
    obtain ⟨spans, hspans⟩ := ih
    exact ⟨_, .text nofun hspans⟩
  | case3 inWord c r hword temp rest hhead ih =>
    rw [Bool.not_eq_true] at hword
    subst hword
    obtain ⟨spans, hspans⟩ := ih
    obtain ⟨w, heq, hw, hrest⟩ := head?_eq_some_iff.1 hhead
    rw [heq]
    cases hguard : afterGuard? rest with
    | some s =>
      obtain ⟨g, rfl, hg, hs⟩ := afterGuard?_eq_some_iff.1 hguard
      rw [hguard] at hspans
      exact ⟨_, .declaration hw (.inl hg) hs hspans⟩
    | none =>
      have hnone : ∀ g rest', rest = g ++ rest' → ¬ SpellsGuard g := by
        rintro g rest' rfl hg
        rw [hg.afterGuard?_eq] at hguard
        cases hguard
      rw [hguard] at hspans
      exact ⟨_, .declaration hw (.inr ⟨rfl, hnone⟩) hrest hspans⟩
  | case4 inWord c r hword hhead ih =>
    obtain ⟨spans, hspans⟩ := ih
    refine ⟨_, .text (fun _ temp w rest heq hw => ?_) hspans⟩
    rw [heq, hw.head?_eq] at hhead
    cases hhead

/-- Guarding a script twice is guarding it once, and then the guard stands behind every declaration. The
script is copied but for its declarations, and of these `TEMP` or `TEMPORARY` is copied with the blanks
behind it. -/
theorem makeIdempotent_guards (script : String) :
    makeIdempotent (makeIdempotent script) = makeIdempotent script ∧
      Guarded false (makeIdempotent script).toList ∧
      (∃ spans, Spans false script.toList spans) ∧
      ∀ spans, Spans false script.toList spans →
        script.toList = spans.flatMap Span.source ∧
          (makeIdempotent script).toList = spans.flatMap Span.target := by
  have hlist : (makeIdempotent script).toList = guardFrom false script.toList := by
    rw [makeIdempotent, String.toList_ofList]
  have hagain : makeIdempotent (makeIdempotent script) = makeIdempotent script := by
    rw [makeIdempotent, hlist, guardFrom_guardFrom, makeIdempotent]
  rw [hlist]
  exact ⟨hagain, guarded_guardFrom false _, exists_spans false _,
    fun spans hspans => ⟨hspans.source_eq, hspans.guardFrom_eq⟩⟩

example : makeIdempotent "create\t TEMP  Table x; CREATE TABLE if not exists IF NOT EXISTS y" =
    "CREATE TEMP  TABLE IF NOT EXISTS x; CREATE TABLE IF NOT EXISTS IF NOT EXISTS y" := by decide +kernel

end QueryTree.Sql
