import QueryTree.Proofs.Sql.Guard
import QueryTree.Proofs.Text.Letter

/-!
# The words of a declaration

What the readers of a declaration take off the front of a text, by itself: words in any case with at
least one blank behind each (`Spells`). All the blanks are taken, so what is left does not begin with
one (`Visible`); apart from that it does not matter to the readers (`head?_eq_some_iff`,
`afterGuard?_eq_some_iff`). So a declaration stays one when another text follows its words
(`head?_respelled`), and a semicolon is as good as the end of the text (`head?_append_semicolon`).
-/

namespace QueryTree.Sql

open Text (afterKeyword? afterSome? isBlank foldCase)

variable {c : Char} {s r rest w a b temp word : List Char} {keyword keyword' : String}

/-- The text does not begin with a blank. -/
def Visible (s : List Char) : Prop := ∀ c ∈ s.head?, isBlank c = false

/-- The word, up to case, with at least one blank behind it. -/
def Spells (keyword : String) (w : List Char) : Prop :=
  ∃ letters blanks, w = letters ++ blanks ∧ letters.map foldCase = keyword.toList ∧
    blanks ≠ [] ∧ ∀ c ∈ blanks, isBlank c = true

/-- At least one letter, all of them lower-case. -/
def isKeyword (keyword : String) : Bool :=
  !keyword.toList.isEmpty && keyword.toList.all Char.isLower

theorem visible_nil : Visible [] := nofun

theorem visible_cons (hc : isBlank c = false) (s : List Char) : Visible (c :: s) := by
  rintro d ⟨⟩
  exact hc

theorem Visible.of_append (h : Visible (s ++ r)) : Visible s := by
  cases s with
  | nil => exact visible_nil
  | cons c s => exact h

theorem Visible.append (h : Visible s) (hne : s ≠ []) (r : List Char) : Visible (s ++ r) := by
  cases s with
  | nil => exact absurd rfl hne
  | cons c s => exact h

theorem dropWhile_blanks (hb : ∀ c ∈ b, isBlank c = true) (h : Visible s) :
    (b ++ s).dropWhile isBlank = s := by
  rw [List.dropWhile_append_of_pos hb]
  cases s with
  | nil => rfl
  | cons c s => rw [List.dropWhile_cons, h c rfl, if_neg Bool.false_ne_true]

theorem visible_dropWhile (s : List Char) : Visible (s.dropWhile isBlank) := by
  intro c hc
  have hhead := List.head?_dropWhile_not isBlank s
  rw [hc] at hhead
  simpa using hhead

/-! ### Letters -/

theorem not_isLower_of_isBlank (h : isBlank c = true) : (foldCase c).isLower = false := by
  have hrange : c.toNat < 65 ∨ 133 ≤ c.toNat ∧ c.toNat ≠ 0x17F ∧ c.toNat ≠ 0x212A := by
    simp only [isBlank, Bool.or_eq_true, Bool.and_eq_true, decide_eq_true_eq, beq_iff_eq] at h
    omega
  have hfold : foldCase c = c := by
    rw [foldCase, if_neg (by omega), if_neg (by omega)]
    refine dif_neg ?_
    rintro ⟨hge, hle⟩
    have hge : 65 ≤ c.toNat := UInt32.le_iff_toNat_le.1 hge
    have hle : c.toNat ≤ 90 := UInt32.le_iff_toNat_le.1 hle
    omega
  rw [hfold, ← Bool.not_eq_true]
  intro hlower
  have := Text.range_of_isLower hlower
  omega

/-- A letter of a keyword is neither blank nor a semicolon. -/
theorem facts_of_isLower (h : (foldCase c).isLower = true) : isBlank c = false ∧ c ≠ ';' := by
  constructor
  · rw [← Bool.not_eq_true]
    intro hblank
    rw [not_isLower_of_isBlank hblank] at h
    cases h
  · rintro rfl
    exact absurd h (by decide)

theorem facts_of_isKeyword (hkey : isKeyword keyword = true)
    (h : w.map foldCase = keyword.toList) :
    w ≠ [] ∧ ∀ c ∈ w, isBlank c = false ∧ c ≠ ';' := by
  rw [isKeyword, ← h, Bool.and_eq_true, List.all_map, List.all_eq_true] at hkey
  refine ⟨?_, fun c hc => facts_of_isLower (hkey.2 c hc)⟩
  rintro rfl
  exact absurd hkey.1 (by decide)

/-! ### Words -/

theorem afterKeyword?_eq_some_iff :
    afterKeyword? word s = some r ↔ ∃ letters, s = letters ++ r ∧ letters.map foldCase = word := by
  induction word generalizing s with
  | nil =>
    constructor
    · rintro ⟨⟩
      exact ⟨[], rfl, rfl⟩
    · rintro ⟨letters, rfl, h⟩
      rw [List.map_eq_nil_iff.1 h]
      rfl
  | cons k word ih =>
    cases s with
    | nil =>
      constructor
      · exact nofun
      · rintro ⟨letters, h, hmap⟩
        rw [(List.append_eq_nil_iff.1 h.symm).1] at hmap
        cases hmap
    | cons c s =>
      rw [afterKeyword?]
      constructor
      · intro h
        split at h
        · next hc =>
          obtain ⟨letters, rfl, rfl⟩ := ih.1 h
          exact ⟨c :: letters, rfl, congrArg (· :: _) hc⟩
        · cases h
      · rintro ⟨letters, h, hmap⟩
        obtain ⟨d, letters, rfl⟩ := List.exists_cons_of_ne_nil
          (show letters ≠ [] by rintro rfl; cases hmap)
        obtain ⟨rfl, rfl⟩ := List.cons.inj h
        obtain ⟨hc, hmap⟩ := List.cons.inj hmap
        rw [if_pos hc]
        exact ih.2 ⟨letters, rfl, hmap⟩

theorem afterBlanks?_eq_some_iff :
    afterSome? isBlank s = some r ↔
      ∃ blanks, s = blanks ++ r ∧ blanks ≠ [] ∧ (∀ c ∈ blanks, isBlank c = true) ∧ Visible r := by
  constructor
  · intro h
    cases s with
    | nil => cases h
    | cons c s =>
      rw [afterSome?] at h
      split at h
      · next hc =>
        cases h
        refine ⟨c :: s.takeWhile isBlank, ?_, List.cons_ne_nil _ _, ?_, visible_dropWhile s⟩
        · rw [List.cons_append, List.takeWhile_append_dropWhile]
        · exact List.forall_mem_cons.2 ⟨hc, fun d hd => List.mem_takeWhile_imp hd⟩
      · cases h
  · rintro ⟨blanks, rfl, hne, hblanks, hr⟩
    obtain ⟨c, blanks, rfl⟩ := List.exists_cons_of_ne_nil hne
    obtain ⟨hc, hblanks⟩ := List.forall_mem_cons.1 hblanks
    rw [List.cons_append, afterSome?, if_pos hc, dropWhile_blanks hblanks hr]

theorem afterWordAndBlanks?_eq_some_iff :
    afterWordAndBlanks? keyword s = some r ↔ ∃ w, s = w ++ r ∧ Spells keyword w ∧ Visible r := by
  rw [afterWordAndBlanks?, Option.bind_eq_some_iff]
  constructor
  · rintro ⟨t, ht, hr⟩
    obtain ⟨letters, rfl, hmap⟩ := afterKeyword?_eq_some_iff.1 ht
    obtain ⟨blanks, rfl, hne, hblanks, hr⟩ := afterBlanks?_eq_some_iff.1 hr
    exact ⟨letters ++ blanks, (List.append_assoc ..).symm, ⟨letters, blanks, rfl, hmap, hne, hblanks⟩, hr⟩
  · rintro ⟨_, rfl, ⟨letters, blanks, rfl, hmap, hne, hblanks⟩, hr⟩
    exact ⟨blanks ++ r, afterKeyword?_eq_some_iff.2 ⟨letters, List.append_assoc .., hmap⟩,
      afterBlanks?_eq_some_iff.2 ⟨blanks, rfl, hne, hblanks, hr⟩⟩

theorem Spells.visible (h : Spells keyword w) (hkey : isKeyword keyword = true) (s : List Char) :
    Visible (w ++ s) := by
  obtain ⟨letters, blanks, rfl, hmap, -⟩ := h
  obtain ⟨hne, hall⟩ := facts_of_isKeyword hkey hmap
  obtain ⟨c, letters, rfl⟩ := List.exists_cons_of_ne_nil hne
  exact visible_cons (hall c List.mem_cons_self).1 _

theorem Spells.not_mem (h : Spells keyword w) (hkey : isKeyword keyword = true) : ';' ∉ w := by
  obtain ⟨letters, blanks, rfl, hmap, -, hblanks⟩ := h
  rw [List.mem_append]
  rintro (hmem | hmem)
  · exact ((facts_of_isKeyword hkey hmap).2 _ hmem).2 rfl
  · exact absurd (hblanks _ hmem) (by decide)

/-- The letters are all that comes before the first blank. -/
theorem Spells.takeWhile (h : Spells keyword w) (hkey : isKeyword keyword = true) (s : List Char) :
    ((w ++ s).takeWhile (!isBlank ·)).map foldCase = keyword.toList := by
  obtain ⟨letters, blanks, rfl, hmap, hne, hblanks⟩ := h
  obtain ⟨c, blanks, rfl⟩ := List.exists_cons_of_ne_nil hne
  have hletters : ∀ c ∈ letters, (!isBlank c) = true := fun c hc => by
    rw [((facts_of_isKeyword hkey hmap).2 c hc).1, Bool.not_false]
  rw [List.append_assoc, List.takeWhile_append_of_pos hletters, List.cons_append, List.takeWhile_cons,
    hblanks c List.mem_cons_self, Bool.not_true, if_neg Bool.false_ne_true, List.append_nil, hmap]

theorem afterWordAndBlanks?_of_ne (h : Spells keyword w) (hkey : isKeyword keyword = true)
    (hkey' : isKeyword keyword' = true) (hne : keyword ≠ keyword') (s : List Char) :
    afterWordAndBlanks? keyword' (w ++ s) = none := by
  rw [Option.eq_none_iff_forall_ne_some]
  intro r hr
  obtain ⟨w', heq, hw', -⟩ := afterWordAndBlanks?_eq_some_iff.1 hr
  have hsame := hw'.takeWhile hkey' r
  rw [← heq, h.takeWhile hkey] at hsame
  exact hne (String.toList_injective hsame)

/-! ### Declarations and guards -/

/-- `IF NOT EXISTS`, up to case, with the blanks behind each word. -/
def SpellsGuard (w : List Char) : Prop :=
  ∃ w₁ w₂ w₃, w = w₁ ++ (w₂ ++ w₃) ∧ Spells "if" w₁ ∧ Spells "not" w₂ ∧ Spells "exists" w₃

def SpellsTemp (temp : List Char) : Prop := Spells "temp" temp ∨ Spells "temporary" temp

/-- The words of a declaration, `temp` among them unless it is empty. -/
def SpellsHead (temp w : List Char) : Prop :=
  ∃ w₁ w₂, w = w₁ ++ (temp ++ w₂) ∧ Spells "create" w₁ ∧ (temp = [] ∨ SpellsTemp temp) ∧
    Spells "table" w₂

theorem afterGuard?_eq_some_iff :
    afterGuard? s = some r ↔ ∃ w, s = w ++ r ∧ SpellsGuard w ∧ Visible r := by
  rw [afterGuard?, Option.bind_eq_some_iff]
  constructor
  · rintro ⟨t, ht, hr⟩
    obtain ⟨u, hif, hnot⟩ := Option.bind_eq_some_iff.1 ht
    obtain ⟨w₁, rfl, hw₁, -⟩ := afterWordAndBlanks?_eq_some_iff.1 hif
    obtain ⟨w₂, rfl, hw₂, -⟩ := afterWordAndBlanks?_eq_some_iff.1 hnot
    obtain ⟨w₃, rfl, hw₃, hvisible⟩ := afterWordAndBlanks?_eq_some_iff.1 hr
    exact ⟨w₁ ++ (w₂ ++ w₃), by simp only [List.append_assoc], ⟨w₁, w₂, w₃, rfl, hw₁, hw₂, hw₃⟩, hvisible⟩
  · rintro ⟨_, rfl, ⟨w₁, w₂, w₃, rfl, hw₁, hw₂, hw₃⟩, hr⟩
    have h₃ : afterWordAndBlanks? "exists" (w₃ ++ r) = some r :=
      afterWordAndBlanks?_eq_some_iff.2 ⟨w₃, rfl, hw₃, hr⟩
    have h₂ : afterWordAndBlanks? "not" (w₂ ++ (w₃ ++ r)) = some (w₃ ++ r) :=
      afterWordAndBlanks?_eq_some_iff.2 ⟨w₂, rfl, hw₂, hw₃.visible (by decide) r⟩
    have h₁ : afterWordAndBlanks? "if" (w₁ ++ (w₂ ++ (w₃ ++ r))) = some (w₂ ++ (w₃ ++ r)) :=
      afterWordAndBlanks?_eq_some_iff.2 ⟨w₁, rfl, hw₁, hw₂.visible (by decide) _⟩
    refine ⟨w₃ ++ r, ?_, h₃⟩
    rw [List.append_assoc, List.append_assoc, h₁]
    exact h₂

theorem SpellsGuard.visible (h : SpellsGuard w) (s : List Char) : Visible (w ++ s) := by
  obtain ⟨w₁, w₂, w₃, rfl, hw₁, -⟩ := h
  rw [List.append_assoc]
  exact hw₁.visible (by decide) _

theorem SpellsTemp.visible (h : SpellsTemp temp) (s : List Char) : Visible (temp ++ s) :=
  h.elim (·.visible (by decide) s) (·.visible (by decide) s)

theorem afterTemp?_eq_some_iff :
    afterTemp? s = some r ↔ ∃ temp, s = temp ++ r ∧ SpellsTemp temp ∧ Visible r := by
  constructor
  · intro h
    rw [afterTemp?] at h
    cases htemp : afterWordAndBlanks? "temp" s with
    | some t =>
      rw [htemp] at h
      cases h
      obtain ⟨w, rfl, hw, hvisible⟩ := afterWordAndBlanks?_eq_some_iff.1 htemp
      exact ⟨w, rfl, .inl hw, hvisible⟩
    | none =>
      rw [htemp] at h
      obtain ⟨w, rfl, hw, hvisible⟩ := afterWordAndBlanks?_eq_some_iff.1 h
      exact ⟨w, rfl, .inr hw, hvisible⟩
  · rintro ⟨w, rfl, hw | hw, hr⟩
    · rw [afterTemp?, afterWordAndBlanks?_eq_some_iff.2 ⟨w, rfl, hw, hr⟩]
      rfl
    · rw [afterTemp?, afterWordAndBlanks?_of_ne hw (by decide) (by decide) (by decide)]
      exact afterWordAndBlanks?_eq_some_iff.2 ⟨w, rfl, hw, hr⟩

theorem afterTemp?_table (h : Spells "table" w) (s : List Char) : afterTemp? (w ++ s) = none := by
  rw [afterTemp?, afterWordAndBlanks?_of_ne h (by decide) (by decide) (by decide),
    afterWordAndBlanks?_of_ne h (by decide) (by decide) (by decide)]
  rfl

theorem head?_eq_some_iff :
    head? s = some (temp, r) ↔ ∃ w, s = w ++ r ∧ SpellsHead temp w ∧ Visible r := by
  rw [head?_eq, Option.bind_eq_some_iff]
  constructor
  · rintro ⟨t, ht, h⟩
    obtain ⟨w₁, rfl, hw₁, -⟩ := afterWordAndBlanks?_eq_some_iff.1 ht
    cases htemp : afterTemp? t with
    | none =>
      rw [htemp] at h
      obtain ⟨_, htable, heq⟩ := Option.map_eq_some_iff.1 h
      obtain ⟨rfl, rfl⟩ := Prod.mk.inj heq
      obtain ⟨w₂, rfl, hw₂, hr⟩ := afterWordAndBlanks?_eq_some_iff.1 htable
      exact ⟨w₁ ++ w₂, (List.append_assoc ..).symm, ⟨w₁, w₂, rfl, hw₁, .inl rfl, hw₂⟩, hr⟩
    | some u =>
      rw [htemp] at h
      obtain ⟨_, htable, heq⟩ := Option.map_eq_some_iff.1 h
      obtain ⟨w₀, rfl, hw₀, -⟩ := afterTemp?_eq_some_iff.1 htemp
      rw [List.length_append, Nat.add_sub_cancel, List.take_left] at heq
      obtain ⟨rfl, rfl⟩ := Prod.mk.inj heq
      obtain ⟨w₂, rfl, hw₂, hr⟩ := afterWordAndBlanks?_eq_some_iff.1 htable
      exact ⟨w₁ ++ (w₀ ++ w₂), by simp only [List.append_assoc], ⟨w₁, w₂, rfl, hw₁, .inr hw₀, hw₂⟩, hr⟩
  · rintro ⟨_, rfl, ⟨w₁, w₂, rfl, hw₁, htemp, hw₂⟩, hr⟩
    have htable : afterWordAndBlanks? "table" (w₂ ++ r) = some r :=
      afterWordAndBlanks?_eq_some_iff.2 ⟨w₂, rfl, hw₂, hr⟩
    have hvisible := hw₂.visible (by decide) r
    refine ⟨temp ++ (w₂ ++ r), afterWordAndBlanks?_eq_some_iff.2 ⟨w₁, ?_, hw₁, ?_⟩, ?_⟩
    · simp only [List.append_assoc]
    · rcases htemp with rfl | htemp
      · exact hvisible
      · exact htemp.visible _
    · rcases htemp with rfl | htemp
      · rw [List.nil_append, afterTemp?_table hw₂]
        dsimp only
        rw [htable]
        rfl
      · rw [afterTemp?_eq_some_iff.2 ⟨temp, rfl, htemp, hvisible⟩]
        dsimp only
        rw [htable, List.length_append, Nat.add_sub_cancel, List.take_left]
        rfl

theorem head?_of_isBlank (hc : isBlank c = true) (s : List Char) : head? (c :: s) = none := by
  rw [Option.eq_none_iff_forall_ne_some]
  rintro ⟨temp, r⟩ hr
  obtain ⟨_, heq, ⟨w₁, w₂, rfl, hcreate, -⟩, -⟩ := head?_eq_some_iff.1 hr
  have hvisible := hcreate.visible (by decide) (temp ++ w₂ ++ r)
  rw [List.append_assoc] at heq
  rw [← heq] at hvisible
  rw [hvisible c rfl] at hc
  cases hc

/-! ### Other texts behind the words -/

theorem spells_of_eq (letters : List Char) (h : w = letters ++ [' '])
    (hmap : letters.map foldCase = keyword.toList) : Spells keyword w :=
  ⟨letters, [' '], h, hmap, List.cons_ne_nil _ _, List.forall_mem_singleton.2 (by decide)⟩

theorem spells_create : Spells "create" "CREATE ".toList :=
  spells_of_eq "CREATE".toList (by decide) (by decide)

theorem spells_table : Spells "table" "TABLE ".toList :=
  spells_of_eq "TABLE".toList (by decide) (by decide)

theorem spellsGuard_guard : SpellsGuard "IF NOT EXISTS ".toList :=
  ⟨"IF ".toList, "NOT ".toList, "EXISTS ".toList, by decide,
    spells_of_eq "IF".toList (by decide) (by decide),
    spells_of_eq "NOT".toList (by decide) (by decide),
    spells_of_eq "EXISTS".toList (by decide) (by decide)⟩

/-- What stands for the words of a declaration is read as one, with the same `TEMP` or `TEMPORARY`. -/
theorem head?_respelled (h : head? s = some (temp, rest)) (hr : Visible r) :
    head? ("CREATE ".toList ++ (temp ++ ("TABLE ".toList ++ r))) = some (temp, r) := by
  obtain ⟨_, -, ⟨_, _, -, -, htemp, -⟩, -⟩ := head?_eq_some_iff.1 h
  exact head?_eq_some_iff.2 ⟨"CREATE ".toList ++ (temp ++ "TABLE ".toList),
    by simp only [List.append_assoc], ⟨_, _, rfl, spells_create, htemp, spells_table⟩, hr⟩

theorem afterGuard?_respelled (hr : Visible r) : afterGuard? ("IF NOT EXISTS ".toList ++ r) = some r :=
  afterGuard?_eq_some_iff.2 ⟨_, rfl, spellsGuard_guard, hr⟩

/-- A declaration of which something is left is the same with more text behind it. -/
theorem head?_append_of_ne_nil (h : head? s = some (temp, rest)) (hne : rest ≠ []) (r : List Char) :
    head? (s ++ r) = some (temp, rest ++ r) := by
  obtain ⟨w, rfl, hw, hvisible⟩ := head?_eq_some_iff.1 h
  exact head?_eq_some_iff.2 ⟨w, List.append_assoc .., hw, hvisible.append hne r⟩

theorem SpellsGuard.not_mem (h : SpellsGuard w) : ';' ∉ w := by
  obtain ⟨w₁, w₂, w₃, rfl, hw₁, hw₂, hw₃⟩ := h
  simp only [List.mem_append, not_or]
  exact ⟨hw₁.not_mem (by decide), hw₂.not_mem (by decide), hw₃.not_mem (by decide)⟩

theorem SpellsHead.not_mem (h : SpellsHead temp w) : ';' ∉ w := by
  obtain ⟨w₁, w₂, rfl, hw₁, htemp, hw₂⟩ := h
  have hmem : ';' ∉ temp := by
    rcases htemp with rfl | htemp | htemp
    · exact List.not_mem_nil
    · exact htemp.not_mem (by decide)
    · exact htemp.not_mem (by decide)
  simp only [List.mem_append, not_or]
  exact ⟨hw₁.not_mem (by decide), hmem, hw₂.not_mem (by decide)⟩

/-- Words without semicolons in front of a text with one end in front of it. -/
theorem exists_of_append_eq (h : w ++ r = a ++ ';' :: b) (hw : ';' ∉ w) :
    ∃ r', a = w ++ r' ∧ r = r' ++ ';' :: b := by
  rcases List.append_eq_append_iff.1 h with ⟨r', rfl, rfl⟩ | ⟨w', rfl, heq⟩
  · exact ⟨r', rfl, rfl⟩
  · cases w' with
    | nil => exact ⟨[], by simp, heq.symm⟩
    | cons c w' =>
      obtain ⟨rfl, -⟩ := List.cons.inj heq
      exact absurd (List.mem_append_right a List.mem_cons_self) hw

theorem Visible.append_semicolon (h : Visible r) (s : List Char) : Visible (r ++ ';' :: s) := by
  cases r with
  | nil => exact visible_cons (by decide) s
  | cons c r => exact h

/-- Words without semicolons are taken in front of one as if the text ended there. -/
theorem append_semicolon_iff {P : List Char → Prop} (hP : ∀ w, P w → ';' ∉ w) (a b r : List Char) :
    (∃ w, a ++ ';' :: b = w ++ r ∧ P w ∧ Visible r) ↔
      ∃ r', (∃ w, a = w ++ r' ∧ P w ∧ Visible r') ∧ r' ++ ';' :: b = r := by
  constructor
  · rintro ⟨w, heq, hw, hr⟩
    obtain ⟨r', rfl, rfl⟩ := exists_of_append_eq heq.symm (hP w hw)
    exact ⟨r', ⟨w, rfl, hw, hr.of_append⟩, rfl⟩
  · rintro ⟨r', ⟨w, rfl, hw, hr⟩, rfl⟩
    exact ⟨w, List.append_assoc .., hw, hr.append_semicolon b⟩

theorem head?_append_semicolon (a b : List Char) :
    head? (a ++ ';' :: b) = (head? a).map fun (temp, r) => (temp, r ++ ';' :: b) := by
  refine Option.ext fun (temp, r) => ?_
  rw [head?_eq_some_iff, append_semicolon_iff fun _ h => h.not_mem, Option.map_eq_some_iff]
  constructor
  · rintro ⟨r', ha, rfl⟩
    exact ⟨(temp, r'), head?_eq_some_iff.2 ha, rfl⟩
  · rintro ⟨⟨temp', r'⟩, ha, heq⟩
    obtain ⟨rfl, rfl⟩ := Prod.mk.inj heq
    exact ⟨r', head?_eq_some_iff.1 ha, rfl⟩

theorem afterGuard?_append_semicolon (a b : List Char) :
    afterGuard? (a ++ ';' :: b) = (afterGuard? a).map (· ++ ';' :: b) := by
  refine Option.ext fun r => ?_
  rw [afterGuard?_eq_some_iff, append_semicolon_iff fun _ h => h.not_mem, Option.map_eq_some_iff]
  simp only [afterGuard?_eq_some_iff]

end QueryTree.Sql
