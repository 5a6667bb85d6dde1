import Mathlib.Data.List.TakeWhile
import QueryTree.Proofs.Sql.Lines
import QueryTree.Sql.TableDecl

/-!
# Guarded declarations and quotes

The words of a declaration hold no quotes and no marks of comments, and what recognises them stops in
front of such a mark (`Stops`). So a script is guarded piece by piece between its marks
(`guardFrom_append`); a woven text stays woven, of the quoted texts with the declarations in them
guarded too (`Woven.guardFrom`).
-/

namespace QueryTree.Sql

open Text (afterKeyword? afterSome? isBlank isWord foldCase)

/-- The characters that quoted texts and comments begin with. -/
def isMark (c : Char) : Bool := isQuote c || c == '-' || c == '/'

variable {c d : Char} {s r rest word : List Char} {ts : List (List Char)} {inWord : Bool}
  {f g : List Char → Option (List Char)}

theorem facts_of_isMark (h : isMark c = true) :
    foldCase c = c ∧ isBlank c = false ∧ isWord c = false := by
  simp only [isMark, isQuote, Bool.or_eq_true, beq_iff_eq] at h
  rcases h with (((rfl | rfl) | rfl) | rfl) | rfl <;> decide

theorem not_isMark_of_isBlank (h : isBlank c = true) : isMark c = false := by
  rw [← Bool.not_eq_true]
  intro hmark
  rw [(facts_of_isMark hmark).2.1] at h
  cases h

theorem not_isMark_of_all (h : (s.all fun c => !isMark c) = true) : ∀ c ∈ s, isMark c = false := by
  simpa using h

theorem isMark_of_isQuote (h : isQuote c = true) : isMark c = true := by
  rw [isMark, h, Bool.true_or, Bool.true_or]

theorem ne_of_not_isMark (h : isMark c = false) : isQuote c = false ∧ c ≠ '-' ∧ c ≠ '/' := by
  simpa [isMark, and_assoc] using h

/-! ### Readers that stop in front of marks -/

/-- A mark, and what comes behind it, is of no account for the reader, which leaves it. -/
structure Stops (f : List Char → Option (List Char)) : Prop where
  append : ∀ {c}, isMark c = true → ∀ r s, f (r ++ c :: s) = (f r).map (· ++ c :: s)
  taken : ∀ {s rest}, f s = some rest → ∃ r, s = r ++ rest ∧ ∀ c ∈ r, isMark c = false

theorem stops_afterKeyword? (h : ∀ w ∈ word, isMark w = false) : Stops (afterKeyword? word) where
  append {c} hc r s := by
    induction word generalizing r with
    | nil => rfl
    | cons w ws ih =>
      obtain ⟨hw, hws⟩ := List.forall_mem_cons.1 h
      cases r with
      | nil =>
        have hne : foldCase c ≠ w := by
          rw [(facts_of_isMark hc).1]
          rintro rfl
          rw [hc] at hw
          cases hw
        rw [List.nil_append, afterKeyword?, afterKeyword?, if_neg hne]
        rfl
      | cons d r =>
        rw [List.cons_append, afterKeyword?, afterKeyword?, ih hws]
        split <;> rfl
  taken {s rest} hs := by
    induction word generalizing s with
    | nil =>
      cases hs
      exact ⟨[], rfl, List.forall_mem_nil _⟩
    | cons w ws ih =>
      obtain ⟨hw, hws⟩ := List.forall_mem_cons.1 h
      cases s with
      | nil => cases hs
      | cons c s =>
        rw [afterKeyword?] at hs
        split at hs
        · next hfold =>
          obtain ⟨r, rfl, hr⟩ := ih hws hs
          have hc : isMark c = false := by
            rw [← Bool.not_eq_true]
            intro hc
            rw [← (facts_of_isMark hc).1, hfold, hw] at hc
            cases hc
          exact ⟨c :: r, rfl, List.forall_mem_cons.2 ⟨hc, hr⟩⟩
        · cases hs

theorem stops_afterBlanks? : Stops (afterSome? isBlank) where
  append {c} hc r s := by
    have hblank := (facts_of_isMark hc).2.1
    cases r with
    | nil =>
      rw [List.nil_append, afterSome?, hblank]
      rfl
    | cons d r =>
      rw [List.cons_append, afterSome?, afterSome?, Text.dropWhile_append_cons hblank]
      split <;> rfl
  taken {s rest} hs := by
    cases s with
    | nil => cases hs
    | cons c s =>
      rw [afterSome?] at hs
      split at hs
      · next hc =>
        cases hs
        refine ⟨c :: s.takeWhile isBlank, ?_, List.forall_mem_cons.2
          ⟨not_isMark_of_isBlank hc, fun d hd => not_isMark_of_isBlank (List.mem_takeWhile_imp hd)⟩⟩
        rw [List.cons_append, List.takeWhile_append_dropWhile]
      · cases hs

theorem Stops.bind (hf : Stops f) (hg : Stops g) : Stops fun s => (f s).bind g where
  append hc r s := by
    rw [hf.append hc]
    cases f r with
    | none => rfl
    | some r' => exact hg.append hc r' s
  taken hs := by
    obtain ⟨s', hs', hrest⟩ := Option.bind_eq_some_iff.1 hs
    obtain ⟨r, rfl, hr⟩ := hf.taken hs'
    obtain ⟨r', rfl, hr'⟩ := hg.taken hrest
    exact ⟨r ++ r', (List.append_assoc ..).symm, List.forall_mem_append.2 ⟨hr, hr'⟩⟩

theorem Stops.orElse (hf : Stops f) (hg : Stops g) : Stops fun s => (f s).orElse fun _ => g s where
  append hc r s := by
    rw [hf.append hc, hg.append hc]
    cases f r <;> rfl
  taken {s rest} hs := by
    cases hfs : f s with
    | none =>
      rw [hfs] at hs
      exact hg.taken hs
    | some r =>
      rw [hfs] at hs
      cases hs
      exact hf.taken hfs

theorem stops_afterWordAndBlanks? {keyword : String}
    (h : (keyword.toList.all fun c => !isMark c) = true) : Stops (afterWordAndBlanks? keyword) :=
  (stops_afterKeyword? (not_isMark_of_all h)).bind stops_afterBlanks?

theorem stops_afterGuard? : Stops afterGuard? :=
  ((stops_afterWordAndBlanks? (by decide)).bind (stops_afterWordAndBlanks? (by decide))).bind
    (stops_afterWordAndBlanks? (by decide))

theorem stops_afterTemp? : Stops afterTemp? :=
  (stops_afterWordAndBlanks? (by decide)).orElse (stops_afterWordAndBlanks? (by decide))

theorem stops_create : Stops (afterWordAndBlanks? "create") := stops_afterWordAndBlanks? (by decide)

theorem stops_table : Stops (afterWordAndBlanks? "table") := stops_afterWordAndBlanks? (by decide)

/-! ### Declarations -/

theorem head?_eq (s : List Char) :
    head? s = (afterWordAndBlanks? "create" s).bind fun r =>
      match afterTemp? r with
      | some t => (afterWordAndBlanks? "table" t).map fun rest => (r.take (r.length - t.length), rest)
      | none => (afterWordAndBlanks? "table" r).map fun rest => ([], rest) := by
  rw [head?]
  cases afterWordAndBlanks? "create" s with
  | none => rfl
  | some r =>
    show (match afterTemp? r with | some t => _ | none => _) = _
    rw [Option.bind_some]
    cases afterTemp? r with
    | none =>
      dsimp only
      cases afterWordAndBlanks? "table" r <;> rfl
    | some t =>
      dsimp only
      cases afterWordAndBlanks? "table" t <;> rfl

theorem head?_append (hc : isMark c = true) (r s : List Char) :
    head? (r ++ c :: s) = (head? r).map fun (temp, rest) => (temp, rest ++ c :: s) := by
  rw [head?_eq, head?_eq, stops_create.append hc]
  cases afterWordAndBlanks? "create" r with
  | none => rfl
  | some r =>
    simp only [Option.map_some, Option.bind_some, stops_afterTemp?.append hc]
    cases ht : afterTemp? r with
    | none =>
      simp only [Option.map_none, stops_table.append hc, Option.map_map]
      rfl
    | some t =>
      obtain ⟨temp, rfl, -⟩ := stops_afterTemp?.taken ht
      simp only [Option.map_some, stops_table.append hc, Option.map_map]
      cases afterWordAndBlanks? "table" t with
      | none => rfl
      | some rest => simp

theorem taken_head? {temp : List Char} (h : head? s = some (temp, rest)) :
    (∃ r, s = r ++ rest ∧ ∀ c ∈ r, isMark c = false) ∧ ∀ c ∈ temp, isMark c = false := by
  rw [head?_eq] at h
  obtain ⟨s', hcreate, hs'⟩ := Option.bind_eq_some_iff.1 h
  obtain ⟨r₁, rfl, hr₁⟩ := stops_create.taken hcreate
  cases ht : afterTemp? s' with
  | none =>
    rw [ht] at hs'
    obtain ⟨rest', htable, heq⟩ := Option.map_eq_some_iff.1 hs'
    cases heq
    obtain ⟨r₂, rfl, hr₂⟩ := stops_table.taken htable
    exact ⟨⟨r₁ ++ r₂, (List.append_assoc ..).symm, List.forall_mem_append.2 ⟨hr₁, hr₂⟩⟩,
      List.forall_mem_nil _⟩
  | some t =>
    rw [ht] at hs'
    obtain ⟨rest', htable, heq⟩ := Option.map_eq_some_iff.1 hs'
    obtain ⟨r₂, rfl, hr₂⟩ := stops_afterTemp?.taken ht
    obtain ⟨r₃, rfl, hr₃⟩ := stops_table.taken htable
    obtain ⟨rfl, rfl⟩ := Prod.mk.inj heq
    refine ⟨⟨r₁ ++ (r₂ ++ r₃), by simp only [List.append_assoc], ?_⟩, ?_⟩
    · exact List.forall_mem_append.2 ⟨hr₁, List.forall_mem_append.2 ⟨hr₂, hr₃⟩⟩
    · simpa using hr₂

/-! ### Guarding -/

theorem guardFrom_nil (inWord : Bool) : guardFrom inWord [] = [] := by
  rw [guardFrom]

theorem guardFrom_of_inWord (c : Char) (s : List Char) :
    guardFrom true (c :: s) = c :: guardFrom (isWord c) s := by
  rw [guardFrom, if_pos rfl]

theorem guardFrom_of_none (h : head? (c :: s) = none) (inWord : Bool) :
    guardFrom inWord (c :: s) = c :: guardFrom (isWord c) s := by
  rw [guardFrom]
  split
  · rfl
  · split
    · next heq => rw [h] at heq; cases heq
    · rfl

theorem guardFrom_of_some {temp : List Char} (h : head? (c :: s) = some (temp, rest)) :
    guardFrom false (c :: s) = "CREATE ".toList ++ temp ++ guardText ++
      guardFrom false ((afterGuard? rest).getD rest) := by
  rw [guardFrom, if_neg Bool.false_ne_true]
  split
  · next heq =>
    rw [h] at heq
    cases heq
    rfl
  · next heq => rw [h] at heq; cases heq

/-- A text is guarded in front of a mark and behind it apart. -/
theorem guardFrom_append (hc : isMark c = true) (inWord : Bool) (r s : List Char) :
    guardFrom inWord (r ++ c :: s) = guardFrom inWord r ++ c :: guardFrom false s := by
  fun_induction guardFrom inWord r with
  | case1 inWord =>
    have hnone : head? (c :: s) = none := head?_append hc [] s
    rw [List.nil_append, List.nil_append, guardFrom_of_none hnone, (facts_of_isMark hc).2.2]
  | case2 d r ih => rw [List.cons_append, guardFrom_of_inWord, ih, List.cons_append]
  | case3 inWord d r hword temp rest hhead ih =>
    have hmore : head? (d :: (r ++ c :: s)) = some (temp, rest ++ c :: s) := by
      rw [← List.cons_append, head?_append hc, hhead, Option.map_some]
    have hrest : (afterGuard? (rest ++ c :: s)).getD (rest ++ c :: s) =
        (afterGuard? rest).getD rest ++ c :: s := by
      rw [stops_afterGuard?.append hc]
      cases afterGuard? rest <;> rfl
    rw [Bool.not_eq_true] at hword
    rw [hword, List.cons_append, guardFrom_of_some hmore, hrest, ih, ← List.append_assoc]
  | case4 inWord d r hword hhead ih =>
    have hmore : head? (d :: (r ++ c :: s)) = none := by
      rw [← List.cons_append, head?_append hc, hhead, Option.map_none]
    rw [List.cons_append, guardFrom_of_none hmore, ih, List.cons_append]

/-- A declaration and its guard are without marks. -/
theorem taken_declaration {temp : List Char} (h : head? s = some (temp, rest)) :
    ∃ r, s = r ++ (afterGuard? rest).getD rest ∧ (∀ c ∈ r, isMark c = false) ∧ r ≠ [] := by
  obtain ⟨⟨r, rfl, hr⟩, -⟩ := taken_head? h
  have hne : r ≠ [] := by
    rintro rfl
    exact absurd (length_head?_lt h) (Nat.lt_irrefl _)
  cases hguard : afterGuard? rest with
  | none => exact ⟨r, rfl, hr, hne⟩
  | some rest' =>
    obtain ⟨r', rfl, hr'⟩ := stops_afterGuard?.taken hguard
    exact ⟨r ++ r', (List.append_assoc ..).symm, List.forall_mem_append.2 ⟨hr, hr'⟩,
      List.append_ne_nil_of_left_ne_nil hne r'⟩

/-- What stands for a declaration is without marks. -/
theorem not_isMark_declaration {temp : List Char} (h : head? s = some (temp, rest)) :
    ∀ c ∈ "CREATE ".toList ++ temp ++ guardText, isMark c = false := by
  have hcreate : ∀ c ∈ "CREATE ".toList, isMark c = false := not_isMark_of_all (by decide)
  have hguard : ∀ c ∈ guardText, isMark c = false := not_isMark_of_all (by decide)
  exact List.forall_mem_append.2 ⟨List.forall_mem_append.2 ⟨hcreate, (taken_head? h).2⟩, hguard⟩

/-- Guarding brings in no marks. -/
theorem mem_of_mem_guardFrom (hd : isMark d = true) (h : d ∈ guardFrom inWord s) : d ∈ s := by
  fun_induction guardFrom inWord s with
  | case1 => exact h
  | case2 c r ih =>
    rcases List.mem_cons.1 h with rfl | h
    · exact List.mem_cons_self
    · exact List.mem_cons_of_mem c (ih h)
  | case3 inWord c r hword temp rest hhead ih =>
    obtain ⟨taken, heq, -⟩ := taken_declaration hhead
    rw [heq]
    rcases List.mem_append.1 h with h | h
    · rw [not_isMark_declaration hhead d h] at hd
      cases hd
    · exact List.mem_append_right taken (ih h)
  | case4 inWord c r hword hhead ih =>
    rcases List.mem_cons.1 h with rfl | h
    · exact List.mem_cons_self
    · exact List.mem_cons_of_mem c (ih h)

/-- A guarded text begins as before or with the first word of a declaration. -/
theorem head_guardFrom (inWord : Bool) (s : List Char) :
    ∀ d ∈ (guardFrom inWord s).head?, s.head? = some d ∨ d ≠ '-' ∧ d ≠ '*' := by
  fun_cases guardFrom inWord s with
  | case1 => exact nofun
  | case2 | case4 => exact fun d hd => .inl hd
  | case3 =>
    rintro d ⟨⟩
    exact .inr (by decide)

theorem guardFrom_quoted {t : List Char} (ht : IsQuoted t) :
    IsQuoted (guardFrom false t) ∧
      ∀ inWord s, guardFrom inWord (t ++ s) = guardFrom false t ++ guardFrom false s := by
  obtain ⟨q, body, hq, hbody, rfl⟩ := ht
  have hmark := isMark_of_isQuote hq
  have hcut : ∀ inWord s, guardFrom inWord (q :: (body ++ q :: s)) =
      q :: (guardFrom false body ++ q :: guardFrom false s) := by
    intro inWord s
    have hopen := guardFrom_append hmark inWord [] (body ++ q :: s)
    rw [guardFrom_nil] at hopen
    rw [← guardFrom_append hmark]
    exact hopen
  have halone : guardFrom false (q :: (body ++ [q])) = q :: (guardFrom false body ++ [q]) := by
    rw [hcut, guardFrom_nil]
  refine ⟨⟨q, guardFrom false body, hq, fun h => hbody (mem_of_mem_guardFrom hmark h), halone⟩,
    fun inWord s => ?_⟩
  rw [halone]
  simpa using hcut inWord s

/-! ### Woven texts -/

theorem Woven.of_append (h : Woven (r ++ s) ts) (hr : ∀ c ∈ r, isMark c = false) : Woven s ts := by
  induction r with
  | nil => exact h
  | cons c r ih =>
    obtain ⟨hc, hr⟩ := List.forall_mem_cons.1 hr
    generalize heq : c :: r ++ s = text at h
    cases h with
    | nil => cases heq
    | live _ _ h =>
      obtain ⟨-, rfl⟩ := List.cons.inj heq
      exact ih h hr
    | quoted ht h =>
      obtain ⟨q, body, hq, -, rfl⟩ := ht
      obtain ⟨rfl, -⟩ := List.cons.inj heq
      rw [isMark_of_isQuote hq] at hc
      cases hc

theorem Woven.append (h : Woven s ts) (hr : ∀ c ∈ r, isMark c = false) : Woven (r ++ s) ts := by
  induction r with
  | nil => exact h
  | cons c r ih =>
    obtain ⟨hc, hr⟩ := List.forall_mem_cons.1 hr
    obtain ⟨hquote, hne⟩ := ne_of_not_isMark hc
    exact .live hquote (not_opens_of_ne hne) (ih hr)

theorem Woven.guardFrom (h : Woven s ts) (inWord : Bool) :
    Woven (guardFrom inWord s) (ts.map (Sql.guardFrom false)) := by
  -- on the length: a guarded declaration leaves out more of the text than one constructor of `Woven`
  induction hn : s.length using Nat.strong_induction_on generalizing s ts inWord with
  | _ n ih =>
    subst hn
    cases h with
    | nil =>
      rw [guardFrom_nil]
      exact .nil
    | @quoted t s ts ht h =>
      obtain ⟨hquoted, happend⟩ := guardFrom_quoted ht
      have hshorter : s.length < (t ++ s).length := by
        obtain ⟨q, body, -, -, rfl⟩ := ht
        simp
        omega
      rw [happend]
      exact .quoted hquoted (ih _ hshorter h false rfl)
    | @live c s ts hc hopens h =>
      have hcons : Woven (c :: Sql.guardFrom (isWord c) s) (ts.map (Sql.guardFrom false)) :=
        .live hc (not_opens_of_head hopens (head_guardFrom _ s))
          (ih _ (Nat.lt_succ_self _) h _ rfl)
      cases inWord with
      | true => rwa [guardFrom_of_inWord]
      | false =>
        cases hhead : head? (c :: s) with
        | none => rwa [guardFrom_of_none hhead]
        | some declared =>
          obtain ⟨temp, rest⟩ := declared
          -- the words taken hold no mark, so no quoted text is lost with them
          obtain ⟨taken, heq, htaken, hne⟩ := taken_declaration hhead
          have hwoven : Woven (c :: s) ts := .live hc hopens h
          rw [heq] at hwoven
          have hshorter : ((afterGuard? rest).getD rest).length < (c :: s).length := by
            rw [heq, List.length_append]
            exact Nat.lt_add_of_pos_left (List.length_pos_iff.2 hne)
          rw [guardFrom_of_some hhead]
          exact (ih _ hshorter (hwoven.of_append htaken) false rfl).append
            (not_isMark_declaration hhead)

end QueryTree.Sql
