import QueryTree.Proofs.Sql.Lines
import QueryTree.Sql.Statement

/-!
# Splitting a script

The pieces of a script are its cuts at the semicolons outside quotes: no piece holds such a semicolon,
and only the last one may leave a quote open (`Parted`). Both together determine the pieces of a text
that is joined of them (`piecesFrom_joinWith`), and trimming keeps both. So the statements of a script
are cut at the same places when they are joined and split again.
-/

namespace QueryTree.Sql

open Text (isBlank)

variable {c q : Char} {s p b piece : List Char} {ps pieces : List (List Char)}
  {open? : Option Char}

/-! ### Quotes -/

theorem quoteState_append (open? : Option Char) (s r : List Char) :
    quoteState open? (s ++ r) = quoteState (quoteState open? s) r := List.foldl_append

theorem isQuote_of_quoteAfter (h : ∀ q ∈ open?, isQuote q = true) :
    ∀ q ∈ quoteAfter open? c, isQuote q = true := by
  intro q hq
  cases open? with
  | none =>
    rw [quoteAfter] at hq
    split at hq
    · next hc =>
      cases hq
      exact hc
    · cases hq
  | some q' =>
    rw [quoteAfter] at hq
    split at hq
    · cases hq
    · exact h q hq

theorem isQuote_of_quoteState (h : ∀ q ∈ open?, isQuote q = true) :
    ∀ q ∈ quoteState open? s, isQuote q = true := by
  induction s generalizing open? with
  | nil => exact h
  | cons c s ih => exact ih (isQuote_of_quoteAfter h)

theorem quoteState_blanks (h : ∀ q ∈ open?, isQuote q = true) (hb : ∀ c ∈ b, isBlank c = true) :
    quoteState open? b = open? := by
  induction b with
  | nil => rfl
  | cons c b ih =>
    obtain ⟨hc, hb⟩ := List.forall_mem_cons.1 hb
    have hplain : ∀ q, isQuote q = true → c ≠ q := by
      rintro q hq rfl
      rw [isBlank_of_isQuote hq] at hc
      cases hc
    have hsame : quoteAfter open? c = open? := by
      cases open? with
      | none => exact if_neg fun hq => hplain c hq rfl
      | some q => exact if_neg (hplain q (h q rfl))
    show quoteState (quoteAfter open? c) b = open?
    rw [hsame, ih hb]

theorem isQuote_of_mem_none : ∀ q ∈ (none : Option Char), isQuote q = true := nofun

theorem quoteState_trim (s : List Char) : quoteState none (Text.trim s) = quoteState none s := by
  obtain ⟨b, b', heq, hb, hb'⟩ := Text.exists_append_trim s
  conv_rhs => rw [heq]
  rw [quoteState_append, quoteState_append, quoteState_blanks isQuote_of_mem_none hb,
    quoteState_blanks (isQuote_of_quoteState isQuote_of_mem_none) hb']

/-! ### Pieces -/

theorem piecesFrom_ne_nil (open? : Option Char) (s : List Char) : piecesFrom open? s ≠ [] := by
  cases s with
  | nil => simp [piecesFrom]
  | cons c s =>
    rw [piecesFrom]
    split
    · simp
    · split <;> simp

/-- A character that ends no piece belongs to the first one. -/
theorem piecesFrom_cons (hc : ¬ (open?.isNone ∧ c = ';'))
    (h : piecesFrom (quoteAfter open? c) s = piece :: pieces) :
    piecesFrom open? (c :: s) = (c :: piece) :: pieces := by
  rw [piecesFrom, if_neg hc, h]

theorem joinWith_piecesFrom (open? : Option Char) (s : List Char) :
    Text.joinWith [';'] (piecesFrom open? s) = s := by
  induction s generalizing open? with
  | nil => rfl
  | cons c s ih =>
    by_cases hend : open?.isNone ∧ c = ';'
    · rw [piecesFrom, if_pos hend, Text.joinWith_cons (piecesFrom_ne_nil none s), ih, hend.2]
      rfl
    · obtain ⟨piece, pieces, heq⟩ := List.exists_cons_of_ne_nil
        (piecesFrom_ne_nil (quoteAfter open? c) s)
      rw [piecesFrom_cons hend heq, Text.joinWith_cons_cons, ← heq, ih]

/-- No semicolon stands outside quotes. -/
def Whole (open? : Option Char) (s : List Char) : Prop :=
  ∀ front rest, s = front ++ ';' :: rest → quoteState open? front ≠ none

/-- Every text is whole, and the quotes of all but the last are closed. -/
def Parted : Option Char → List (List Char) → Prop
  | _, [] => False
  | open?, [p] => Whole open? p
  | open?, p :: p' :: ps => Whole open? p ∧ quoteState open? p = none ∧ Parted none (p' :: ps)

theorem whole_nil : Whole open? [] := by
  intro front rest h
  simp at h

theorem whole_cons : Whole open? (c :: s) ↔
    ¬ (open?.isNone ∧ c = ';') ∧ Whole (quoteAfter open? c) s := by
  constructor
  · intro h
    refine ⟨?_, fun front rest heq => h (c :: front) rest (congrArg (c :: ·) heq)⟩
    rintro ⟨hnone, rfl⟩
    exact h [] s rfl (Option.isNone_iff_eq_none.1 hnone)
  · rintro ⟨hc, h⟩ front rest heq
    cases front with
    | nil =>
      obtain ⟨rfl, -⟩ := List.cons.inj heq
      exact fun hnone => hc ⟨Option.isNone_iff_eq_none.2 hnone, rfl⟩
    | cons d front =>
      obtain ⟨rfl, hs⟩ := List.cons.inj heq
      exact h front rest hs

theorem parted_piecesFrom (open? : Option Char) (s : List Char) : Parted open? (piecesFrom open? s) := by
  induction s generalizing open? with
  | nil => exact whole_nil
  | cons c s ih =>
    by_cases hend : open?.isNone ∧ c = ';'
    · obtain ⟨p, ps, heq⟩ := List.exists_cons_of_ne_nil (piecesFrom_ne_nil none s)
      have hs := ih none
      rw [piecesFrom, if_pos hend]
      rw [heq] at hs ⊢
      exact ⟨whole_nil, Option.isNone_iff_eq_none.1 hend.1, hs⟩
    · obtain ⟨p, ps, heq⟩ := List.exists_cons_of_ne_nil (piecesFrom_ne_nil (quoteAfter open? c) s)
      have hs := ih (quoteAfter open? c)
      rw [piecesFrom_cons hend heq]
      rw [heq] at hs
      cases ps with
      | nil => exact whole_cons.2 ⟨hend, hs⟩
      | cons p' ps => exact ⟨whole_cons.2 ⟨hend, hs.1⟩, hs.2⟩

theorem piecesFrom_of_whole (h : Whole open? p) : piecesFrom open? p = [p] := by
  induction p generalizing open? with
  | nil => rfl
  | cons c p ih =>
    obtain ⟨hc, hp⟩ := whole_cons.1 h
    exact piecesFrom_cons hc (ih hp)

theorem piecesFrom_append_of_whole (h : Whole open? p) (hclosed : quoteState open? p = none)
    (s : List Char) : piecesFrom open? (p ++ ';' :: s) = p :: piecesFrom none s := by
  induction p generalizing open? with
  | nil =>
    have hnone : open? = none := hclosed
    rw [hnone]
    rfl
  | cons c p ih =>
    obtain ⟨hc, hp⟩ := whole_cons.1 h
    exact piecesFrom_cons hc (ih hp hclosed)

theorem piecesFrom_joinWith (h : Parted open? ps) : piecesFrom open? (Text.joinWith [';'] ps) = ps := by
  induction ps generalizing open? with
  | nil => exact h.elim
  | cons p ps ih =>
    cases ps with
    | nil => exact piecesFrom_of_whole h
    | cons p' ps =>
      obtain ⟨hp, hclosed, hps⟩ := h
      rw [Text.joinWith, List.append_assoc, List.singleton_append, piecesFrom_append_of_whole hp hclosed,
        ih hps]

theorem parted_iff : Parted none ps ↔
    ps ≠ [] ∧ (∀ p ∈ ps, Whole none p) ∧ ∀ p ∈ ps.dropLast, quoteState none p = none := by
  induction ps with
  | nil => simp [Parted]
  | cons p ps ih =>
    cases ps with
    | nil => simp [Parted]
    | cons p' ps =>
      simp only [Parted, ih, List.dropLast_cons_cons, List.forall_mem_cons]
      constructor
      · rintro ⟨hp, hclosed, -, hps, hall⟩
        exact ⟨List.cons_ne_nil _ _, ⟨hp, hps⟩, hclosed, hall⟩
      · rintro ⟨-, ⟨hp, hps⟩, hclosed, hall⟩
        exact ⟨hp, hclosed, List.cons_ne_nil _ _, hps, hall⟩

/-! ### Statements -/

structure IsStatement (s : List Char) : Prop where
  ne_nil : s ≠ []
  trimmed : Text.trim s = s
  /-- No semicolon stands outside quotes. -/
  whole : ∀ front rest, s = front ++ ';' :: rest → quoteState none front ≠ none

theorem Whole.trim (h : Whole none s) : Whole none (Text.trim s) := by
  intro front rest heq
  obtain ⟨b, b', hs, hb, -⟩ := Text.exists_append_trim s
  have hcut : s = b ++ front ++ ';' :: (rest ++ b') := by
    rw [hs, heq]
    simp only [List.append_assoc, List.cons_append]
  have hopen := h (b ++ front) (rest ++ b') hcut
  rwa [quoteState_append, quoteState_blanks isQuote_of_mem_none hb] at hopen

theorem mem_statementsOf (h : s ∈ statementsOf p) : s ≠ [] ∧ ∃ piece ∈ piecesFrom none p, s = Text.trim piece := by
  obtain ⟨hmap, hne⟩ := List.mem_filter.1 h
  obtain ⟨piece, hpiece, rfl⟩ := List.mem_map.1 hmap
  exact ⟨by simpa using hne, piece, hpiece, rfl⟩

theorem isStatement_of_mem (h : s ∈ statementsOf p) : IsStatement s := by
  obtain ⟨hne, piece, hpiece, rfl⟩ := mem_statementsOf h
  have hwhole := (parted_iff.1 (parted_piecesFrom none p)).2.1 piece hpiece
  exact ⟨hne, Text.trim_trim piece, hwhole.trim⟩

theorem mem_dropLast_of_filter {α : Type} {a : α} {keep : α → Bool} {l : List α}
    (h : a ∈ (l.filter keep).dropLast) : a ∈ l.dropLast := by
  rcases List.eq_nil_or_concat l with rfl | ⟨l, b, rfl⟩
  · cases h
  · rw [List.concat_eq_append, List.filter_append] at h
    rw [List.concat_eq_append, List.dropLast_concat]
    cases hb : keep b with
    | true =>
      rw [List.filter_cons_of_pos hb, List.filter_nil, List.dropLast_concat] at h
      exact (List.mem_filter.1 h).1
    | false =>
      rw [List.filter_cons_of_neg (by simp [hb]), List.filter_nil, List.append_nil] at h
      exact (List.mem_filter.1 ((List.dropLast_sublist _).subset h)).1

theorem closed_of_mem_dropLast (h : s ∈ (statementsOf p).dropLast) : quoteState none s = none := by
  have hmap := mem_dropLast_of_filter h
  rw [← List.map_dropLast] at hmap
  obtain ⟨piece, hpiece, rfl⟩ := List.mem_map.1 hmap
  rw [quoteState_trim]
  exact (parted_iff.1 (parted_piecesFrom none p)).2.2 piece hpiece

/-- A script without the semicolons that stand outside quotes. -/
def withoutEnds (open? : Option Char) : List Char → List Char
  | [] => []
  | c :: r =>
    if open?.isNone ∧ c = ';' then withoutEnds none r else c :: withoutEnds (quoteAfter open? c) r

theorem flatten_piecesFrom (open? : Option Char) (s : List Char) :
    (piecesFrom open? s).flatten = withoutEnds open? s := by
  induction s generalizing open? with
  | nil => rfl
  | cons c s ih =>
    by_cases hend : open?.isNone ∧ c = ';'
    · rw [piecesFrom, if_pos hend, withoutEnds, if_pos hend, List.flatten_cons, List.nil_append, ih]
    · obtain ⟨p, ps, heq⟩ := List.exists_cons_of_ne_nil (piecesFrom_ne_nil (quoteAfter open? c) s)
      rw [piecesFrom_cons hend heq, withoutEnds, if_neg hend, ← ih, heq, List.flatten_cons,
        List.flatten_cons, List.cons_append]

theorem withoutBlanks_flatten_statements (ps : List (List Char)) :
    Text.withoutBlanks ((ps.map Text.trim).filter fun s => !s.isEmpty).flatten =
      Text.withoutBlanks ps.flatten := by
  induction ps with
  | nil => rfl
  | cons p ps ih =>
    rw [List.map_cons, List.flatten_cons, Text.withoutBlanks_append, ← ih, ← Text.withoutBlanks_trim p,
      ← Text.withoutBlanks_append]
    by_cases hempty : Text.trim p = []
    · rw [hempty]
      rfl
    · rw [List.filter_cons_of_pos (by simpa using hempty), List.flatten_cons]

/-- Joined by semicolons, the statements of a script are split again at the same places. -/
theorem statementsOf_joinWith (s : List Char) :
    statementsOf (Text.joinWith [';'] (statementsOf s)) = statementsOf s := by
  by_cases hnil : statementsOf s = []
  · rw [hnil]
    rfl
  · have hparted : Parted none (statementsOf s) := parted_iff.2 ⟨hnil,
      fun p hp => (isStatement_of_mem hp).whole, fun p hp => closed_of_mem_dropLast hp⟩
    have htrim : (statementsOf s).map Text.trim = statementsOf s := by
      conv_rhs => rw [← List.map_id (statementsOf s)]
      exact List.map_congr_left fun p hp => (isStatement_of_mem hp).trimmed
    rw [statementsOf.eq_1 (Text.joinWith _ _), piecesFrom_joinWith hparted, htrim, List.filter_eq_self]
    intro p hp
    simpa using (isStatement_of_mem hp).ne_nil

theorem map_toList_splitStatements (script : String) :
    (splitStatements script).map String.toList = statementsOf script.toList := by
  rw [splitStatements, List.map_map]
  conv_rhs => rw [← List.map_id (statementsOf script.toList)]
  exact List.map_congr_left fun s _ => String.toList_ofList

/-- Splitting cuts a script into trimmed texts without semicolons outside quotes. Only the last of them
may leave a quote open, nothing but blanks and semicolons outside quotes is lost, and joined by
semicolons they are split again at the same places. -/
theorem splitStatements_parts (script : String) :
    (∀ e ∈ splitStatements script, IsStatement e.toList) ∧
      (∀ e ∈ (splitStatements script).dropLast, quoteState none e.toList = none) ∧
      Text.withoutBlanks ((splitStatements script).flatMap String.toList) =
        Text.withoutBlanks (withoutEnds none script.toList) ∧
      splitStatements (";".intercalate (splitStatements script)) = splitStatements script := by
  have hlists := map_toList_splitStatements script
  refine ⟨fun e he => ?_, fun e he => ?_, ?_, ?_⟩
  · have hmem : e.toList ∈ (splitStatements script).map String.toList := List.mem_map_of_mem he
    rw [hlists] at hmem
    exact isStatement_of_mem hmem
  · have hmem : e.toList ∈ ((splitStatements script).dropLast).map String.toList :=
      List.mem_map_of_mem he
    rw [List.map_dropLast, hlists] at hmem
    exact closed_of_mem_dropLast hmem
  · rw [List.flatMap_def, hlists, statementsOf, withoutBlanks_flatten_statements, flatten_piecesFrom]
  · have hjoined : (";".intercalate (splitStatements script)).toList =
        Text.joinWith [';'] (statementsOf script.toList) := by
      rw [String.toList_intercalate, hlists, Text.joinWith_eq_intercalate]
      rfl
    rw [splitStatements.eq_1 (";".intercalate _), hjoined, statementsOf_joinWith, splitStatements]

end QueryTree.Sql
