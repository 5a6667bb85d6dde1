import Mathlib.Data.List.TakeWhile
import QueryTree.Number.Parse
import QueryTree.Proofs.Text.Utf8
import QueryTree.Sql.Quote
import QueryTree.Sql.Slot
import QueryTree.Text.Split

/-!
# Slots by their characters

The slots of a statement are counted on its bytes. `lexemes` reads its characters instead: quoted texts,
names in brackets and comments, each up to its end, marks with the digits behind them, and single
characters. Where the count of the bytes takes digits out of the text (`cuts`), it takes those of a mark
that is read so, from one character to another (`cuts_encode`), so the count follows the marks
(`count_eq_foldl_marks`).
-/

namespace QueryTree.Sql.Slot

open Utf8 (encode)

/-! ### Characters -/

/-- What a statement is made of. -/
inductive Lexeme where
  /-- A quoted text, a name in brackets or a comment. -/
  | hidden (text : List Char)
  /-- A mark with the digits behind it. -/
  | mark (digits : List Char)
  | live (c : Char)
  deriving DecidableEq, Repr

namespace Lexeme

def text : Lexeme → List Char
  | hidden s => s
  | mark digits => '?' :: digits
  | live c => [c]

end Lexeme

/-- The text up to the quote that closes it, and what follows that. A doubled quote closes nothing, and
without a quote to close it the text goes on to the end. -/
def closeQuote (q : Char) : List Char → List Char × List Char
  | [] => ([], [])
  | c :: r =>
    if c = q then
      match r with
      | [] => ([c], [])
      | c' :: r' =>
        if c' = q then (c :: c' :: (closeQuote q r').1, (closeQuote q r').2) else ([c], c' :: r')
    else (c :: (closeQuote q r).1, (closeQuote q r).2)

/-- The text up to the mark that ends it, and what follows that; without such a mark, all of it. -/
def through (mark s : List Char) : List Char × List Char :=
  match Text.breakOn mark s with
  | some (before, after) => (before ++ mark, after)
  | none => (s, [])

/-- The quoted text, name in brackets or comment at the front of the text, and what follows it. -/
def hiddenAt? : List Char → Option (List Char × List Char)
  | '-' :: '-' :: r => some ('-' :: '-' :: (through ['\n'] r).1, (through ['\n'] r).2)
  | '/' :: '*' :: r => some ('/' :: '*' :: (through ['*', '/'] r).1, (through ['*', '/'] r).2)
  | '[' :: r => some ('[' :: (through [']'] r).1, (through [']'] r).2)
  | c :: r => if Sql.isQuote c then some (c :: (closeQuote c r).1, (closeQuote c r).2) else none
  | [] => none

variable {q c d : Char} {s r rest mark text : List Char} {inside : Inside} {b : UInt8}
  {bytes : List UInt8} {n : Nat}

theorem closeQuote_append (q : Char) (s : List Char) :
    (closeQuote q s).1 ++ (closeQuote q s).2 = s := by
  fun_induction closeQuote q s with
  | case1 | case2 | case4 => rfl
  | case3 r ih => rw [List.cons_append, List.cons_append, ih]
  | case5 c r _ ih => rw [List.cons_append, ih]

theorem through_append (mark s : List Char) : (through mark s).1 ++ (through mark s).2 = s := by
  rw [through]
  split
  · next h => exact (Text.eq_append_of_breakOn h).symm
  · exact List.append_nil s

theorem hiddenAt?_eq_append (h : hiddenAt? s = some (text, rest)) : s = text ++ rest ∧ text ≠ [] := by
  unfold hiddenAt? at h
  split at h
  · cases h
    rw [List.cons_append, List.cons_append, through_append]
    exact ⟨rfl, List.cons_ne_nil _ _⟩
  · cases h
    rw [List.cons_append, List.cons_append, through_append]
    exact ⟨rfl, List.cons_ne_nil _ _⟩
  · cases h
    rw [List.cons_append, through_append]
    exact ⟨rfl, List.cons_ne_nil _ _⟩
  · split at h
    · cases h
      rw [List.cons_append, closeQuote_append]
      exact ⟨rfl, List.cons_ne_nil _ _⟩
    · cases h
  · cases h

/-- What a statement is made of, in order. -/
def lexemes : List Char → List Lexeme
  | [] => []
  | c :: r =>
    match _h : hiddenAt? (c :: r) with
    | some (text, rest) => .hidden text :: lexemes rest
    | none =>
      if c = '?' then .mark (r.takeWhile Char.isDigit) :: lexemes (r.dropWhile Char.isDigit)
      else .live c :: lexemes r
termination_by s => s.length
decreasing_by
  · obtain ⟨heq, hne⟩ := hiddenAt?_eq_append _h
    rw [heq, List.length_append]
    exact Nat.lt_add_of_pos_left (List.length_pos_iff.2 hne)
  · exact Nat.lt_succ_of_le (List.dropWhile_sublist _).length_le
  · exact Nat.lt_succ_self _

/-- The lexemes are the text, cut. -/
theorem flatMap_text_lexemes (s : List Char) : (lexemes s).flatMap Lexeme.text = s := by
  fun_induction lexemes s with
  | case1 => rfl
  | case2 c r text rest h ih =>
    rw [List.flatMap_cons, ih]
    exact (hiddenAt?_eq_append h).1.symm
  | case3 r h ih =>
    rw [List.flatMap_cons, ih, Lexeme.text, List.cons_append, List.takeWhile_append_dropWhile]
  | case4 c r h hc ih =>
    rw [List.flatMap_cons, ih]
    rfl

theorem takeWhile_dropWhile_of_head {α : Type} {p : α → Bool} {l : List α}
    (h : ∀ a ∈ l.head?, ¬ p a = true) : l.takeWhile p = [] ∧ l.dropWhile p = l := by
  cases l with
  | nil => exact ⟨rfl, rfl⟩
  | cons a l => exact ⟨List.takeWhile_cons_of_neg (h a rfl), List.dropWhile_cons_of_neg (h a rfl)⟩

/-! ### Bytes -/

/-- Where the scan goes on behind the byte `b`, of the bytes `r` behind it. -/
def step (inside : Inside) (b : UInt8) (r : List UInt8) : Inside × List UInt8 :=
  match inside with
  | .quoted q =>
    if b = q then if r.head? = some q then (.quoted q, r.tail) else (.live, r) else (.quoted q, r)
  | .bracket => (if b = 93 then .live else .bracket, r)
  | .line => (if b = 10 then .live else .line, r)
  | .block => if b = 42 ∧ r.head? = some 47 then (.live, r.tail) else (.block, r)
  | .live =>
    if b = 45 ∧ r.head? = some 45 then (.line, r.tail)
    else if b = 47 ∧ r.head? = some 42 then (.block, r.tail)
    else if b = 63 then (.live, r.dropWhile isDigit)
    else if isQuote b then (.quoted b, r)
    else (if b = 91 then .bracket else .live, r)

/-- The scan never goes back. -/
theorem step_suffix (inside : Inside) (b : UInt8) (r : List UInt8) : (step inside b r).2 <:+ r := by
  have hdigits := List.dropWhile_suffix isDigit (l := r)
  have htail := List.tail_suffix r
  have hall := List.suffix_refl r
  unfold step
  grind

/-- The highest number behind one more mark, of its digits. -/
def afterMark (largest : Nat) (digits : List UInt8) : Nat :=
  if digits.isEmpty then largest + 1 else max largest (number digits)

theorem scan_cons (inside : Inside) (n : Nat) (b : UInt8) (r : List UInt8) :
    scan inside n (b :: r) =
      scan (step inside b r).1
        (if inside = .live ∧ b = 63 then afterMark n (r.takeWhile isDigit) else n)
        (step inside b r).2 := by
  cases inside with
  | quoted q =>
    by_cases hb : b = q
    · by_cases hq : r.head? = some q <;> simp [scan, step, hb, hq]
    · simp [scan, step, hb]
  | bracket | line => simp [scan, step]
  | block => by_cases hb : b = 42 ∧ r.head? = some 47 <;> simp [scan, step, hb]
  | live =>
    rw [scan, step]
    by_cases hline : b = 45 ∧ r.head? = some 45
    · simp [hline]
    by_cases hblock : b = 47 ∧ r.head? = some 42
    · simp [hblock]
    by_cases hmark : b = 63
    · simp [hmark, afterMark]
    by_cases hquote : isQuote b <;> simp [hline, hblock, hmark, hquote]

/-- The digits that are taken out of a text behind its marks, with the bytes behind them, from inside
the given region on. -/
def cuts (inside : Inside) : List UInt8 → List (List UInt8 × List UInt8)
  | [] => []
  | b :: r =>
    if inside = .live ∧ b = 63 then
      (r.takeWhile isDigit, r.dropWhile isDigit) :: cuts (step inside b r).1 (step inside b r).2
    else cuts (step inside b r).1 (step inside b r).2
termination_by bytes => bytes.length
decreasing_by all_goals exact Nat.lt_succ_of_le (step_suffix inside b r).length_le

theorem scan_eq_foldl_cuts (inside : Inside) (n : Nat) (bytes : List UInt8) :
    scan inside n bytes = (cuts inside bytes).foldl (fun n cut => afterMark n cut.1) n := by
  fun_induction cuts inside bytes generalizing n with
  | case1 => rw [scan, List.foldl_nil]
  | case2 inside b r hmark ih => rw [scan_cons, if_pos hmark, ih, List.foldl_cons]
  | case3 inside b r hmark ih => rw [scan_cons, if_neg hmark, ih]

theorem cuts_nil (inside : Inside) : cuts inside [] = [] := by
  rw [cuts]

theorem cuts_cons (h : ¬ (inside = .live ∧ b = 63)) (r : List UInt8) :
    cuts inside (b :: r) = cuts (step inside b r).1 (step inside b r).2 := by
  rw [cuts, if_neg h]

/-! ### Bytes of characters -/

/-- The byte of an ASCII character. -/
def byte (c : Char) : UInt8 := UInt8.ofNat c.toNat

theorem byte_inj (hc : c.toNat < 128) (hd : d.toNat < 128) : byte c = byte d ↔ c = d := by
  constructor
  · intro h
    have hnat := congrArg UInt8.toNat h
    rw [byte, byte, UInt8.toNat_ofNat_of_lt' (show _ < 256 by omega),
      UInt8.toNat_ofNat_of_lt' (show _ < 256 by omega)] at hnat
    exact Char.toNat_inj.1 hnat
  · rintro rfl
    rfl

theorem encode_cons_of_lt (hc : c.toNat < 128) (s : List Char) : encode (c :: s) = byte c :: encode s := by
  rw [Utf8.encode_cons, Utf8.encodeChar_of_lt hc]
  rfl

/-- The bytes of a character beyond ASCII are all of 128 or more. -/
theorem encode_cons_of_le (hc : 128 ≤ c.toNat) (s : List Char) :
    ∃ b bs, encode (c :: s) = b :: (bs ++ encode s) ∧ ∀ b' ∈ b :: bs, 128 ≤ b'.toNat := by
  obtain ⟨b, bs, hbytes, -⟩ := Utf8.next_encodeChar c
  refine ⟨b, bs, by rw [Utf8.encode_cons, hbytes, List.cons_append], fun b' hb' => ?_⟩
  rcases Utf8.toNat_of_mem_encodeChar (hbytes ▸ hb') with heq | hle
  · exact heq ▸ hc
  · exact hle

theorem ne_byte (hb : 128 ≤ b.toNat) (hd : d.toNat < 128) : b ≠ byte d := by
  rintro rfl
  rw [byte, UInt8.toNat_ofNat_of_lt' (show _ < 256 by omega)] at hb
  omega

theorem head?_encode (hd : d.toNat < 128) : (encode s).head? = some (byte d) ↔ s.head? = some d := by
  cases s with
  | nil => exact ⟨nofun, nofun⟩
  | cons c s =>
    by_cases hc : c.toNat < 128
    · rw [encode_cons_of_lt hc, List.head?_cons, List.head?_cons, Option.some_inj, Option.some_inj,
        byte_inj hc hd]
    · obtain ⟨b, bs, heq, hlarge⟩ := encode_cons_of_le (Nat.le_of_not_lt hc) s
      rw [heq, List.head?_cons, List.head?_cons, Option.some_inj, Option.some_inj]
      refine ⟨fun h => absurd h (ne_byte (hlarge b List.mem_cons_self) hd), ?_⟩
      rintro rfl
      exact absurd hd hc

theorem isDigit_byte (hc : c.toNat < 128) : isDigit (byte c) = c.isDigit := by
  have hall : ∀ n < 128, isDigit (UInt8.ofNat n) = (Char.ofNat n).isDigit := by decide
  have h := hall c.toNat hc
  rwa [Char.ofNat_toNat] at h

theorem isQuote_byte (hc : c.toNat < 128) : isQuote (byte c) = Sql.isQuote c := by
  have hall : ∀ n < 128, isQuote (UInt8.ofNat n) = Sql.isQuote (Char.ofNat n) := by decide
  have h := hall c.toNat hc
  rwa [Char.ofNat_toNat] at h

theorem not_isDigit_of_le (hb : 128 ≤ b.toNat) : isDigit b = false := by
  rw [isDigit, Bool.and_eq_false_iff]
  right
  rw [decide_eq_false_iff_not, UInt8.le_iff_toNat_le]
  have h57 : (57 : UInt8).toNat = 57 := rfl
  omega

theorem toNat_lt_of_isDigit (h : c.isDigit = true) : c.toNat < 128 := by
  rw [Char.isDigit, Bool.and_eq_true, decide_eq_true_eq, decide_eq_true_eq] at h
  have hle : c.toNat ≤ 57 := UInt32.le_iff_toNat_le.1 h.2
  omega

theorem encode_digits (s : List Char) :
    (encode s).takeWhile isDigit = encode (s.takeWhile Char.isDigit) ∧
      (encode s).dropWhile isDigit = encode (s.dropWhile Char.isDigit) := by
  induction s with
  | nil => exact ⟨rfl, rfl⟩
  | cons c s ih =>
    by_cases hc : c.toNat < 128
    · rw [encode_cons_of_lt hc, List.takeWhile_cons, List.dropWhile_cons, isDigit_byte hc,
        List.takeWhile_cons, List.dropWhile_cons]
      cases c.isDigit with
      | true => exact ⟨by rw [if_pos rfl, if_pos rfl, ih.1, encode_cons_of_lt hc], ih.2⟩
      | false => exact ⟨rfl, (encode_cons_of_lt hc s).symm⟩
    · have hdigit : ¬ c.isDigit = true := fun h => hc (toNat_lt_of_isDigit h)
      obtain ⟨b, bs, heq, hlarge⟩ := encode_cons_of_le (Nat.le_of_not_lt hc) s
      have hbyte : ¬ isDigit b = true := by simp [not_isDigit_of_le (hlarge b List.mem_cons_self)]
      rw [heq, List.takeWhile_cons_of_neg hbyte, List.takeWhile_cons_of_neg hdigit,
        List.dropWhile_cons_of_neg hbyte, List.dropWhile_cons_of_neg hdigit]
      exact ⟨rfl, heq.symm⟩

theorem number_encode {digits : List Char} (h : ∀ c ∈ digits, c.isDigit = true) :
    number (encode digits) =
      if Numeral.ofDigits digits < limit then Numeral.ofDigits digits else 0 := by
  have hfold : ∀ n, (encode digits).foldl (fun n b => n * 10 + (b.toNat - 48)) n =
      digits.foldl (fun n c => n * 10 + Numeral.digitValue c) n := by
    induction digits with
    | nil => exact fun n => rfl
    | cons c digits ih =>
      intro n
      obtain ⟨hc, hdigits⟩ := List.forall_mem_cons.1 h
      have hlt := toNat_lt_of_isDigit hc
      have hbyte : (byte c).toNat = c.toNat := UInt8.toNat_ofNat_of_lt' (show _ < 256 by omega)
      rw [encode_cons_of_lt hlt, List.foldl_cons, List.foldl_cons, ih hdigits, hbyte,
        Numeral.digitValue]
  rw [number, hfold]
  rfl

/-! ### Regions -/

theorem step_of_le (hb : 128 ≤ b.toNat) (hq : ∀ q, inside = .quoted q → q.toNat < 128)
    (r : List UInt8) : step inside b r = (inside, r) := by
  have hne : ∀ n : UInt8, n.toNat < 128 → b ≠ n := by
    rintro n hn rfl
    omega
  cases inside with
  | quoted q => rw [step, if_neg (hne q (hq q rfl))]
  | bracket => rw [step, if_neg (hne 93 (by decide))]
  | line => rw [step, if_neg (hne 10 (by decide))]
  | block => rw [step, if_neg fun h => hne 42 (by decide) h.1]
  | live =>
    have hquote : ¬ isQuote b = true := by
      simp [isQuote, hne 39 (by decide), hne 34 (by decide), hne 96 (by decide)]
    rw [step, if_neg fun h => hne 45 (by decide) h.1, if_neg fun h => hne 47 (by decide) h.1,
      if_neg (hne 63 (by decide)), if_neg hquote, if_neg (hne 91 (by decide))]

/-- A character beyond ASCII is passed over in every region. -/
theorem cuts_encode_of_le (hc : 128 ≤ c.toNat) (hq : ∀ q, inside = .quoted q → q.toNat < 128)
    (s : List Char) : cuts inside (encode (c :: s)) = cuts inside (encode s) := by
  have hpass : ∀ bs : List UInt8, (∀ b ∈ bs, 128 ≤ b.toNat) →
      cuts inside (bs ++ encode s) = cuts inside (encode s) := by
    intro bs hbs
    induction bs with
    | nil => rfl
    | cons b bs ih =>
      obtain ⟨hb, hbs⟩ := List.forall_mem_cons.1 hbs
      have hmark : ¬ (inside = .live ∧ b = 63) := by
        rintro ⟨-, rfl⟩
        exact absurd hb (by decide)
      rw [List.cons_append, cuts_cons hmark, step_of_le hb hq]
      exact ih hbs
  obtain ⟨b, bs, heq, hlarge⟩ := encode_cons_of_le hc s
  rw [heq]
  exact hpass (b :: bs) hlarge

theorem cuts_quoted (hq : q.toNat < 128) (s : List Char) :
    cuts (.quoted (byte q)) (encode s) = cuts .live (encode (closeQuote q s).2) := by
  have hmark : ∀ b : UInt8, ¬ (Inside.quoted (byte q) = .live ∧ b = 63) := fun _ => nofun
  fun_induction closeQuote q s with
  | case1 => rw [encode, List.flatMap_nil, cuts_nil, cuts_nil]
  | case2 =>
    rw [encode_cons_of_lt hq, cuts_cons (hmark _), step, if_pos rfl]
    rfl
  | case3 r ih =>
    rw [encode_cons_of_lt hq, encode_cons_of_lt hq, cuts_cons (hmark _), step, if_pos rfl,
      List.head?_cons, if_pos rfl]
    exact ih
  | case4 c r hc =>
    have hhead : ¬ (encode (c :: r)).head? = some (byte q) := by
      rw [head?_encode hq, List.head?_cons, Option.some_inj]
      exact hc
    rw [encode_cons_of_lt hq, cuts_cons (hmark _), step, if_pos rfl, if_neg hhead]
  | case5 c r hne ih =>
    by_cases hc : c.toNat < 128
    · rw [encode_cons_of_lt hc, cuts_cons (hmark _), step, if_neg (mt (byte_inj hc hq).1 hne)]
      exact ih
    · rw [cuts_encode_of_le (Nat.le_of_not_lt hc)]
      · exact ih
      · rintro q' ⟨⟩
        rw [byte, UInt8.toNat_ofNat_of_lt' (show _ < 256 by omega)]
        exact hq

theorem through_nil : (through mark []).2 = [] := by
  rw [through, Text.breakOn]
  split
  · next h =>
    split at h
    · cases h; rfl
    · cases h
  · rfl

theorem through_cons (mark : List Char) (c : Char) (r : List Char) :
    (through mark (c :: r)).2 = (Text.after? mark (c :: r)).getD (through mark r).2 := by
  rw [through, through, Text.breakOn]
  cases Text.after? mark (c :: r) with
  | some after => rfl
  | none => cases Text.breakOn mark r <;> rfl

/-- A region that one byte ends goes up to the character of that byte. -/
theorem cuts_through (hd : d.toNat < 128) (hlive : inside ≠ .live) (hquoted : ∀ q, inside ≠ .quoted q)
    (hstep : ∀ b r, step inside b r = (if b = byte d then .live else inside, r)) (s : List Char) :
    cuts inside (encode s) = cuts .live (encode (through [d] s).2) := by
  have hmark : ∀ b : UInt8, ¬ (inside = .live ∧ b = 63) := fun _ h => hlive h.1
  induction s with
  | nil => rw [through_nil, encode, List.flatMap_nil, cuts_nil, cuts_nil]
  | cons c s ih =>
    rw [through_cons, Text.after?]
    by_cases hc : c.toNat < 128
    · rw [encode_cons_of_lt hc, cuts_cons (hmark _), hstep]
      by_cases heq : c = d
      · rw [if_pos heq, if_pos ((byte_inj hc hd).2 heq)]
        rfl
      · rw [if_neg heq, if_neg (mt (byte_inj hc hd).1 heq)]
        exact ih
    · have hne : c ≠ d := by
        rintro rfl
        exact hc hd
      rw [if_neg hne, cuts_encode_of_le (Nat.le_of_not_lt hc) fun q h => absurd h (hquoted q)]
      exact ih

theorem cuts_block (s : List Char) :
    cuts .block (encode s) = cuts .live (encode (through ['*', '/'] s).2) := by
  have hmark : ∀ b : UInt8, ¬ (Inside.block = .live ∧ b = 63) := fun _ => nofun
  induction s with
  | nil => rw [through_nil, encode, List.flatMap_nil, cuts_nil, cuts_nil]
  | cons c s ih =>
    rw [through_cons]
    by_cases hends : c = '*' ∧ s.head? = some '/'
    · obtain ⟨rfl, hs⟩ := hends
      obtain ⟨r, rfl⟩ := List.head?_eq_some_iff.1 hs
      rw [encode_cons_of_lt (by decide), encode_cons_of_lt (by decide), cuts_cons (hmark _)]
      rfl
    · have hafter : Text.after? ['*', '/'] (c :: s) = none := by
        rw [Option.eq_none_iff_forall_ne_some]
        rintro r hr
        obtain ⟨rfl, rfl⟩ := List.cons.inj (Text.after?_eq_some_iff.1 hr)
        exact hends ⟨rfl, rfl⟩
      rw [hafter, Option.getD_none]
      by_cases hc : c.toNat < 128
      · have hbytes : ¬ (byte c = 42 ∧ (encode s).head? = some 47) := by
          rintro ⟨hb, hhead⟩
          exact hends ⟨(byte_inj (d := '*') hc (by decide)).1 hb, (head?_encode (d := '/') (by decide)).1 hhead⟩
        rw [encode_cons_of_lt hc, cuts_cons (hmark _), step, if_neg hbytes]
        exact ih
      · rw [cuts_encode_of_le (Nat.le_of_not_lt hc) (by rintro q ⟨⟩)]
        exact ih

theorem cuts_line (s : List Char) :
    cuts .line (encode s) = cuts .live (encode (through ['\n'] s).2) :=
  cuts_through (by decide) (by decide) (by rintro q ⟨⟩) (fun _ _ => rfl) s

theorem cuts_bracket (s : List Char) :
    cuts .bracket (encode s) = cuts .live (encode (through [']'] s).2) :=
  cuts_through (by decide) (by decide) (by rintro q ⟨⟩) (fun _ _ => rfl) s

/-! ### Live text -/

theorem toNat_lt_of_isQuote (h : Sql.isQuote c = true) : c.toNat < 128 := by
  simp only [Sql.isQuote, Bool.or_eq_true, beq_iff_eq] at h
  rcases h with (rfl | rfl) | rfl <;> decide

theorem cuts_live (hline : ¬ (c = '-' ∧ s.head? = some '-')) (hblock : ¬ (c = '/' ∧ s.head? = some '*'))
    (hmark : c ≠ '?') (hc : c.toNat < 128) :
    cuts .live (encode (c :: s)) =
      if Sql.isQuote c then cuts (.quoted (byte c)) (encode s)
      else cuts (if c = '[' then .bracket else .live) (encode s) := by
  have hline' : ¬ (byte c = 45 ∧ (encode s).head? = some 45) := fun h =>
    hline ⟨(byte_inj (d := '-') hc (by decide)).1 h.1, (head?_encode (d := '-') (by decide)).1 h.2⟩
  have hblock' : ¬ (byte c = 47 ∧ (encode s).head? = some 42) := fun h =>
    hblock ⟨(byte_inj (d := '/') hc (by decide)).1 h.1, (head?_encode (d := '*') (by decide)).1 h.2⟩
  have hmark' : byte c ≠ 63 := fun h => hmark ((byte_inj (d := '?') hc (by decide)).1 h)
  have hbracket : byte c = 91 ↔ c = '[' := byte_inj (d := '[') hc (by decide)
  rw [encode_cons_of_lt hc, cuts_cons fun h => hmark' h.2, step, if_neg hline', if_neg hblock',
    if_neg hmark', isQuote_byte hc]
  simp only [hbracket]
  split <;> rfl

theorem cuts_hidden (h : hiddenAt? s = some (text, rest)) :
    cuts .live (encode s) = cuts .live (encode rest) := by
  unfold hiddenAt? at h
  split at h
  · next r =>
    cases h
    rw [encode_cons_of_lt (by decide), encode_cons_of_lt (by decide), cuts_cons (by decide)]
    exact cuts_line r
  · next r =>
    cases h
    rw [encode_cons_of_lt (by decide), encode_cons_of_lt (by decide), cuts_cons (by decide)]
    exact cuts_block r
  · next r =>
    cases h
    rw [encode_cons_of_lt (by decide), cuts_cons (by decide)]
    exact cuts_bracket r
  · next c r hline hblock hbracket =>
    split at h
    · next hquote =>
      cases h
      have hc := toNat_lt_of_isQuote hquote
      have hne : ∀ d, Sql.isQuote d = false → c ≠ d := by
        rintro d hd rfl
        rw [hquote] at hd
        cases hd
      rw [cuts_live (fun h => hne '-' (by decide) h.1) (fun h => hne '/' (by decide) h.1)
        (hne '?' (by decide)) hc, if_pos hquote]
      exact cuts_quoted hc r
    · cases h
  · cases h

theorem hiddenAt?_eq_none (h : hiddenAt? (c :: r) = none) :
    ¬ (c = '-' ∧ r.head? = some '-') ∧ ¬ (c = '/' ∧ r.head? = some '*') ∧ c ≠ '[' ∧
      ¬ Sql.isQuote c = true := by
  refine ⟨?_, ?_, ?_, fun hquote => ?_⟩
  · rintro ⟨rfl, hr⟩
    obtain ⟨r, rfl⟩ := List.head?_eq_some_iff.1 hr
    cases h
  · rintro ⟨rfl, hr⟩
    obtain ⟨r, rfl⟩ := List.head?_eq_some_iff.1 hr
    cases h
  · rintro rfl
    cases h
  · unfold hiddenAt? at h
    split at h
    · cases h
    · cases h
    · cases h
    · next heq =>
      obtain ⟨rfl, rfl⟩ := List.cons.inj heq
      rw [if_pos hquote] at h
      cases h
    · next heq => cases heq

/-! ### Marks -/

/-- The digits behind each mark, and what follows them. -/
def marks : List Lexeme → List (List Char × List Char)
  | [] => []
  | .mark digits :: ls => (digits, ls.flatMap Lexeme.text) :: marks ls
  | _ :: ls => marks ls

/-- Digits are taken out of the bytes just where they stand behind a mark that is read. -/
theorem cuts_encode (s : List Char) :
    cuts .live (encode s) =
      (marks (lexemes s)).map fun (digits, rest) => (encode digits, encode rest) := by
  fun_induction lexemes s with
  | case1 => rw [encode, List.flatMap_nil, cuts_nil]; rfl
  | case2 c r text rest h ih => rw [cuts_hidden h, ih]; rfl
  | case3 r h ih =>
    obtain ⟨htake, hdrop⟩ := encode_digits r
    rw [marks, List.map_cons, flatMap_text_lexemes, ← ih]
    dsimp only
    rw [← htake, ← hdrop, encode_cons_of_lt (by decide), cuts, if_pos (by decide)]
    rfl
  | case4 c r h hmark ih =>
    obtain ⟨hline, hblock, hbracket, hquote⟩ := hiddenAt?_eq_none h
    by_cases hc : c.toNat < 128
    · rw [cuts_live hline hblock hmark hc, if_neg hquote, if_neg hbracket, ih]
      rfl
    · rw [cuts_encode_of_le (Nat.le_of_not_lt hc) (by rintro q ⟨⟩), ih]
      rfl

theorem exists_eq_append_of_mem_marks {ls : List Lexeme} {digits : List Char}
    (h : (digits, rest) ∈ marks ls) :
    ∃ before, ls.flatMap Lexeme.text = before ++ '?' :: (digits ++ rest) := by
  fun_induction marks ls with
  | case1 => cases h
  | case2 digits' ls ih =>
    rcases List.mem_cons.1 h with heq | h
    · cases heq
      exact ⟨[], rfl⟩
    · obtain ⟨before, heq⟩ := ih h
      exact ⟨'?' :: digits' ++ before, by rw [List.flatMap_cons, heq, List.append_assoc]; rfl⟩
  | case3 l ls _ ih =>
    obtain ⟨before, heq⟩ := ih h
    exact ⟨l.text ++ before, by rw [List.flatMap_cons, heq, List.append_assoc]⟩

theorem isDigit_of_mem_marks {digits : List Char} (h : (digits, rest) ∈ marks (lexemes s)) :
    ∀ c ∈ digits, c.isDigit = true := by
  fun_induction lexemes s with
  | case1 => cases h
  | case2 c r text rest' _ ih => exact ih h
  | case3 r _ ih =>
    rcases List.mem_cons.1 h with heq | h
    · cases heq
      exact fun c hc => List.mem_takeWhile_imp hc
    · exact ih h
  | case4 c r _ _ ih => exact ih h

/-- The highest number behind one more mark: a mark without digits takes the next number, and one with
digits the number that they spell, or zero if 64 bits do not hold it. -/
def following (largest : Nat) (digits : List Char) : Nat :=
  if digits = [] then largest + 1
  else max largest (if Numeral.ofDigits digits < UInt64.size then Numeral.ofDigits digits else 0)

theorem afterMark_encode {digits : List Char} (h : ∀ c ∈ digits, c.isDigit = true) (n : Nat) :
    afterMark n (encode digits) = following n digits := by
  rw [afterMark, following, number_encode h]
  cases digits with
  | nil => rfl
  | cons c digits =>
    rw [encode_cons_of_lt (toNat_lt_of_isDigit (h c List.mem_cons_self))]
    rfl

theorem foldl_afterMark {ms : List (List Char × List Char)}
    (h : ∀ m ∈ ms, ∀ c ∈ m.1, c.isDigit = true) (n : Nat) :
    (ms.map fun (digits, rest) => (encode digits, encode rest)).foldl
        (fun n cut => afterMark n cut.1) n =
      ms.foldl (fun n m => following n m.1) n := by
  rw [List.foldl_map]
  induction ms generalizing n with
  | nil => rfl
  | cons m ms ih =>
    obtain ⟨hm, hms⟩ := List.forall_mem_cons.1 h
    rw [List.foldl_cons, List.foldl_cons, afterMark_encode hm, ih hms]

/-- The slots of a statement are numbered by the marks of its lexemes, which make up its text. The count
takes out of its bytes the digits of these marks and nothing else, each time from the place behind the
mark to the place in front of another character. -/
theorem count_eq_foldl_marks (sql : String) :
    count sql = (marks (lexemes sql.toList)).foldl (fun n m => following n m.1) 0 ∧
      (lexemes sql.toList).flatMap Lexeme.text = sql.toList ∧
      count sql = (cuts .live (Utf8.ofString sql)).foldl (fun n cut => afterMark n cut.1) 0 ∧
      ∀ cut ∈ cuts .live (Utf8.ofString sql), ∃ before digits rest : List Char,
        sql.toList = before ++ '?' :: (digits ++ rest) ∧ (∀ c ∈ digits, c.isDigit = true) ∧
          cut = (encode digits, encode rest) := by
  have hcuts := cuts_encode sql.toList
  have hcount := scan_eq_foldl_cuts .live 0 (Utf8.ofString sql)
  refine ⟨?_, flatMap_text_lexemes sql.toList, hcount, fun cut hcut => ?_⟩
  · rw [count, hcount, Utf8.ofString, hcuts]
    exact foldl_afterMark (fun m hm => isDigit_of_mem_marks hm) 0
  · rw [Utf8.ofString, hcuts] at hcut
    obtain ⟨⟨digits, rest⟩, hmem, rfl⟩ := List.mem_map.1 hcut
    obtain ⟨before, heq⟩ := exists_eq_append_of_mem_marks hmem
    rw [flatMap_text_lexemes] at heq
    exact ⟨before, digits, rest, heq, isDigit_of_mem_marks hmem, rfl⟩

/-- Quotes that are doubled or never closed, a bracket, comments, and a number that is too large. -/
example : count "?3 'a''?' [?' ] -- ?\n/* ? */ é? ?18446744073709551616 \"?" = 4 := by decide +kernel

end QueryTree.Sql.Slot
