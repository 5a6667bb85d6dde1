import QueryTree.Http.Form
import QueryTree.Proofs.Text.Split
import QueryTree.Proofs.Text.Utf8

/-!
# Reading back a written query

`parse_serialize`: the pairs of a query are read back as they were written, whatever names and values
hold, the empty ones included. The bytes of a name or value come back byte by byte
(`unescape_escapeByte`), and no written byte is a separator (`mem_encode`).
-/

namespace QueryTree.Form

/-! ### Bytes -/

theorem hexValue?_hexDigit : ∀ n, n < 16 →
    hexValue? (UInt8.ofNat (hexDigit n).toNat) = some n := by
  decide

theorem hexDigit_cases : ∀ n, n < 16 →
    (hexDigit n).toNat < 0x80 ∧ hexDigit n ≠ '&' ∧ hexDigit n ≠ '=' := by
  decide

theorem escapedByte?_hexDigit (b : UInt8) :
    escapedByte? (UInt8.ofNat (hexDigit (b.toNat / 16)).toNat)
      (UInt8.ofNat (hexDigit (b.toNat % 16)).toNat) = some b := by
  have hlt : b.toNat < 256 := b.toNat_lt
  have hn : 16 * (b.toNat / 16) + b.toNat % 16 = b.toNat := by omega
  rw [escapedByte?, hexValue?_hexDigit _ (by omega), hexValue?_hexDigit _ (by omega)]
  show some (UInt8.ofNat (16 * (b.toNat / 16) + b.toNat % 16)) = some b
  rw [hn, UInt8.ofNat_toNat]

theorem unescape_of_ne {b : UInt8} (h : b ≠ 37) (r : List UInt8) :
    unescape (b :: r) = (if b = 43 then 32 else b) :: unescape r := by
  rw [unescape.eq_def]
  split
  · next heq => exact absurd (List.cons.inj heq).1 h
  · next heq => rw [(List.cons.inj heq).1, (List.cons.inj heq).2]
  · next heq => cases heq

theorem isPlain_cases {b : UInt8} (h : isPlain b = true) :
    b.toNat < 0x80 ∧ b.toNat ≠ 37 ∧ b.toNat ≠ 38 ∧ b.toNat ≠ 43 ∧ b.toNat ≠ 61 := by
  simp only [isPlain, Bool.or_eq_true, Bool.and_eq_true, decide_eq_true_eq, beq_iff_eq,
    UInt8.le_iff_toNat_le, ← UInt8.toNat_inj] at h
  simp at h
  omega

theorem toNat_ofNat_of_lt {n : Nat} (h : n < 0x80) : (Char.ofNat n).toNat = n := by
  have hv : n.isValidChar := .inl (by omega)
  rw [Char.ofNat, dif_pos hv]
  rfl

/-- A byte is written as a plus, as itself or by its digits. -/
theorem encode_escapeByte (b : UInt8) :
    (b = 32 ∧ escapeByte b = ['+']) ∨
    (isPlain b = true ∧ escapeByte b = [Char.ofNat b.toNat] ∧
      Utf8.encode (escapeByte b) = [b]) ∨
    (escapeByte b = percent b ∧ Utf8.encode (escapeByte b) =
      [37, UInt8.ofNat (hexDigit (b.toNat / 16)).toNat,
        UInt8.ofNat (hexDigit (b.toNat % 16)).toNat]) := by
  by_cases hs : b = 32
  · exact .inl ⟨hs, if_pos hs⟩
  by_cases hp : isPlain b = true
  · have he : escapeByte b = [Char.ofNat b.toNat] := by rw [escapeByte, if_neg hs, if_pos hp]
    have hn := toNat_ofNat_of_lt (isPlain_cases hp).1
    refine .inr (.inl ⟨hp, he, ?_⟩)
    rw [he, Utf8.encode_cons, Utf8.encodeChar_of_lt (by rw [hn]; exact (isPlain_cases hp).1), hn,
      UInt8.ofNat_toNat]
    rfl
  · have he : escapeByte b = percent b := by rw [escapeByte, if_neg hs, if_neg hp]
    have hlt : b.toNat < 256 := b.toNat_lt
    refine .inr (.inr ⟨he, ?_⟩)
    rw [he, percent, Utf8.encode_cons, Utf8.encode_cons, Utf8.encode_cons,
      Utf8.encodeChar_of_lt (hexDigit_cases _ (show b.toNat / 16 < 16 by omega)).1,
      Utf8.encodeChar_of_lt (hexDigit_cases _ (show b.toNat % 16 < 16 by omega)).1]
    rfl

theorem unescape_escapeByte (b : UInt8) (r : List UInt8) :
    unescape (Utf8.encode (escapeByte b) ++ r) = b :: unescape r := by
  rcases encode_escapeByte b with ⟨rfl, he⟩ | ⟨hp, -, he⟩ | ⟨-, he⟩
  · rw [he]
    exact unescape_of_ne (by decide) r
  · obtain ⟨-, h37, -, h43, -⟩ := isPlain_cases hp
    rw [he, List.singleton_append, unescape_of_ne (by rintro rfl; exact h37 rfl),
      if_neg (by rintro rfl; exact h43 rfl)]
  · rw [he]
    simp only [List.cons_append, List.nil_append, unescape, escapedByte?_hexDigit]

theorem unescape_escapeBytes (bs : List UInt8) :
    unescape (Utf8.encode (bs.flatMap escapeByte)) = bs := by
  induction bs with
  | nil => rfl
  | cons b bs ih => rw [List.flatMap_cons, Utf8.encode_append, unescape_escapeByte, ih]

theorem decode_encode (s : String) : decode (encode s) = s := by
  rw [decode, encode, unescape_escapeBytes, Utf8.ofString, Utf8.decodeLossy_encode,
    String.ofList_toList]

/-! ### Pairs -/

/-- What is written holds neither of the two separators. -/
theorem mem_encode {s : String} {c : Char} (h : c ∈ encode s) : c ≠ '&' ∧ c ≠ '=' := by
  obtain ⟨b, -, hc⟩ := List.mem_flatMap.1 h
  have hlt : b.toNat < 256 := b.toNat_lt
  rcases encode_escapeByte b with ⟨-, he⟩ | ⟨hp, he, -⟩ | ⟨he, -⟩
  · rw [he, List.mem_singleton] at hc
    subst hc
    decide
  · rw [he, List.mem_singleton] at hc
    obtain ⟨hlt, -, h38, -, h61⟩ := isPlain_cases hp
    have hn := toNat_ofNat_of_lt hlt
    constructor
    · rintro rfl
      exact h38 (hn.symm.trans (by rw [← hc]; rfl))
    · rintro rfl
      exact h61 (hn.symm.trans (by rw [← hc]; rfl))
  · rw [he, percent] at hc
    simp only [List.mem_cons, List.not_mem_nil, or_false] at hc
    rcases hc with rfl | rfl | rfl
    · decide
    · exact (hexDigit_cases _ (by omega)).2
    · exact (hexDigit_cases _ (by omega)).2

/-- The text of one pair. -/
def pairText (pair : String × String) : List Char := encode pair.1 ++ '=' :: encode pair.2

theorem pairOf_pairText (pair : String × String) : pairOf (pairText pair) = pair := by
  have hname : ∀ c ∈ encode pair.1, (c != '=') = true := fun c hc => by simp [(mem_encode hc).2]
  have htake : (pairText pair).takeWhile (· != '=') = encode pair.1 := by
    rw [pairText, List.takeWhile_append_of_pos hname]
    simp
  have hdrop : (pairText pair).dropWhile (· != '=') = '=' :: encode pair.2 := by
    rw [pairText, List.dropWhile_append_of_pos hname]
    simp
  rw [pairOf, htake, hdrop, decode_encode, decode_encode]

theorem parse_serialize (pairs : List (String × String)) : parse (serialize pairs) = pairs := by
  have hne : ∀ s ∈ pairs.map pairText, s ≠ [] := by
    intro s hs
    obtain ⟨pair, -, rfl⟩ := List.mem_map.1 hs
    simp [pairText]
  have hsep : ∀ s ∈ pairs.map pairText, ∀ c ∈ s, (c == '&') = false := by
    intro s hs c hc
    obtain ⟨pair, -, rfl⟩ := List.mem_map.1 hs
    rw [pairText, List.mem_append, List.mem_cons] at hc
    rcases hc with hc | rfl | hc
    · simp [(mem_encode hc).1]
    · decide
    · simp [(mem_encode hc).1]
  rw [parse, serialize, String.toList_ofList]
  show (((Text.splitBy (· == '&') (Text.joinWith ['&'] (pairs.map pairText))).filter
    (· ≠ [])).map pairOf) = pairs
  cases pairs with
  | nil => rfl
  | cons pair pairs =>
    rw [Text.splitBy_joinWith (by simp) hsep (by decide),
      List.filter_eq_self.2 fun s hs => by simpa using hne s hs, List.map_map]
    exact List.map_id'' (fun pair => pairOf_pairText pair) _

end QueryTree.Form
