import QueryTree.Text.Utf8

/-!
# Decoding what was encoded

`next_encodeChar`: the first byte of an encoded character with the bytes behind it gives the character
back and leaves the rest alone, one case for each length of an encoding. Both decoders follow by
induction on the characters.
-/

namespace QueryTree.Utf8

/-! ### First bytes -/

theorem lead?_two : ∀ n, n < 0x20 → n < 2 ∨
    lead? (UInt8.ofNat (n + 0xC0)) = some (1, 0x80, 0xBF, n) := by
  decide

theorem lead?_three : ∀ n, n < 0x10 → lead? (UInt8.ofNat (n + 0xE0)) =
    some (2, if n = 0 then 0xA0 else 0x80, if n = 13 then 0x9F else 0xBF, n) := by
  decide

theorem lead?_four : ∀ n, n < 5 → lead? (UInt8.ofNat (n + 0xF0)) =
    some (3, if n = 0 then 0x90 else 0x80, if n = 4 then 0x8F else 0xBF, n) := by
  decide

theorem not_lt_of_lead {n : Nat} (h : 0x80 ≤ n) (h' : n < 256) : ¬ UInt8.ofNat n < 0x80 := by
  rw [UInt8.lt_iff_toNat_lt, UInt8.toNat_ofNat_of_lt' h']
  exact Nat.not_lt.2 h

theorem next_of_lead {n k acc : Nat} {lo hi : UInt8} (h : 0x80 ≤ n) (h' : n < 256)
    (hl : lead? (UInt8.ofNat n) = some (k, lo, hi, acc)) (r : List UInt8) :
    next (UInt8.ofNat n) r = ((trail k lo hi acc r).1.map Char.ofNat, (trail k lo hi acc r).2) := by
  rw [next, if_neg (not_lt_of_lead h h'), hl]

/-! ### Bytes behind the first -/

theorem trail_cons {n m acc : Nat} {lo hi : UInt8} (r : List UInt8) (hm : m < 0x40)
    (hlo : lo.toNat ≤ m + 0x80) (hhi : m + 0x80 ≤ hi.toNat) :
    trail (n + 1) lo hi acc (UInt8.ofNat (m + 0x80) :: r) =
      trail n 0x80 0xBF (acc * 64 + m) r := by
  have hn : (UInt8.ofNat (m + 0x80)).toNat = m + 0x80 :=
    UInt8.toNat_ofNat_of_lt' (show _ < 256 by omega)
  rw [trail, if_pos ⟨by rwa [UInt8.le_iff_toNat_le, hn], by rwa [UInt8.le_iff_toNat_le, hn]⟩, hn,
    Nat.add_sub_cancel]

theorem trail_cons_any {n m acc : Nat} (r : List UInt8) (hm : m < 0x40) :
    trail (n + 1) 0x80 0xBF acc (UInt8.ofNat (m + 0x80) :: r) =
      trail n 0x80 0xBF (acc * 64 + m) r :=
  trail_cons r hm (show 0x80 ≤ m + 0x80 by omega) (show m + 0x80 ≤ 0xBF by omega)

/-! ### Characters -/

theorem toNat_lt_or (c : Char) : c.toNat < 0xD800 ∨ 0xDFFF < c.toNat ∧ c.toNat < 0x110000 := c.valid

theorem next_encodeChar (c : Char) :
    ∃ b bs, String.utf8EncodeChar c = b :: bs ∧ ∀ rest, next b (bs ++ rest) = (some c, rest) := by
  have hv := toNat_lt_or c
  have hc : Char.ofNat c.toNat = c := Char.ofNat_toNat c
  generalize hn : c.toNat = n at hv hc
  have hs : c.val.toNat = n := hn
  unfold String.utf8EncodeChar
  simp only [hs]
  by_cases h1 : n ≤ 0x7F
  · refine ⟨_, _, if_pos h1, fun rest => ?_⟩
    have hb : (UInt8.ofNat n).toNat = n := UInt8.toNat_ofNat_of_lt' (show n < 256 by omega)
    have hlt : UInt8.ofNat n < 0x80 := by
      rw [UInt8.lt_iff_toNat_lt, hb]
      exact Nat.lt_of_le_of_lt h1 (by decide)
    rw [next, if_pos hlt, hb, hc]
    rfl
  rw [if_neg h1]
  by_cases h2 : n ≤ 0x7FF
  · refine ⟨_, _, if_pos h2, fun rest => ?_⟩
    rw [next_of_lead (by omega) (by omega) ((lead?_two _ (by omega)).resolve_left (by omega))]
    rw [List.cons_append, trail_cons_any _ (by omega)]
    rw [List.nil_append, trail, Option.map_some, ← hc]
    congr 3
    omega
  rw [if_neg h2]
  by_cases h3 : n ≤ 0xFFFF
  · refine ⟨_, _, if_pos h3, fun rest => ?_⟩
    rw [next_of_lead (by omega) (by omega) (lead?_three _ (by omega))]
    rw [List.cons_append, List.cons_append]
    rw [trail_cons _ (by omega) (by split <;> simp; omega) (by split <;> simp <;> omega)]
    rw [trail_cons_any _ (by omega), List.nil_append, trail, Option.map_some, ← hc]
    congr 3
    omega
  · refine ⟨_, _, if_neg h3, fun rest => ?_⟩
    rw [next_of_lead (by omega) (by omega) (lead?_four _ (by omega))]
    rw [List.cons_append, List.cons_append, List.cons_append]
    rw [trail_cons _ (by omega) (by split <;> simp; omega) (by split <;> simp <;> omega)]
    rw [trail_cons_any _ (by omega), trail_cons_any _ (by omega), List.nil_append, trail,
      Option.map_some, ← hc]
    congr 3
    omega

theorem encode_cons (c : Char) (s : List Char) :
    encode (c :: s) = String.utf8EncodeChar c ++ encode s := List.flatMap_cons ..

theorem encode_append (s t : List Char) : encode (s ++ t) = encode s ++ encode t :=
  List.flatMap_append ..

theorem decode?_encode (s : List Char) : decode? (encode s) = some s := by
  induction s with
  | nil => rw [encode, List.flatMap_nil, decode?]
  | cons c s ih =>
    obtain ⟨b, bs, hc, hn⟩ := next_encodeChar c
    rw [encode_cons, hc, List.cons_append, decode?]
    split
    · next h =>
      rw [hn] at h
      cases h
      rw [ih]
      rfl
    · next h => rw [hn] at h; cases h

theorem decodeLossy_encode (s : List Char) : decodeLossy (encode s) = s := by
  induction s with
  | nil => rw [encode, List.flatMap_nil, decodeLossy]
  | cons c s ih =>
    obtain ⟨b, bs, hc, hn⟩ := next_encodeChar c
    rw [encode_cons, hc, List.cons_append, decodeLossy, hn, ih]
    rfl

theorem toString?_ofString (s : String) : toString? (ofString s) = some s := by
  rw [toString?, ofString, decode?_encode, Option.map_some, String.ofList_toList]

/-! ### ASCII -/

theorem encodeChar_of_lt {c : Char} (h : c.toNat < 0x80) :
    String.utf8EncodeChar c = [UInt8.ofNat c.toNat] :=
  if_pos (Nat.le_of_lt_succ h)

/-- A byte below 128 is a character of its own. -/
theorem toNat_of_mem_encodeChar {c : Char} {b : UInt8} (h : b ∈ String.utf8EncodeChar c) :
    b.toNat = c.toNat ∨ 0x80 ≤ b.toNat := by
  by_cases hc : c.toNat < 0x80
  · rw [encodeChar_of_lt hc, List.mem_singleton] at h
    rw [h, UInt8.toNat_ofNat_of_lt' (show _ < 256 by omega)]
    exact .inl rfl
  refine .inr ?_
  have hv := toNat_lt_or c
  have hs : c.val.toNat = c.toNat := rfl
  have large : ∀ n, 0x80 ≤ n → n < 256 → 0x80 ≤ (UInt8.ofNat n).toNat := by
    intro n h h'
    rwa [UInt8.toNat_ofNat_of_lt' (show n < 256 from h')]
  unfold String.utf8EncodeChar at h
  simp only [hs, if_neg (show ¬ c.toNat ≤ 0x7F by omega)] at h
  split at h
  · simp only [List.mem_cons, List.not_mem_nil, or_false] at h
    rcases h with rfl | rfl <;> exact large _ (by omega) (by omega)
  split at h
  · simp only [List.mem_cons, List.not_mem_nil, or_false] at h
    rcases h with rfl | rfl | rfl <;> exact large _ (by omega) (by omega)
  · simp only [List.mem_cons, List.not_mem_nil, or_false] at h
    rcases h with rfl | rfl | rfl | rfl <;> exact large _ (by omega) (by omega)

end QueryTree.Utf8
