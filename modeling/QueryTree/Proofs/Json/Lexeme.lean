import Mathlib.Algebra.Group.Int.Defs
import Mathlib.Algebra.Group.Nat.Defs
import QueryTree.Json.Lexeme
import QueryTree.Proofs.Text.Utf8

/-!
# Reading words, numbers and strings back

`Cursor.Before s`: a cursor stands in front of the bytes `s`. What a reader makes of a written lexeme
is stated for such a cursor with an arbitrary rest behind the lexeme; only numbers ask that the rest
is `Closed`, because a digit, a point or an exponent would go on with the number.
-/

namespace QueryTree.Json

namespace Cursor
variable {c : Cursor} {s t : List UInt8} {b : UInt8}

/-- The cursor stands in front of `s`, which is all that is left of the text. -/
structure Before (c : Cursor) (s : List UInt8) : Prop where
  rest : c.rest = s
  size : c.offset + s.length = c.size

@[simp] theorem drop_drop (c : Cursor) (m n : Nat) : (c.drop m).drop n = c.drop (m + n) := by
  simp only [drop, List.drop_drop, Nat.add_assoc]

theorem ok_drop {α : Type} (c : Cursor) {m n : Nat} (h : m = n) (a : α) :
    (.ok (a, c.drop m) : Except Fault (α × Cursor)) = .ok (a, c.drop n) := by rw [h]

theorem advances_of_le {c' after : Cursor} (h : c'.advances after = true)
    (hle : c.offset ≤ c'.offset) (hsize : c.size = c'.size) : c.advances after = true := by
  simp [advances] at h ⊢
  omega

theorem before_start (s : List UInt8) : (start s).Before s := ⟨rfl, Nat.zero_add _⟩

namespace Before

theorem drop (h : c.Before (s ++ t)) : (c.drop s.length).Before t where
  rest := by rw [Cursor.drop, h.rest, List.drop_left]
  size := by
    have := h.size
    rw [List.length_append] at this
    show c.offset + s.length + t.length = c.size
    omega

theorem drop_one (h : c.Before (b :: t)) : (c.drop 1).Before t := drop (s := [b]) h

theorem advances (h : c.Before (s ++ t)) (hs : s ≠ []) : c.advances (c.drop s.length) = true := by
  have h0 := List.length_pos_iff.2 hs
  have h1 := h.size
  rw [List.length_append] at h1
  have hle : c.offset + s.length ≤ c.size := by omega
  simp [Cursor.advances, Cursor.drop, hle, h0]

theorem skipBlank (h : c.Before (b :: t)) (hb : isBlank b = false) : c.skipBlank = c := by
  have hr := h.rest
  obtain ⟨size, offset, rest⟩ := c
  subst hr
  simp [Cursor.skipBlank, Cursor.skip, Cursor.skip.go, hb]

theorem skipBlank_nil (h : c.Before []) : c.skipBlank = c := by
  have hr := h.rest
  obtain ⟨size, offset, rest⟩ := c
  subst hr
  rfl

end Before

theorem skip_go (p : UInt8 → Bool) (s : List UInt8) (offset : Nat) :
    skip.go p c offset s = ⟨c.size, offset + (s.takeWhile p).length, s.dropWhile p⟩ := by
  induction s generalizing offset with
  | nil => rfl
  | cons b s ih =>
    by_cases hb : p b = true
    · simp only [skip.go, hb, if_true, ih, List.takeWhile_cons, List.dropWhile_cons,
        List.length_cons]
      congr 1
      omega
    · simp [skip.go, hb]

theorem Before.skip {p : UInt8 → Bool} (h : c.Before (s ++ t)) (hs : ∀ b ∈ s, p b = true)
    (ht : ∀ b ∈ t.head?, p b = false) : c.skip p = c.drop s.length := by
  have htake : (s ++ t).takeWhile p = s := by
    rw [List.takeWhile_append_of_pos hs]
    cases t with
    | nil => simp
    | cons b t => simp [ht b rfl]
  have hdrop : (s ++ t).dropWhile p = t := by
    rw [List.dropWhile_append_of_pos hs]
    cases t with
    | nil => rfl
    | cons b t => simp [ht b rfl]
  rw [Cursor.skip, skip_go, h.rest, htake, hdrop, Cursor.drop, h.rest, List.drop_left]

end Cursor

variable {c : Cursor} {rest : List UInt8}

/-- What may follow a value: the end of the text, a comma or a closing bracket. -/
def Closed (rest : List UInt8) : Prop := ∀ b ∈ rest.head?, b = 44 ∨ b = 93 ∨ b = 125

theorem closed_nil : Closed [] := by simp [Closed]

/-! ### Words -/

theorem word_of_before {w : List Char} (hw : ∀ l ∈ w, l.toNat < 0x80)
    (h : c.Before (Utf8.encode w ++ rest)) :
    word w c = .ok ((), c.drop (Utf8.encode w).length) := by
  induction w generalizing c with
  | nil => simp [word, Cursor.drop, Utf8.encode]
  | cons l w ih =>
    have hl : l.toNat < 0x80 := hw l (by simp)
    rw [Utf8.encode_cons, Utf8.encodeChar_of_lt hl] at h ⊢
    have hn : (UInt8.ofNat l.toNat).toNat = l.toNat :=
      UInt8.toNat_ofNat_of_lt' (show _ < 256 by omega)
    rw [word, h.rest]
    simp only [List.cons_append, List.nil_append, hn, if_true]
    rw [ih (fun l hl => hw l (by simp [hl])) h.drop_one, Cursor.drop_drop, List.length_cons,
      Nat.add_comm]

/-! ### Numbers -/

/-- The bytes of the decimal digits of a number. -/
def digitBytes (n : Nat) : List UInt8 := Utf8.encode (Nat.toDigits 10 n)

theorem encodeChar_digitChar : ∀ n, n < 10 →
    String.utf8EncodeChar n.digitChar = [UInt8.ofNat (n + 48)] := by
  decide

theorem digitBytes_of_lt {n : Nat} (h : n < 10) : digitBytes n = [UInt8.ofNat (n + 48)] := by
  rw [digitBytes, Nat.toDigits_of_lt_base h, Utf8.encode_cons, encodeChar_digitChar n h]
  rfl

theorem digitBytes_of_le {n : Nat} (h : 10 ≤ n) :
    digitBytes n = digitBytes (n / 10) ++ [UInt8.ofNat (n % 10 + 48)] := by
  rw [digitBytes, Nat.toDigits_of_base_le (by omega) h, Utf8.encode_append, Utf8.encode_cons,
    encodeChar_digitChar _ (Nat.mod_lt n (by omega))]
  rfl

theorem isDigit_ofNat : ∀ n, n < 10 → isDigit (UInt8.ofNat (n + 48)) = true := by decide

theorem digitValue_ofNat : ∀ n, n < 10 → digitValue (UInt8.ofNat (n + 48)) = n := by decide

theorem ne_zero_ofNat : ∀ n, n < 10 → n = 0 ∨ UInt8.ofNat (n + 48) ≠ 48 := by decide

theorem isDigit_of_mem_digitBytes (n : Nat) : ∀ b ∈ digitBytes n, isDigit b = true := by
  induction n using Nat.strongRecOn with
  | _ n ih =>
    by_cases h : n < 10
    · rw [digitBytes_of_lt h]
      simpa using isDigit_ofNat n h
    · rw [digitBytes_of_le (by omega)]
      intro b hb
      rcases List.mem_append.1 hb with hb | hb
      · exact ih _ (by omega) b hb
      · rw [List.mem_singleton.1 hb]
        exact isDigit_ofNat _ (by omega)

/-- Only zero is written with a zero in front. -/
theorem digitBytes_eq_cons (n : Nat) :
    ∃ b r, digitBytes n = b :: r ∧ (n ≠ 0 → b ≠ 48) := by
  induction n using Nat.strongRecOn with
  | _ n ih =>
    by_cases h : n < 10
    · exact ⟨_, _, digitBytes_of_lt h, fun h0 => (ne_zero_ofNat n h).resolve_left h0⟩
    · obtain ⟨b, r, hr, hb⟩ := ih (n / 10) (by omega)
      refine ⟨b, r ++ [UInt8.ofNat (n % 10 + 48)], ?_, fun _ => hb (by omega)⟩
      rw [digitBytes_of_le (by omega), hr]
      rfl

/-- The number that digits spell behind a number already read. -/
def spelled (significand : Nat) (ds : List UInt8) : Nat :=
  ds.foldl (fun n b => n * 10 + digitValue b) significand

theorem spelled_digitBytes (n : Nat) : spelled 0 (digitBytes n) = n := by
  induction n using Nat.strongRecOn with
  | _ n ih =>
    by_cases h : n < 10
    · rw [digitBytes_of_lt h]
      simpa [spelled] using digitValue_ofNat n h
    · have hd := ih (n / 10) (by omega)
      rw [spelled] at hd
      rw [digitBytes_of_le (by omega), spelled, List.foldl_append, hd]
      simp only [List.foldl_cons, List.foldl_nil, digitValue_ofNat _ (Nat.mod_lt n (by omega))]
      omega

theorem le_spelled (ds : List UInt8) (n : Nat) : n ≤ spelled n ds := by
  induction ds generalizing n with
  | nil => exact Nat.le_refl n
  | cons b ds ih =>
    have := ih (n * 10 + digitValue b)
    show n ≤ spelled (n * 10 + digitValue b) ds
    omega

/-- As long as the number fits 64 bits no digit is passed over. -/
theorem absorb_of_lt (ds : List UInt8) {n : Nat} (h : spelled n ds < 2 ^ 64) :
    absorb n ds = (spelled n ds, ds.length) := by
  induction ds generalizing n with
  | nil => rfl
  | cons b ds ih =>
    have hle := le_spelled ds (n * 10 + digitValue b)
    have hlt : spelled (n * 10 + digitValue b) ds < 2 ^ 64 := h
    have hfits : n * 10 + digitValue b < 1 <<< 64 := by
      rw [Nat.one_shiftLeft]
      exact Nat.lt_of_le_of_lt hle hlt
    rw [absorb]
    simp only [if_pos hfits, ih hlt]
    rfl

theorem Closed.not_isDigit (h : Closed rest) : ∀ b ∈ rest.head?, isDigit b = false := by
  intro b hb
  rcases h b hb with rfl | rfl | rfl <;> decide

theorem number_of_before {n : Nat} (negative : Bool) (hn : n < 2 ^ 64) (hr : Closed rest)
    (h : c.Before (digitBytes n ++ rest)) :
    number negative c = .ok (whole negative n, c.drop (digitBytes n).length) := by
  obtain ⟨b, r, hb, h0⟩ := digitBytes_eq_cons n
  have hdigits := isDigit_of_mem_digitBytes n
  have hd : isDigit b = true := hdigits b (by simp [hb])
  have htake : (digitBytes n ++ rest).takeWhile isDigit = digitBytes n := by
    rw [List.takeWhile_append_of_pos hdigits]
    cases rest with
    | nil => simp
    | cons b rest => simp [hr.not_isDigit b rfl]
  have hlead : ¬ (b = 48 ∧ (r ++ rest).head?.any isDigit = true) := by
    rintro ⟨hb48, hany⟩
    by_cases hn0 : n = 0
    · subst hn0
      obtain ⟨-, rfl⟩ : b = 48 ∧ r = [] := by
        simpa using hb.symm.trans (digitBytes_of_lt (by decide))
      cases rest with
      | nil => simp at hany
      | cons b rest => simp [hr.not_isDigit b rfl] at hany
    · exact h0 hn0 hb48
  -- a leading zero is a lexeme of its own, and then there is no other digit
  have hds : (if b = 48 then [b] else (digitBytes n ++ rest).takeWhile isDigit) = digitBytes n := by
    split
    · next hb48 =>
      have hn0 : n = 0 := Classical.not_not.1 fun hn0 => h0 hn0 hb48
      subst hn0
      rw [hb48]
      exact (digitBytes_of_lt (by decide)).symm
    · exact htake
  have hc : (if b = 48 then c.drop 1 else c.skip isDigit) = c.drop (digitBytes n).length := by
    split
    · next hb48 =>
      rw [if_pos hb48] at hds
      rw [← hds]
      rfl
    · exact h.skip hdigits hr.not_isDigit
  have habs : absorb 0 (digitBytes n) = (n, (digitBytes n).length) := by
    have := absorb_of_lt (digitBytes n) (by rwa [spelled_digitBytes] : spelled 0 (digitBytes n) < _)
    rwa [spelled_digitBytes] at this
  have hrest := h.rest
  rw [hb, List.cons_append] at hrest
  rw [number, hrest]
  simp only [hd, Bool.not_true, Bool.false_eq_true, if_false, if_neg hlead]
  rw [← List.cons_append, ← hb, hds, hc, habs, h.drop.rest]
  simp only [Int.sub_self]
  split
  · exact absurd (hr _ rfl) (by decide)
  · exact absurd (hr _ rfl) (by decide)
  · exact absurd (hr _ rfl) (by decide)
  · rfl

/-! ### Strings -/

theorem hexValue?_hexDigit : ∀ n, n < 16 →
    hexValue? (UInt8.ofNat (hexDigit n).toNat) = some n := by
  decide

theorem toNat_hexDigit_lt : ∀ n, n < 16 → (hexDigit n).toNat < 0x80 := by decide

/-- A character is written behind a backslash, as the number of a control character, or as it is. -/
theorem escape_cases (l : Char) :
    (∃ e : Char, escape l = ['\\', e] ∧ e.toNat < 0x80 ∧
      simpleEscape? (UInt8.ofNat e.toNat) = some l) ∨
    (escape l = ['\\', 'u', '0', '0', hexDigit (l.toNat / 16), hexDigit (l.toNat % 16)] ∧
      l.toNat < 0x20) ∨
    (escape l = [l] ∧ l.toNat ≠ 34 ∧ l.toNat ≠ 92 ∧ 0x20 ≤ l.toNat) := by
  have ne_of : ∀ {k : Char}, l ≠ k → l.toNat ≠ k.toNat := fun h he =>
    h (by rw [← Char.ofNat_toNat l, he, Char.ofNat_toNat])
  unfold escape
  by_cases h1 : l = '"'
  · subst h1; exact .inl ⟨'"', by decide, by decide, by decide⟩
  by_cases h2 : l = '\\'
  · subst h2; exact .inl ⟨'\\', by decide, by decide, by decide⟩
  by_cases h3 : l = '\n'
  · subst h3; exact .inl ⟨'n', by decide, by decide, by decide⟩
  by_cases h4 : l = '\r'
  · subst h4; exact .inl ⟨'r', by decide, by decide, by decide⟩
  by_cases h5 : l = '\t'
  · subst h5; exact .inl ⟨'t', by decide, by decide, by decide⟩
  by_cases h6 : l = '\x08'
  · subst h6; exact .inl ⟨'b', by decide, by decide, by decide⟩
  by_cases h7 : l = '\x0c'
  · subst h7; exact .inl ⟨'f', by decide, by decide, by decide⟩
  simp only [h1, h2, h3, h4, h5, h6, h7, if_false]
  by_cases h8 : l.toNat < 0x20
  · exact .inr (.inl ⟨if_pos h8, h8⟩)
  · exact .inr (.inr ⟨if_neg h8, ne_of h1, ne_of h2, by omega⟩)

section
variable {acc bytes s : List UInt8} {b : UInt8}

theorem stringBytes_of_quote (h : c.Before (34 :: rest)) :
    stringBytes true acc c = .ok (acc.reverse, c.drop 1) := by
  rw [stringBytes, h.rest]
  simp

/-- One piece of a string, whatever it stands for, moves the cursor on by what it is written with. -/
theorem stringBytes_of_piece (h : c.Before ((b :: s) ++ rest)) (hb : b ≠ 34)
    (hp : stringPiece true b c = .ok (bytes, c.drop (b :: s).length)) :
    stringBytes true acc c =
      stringBytes true (bytes.reverse ++ acc) (c.drop (b :: s).length) := by
  have hadv := h.advances (List.cons_ne_nil b s)
  rw [stringBytes, h.rest]
  simp only [List.cons_append, if_neg hb]
  split
  · next hf => rw [hp] at hf; cases hf
  · next hf =>
    rw [hp] at hf
    cases hf
    rw [dif_pos hadv]

theorem stringBytes_plain {bs : List UInt8} (hbs : ∀ b ∈ bs, b ≠ 34 ∧ b ≠ 92 ∧ ¬ b < 32)
    (h : c.Before (bs ++ rest)) :
    stringBytes true acc c = stringBytes true (bs.reverse ++ acc) (c.drop bs.length) := by
  induction bs generalizing c acc with
  | nil => simp [Cursor.drop]
  | cons b bs ih =>
    obtain ⟨hq, he, hl⟩ := hbs b (by simp)
    have hp : stringPiece true b c = .ok ([b], c.drop 1) := by
      rw [stringPiece, if_neg he, if_neg hl]
    have hrest := @ih (c.drop 1) (b :: acc) (fun b hb => hbs b (by simp [hb])) h.drop_one
    rw [Cursor.drop_drop, Nat.add_comm] at hrest
    have hrev : (b :: bs).reverse = bs.reverse ++ [b] := List.reverse_cons
    rw [stringBytes_of_piece (s := []) h hq hp, hrev, List.append_assoc]
    exact hrest

theorem escapeSequence_simple {e : Char} (h : c.Before (b :: rest)) (he : simpleEscape? b = some e) :
    escapeSequence true c = .ok ([e], c.drop 1) := by
  rw [escapeSequence, h.rest]
  simp only [he]

theorem hexEscape_of_before {m n : Nat} (hm : m < 16) (hn : n < 16)
    (h : c.Before (48 :: 48 :: UInt8.ofNat (hexDigit m).toNat ::
      UInt8.ofNat (hexDigit n).toNat :: rest)) :
    hexEscape c = .ok (m * 16 + n, c.drop 4) := by
  have h0 : hexValue? 48 = some 0 := by decide
  rw [hexEscape, h.rest]
  simp [h0, hexValue?_hexDigit m hm, hexValue?_hexDigit n hn]

theorem escapeSequence_control {l : Char} (hl : l.toNat < 0x20)
    (h : c.Before (117 :: 48 :: 48 :: UInt8.ofNat (hexDigit (l.toNat / 16)).toNat ::
      UInt8.ofNat (hexDigit (l.toNat % 16)).toNat :: rest)) :
    escapeSequence true c = .ok ([l], c.drop 5) := by
  have hx := hexEscape_of_before (by omega) (by omega) h.drop_one
  have hc : codePoint (c.drop 1) = .ok (l.toNat, c.drop 5) := by
    rw [codePoint, hx, Cursor.drop_drop]
    have hn : l.toNat / 16 * 16 + l.toNat % 16 = l.toNat := by omega
    simp only [bind, Except.bind, hn]
    rw [if_neg (by omega), if_neg (by omega)]
    rfl
  have hs : simpleEscape? 117 = none := by decide
  rw [escapeSequence, h.rest]
  simp only [hs, if_true, hc, Except.map, Char.ofNat_toNat]

theorem stringBytes_escape (l : Char) (h : c.Before (Utf8.encode (escape l) ++ rest)) :
    stringBytes true acc c =
      stringBytes true ((Utf8.encode [l]).reverse ++ acc)
        (c.drop (Utf8.encode (escape l)).length) := by
  rcases escape_cases l with ⟨e, hl, he, hs⟩ | ⟨hl, hlt⟩ | ⟨hl, hq, hb, hge⟩
  · have hbytes : Utf8.encode ['\\', e] = [92, UInt8.ofNat e.toNat] := by
      rw [Utf8.encode_cons, Utf8.encode_cons, Utf8.encodeChar_of_lt he]
      rfl
    rw [hl, hbytes] at h ⊢
    refine stringBytes_of_piece h (by decide) ?_
    rw [stringPiece, if_pos rfl, escapeSequence_simple h.drop_one hs, Cursor.drop_drop]
    rfl
  · have hbytes : Utf8.encode ['\\', 'u', '0', '0', hexDigit (l.toNat / 16),
        hexDigit (l.toNat % 16)] = [92, 117, 48, 48, UInt8.ofNat (hexDigit (l.toNat / 16)).toNat,
        UInt8.ofNat (hexDigit (l.toNat % 16)).toNat] := by
      simp only [Utf8.encode_cons, Utf8.encodeChar_of_lt (toNat_hexDigit_lt _
        (show l.toNat / 16 < 16 by omega)), Utf8.encodeChar_of_lt (toNat_hexDigit_lt _
        (show l.toNat % 16 < 16 by omega))]
      rfl
    rw [hl, hbytes] at h ⊢
    refine stringBytes_of_piece h (by decide) ?_
    rw [stringPiece, if_pos rfl, escapeSequence_control hlt h.drop_one, Cursor.drop_drop]
    rfl
  · rw [hl] at h ⊢
    refine stringBytes_plain (fun b hb' => ?_) h
    have hb' : b ∈ String.utf8EncodeChar l := by simpa [Utf8.encode] using hb'
    have hlarge := Utf8.toNat_of_mem_encodeChar hb'
    refine ⟨?_, ?_, ?_⟩
    · rintro rfl; simp at hlarge; omega
    · rintro rfl; simp at hlarge; omega
    · rw [UInt8.lt_iff_toNat_lt]; show ¬ b.toNat < 32; omega

theorem stringBytes_escaped (s : List Char)
    (h : c.Before (Utf8.encode (s.flatMap escape) ++ rest)) :
    stringBytes true acc c =
      stringBytes true ((Utf8.encode s).reverse ++ acc)
        (c.drop (Utf8.encode (s.flatMap escape)).length) := by
  induction s generalizing c acc with
  | nil => simp [Utf8.encode, Cursor.drop]
  | cons l s ih =>
    rw [List.flatMap_cons, Utf8.encode_append, List.append_assoc] at h
    rw [stringBytes_escape l h, ih h.drop, Cursor.drop_drop]
    rw [List.flatMap_cons, Utf8.encode_append, List.length_append]
    rw [show l :: s = [l] ++ s from rfl, Utf8.encode_append, List.reverse_append,
      List.append_assoc]

end

/-- The bytes of a text inside quotes, up to its closing quote. -/
def quotedBytes (s : String) : List UInt8 := Utf8.encode (s.toList.flatMap escape) ++ [34]

theorem stringText_of_before (s : String) (h : c.Before (quotedBytes s ++ rest)) :
    stringText c = .ok (s, c.drop (quotedBytes s).length) := by
  rw [quotedBytes, List.append_assoc] at h
  rw [stringText, stringBytes_escaped s.toList h, stringBytes_of_quote h.drop]
  have hs : Utf8.toString? (Utf8.encode s.toList) = some s := Utf8.toString?_ofString s
  simp [bind, Except.bind, quotedBytes, hs]
  rfl

end QueryTree.Json
