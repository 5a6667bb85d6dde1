import QueryTree.Text.Blank

/-!
# Letters and digits

Case changes ASCII letters only, and letters and digits are visible. So a character that is no letter
is not reached by lowering another one (`toLower_eq_iff`), and lowering makes nothing blank.
-/

namespace QueryTree.Text

variable {c d : Char}

theorem range_of_isLower (h : c.isLower = true) : 97 ≤ c.toNat ∧ c.toNat ≤ 122 := by
  obtain ⟨hle, hge⟩ := Bool.and_eq_true_iff.1 h
  exact ⟨UInt32.le_iff_toNat_le.1 (of_decide_eq_true hle),
    UInt32.le_iff_toNat_le.1 (of_decide_eq_true hge)⟩

theorem toNat_lt_of_isAlpha (h : c.isAlpha = true) : c.toNat < 0x80 := by
  rcases Bool.or_eq_true_iff.1 h with hupper | hlower
  · have hle : c.toNat ≤ 90 := UInt32.le_iff_toNat_le.1 (of_decide_eq_true hupper).2
    omega
  · have hrange := range_of_isLower hlower
    omega

/-! ### Lowering -/

theorem isAlpha_of_isLower_toLower (h : c.toLower.isLower = true) : c.isAlpha = true := by
  by_cases hupper : c.val ≥ 'A'.val ∧ c.val ≤ 'Z'.val
  · exact Bool.or_eq_true_iff.2 (.inl (decide_eq_true hupper))
  · have hsame : c.toLower = c := dif_neg hupper
    rw [hsame] at h
    exact Bool.or_eq_true_iff.2 (.inr h)

theorem toLower_of_not_isAlpha (h : c.isAlpha = false) : c.toLower = c := by
  refine dif_neg fun hupper => ?_
  have halpha : c.isAlpha = true := Bool.or_eq_true_iff.2 (.inl (decide_eq_true hupper))
  rw [h] at halpha
  cases halpha

theorem isAlpha_toLower (c : Char) : c.toLower.isAlpha = c.isAlpha := by
  cases hc : c.isAlpha with
  | false => rw [toLower_of_not_isAlpha hc, hc]
  | true =>
    have hascii : ∀ n < 0x80, (Char.ofNat n).isAlpha = true → (Char.ofNat n).toLower.isAlpha = true := by
      decide +kernel
    have hc' := hascii c.toNat (toNat_lt_of_isAlpha hc)
    rw [Char.ofNat_toNat] at hc'
    exact hc' hc

/-- What is no letter is the lower case of itself only. -/
theorem toLower_eq_iff (hd : d.isAlpha = false) : c.toLower = d ↔ c = d := by
  cases hc : c.isAlpha with
  | false => rw [toLower_of_not_isAlpha hc]
  | true =>
    have hlower : c.toLower.isAlpha = true := (isAlpha_toLower c).trans hc
    constructor
    · rintro rfl
      rw [hlower] at hd
      cases hd
    · rintro rfl
      rw [hc] at hd
      cases hd

/-! ### Visible -/

theorem not_isBlank_of_isAlpha (h : c.isAlpha = true) : isBlank c = false := by
  have hascii : ∀ n < 0x80, (Char.ofNat n).isAlpha = true → isBlank (Char.ofNat n) = false := by
    decide +kernel
  have hc := hascii c.toNat (toNat_lt_of_isAlpha h)
  rw [Char.ofNat_toNat] at hc
  exact hc h

theorem not_isBlank_of_isDigit (h : c.isDigit = true) : isBlank c = false := by
  obtain ⟨hge, hle⟩ := Bool.and_eq_true_iff.1 h
  have hge : 48 ≤ c.toNat := UInt32.le_iff_toNat_le.1 (of_decide_eq_true hge)
  have hle : c.toNat ≤ 57 := UInt32.le_iff_toNat_le.1 (of_decide_eq_true hle)
  rw [← Bool.not_eq_true]
  intro hblank
  simp only [isBlank, Bool.or_eq_true, Bool.and_eq_true, decide_eq_true_eq, beq_iff_eq] at hblank
  omega

theorem isBlank_toLower (c : Char) : isBlank c.toLower = isBlank c := by
  cases hc : c.isAlpha with
  | false => rw [toLower_of_not_isAlpha hc]
  | true => rw [not_isBlank_of_isAlpha hc, not_isBlank_of_isAlpha ((isAlpha_toLower c).trans hc)]

end QueryTree.Text
