import QueryTree.Json.Reader
import QueryTree.Proofs.Keyed
import QueryTree.Proofs.Outcome

/-!
# Keys of what is read

A key that is written again in an object gets the new value where it stands, so an object that is read
names every key once (`nodup_keys_of_parse`), whatever its text repeats.
-/

namespace QueryTree.Json

variable {α : Type} {c c' : Cursor} {depth : Nat}

/-- The reader gives values with the property only. -/
def Gives (P : Json → Prop) (read : Reader Json) : Prop :=
  ∀ ⦃c v c'⦄, read c = .ok (v, c') → P v

/-! ### Numbers -/

def IsNumber : Json → Prop
  | int _ | double _ => True
  | _ => False

theorem gives_finish (negative : Bool) (significand : Nat) (exponent : Int) :
    Gives IsNumber (finish negative significand exponent) := by
  intro c v c' h
  rw [finish] at h
  split at h <;> cases h
  trivial

theorem gives_exponentPart (negative : Bool) (significand : Nat) (exponent : Int) :
    Gives IsNumber (exponentPart negative significand exponent) := by
  intro c v c' h
  unfold exponentPart at h
  have hf := gives_finish negative significand
  grind [Gives, IsNumber]

theorem gives_fractionPart (negative : Bool) (significand : Nat) (exponent : Int) :
    Gives IsNumber (fractionPart negative significand exponent) := by
  intro c v c' h
  unfold fractionPart afterDigits at h
  grind [Gives, gives_exponentPart, gives_finish]

theorem isNumber_whole (negative : Bool) (n : Nat) : IsNumber (whole negative n) := by
  rw [whole]
  split
  · split <;> trivial
  · trivial

theorem gives_number (negative : Bool) : Gives IsNumber (number negative) := by
  intro c v c' h
  unfold number at h
  grind [Gives, gives_exponentPart, gives_finish, gives_fractionPart, isNumber_whole]

/-! ### Objects -/

/-- No two members of the value, if it is an object, have one key. -/
def DistinctKeys : Json → Prop
  | object members => (Keyed.keys members).Nodup
  | _ => True

theorem IsNumber.distinctKeys {v : Json} (h : IsNumber v) : DistinctKeys v := by
  cases v with
  | object members => cases h
  | _ => trivial

/-- What every member keeps is kept by the loop over them. -/
theorem memberLoop_keeps {I : α → Prop} {member : String → α → Reader α}
    (hmember : ∀ {key a c a' c'}, I a → member key a c = .ok (a', c') → I a') {first : Bool}
    {a b : α} (ha : I a) (h : memberLoop member first a c = .ok (b, c')) : I b := by
  fun_induction memberLoop member first a c with
  | case1 => cases h
  | case2 => cases h; exact ha
  | case3 => cases h
  | case4 first a c c₁ hmore a₁ after hread _ ih =>
    obtain ⟨⟨key, c₂⟩, -, hread⟩ := bind_eq_ok.1 hread
    exact ih (hmember ha hread) h
  | case5 => cases h

theorem nodup_keys_of_member {inner : Reader Json} {key : String}
    {members members' : List (String × Json)} (hmembers : (Keyed.keys members).Nodup)
    (h : valueWith.member inner key members c = .ok (members', c')) :
    (Keyed.keys members').Nodup := by
  obtain ⟨⟨⟨⟩, c₁⟩, -, h⟩ := bind_eq_ok.1 h
  obtain ⟨⟨v, c₂⟩, -, h⟩ := bind_eq_ok.1 h
  cases h
  exact Keyed.nodup_keys_put hmembers

theorem gives_valueWith (inner : Option (Reader Json)) : Gives DistinctKeys (valueWith inner) := by
  intro c v c' h
  unfold valueWith at h
  dsimp only at h
  split at h
  · cases h
  split at h
  · obtain ⟨_, -, h⟩ := bind_eq_ok.1 h
    cases h
    trivial
  · obtain ⟨_, -, h⟩ := bind_eq_ok.1 h
    cases h
    trivial
  · obtain ⟨_, -, h⟩ := bind_eq_ok.1 h
    cases h
    trivial
  · exact (gives_number true h).distinctKeys
  · obtain ⟨_, -, h⟩ := bind_eq_ok.1 h
    cases h
    trivial
  · cases h
  · cases h
  · obtain ⟨_, -, h⟩ := bind_eq_ok.1 h
    cases h
    trivial
  · obtain ⟨⟨members, c₁⟩, hloop, h⟩ := bind_eq_ok.1 h
    cases h
    have hnil : (Keyed.keys ([] : List (String × Json))).Nodup := List.nodup_nil
    exact memberLoop_keeps (I := fun ms => (Keyed.keys ms).Nodup) nodup_keys_of_member hnil hloop
  · split at h
    · exact (gives_number false h).distinctKeys
    · cases h

theorem gives_value (depth : Nat) : Gives DistinctKeys (value depth) := by
  cases depth with
  | zero => exact gives_valueWith none
  | succ depth => exact gives_valueWith (some (value depth))

/-- The keys of an object that is read are distinct. -/
theorem nodup_keys_of_parse {input : List UInt8} {members : List (String × Json)}
    (h : parse input = .ok (.object members)) : (Keyed.keys members).Nodup := by
  obtain ⟨⟨v, c⟩, hvalue, h⟩ := bind_eq_ok.1 h
  have hkeys := gives_value maxDepth hvalue
  dsimp only at h
  split at h
  · cases h
    exact hkeys
  · cases h

end QueryTree.Json
