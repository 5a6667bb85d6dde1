import QueryTree.Json.Shape
import QueryTree.Proofs.Json.ReadBack

/-!
# Reading values of a known shape back

The readers of a shape take the text of a value that has the shape. The members of a record are
gathered in the order in which they stand (`gathers_fields`); what comes out has one member for each
field, in the order of the fields, with null for those that were not written (`takes_record`).
-/

namespace QueryTree.Json

variable {α : Type} {c : Cursor} {rest : List UInt8} {read : Reader Json}

theorem takes_boolean (b : Bool) : Takes booleanReader (bytes (bool b)) (bool b) := by
  intro c rest hr h
  have hv := value_bytes (.bool b : Fits 0 (bool b)) c rest hr h
  cases b with
  | true =>
    have h : c.Before (116 :: (Utf8.encode ['r', 'u', 'e'] ++ rest)) := h
    rw [booleanReader, h.skipBlank (by decide), h.rest]
    exact hv
  | false =>
    have h : c.Before (102 :: (Utf8.encode ['a', 'l', 's', 'e'] ++ rest)) := h
    rw [booleanReader, h.skipBlank (by decide), h.rest]
    exact hv

theorem takes_text (depth : Nat) (s : String) :
    Takes (Shape.text.read depth) (bytes (string s)) (string s) := by
  intro c rest _ h
  rw [bytes_string] at h ⊢
  have hq : quoted "a string" c = stringText (c.drop 1) := by
    rw [quoted, h.skipBlank (by decide), h.rest]
    rfl
  show quoted "a string" c >>= _ = _
  rw [hq, stringText_of_before s h.drop_one, Cursor.drop_drop, List.length_cons, Nat.add_comm]
  rfl

theorem takes_choice {names : List String} {name : String} (depth : Nat) (h : name ∈ names) :
    Takes ((Shape.choice names).read depth) (bytes (string name)) (string name) := by
  intro c rest _ hc
  rw [bytes_string] at hc ⊢
  show choiceReader names depth c = _
  rw [choiceReader, hc.skipBlank (by decide), hc.rest]
  show (stringText (c.drop 1) >>= fun p => oneOf names p.1 p.2 >>= fun v => pure (v, p.2)) = _
  rw [stringText_of_before name hc.drop_one, Cursor.drop_drop]
  simp only [bind, Except.bind, oneOf, h, if_true]
  exact Cursor.ok_drop c (by simp; omega) _

/-- A list is taken if its items are, whatever is made of them. -/
theorem takes_list {item : Reader Json} (f : Json → Json) {xs : List Json}
    (hx : ∀ x ∈ xs, Opens x.bytes ∧ Takes item x.bytes (f x)) :
    Takes (listReader (some item)) (bytes (array xs)) (array (xs.map f)) := by
  intro c rest _ h
  rw [bytes_array] at h ⊢
  simp only [List.cons_append, List.append_assoc] at h
  rw [listReader.eq_def, h.skipBlank (by decide)]
  simp only [h.rest]
  show itemLoop item true [] (c.drop 1) >>= _ = _
  rw [itemLoop_list f xs hx h.drop_one]
  simp only [bind, Except.bind, Cursor.drop_drop]
  exact Cursor.ok_drop c (by simp; omega) _

theorem takes_absent : Takes (optionalReader read) (bytes null) null := by
  intro c rest hr h
  have hv := value_bytes (.null : Fits 0 null) c rest hr h
  have h : c.Before (110 :: (Utf8.encode ['u', 'l', 'l'] ++ rest)) := h
  rw [optionalReader, h.skipBlank (by decide), h.rest]
  exact hv

theorem takes_present {b : UInt8} {s : List UInt8} {v : Json} (hblank : Cursor.isBlank b = false)
    (hb : b ≠ 110) (ht : Takes read (b :: s) v) : Takes (optionalReader read) (b :: s) v := by
  intro c rest hr h
  rw [optionalReader, h.skipBlank hblank, h.rest]
  simp only [List.cons_append, List.head?_cons, Option.some.injEq, hb, if_false]
  exact ht c rest hr h

theorem takes_present_text (depth : Nat) (s : String) :
    Takes (optionalReader (Shape.text.read depth)) (bytes (string s)) (string s) := by
  have ht := takes_text depth s
  rw [bytes_string] at ht ⊢
  exact takes_present (by decide) (by decide) ht

theorem takes_nullable (depth : Nat) (s : Option String) :
    Takes (optionalReader (Shape.text.read depth)) (nullable s).bytes (nullable s) := by
  cases s with
  | none => exact takes_absent
  | some s => exact takes_present_text depth s

variable {fields : List FieldReader} {field : FieldReader} {k : String} {v : Json}
  {found ms : List (String × Json)}

/-- A field that has not been read yet is added to those found. -/
theorem takes_member {w : Json} (hfield : fields.find? (·.name == k) = some field)
    (hk : Keyed.get? k found = none) (ht : Takes field.read v.bytes w) :
    Takes (fieldMember fields k found) (58 :: v.bytes) (found ++ [(k, w)]) := by
  intro c rest hr h
  rw [fieldMember, hfield]
  simp only [hk, Option.isSome_none, Bool.false_eq_true, if_false]
  rw [colon_of_before h]
  show field.read (c.drop 1) >>= _ = _
  rw [ht _ rest hr h.drop_one, Cursor.drop_drop, List.length_cons, Nat.add_comm]
  rfl

/-- Members with `f` applied to their values. -/
def mapValues (f : Json → Json) (ms : List (String × Json)) : List (String × Json) :=
  ms.map fun m => (m.1, f m.2)

theorem mapValues_id (ms : List (String × Json)) : mapValues id ms = ms := List.map_id ms

theorem keys_mapValues (f : Json → Json) (ms : List (String × Json)) :
    Keyed.keys (mapValues f ms) = Keyed.keys ms := by
  rw [Keyed.keys, mapValues, List.map_map]
  rfl

theorem gathers_fields (f : Json → Json) (hkeys : (Keyed.keys (found ++ mapValues f ms)).Nodup)
    (hm : ∀ m ∈ ms, ∃ field, fields.find? (·.name == m.1) = some field ∧
      Takes field.read m.2.bytes (f m.2)) :
    Gathers (fieldMember fields) found ms (found ++ mapValues f ms) := by
  induction ms generalizing found with
  | nil =>
    rw [mapValues, List.map_nil, List.append_nil]
    exact .nil found
  | cons m ms ih =>
    obtain ⟨k, v⟩ := m
    obtain ⟨field, hfield, ht⟩ := hm (k, v) (by simp)
    have hk : k ∉ Keyed.keys found := Keyed.not_mem_keys_of_nodup hkeys
    have hcons : mapValues f ((k, v) :: ms) = [(k, f v)] ++ mapValues f ms := rfl
    rw [hcons, ← List.append_assoc] at hkeys ⊢
    exact .cons (takes_member hfield (Keyed.get?_eq_none hk) ht)
      (ih hkeys fun m hm' => hm m (by simp [hm']))

/-- The members that a record yields for those found. -/
def filled (fields : List FieldReader) (found : List (String × Json)) : List (String × Json) :=
  fields.map fun f => (f.name, (Keyed.get? f.name found).getD null)

/-- An object as the record yields it. -/
def recorded (fields : List FieldReader) : Json → Json
  | .object ms => .object (filled fields ms)
  | v => v

theorem filled_cons (f : FieldReader) (fs : List FieldReader) (found : List (String × Json)) :
    filled (f :: fs) found = (f.name, (Keyed.get? f.name found).getD null) :: filled fs found := rfl

/-- The names of the fields that have to be there. -/
def required (fields : List FieldReader) : List String :=
  (fields.filter fun f => !f.optional).map FieldReader.name

theorem arrange_eq (h : required fields ⊆ Keyed.keys found) :
    arrange found fields = .ok (filled fields found) := by
  induction fields with
  | nil => rfl
  | cons f fs ih =>
    cases ho : f.optional with
    | true =>
      rw [required, List.filter_cons_of_neg (by simp [ho])] at h
      rw [arrange, ih h, filled_cons, ho]
      cases Keyed.get? f.name found <;> rfl
    | false =>
      rw [required, List.filter_cons_of_pos (by simp [ho]), List.map_cons, List.cons_subset] at h
      obtain ⟨v, hv⟩ := Keyed.get?_of_mem h.1
      rw [arrange, ih h.2, filled_cons, hv]
      rfl

/-- A record is taken if the values of its members are, whatever is made of them. -/
theorem takes_record_map (name : String) (f : Json → Json) (hkeys : (Keyed.keys ms).Nodup)
    (hm : ∀ m ∈ ms, ∃ field, fields.find? (·.name == m.1) = some field ∧
      Takes field.read m.2.bytes (f m.2))
    (hall : required fields ⊆ Keyed.keys ms) :
    Takes (recordReader name (some fields)) (bytes (object ms))
      (object (filled fields (mapValues f ms))) := by
  intro c rest _ h
  rw [bytes_object] at h ⊢
  simp only [List.cons_append, List.append_assoc] at h
  have hg : Gathers (fieldMember fields) [] ms ([] ++ mapValues f ms) :=
    gathers_fields f (by rwa [List.nil_append, keys_mapValues]) hm
  rw [List.nil_append] at hg
  rw [← keys_mapValues f] at hall
  rw [recordReader.eq_def, h.skipBlank (by decide)]
  simp only [h.rest]
  show memberLoop (fieldMember fields) true [] (c.drop 1) >>= _ = _
  rw [memberLoop_object hg h.drop_one]
  simp only [bind, Except.bind, arrange_eq hall, Cursor.drop_drop]
  exact Cursor.ok_drop c (by simp; omega) _

theorem takes_record (name : String) (hkeys : (Keyed.keys ms).Nodup)
    (hm : ∀ m ∈ ms, ∃ field, fields.find? (·.name == m.1) = some field ∧
      Takes field.read m.2.bytes m.2)
    (hall : required fields ⊆ Keyed.keys ms) :
    Takes (recordReader name (some fields)) (bytes (object ms)) (object (filled fields ms)) := by
  have ht := takes_record_map name id hkeys hm hall
  rwa [mapValues_id] at ht

end QueryTree.Json
