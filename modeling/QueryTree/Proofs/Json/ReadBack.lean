import QueryTree.Json.Reader
import QueryTree.Proofs.Json.Lexeme
import QueryTree.Proofs.Keyed

/-!
# Reading values back

`Fits depth v`: the value `v` holds no double, its numbers fit 64 bits, the keys of its objects are
distinct, and at most `depth` brackets are open at once. The compact text of such a value is read back
to the value itself (`value_bytes`, `parse_text`). A loop over items or members is followed one round
at a time; `Gathers` says what a loop over members has gathered in the end, whatever its reader of
members does with them.
-/

namespace QueryTree.Json

variable {α : Type} {c : Cursor} {rest : List UInt8}

/-- `read` takes the bytes `s` for `a` wherever they close. -/
def Takes (read : Reader α) (s : List UInt8) (a : α) : Prop :=
  ∀ c rest, Closed rest → c.Before (s ++ rest) → read c = .ok (a, c.drop s.length)

/-- The bytes of a value's text. -/
def bytes (v : Json) : List UInt8 := Utf8.encode v.chars

def itemBytes (xs : List Json) : List UInt8 := Utf8.encode (itemChars xs)

def memberBytes (ms : List (String × Json)) : List UInt8 := Utf8.encode (memberChars ms)

/-- A member from behind the opening quote of its key. -/
def entryBytes (k : String) (v : Json) : List UInt8 := quotedBytes k ++ 58 :: bytes v

theorem ofString_text (v : Json) : Utf8.ofString v.text = v.bytes := by
  rw [Utf8.ofString, text, String.toList_ofList, bytes]

theorem encode_quote (s : String) : Utf8.encode (quote s) = 34 :: quotedBytes s := by
  show 34 :: Utf8.encode (s.toList.flatMap escape ++ ['"']) = _
  rw [Utf8.encode_append]
  rfl

theorem bytes_string (s : String) : bytes (string s) = 34 :: quotedBytes s := encode_quote s

theorem bytes_array_cons (x : Json) (xs : List Json) :
    bytes (array (x :: xs)) = 91 :: (x.bytes ++ itemBytes xs ++ [93]) := by
  rw [bytes, chars]
  show 91 :: Utf8.encode (x.chars ++ itemChars xs ++ [']']) = _
  rw [Utf8.encode_append, Utf8.encode_append]
  rfl

theorem encode_entry (k : String) (v : Json) :
    Utf8.encode (quote k ++ ':' :: v.chars) = 34 :: entryBytes k v := by
  rw [Utf8.encode_append, encode_quote]
  rfl

theorem bytes_object_cons (k : String) (v : Json) (ms : List (String × Json)) :
    bytes (object ((k, v) :: ms)) = 123 :: 34 :: (entryBytes k v ++ memberBytes ms ++ [125]) := by
  rw [bytes, chars]
  show 123 :: Utf8.encode (quote k ++ ':' :: v.chars ++ memberChars ms ++ ['\x7d']) = _
  rw [Utf8.encode_append, Utf8.encode_append, encode_entry]
  rfl

theorem itemBytes_nil : itemBytes [] = [] := rfl

theorem itemBytes_cons (x : Json) (xs : List Json) :
    itemBytes (x :: xs) = 44 :: (x.bytes ++ itemBytes xs) := by
  rw [itemBytes, itemChars]
  show 44 :: Utf8.encode (x.chars ++ itemChars xs) = _
  rw [Utf8.encode_append]
  rfl

theorem memberBytes_nil : memberBytes [] = [] := rfl

theorem memberBytes_cons (k : String) (v : Json) (ms : List (String × Json)) :
    memberBytes ((k, v) :: ms) = 44 :: 34 :: (entryBytes k v ++ memberBytes ms) := by
  rw [memberBytes, memberChars]
  show 44 :: Utf8.encode (quote k ++ ':' :: v.chars ++ memberChars ms) = _
  rw [Utf8.encode_append, encode_entry]
  rfl

/-! ### Loops over items and members -/

/-- The bytes begin a value: neither with a blank nor with the end of a list. -/
def Opens (s : List UInt8) : Prop := ∃ b r, s = b :: r ∧ Cursor.isBlank b = false ∧ b ≠ 93

theorem closed_itemBytes (xs : List Json) : Closed (itemBytes xs ++ 93 :: rest) := by
  cases xs with
  | nil =>
    intro b hb
    exact .inr (.inl (by simpa [itemBytes_nil, eq_comm] using hb))
  | cons x xs =>
    intro b hb
    exact .inl (by simpa [itemBytes_cons, eq_comm] using hb)

theorem closed_memberBytes (ms : List (String × Json)) : Closed (memberBytes ms ++ 125 :: rest) := by
  cases ms with
  | nil =>
    intro b hb
    exact .inr (.inr (by simpa [memberBytes_nil, eq_comm] using hb))
  | cons m ms =>
    obtain ⟨k, v⟩ := m
    intro b hb
    exact .inl (by simpa [memberBytes_cons, eq_comm] using hb)

theorem moreItems_end {first : Bool} (h : c.Before (93 :: rest)) :
    moreItems first c = .ok (false, c) := by
  rw [moreItems, h.skipBlank (by decide), h.rest]
  rfl

theorem moreItems_first {s : List UInt8} (hs : Opens s) (h : c.Before (s ++ rest)) :
    moreItems true c = .ok (true, c) := by
  obtain ⟨b, r, rfl, hb, hne⟩ := hs
  rw [moreItems, h.skipBlank hb, h.rest]
  simp [hne]

theorem moreItems_next {s : List UInt8} (hs : Opens s) (h : c.Before (44 :: (s ++ rest))) :
    moreItems false c = .ok (true, c.drop 1) := by
  obtain ⟨b, r, rfl, hb, hne⟩ := hs
  have h1 := h.drop_one
  rw [moreItems, h.skipBlank (by decide), h.rest]
  simp [h1.skipBlank hb, h1.rest, hne]

theorem itemLoop_of_end {item : Reader α} {first : Bool} {acc : List α}
    (hm : moreItems first c = .ok (false, c)) :
    itemLoop item first acc c = .ok (acc.reverse, c) := by
  rw [itemLoop, hm]

/-- One round of a list: an item is read, and the loop goes on behind it. -/
theorem itemLoop_of_item {item : Reader α} {first : Bool} {acc : List α} {a : α}
    {s : List UInt8} {c' : Cursor} (hm : moreItems first c = .ok (true, c'))
    (hs : Opens s) (hi : Takes item s a) (hr : Closed rest) (hs' : c'.Before (s ++ rest))
    (hle : c.offset ≤ c'.offset) (hsize : c.size = c'.size) :
    itemLoop item first acc c = itemLoop item false (a :: acc) (c'.drop s.length) := by
  obtain ⟨b, r, rfl, -, -⟩ := hs
  have hadv := Cursor.advances_of_le (hs'.advances (List.cons_ne_nil b r)) hle hsize
  rw [itemLoop, hm]
  simp only [hi c' rest hr hs']
  rw [dif_pos hadv]

theorem itemLoop_items {item : Reader α} (f : Json → α) (xs : List Json) {acc : List α}
    (hx : ∀ x ∈ xs, Opens x.bytes ∧ Takes item x.bytes (f x))
    (h : c.Before (itemBytes xs ++ 93 :: rest)) :
    itemLoop item false acc c = .ok (acc.reverse ++ xs.map f, c.drop (itemBytes xs).length) := by
  induction xs generalizing c acc with
  | nil =>
    rw [itemLoop_of_end (moreItems_end h)]
    simp [itemBytes_nil, Cursor.drop]
  | cons x xs ih =>
    obtain ⟨ho, ht⟩ := hx x (by simp)
    rw [itemBytes_cons, List.cons_append, List.append_assoc] at h
    have h1 := h.drop_one
    rw [itemLoop_of_item (moreItems_next ho h) ho ht (closed_itemBytes xs) h1
      (Nat.le_add_right ..) rfl]
    rw [ih (fun x hx' => hx x (by simp [hx'])) h1.drop, Cursor.drop_drop, Cursor.drop_drop,
      itemBytes_cons, List.reverse_cons, List.append_assoc]
    exact Cursor.ok_drop c (by simp; omega) _

/-- What stands between the brackets of a list. -/
def listBytes : List Json → List UInt8
  | [] => []
  | x :: xs => x.bytes ++ itemBytes xs

theorem bytes_array (xs : List Json) : bytes (array xs) = 91 :: (listBytes xs ++ [93]) := by
  cases xs with
  | nil => rfl
  | cons x xs => rw [bytes_array_cons, listBytes]

theorem itemLoop_list {item : Reader α} (f : Json → α) (xs : List Json)
    (hx : ∀ x ∈ xs, Opens x.bytes ∧ Takes item x.bytes (f x))
    (h : c.Before (listBytes xs ++ 93 :: rest)) :
    itemLoop item true [] c = .ok (xs.map f, c.drop (listBytes xs).length) := by
  cases xs with
  | nil =>
    rw [itemLoop_of_end (moreItems_end h)]
    simp [listBytes, Cursor.drop]
  | cons x xs =>
    obtain ⟨ho, ht⟩ := hx x (by simp)
    rw [listBytes, List.append_assoc] at h
    rw [itemLoop_of_item (moreItems_first ho h) ho ht (closed_itemBytes xs) h (Nat.le_refl _) rfl]
    rw [itemLoop_items f xs (fun x hx' => hx x (by simp [hx'])) h.drop, Cursor.drop_drop]
    exact Cursor.ok_drop c (by simp [listBytes]) _

theorem colon_of_before (h : c.Before (58 :: rest)) : colon c = .ok ((), c.drop 1) := by
  rw [colon, h.skipBlank (by decide), h.rest]
  rfl

theorem moreMembers_end {first : Bool} (h : c.Before (125 :: rest)) :
    moreMembers first c = .ok (false, c) := by
  rw [moreMembers, h.skipBlank (by decide), h.rest]
  rfl

theorem moreMembers_first (h : c.Before (34 :: rest)) : moreMembers true c = .ok (true, c) := by
  rw [moreMembers, h.skipBlank (by decide), h.rest]
  rfl

theorem moreMembers_next (h : c.Before (44 :: 34 :: rest)) :
    moreMembers false c = .ok (true, c.drop 1) := by
  have h1 := h.drop_one
  rw [moreMembers, h.skipBlank (by decide), h.rest]
  simp [h1.skipBlank (by decide), h1.rest]

/-- A loop over the members `ms` turns `a` into `b`: each member is taken, from its colon on, with
what the ones before it have left. -/
inductive Gathers (member : String → α → Reader α) : α → List (String × Json) → α → Prop
  | nil (a : α) : Gathers member a [] a
  | cons {a a' b : α} {k : String} {v : Json} {ms : List (String × Json)}
      (head : Takes (member k a) (58 :: v.bytes) a') (tail : Gathers member a' ms b) :
      Gathers member a ((k, v) :: ms) b

variable {member : String → α → Reader α} {a a' b : α} {k : String} {v : Json}

theorem memberLoop_of_end {first : Bool} (hm : moreMembers first c = .ok (false, c)) :
    memberLoop member first a c = .ok (a, c) := by
  rw [memberLoop, hm]

/-- One round of an object, from the quote of a key. -/
theorem memberLoop_of_entry {first : Bool} {c' : Cursor}
    (hm : moreMembers first c = .ok (true, c')) (ht : Takes (member k a) (58 :: v.bytes) a')
    (hr : Closed rest) (h : c'.Before (34 :: (entryBytes k v ++ rest)))
    (hle : c.offset ≤ c'.offset) (hsize : c.size = c'.size) :
    memberLoop member first a c =
      memberLoop member false a' (c'.drop (1 + (entryBytes k v).length)) := by
  have h1 := h.drop_one
  have hadv : c.advances (c'.drop (1 + (entryBytes k v).length)) = true := by
    have h2 := h1.advances (s := entryBytes k v) (by simp [entryBytes])
    rw [Cursor.drop_drop] at h2
    exact Cursor.advances_of_le h2 (Nat.le_succ_of_le hle) hsize
  rw [entryBytes, List.append_assoc] at h1
  have hread : member k a ((c'.drop 1).drop (quotedBytes k).length) =
      .ok (a', c'.drop (1 + (entryBytes k v).length)) := by
    rw [ht _ rest hr h1.drop, Cursor.drop_drop, Cursor.drop_drop, entryBytes, List.length_append]
  rw [memberLoop, hm]
  simp only [stringText_of_before k h1, bind, Except.bind, hread]
  rw [dif_pos hadv]

theorem memberLoop_members {ms : List (String × Json)} (hg : Gathers member a ms b)
    (h : c.Before (memberBytes ms ++ 125 :: rest)) :
    memberLoop member false a c = .ok (b, c.drop (memberBytes ms).length) := by
  induction hg generalizing c with
  | nil a =>
    rw [memberLoop_of_end (moreMembers_end h)]
    simp [memberBytes_nil, Cursor.drop]
  | @cons a a' b k v ms head tail ih =>
    rw [memberBytes_cons] at h ⊢
    simp only [List.cons_append, List.append_assoc] at h
    have h1 := h.drop_one
    rw [memberLoop_of_entry (moreMembers_next h) head (closed_memberBytes ms) h1
      (Nat.le_add_right ..) rfl]
    rw [← Cursor.drop_drop, ih h1.drop_one.drop, Cursor.drop_drop, Cursor.drop_drop,
      Cursor.drop_drop]
    exact Cursor.ok_drop c (by simp; omega) b

/-- What stands between the brackets of an object. -/
def objectBytes : List (String × Json) → List UInt8
  | [] => []
  | (k, v) :: ms => 34 :: (entryBytes k v ++ memberBytes ms)

theorem bytes_object (ms : List (String × Json)) :
    bytes (object ms) = 123 :: (objectBytes ms ++ [125]) := by
  cases ms with
  | nil => rfl
  | cons m ms => rw [bytes_object_cons, objectBytes]; rfl

theorem memberLoop_object {ms : List (String × Json)} (hg : Gathers member a ms b)
    (h : c.Before (objectBytes ms ++ 125 :: rest)) :
    memberLoop member true a c = .ok (b, c.drop (objectBytes ms).length) := by
  cases hg with
  | nil a =>
    rw [memberLoop_of_end (moreMembers_end h)]
    simp [objectBytes, Cursor.drop]
  | @cons _ a' _ k v ms head tail =>
    rw [objectBytes] at h ⊢
    simp only [List.cons_append, List.append_assoc] at h
    rw [memberLoop_of_entry (moreMembers_first h) head (closed_memberBytes ms) h
      (Nat.le_refl _) rfl]
    rw [← Cursor.drop_drop, memberLoop_members tail h.drop_one.drop, Cursor.drop_drop,
      Cursor.drop_drop]
    exact Cursor.ok_drop c (by simp; omega) b

/-! ### Values -/

/-- The value holds no double, its numbers fit 64 bits, the keys of its objects are distinct, and at
most `depth` brackets are open at once. -/
inductive Fits : (depth : Nat) → Json → Prop
  | null {depth : Nat} : Fits depth .null
  | bool {depth : Nat} (b : Bool) : Fits depth (.bool b)
  | int {depth : Nat} {n : Int} (low : -2 ^ 63 ≤ n) (high : n < 2 ^ 64) : Fits depth (.int n)
  | string {depth : Nat} (s : String) : Fits depth (.string s)
  | array {depth : Nat} {xs : List Json} (items : ∀ x ∈ xs, Fits depth x) :
      Fits (depth + 1) (.array xs)
  | object {depth : Nat} {ms : List (String × Json)} (keys : (Keyed.keys ms).Nodup)
      (values : ∀ m ∈ ms, Fits depth m.2) : Fits (depth + 1) (.object ms)

/-- Whether a value fits without any bracket can be tested. -/
instance (v : Json) : Decidable (Fits 0 v) :=
  match v with
  | .null => isTrue .null
  | .bool b => isTrue (.bool b)
  | .int n => decidable_of_iff (-2 ^ 63 ≤ n ∧ n < 2 ^ 64)
      ⟨fun h => .int h.1 h.2, fun h => by cases h with | int low high => exact ⟨low, high⟩⟩
  | .double _ => isFalse nofun
  | .string s => isTrue (.string s)
  | .array _ => isFalse nofun
  | .object _ => isFalse nofun

theorem Fits.mono {depth depth' : Nat} (h : Fits depth v) (hle : depth ≤ depth') :
    Fits depth' v := by
  induction h generalizing depth' with
  | null => exact .null
  | bool b => exact .bool b
  | int low high => exact .int low high
  | string s => exact .string s
  | array items ih =>
    obtain ⟨d, rfl⟩ : ∃ d, depth' = d + 1 := ⟨depth' - 1, by omega⟩
    exact .array fun x hx => ih x hx (by omega)
  | object keys values ih =>
    obtain ⟨d, rfl⟩ : ∃ d, depth' = d + 1 := ⟨depth' - 1, by omega⟩
    exact .object keys fun m hm => ih m hm (by omega)

theorem bytes_ofNat (n : Nat) : bytes (int n) = digitBytes n := rfl

theorem bytes_negSucc (n : Nat) : bytes (int (.negSucc n)) = 45 :: digitBytes (n + 1) := rfl

theorem digit_cases {b : UInt8} (h : isDigit b = true) :
    Cursor.isBlank b = false ∧ b.toNat ∉ [110, 116, 102, 45, 34, 91, 123, 93] := by
  simp only [isDigit, Bool.and_eq_true, decide_eq_true_eq, UInt8.le_iff_toNat_le] at h
  have h1 : 48 ≤ b.toNat := h.1
  have h2 : b.toNat ≤ 57 := h.2
  have ne_of : ∀ n : UInt8, b.toNat ≠ n.toNat → (b == n) = false := fun n hn => by
    rw [beq_eq_false_iff_ne]; rintro rfl; exact hn rfl
  refine ⟨?_, by simp; omega⟩
  simp [Cursor.isBlank, ne_of 32 (by simp; omega), ne_of 10 (by simp; omega),
    ne_of 9 (by simp; omega), ne_of 13 (by simp; omega)]

/-- A value begins neither with a blank nor like the end of a list, and only null begins like null. -/
theorem Fits.first_byte {depth : Nat} (h : Fits depth v) :
    ∃ b r, v.bytes = b :: r ∧ Cursor.isBlank b = false ∧ b ≠ 93 ∧ (v ≠ .null → b ≠ 110) := by
  cases h with
  | null => exact ⟨_, _, rfl, by decide, by decide, fun hv => absurd rfl hv⟩
  | bool b => cases b <;> exact ⟨_, _, rfl, by decide, by decide, fun _ => by decide⟩
  | @int _ n low high =>
    cases n with
    | ofNat n =>
      obtain ⟨b, r, hb, -⟩ := digitBytes_eq_cons n
      have hd := digit_cases (isDigit_of_mem_digitBytes n b (by simp [hb]))
      refine ⟨b, r, hb, hd.1, ?_, fun _ => ?_⟩
      · rintro rfl; exact hd.2 (by decide)
      · rintro rfl; exact hd.2 (by decide)
    | negSucc n => exact ⟨_, _, bytes_negSucc n, by decide, by decide, fun _ => by decide⟩
  | string s => exact ⟨_, _, bytes_string s, by decide, by decide, fun _ => by decide⟩
  | array items => exact ⟨_, _, bytes_array _, by decide, by decide, fun _ => by decide⟩
  | object keys values => exact ⟨_, _, bytes_object _, by decide, by decide, fun _ => by decide⟩

theorem Fits.opens {depth : Nat} (h : Fits depth v) : Opens v.bytes := by
  obtain ⟨b, r, hb, hblank, hend, -⟩ := h.first_byte
  exact ⟨b, r, hb, hblank, hend⟩

section
variable {inner : Option (Reader Json)}

/-- A word is taken where its first letter makes the reader look for the others. -/
theorem takes_word {b : UInt8} {letters : List Char} (hb : Cursor.isBlank b = false)
    (hletters : ∀ l ∈ letters, l.toNat < 0x80)
    (hread : ∀ {c : Cursor} {s : List UInt8}, c.skipBlank = c → c.rest = b :: s →
      valueWith inner c = word letters (c.drop 1) >>= fun p => pure (v, p.2)) :
    Takes (valueWith inner) (b :: Utf8.encode letters) v := by
  intro c rest _ h
  rw [List.cons_append] at h
  rw [hread (h.skipBlank hb) h.rest, word_of_before hletters h.drop_one, Cursor.drop_drop,
    List.length_cons, Nat.add_comm]
  rfl

theorem takes_null : Takes (valueWith inner) (bytes null) null := by
  show Takes (valueWith inner) (110 :: Utf8.encode ['u', 'l', 'l']) null
  refine takes_word (by decide) (by simp) fun hblank hrest => ?_
  rw [valueWith, hblank, hrest]
  rfl

theorem takes_true : Takes (valueWith inner) (bytes (bool true)) (bool true) := by
  show Takes (valueWith inner) (116 :: Utf8.encode ['r', 'u', 'e']) (bool true)
  refine takes_word (by decide) (by simp) fun hblank hrest => ?_
  rw [valueWith, hblank, hrest]
  rfl

theorem takes_false : Takes (valueWith inner) (bytes (bool false)) (bool false) := by
  show Takes (valueWith inner) (102 :: Utf8.encode ['a', 'l', 's', 'e']) (bool false)
  refine takes_word (by decide) (by simp) fun hblank hrest => ?_
  rw [valueWith, hblank, hrest]
  rfl

theorem takes_string (s : String) : Takes (valueWith inner) (bytes (string s)) (string s) := by
  intro c rest _ h
  rw [bytes_string] at h ⊢
  rw [valueWith, h.skipBlank (by decide), h.rest]
  show stringText (c.drop 1) >>= _ = _
  rw [stringText_of_before s h.drop_one, Cursor.drop_drop, List.length_cons, Nat.add_comm]
  rfl

theorem valueWith_of_digit {b : UInt8} (hb : isDigit b = true) (h : c.Before (b :: rest)) :
    valueWith inner c = number false c := by
  obtain ⟨hblank, hne⟩ := digit_cases hb
  rw [valueWith, h.skipBlank hblank, h.rest]
  simp only
  split
  case h_10 => rw [if_pos hb]
  all_goals simp_all

theorem takes_natural {n : Nat} (hn : n < 2 ^ 64) :
    Takes (valueWith inner) (bytes (int n)) (int n) := by
  intro c rest hr h
  rw [bytes_ofNat] at h ⊢
  obtain ⟨b, r, hb, -⟩ := digitBytes_eq_cons n
  have hdigit := isDigit_of_mem_digitBytes n b (by simp [hb])
  have hcons := h
  rw [hb, List.cons_append] at hcons
  rw [valueWith_of_digit hdigit hcons, number_of_before false hn hr h]
  rfl

theorem takes_negative {n : Nat} (hn : n < 2 ^ 63) :
    Takes (valueWith inner) (bytes (int (.negSucc n))) (int (.negSucc n)) := by
  intro c rest hr h
  rw [bytes_negSucc] at h ⊢
  rw [valueWith, h.skipBlank (by decide), h.rest]
  show number true (c.drop 1) = _
  have hw : whole true (n + 1) = int (.negSucc n) := by
    rw [whole, if_pos rfl, if_neg (by omega)]
    rfl
  rw [number_of_before true (by omega) hr h.drop_one, Cursor.drop_drop, hw]
  exact Cursor.ok_drop c (by simp; omega) _

end

theorem takes_array {inner : Reader Json} {xs : List Json}
    (hx : ∀ x ∈ xs, Opens x.bytes ∧ Takes inner x.bytes x) :
    Takes (valueWith (some inner)) (bytes (array xs)) (array xs) := by
  intro c rest _ h
  rw [bytes_array] at h ⊢
  simp only [List.cons_append, List.append_assoc] at h
  rw [valueWith, h.skipBlank (by decide), h.rest]
  show itemLoop inner true [] (c.drop 1) >>= _ = _
  rw [itemLoop_list id xs hx h.drop_one, List.map_id]
  simp only [bind, Except.bind, Cursor.drop_drop]
  exact Cursor.ok_drop c (by simp; omega) _

/-- The members of a value are gathered by putting each under its key. -/
theorem gathers_put {inner : Reader Json} {ms : List (String × Json)}
    (hm : ∀ m ∈ ms, Takes inner m.2.bytes m.2) (found : List (String × Json)) :
    Gathers (valueWith.member inner) found ms (ms.foldl (fun f m => Keyed.put m.1 m.2 f) found) := by
  induction ms generalizing found with
  | nil => exact .nil found
  | cons m ms ih =>
    obtain ⟨k, v⟩ := m
    refine .cons (fun c rest hr h => ?_) (ih (fun m hm' => hm m (by simp [hm'])) _)
    rw [valueWith.member, colon_of_before h]
    simp only [bind, Except.bind]
    rw [hm (k, v) (by simp) _ rest hr h.drop_one, Cursor.drop_drop, List.length_cons, Nat.add_comm]
    rfl

theorem takes_object {inner : Reader Json} {ms : List (String × Json)}
    (hk : (Keyed.keys ms).Nodup) (hm : ∀ m ∈ ms, Takes inner m.2.bytes m.2) :
    Takes (valueWith (some inner)) (bytes (object ms)) (object ms) := by
  intro c rest _ h
  rw [bytes_object] at h ⊢
  simp only [List.cons_append, List.append_assoc] at h
  rw [valueWith, h.skipBlank (by decide), h.rest]
  show memberLoop (valueWith.member inner) true [] (c.drop 1) >>= _ = _
  have hg := gathers_put hm []
  rw [Keyed.foldl_put_eq_append (by simpa using hk), List.nil_append] at hg
  rw [memberLoop_object hg h.drop_one]
  simp only [bind, Except.bind, Cursor.drop_drop]
  exact Cursor.ok_drop c (by simp; omega) _

/-- A value is read back from its bytes wherever they close. -/
theorem value_bytes {depth : Nat} (h : Fits depth v) : Takes (value depth) v.bytes v := by
  have read_eq : ∀ d, ∃ inner, value d = valueWith inner := by
    rintro (_ | d)
    · exact ⟨none, rfl⟩
    · exact ⟨some (value d), rfl⟩
  induction h with
  | @null d =>
    obtain ⟨inner, hi⟩ := read_eq d
    rw [hi]; exact takes_null
  | @bool d b =>
    obtain ⟨inner, hi⟩ := read_eq d
    rw [hi]
    cases b with
    | true => exact takes_true
    | false => exact takes_false
  | @int d n low high =>
    obtain ⟨inner, hi⟩ := read_eq d
    rw [hi]
    cases n with
    | ofNat n => exact takes_natural (by simp at high; omega)
    | negSucc n => exact takes_negative (by simp at low; omega)
  | @string d s =>
    obtain ⟨inner, hi⟩ := read_eq d
    rw [hi]; exact takes_string s
  | array items ih => exact takes_array fun x hx => ⟨(items x hx).opens, ih x hx⟩
  | object keys values ih => exact takes_object keys ih

theorem parseWith_of_takes {read : Reader α} {s : List UInt8} (h : Takes read s a) :
    parseWith read s = .ok a := by
  have hc := Cursor.before_start s
  rw [← List.append_nil s] at hc
  have hend := hc.drop.skipBlank_nil
  rw [List.append_nil] at hc
  rw [parseWith, h _ [] closed_nil (by rwa [List.append_nil])]
  simp only [bind, Except.bind]
  rw [List.append_nil] at hend
  have hrest : ((Cursor.start s).drop s.length).rest = [] := by simp [Cursor.start, Cursor.drop]
  rw [hend, hrest]
  rfl

theorem parse_text (h : Fits maxDepth v) : parse (Utf8.ofString v.text) = .ok v := by
  rw [ofString_text, parse]
  exact parseWith_of_takes (value_bytes h)

end QueryTree.Json
