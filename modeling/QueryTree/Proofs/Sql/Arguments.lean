import QueryTree.Proofs.Sql.Pieces
import QueryTree.Proofs.Sql.Slots

/-!
# The slots of a list of values

A template that leaves the list of values to its parameters gets a mark for each bound parameter. If the
marks come in live text, and what stands around them has no marks and no digit behind the last of them,
the statement has a slot for each bound parameter (`count_values`), and the values fill the slots.
-/

namespace QueryTree

namespace Sql

namespace Slot

variable {inside : Inside} {bytes : List UInt8} {s : List Char} {n : Nat}

/-- The region in which the scan ends. -/
def endsIn (inside : Inside) : List UInt8 → Inside
  | [] => inside
  | b :: r => endsIn (step inside b r).1 (step inside b r).2
termination_by bytes => bytes.length
decreasing_by exact Nat.lt_succ_of_le (step_suffix inside b r).length_le

theorem scan_of_not_mem (h : 63 ∉ bytes) (inside : Inside) (n : Nat) : scan inside n bytes = n := by
  fun_induction endsIn inside bytes generalizing n with
  | case1 => rw [scan]
  | case2 inside b r ih =>
    obtain ⟨hb, hr⟩ := List.ne_and_not_mem_of_not_mem_cons h
    rw [scan_cons, if_neg fun hmark => hb hmark.2.symm]
    exact ih (fun hmem => hr ((step_suffix inside b r).subset hmem)) n

/-! ### Texts in front of a mark -/

theorem digits_append_mark (r x : List UInt8) :
    (r ++ 63 :: x).takeWhile isDigit = r.takeWhile isDigit ∧
      (r ++ 63 :: x).dropWhile isDigit = r.dropWhile isDigit ++ 63 :: x := by
  induction r with
  | nil => exact ⟨rfl, rfl⟩
  | cons b r ih =>
    rw [List.cons_append, List.takeWhile_cons, List.dropWhile_cons, List.takeWhile_cons,
      List.dropWhile_cons, ih.1, ih.2]
    exact ⟨rfl, by split <;> rfl⟩

/-- A mark closes no region, and takes part in nothing that is in front of it. -/
theorem step_append_mark (h : inside ≠ .quoted 63) (b : UInt8) (r x : List UInt8) :
    step inside b (r ++ 63 :: x) = ((step inside b r).1, (step inside b r).2 ++ 63 :: x) := by
  have hhead : ∀ d : UInt8, d ≠ 63 → ((r ++ 63 :: x).head? = some d ↔ r.head? = some d) := by
    intro d hd
    cases r with
    | nil => exact ⟨fun h => absurd (Option.some.inj h).symm hd, nofun⟩
    | cons => exact Iff.rfl
  have htail : ∀ d : UInt8, r.head? = some d → (r ++ 63 :: x).tail = r.tail ++ 63 :: x := by
    intro d hd
    obtain ⟨r', rfl⟩ := List.head?_eq_some_iff.1 hd
    rfl
  cases inside with
  | quoted q =>
    have hq : q ≠ 63 := fun heq => h (congrArg Inside.quoted heq)
    rw [step, step]
    simp only [hhead q hq]
    by_cases hb : b = q
    · by_cases hr : r.head? = some q
      · simp [hb, hr, htail q hr]
      · simp [hb, hr]
    · simp [hb]
  | bracket | line => rfl
  | block =>
    rw [step, step]
    simp only [hhead 47 (by decide)]
    by_cases hends : b = 42 ∧ r.head? = some 47
    · simp [hends, htail 47 hends.2]
    · simp [hends]
  | live =>
    rw [step, step]
    simp only [hhead 45 (by decide), hhead 42 (by decide), (digits_append_mark r x).2]
    by_cases hline : b = 45 ∧ r.head? = some 45
    · simp [hline, htail 45 hline.2]
    by_cases hblock : b = 47 ∧ r.head? = some 42
    · simp [hblock, htail 42 hblock.2]
    by_cases hmark : b = 63
    · simp [hmark]
    by_cases hquote : isQuote b <;> simp [hline, hblock, hmark, hquote]

theorem step_ne_quoted (h : inside ≠ .quoted 63) (b : UInt8) (r : List UInt8) :
    (step inside b r).1 ≠ .quoted 63 := by
  have hmark : isQuote 63 = false := rfl
  unfold step
  grind

/-- What comes before a mark is scanned as it would be alone. -/
theorem scan_append_mark (h : inside ≠ .quoted 63) (n : Nat) (bytes x : List UInt8) :
    scan inside n (bytes ++ 63 :: x) =
      scan (endsIn inside bytes) (scan inside n bytes) (63 :: x) := by
  fun_induction endsIn inside bytes generalizing n with
  | case1 => rw [List.nil_append, scan]
  | case2 inside b r ih =>
    rw [List.cons_append, scan_cons, step_append_mark h, (digits_append_mark r x).1, scan_cons _ _ _ r]
    exact ih (step_ne_quoted h b r) _

/-! ### Marks in a row -/

/-- Marks with commas between them. -/
def markList (k : Nat) : List Char := Text.joinWith [',', ' '] (List.replicate k ['?'])

theorem scan_mark (n : Nat) (h : ∀ b ∈ bytes.head?, isDigit b = false) :
    scan .live n (63 :: bytes) = scan .live (n + 1) bytes := by
  have hdigits : bytes.takeWhile isDigit = [] ∧ bytes.dropWhile isDigit = bytes :=
    takeWhile_dropWhile_of_head fun b hb => by simp [h b hb]
  rw [scan_cons, if_pos ⟨rfl, rfl⟩, hdigits.1]
  show scan .live (n + 1) (bytes.dropWhile isDigit) = _
  rw [hdigits.2]

theorem head?_encode_isDigit (h : ∀ c ∈ s.head?, c.isDigit = false) :
    ∀ b ∈ (Utf8.encode s).head?, isDigit b = false := by
  intro b hb
  cases s with
  | nil => cases hb
  | cons c s =>
    by_cases hc : c.toNat < 128
    · rw [encode_cons_of_lt hc] at hb
      cases hb
      rw [isDigit_byte hc, h c rfl]
    · obtain ⟨b', bs, heq, hlarge⟩ := encode_cons_of_le (Nat.le_of_not_lt hc) s
      rw [heq, List.head?_cons, Option.mem_some_iff] at hb
      exact not_isDigit_of_le (hlarge b (hb ▸ List.mem_cons_self))

theorem scan_separator (n : Nat) (bytes : List UInt8) :
    scan .live n (44 :: 32 :: bytes) = scan .live n bytes :=
  (scan_cons .live n 44 (32 :: bytes)).trans (scan_cons .live n 32 bytes)

/-- Marks with commas between them are a slot each. -/
theorem scan_markList (h : ∀ c ∈ s.head?, c.isDigit = false) (k n : Nat) :
    scan .live n (Utf8.encode (markList (k + 1) ++ s)) =
      scan .live (n + (k + 1)) (Utf8.encode s) := by
  induction k generalizing n with
  | zero =>
    show scan .live n (Utf8.encode ('?' :: s)) = _
    rw [encode_cons_of_lt (by decide)]
    exact scan_mark n (head?_encode_isDigit h)
  | succ k ih =>
    generalize hmarks : markList (k + 1) ++ s = marks at ih
    have hjoin : markList (k + 1 + 1) ++ s =
        '?' :: ',' :: ' ' :: marks := by
      rw [← hmarks]
      rfl
    have hcomma : ∀ c ∈ (',' :: ' ' :: marks).head?, c.isDigit = false := by
      rintro c ⟨⟩
      rfl
    calc scan .live n (Utf8.encode (markList (k + 1 + 1) ++ s))
        = scan .live n (63 :: Utf8.encode (',' :: ' ' :: marks)) := by
          rw [hjoin, encode_cons_of_lt (by decide)]
          rfl
      _ = scan .live (n + 1) (Utf8.encode (',' :: ' ' :: marks)) :=
          scan_mark n (head?_encode_isDigit hcomma)
      _ = scan .live (n + 1) (Utf8.encode marks) := by
          rw [encode_cons_of_lt (by decide), encode_cons_of_lt (by decide)]
          exact scan_separator (n + 1) (Utf8.encode marks)
      _ = scan .live (n + (k + 1 + 1)) (Utf8.encode s) := by
          rw [ih]
          congr 1
          omega

theorem encode_markList (k : Nat) (s : List Char) :
    ∃ bytes, Utf8.encode (markList (k + 1) ++ s) =
      63 :: bytes := by
  have hmark : ∃ r, markList (k + 1) = '?' :: r := by
    cases k <;> exact ⟨_, rfl⟩
  obtain ⟨r, hr⟩ := hmark
  rw [hr, List.cons_append, encode_cons_of_lt (by decide)]
  exact ⟨_, rfl⟩

theorem not_mem_encode (h : '?' ∉ s) : 63 ∉ Utf8.encode s := by
  intro hmem
  obtain ⟨c, hc, hb⟩ := List.mem_flatMap.1 hmem
  rcases Utf8.toNat_of_mem_encodeChar hb with heq | hle
  · have hmark : c = '?' := Char.toNat_inj.1 (heq.symm.trans rfl)
    exact h (hmark ▸ hc)
  · exact absurd hle (by decide)

end Slot

/-! ### Templates with a list of values -/

variable {table : Option String} {params : ParamSet} {front behind : String}

/-- The token for a list of values. -/
def valuesMark : String := "\x7b\x7bvalues\x7d\x7d"

/-- What a template holds in front of and behind the list of values, and the parameters, let the marks
that stand for the list be all slots of the statement. -/
structure ListsValues (table : Option String) (params : ParamSet) (front behind : String) : Prop where
  opens : front.toList.getLast? ≠ some '\x7b'
  free : params.text? "values" = none
  front_unmarked : '?' ∉ (render front table params).toList
  behind_unmarked : '?' ∉ (render behind table params).toList
  live : Slot.endsIn .live (Utf8.ofString (render front table params)) = .live
  apart : ∀ c ∈ (render behind table params).toList.head?, c.isDigit = false

theorem pieces_valuesMark (hasTable : Bool) (s : List Char) :
    pieces hasTable (valuesMark.toList ++ s) = .token .values :: pieces hasTable s :=
  pieces_of_token (tokenAt?_eq_some_iff.2 ⟨Token.mem_known (by decide), rfl⟩)

theorem toList_render (template : String) (table : Option String) (params : ParamSet) :
    (render template table params).toList =
      (pieces table.isSome template.toList).flatMap (Piece.fill table params) := by
  rw [render, renderWith_eq_flatMap, String.toList_ofList]

theorem text_values (h : params.text? "values" = none) :
    Token.text table params .values =
      Slot.markList params.bound.length := by
  have hsubst : substitute table params Token.values.name =
      some (Text.joinWith [',', ' '] (params.bound.map fun _ => ['?'])) := by
    show substitute table params "values".toList = _
    rw [substitute, if_neg (by decide), if_neg (by decide), if_pos rfl, h]
  rw [Token.text, hsubst, Option.getD_some, List.map_const', Slot.markList]

/-- A template is rendered in front of the list of values and behind it apart. -/
theorem toList_render_values (h : ListsValues table params front behind) :
    (render (front ++ valuesMark ++ behind) table params).toList =
      (render front table params).toList ++
        (Slot.markList params.bound.length ++ (render behind table params).toList) := by
  have hsplit : (front ++ valuesMark ++ behind).toList =
      front.toList ++ (valuesMark.toList ++ behind.toList) := by
    rw [String.toList_append, String.toList_append, List.append_assoc]
  have hpieces : pieces table.isSome (front ++ valuesMark ++ behind).toList =
      pieces table.isSome front.toList ++ .token .values :: pieces table.isSome behind.toList := by
    rw [hsplit, ← pieces_valuesMark]
    exact pieces_append h.opens (valuesMark.toList.tail ++ behind.toList)
  rw [toList_render, hpieces, List.flatMap_append, List.flatMap_cons, ← toList_render,
    ← toList_render, Piece.fill, text_values h.free]

/-- The statement has a slot for each bound parameter. -/
theorem count_values (h : ListsValues table params front behind) :
    Slot.count (render (front ++ valuesMark ++ behind) table params) = params.bound.length := by
  have hfront := Slot.not_mem_encode h.front_unmarked
  have hbehind := Slot.not_mem_encode h.behind_unmarked
  rw [Slot.count, Utf8.ofString, toList_render_values h]
  cases hbound : params.bound.length with
  | zero =>
    refine Slot.scan_of_not_mem ?_ .live 0
    rw [Utf8.encode_append]
    exact List.not_mem_append hfront hbehind
  | succ k =>
    have hlive : Slot.endsIn .live (Utf8.encode (render front table params).toList) = .live := h.live
    obtain ⟨marks, hmarks⟩ := Slot.encode_markList k (render behind table params).toList
    rw [Utf8.encode_append, hmarks, Slot.scan_append_mark (by decide), hlive,
      Slot.scan_of_not_mem hfront, ← hmarks, Slot.scan_markList h.apart, Nat.zero_add,
      Slot.scan_of_not_mem hbehind]

end Sql

/-! ### Routes -/

/-- The arguments of a statement are bound values in their order, as many as it has slots for; where the
template lists the values, they are all of them, one for each slot. -/
theorem args_fill_slots :
    (∀ (r : Route) (params : ParamSet),
      (r.prepare params).args <+: params.positionalValues ∧
        (r.prepare params).args.length =
          min params.positionalValues.length (Sql.Slot.count (r.prepare params).sql)) ∧
    ∀ (r : Route) (params : ParamSet) (front behind : String),
      r.sql = front ++ Sql.valuesMark ++ behind →
      Sql.ListsValues r.descriptor.table params front behind →
        (r.prepare params).args = params.positionalValues ∧
          (r.prepare params).args.length = Sql.Slot.count (r.prepare params).sql := by
  have hargs : ∀ (r : Route) (params : ParamSet), (r.prepare params).args =
      params.positionalValues.take (Sql.Slot.count (r.prepare params).sql) := fun _ _ => rfl
  constructor
  · intro r params
    rw [hargs, List.length_take, Nat.min_comm]
    exact ⟨List.take_prefix _ _, rfl⟩
  · intro r params front behind hsql h
    have hcount : Sql.Slot.count (r.prepare params).sql = params.positionalValues.length := by
      rw [ParamSet.positionalValues, List.length_map, ← Sql.count_values h, ← hsql]
      rfl
    have hall : (r.prepare params).args = params.positionalValues := by
      rw [hargs, hcount, List.take_length]
    exact ⟨hall, by rw [hall, hcount]⟩

/-- Quotes and comments around the list of values, and a directive among the values. -/
theorem args_fill_slots_insert :
    let front := "/* it's */ INSERT INTO \x7b\x7btable\x7d\x7d (\x7b\x7bcolumns\x7d\x7d) VALUES ("
    let behind := ", 'it''s') -- don't"
    let r : Route := ⟨⟨.post, "/users/insert", "Tables/users/insert.sql", some "users"⟩,
      front ++ Sql.valuesMark ++ behind⟩
    let params : ParamSet :=
      [("name", .string "it's ?"), ("columns", .string "name, [e'mail]"), ("email", .null)]
    Sql.ListsValues r.descriptor.table params front behind ∧
      (r.prepare params).args = [.string "it's ?", .null] ∧
      (r.prepare params).args.length = Sql.Slot.count (r.prepare params).sql := by
  intro front behind r params
  have hhead : (Sql.render behind r.descriptor.table params).toList.head? = some ',' := by
    decide +kernel
  have h : Sql.ListsValues r.descriptor.table params front behind := by
    refine ⟨by decide +kernel, by decide +kernel, by decide +kernel, by decide +kernel,
      by decide +kernel, fun c hc => ?_⟩
    rw [hhead] at hc
    cases hc
    decide
  have hvalues : params.positionalValues = [.string "it's ?", .null] := rfl
  obtain ⟨hargs, hcount⟩ := args_fill_slots.2 r params front behind rfl h
  exact ⟨h, hargs.trans hvalues, hcount⟩

end QueryTree
