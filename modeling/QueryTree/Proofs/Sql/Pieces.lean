import QueryTree.Proofs.Sql.Binding

/-!
# The pieces of a template

`pieces` reads a template once, from left to right: a token is a piece, two opening braces that start
no token are a piece, and so is every other character. Rendering searches for the next opening and for
the next closing behind it, and yet puts in just what stands for each piece in turn
(`renderWith_eq_flatMap`). A brace that opens what comes behind does not change the pieces in front of
it, unless these end with an opening brace themselves (`pieces_append`).
-/

namespace QueryTree.Sql

/-- What a template may hold in double braces. -/
inductive Token where
  | table
  | columns
  | values
  | updates
  deriving DecidableEq, Repr

namespace Token

def name : Token → List Char
  | table => "table".toList
  | columns => "columns".toList
  | values => "values".toList
  | updates => "updates".toList

/-- The token as a template spells it. -/
def mark (t : Token) : List Char := opening ++ t.name ++ closing

/-- The tokens that are replaced: `table` only where there is one. -/
def known (hasTable : Bool) : List Token :=
  if hasTable then [table, columns, values, updates] else [columns, values, updates]

/-- What stands for a token. -/
def text (table : Option String) (params : ParamSet) (t : Token) : List Char :=
  (substitute table params t.name).getD []

end Token

/-- The token at the front of the text, and what follows it. -/
def tokenAt? (hasTable : Bool) (s : List Char) : Option (Token × List Char) :=
  (Token.known hasTable).findSome? fun t => (Text.after? t.mark s).map (t, ·)

inductive Piece where
  | text (s : List Char)
  | token (t : Token)
  deriving DecidableEq, Repr

/-- What stands for a piece. -/
def Piece.fill (table : Option String) (params : ParamSet) : Piece → List Char
  | text s => s
  | token t => t.text table params

variable {hasTable : Bool} {t t' : Token} {s r rest before after mark : List Char} {c : Char}
  {table : Option String} {params : ParamSet}

/-! ### Tokens at the front -/

theorem Token.mark_eq (t : Token) :
    t.mark = '\x7b' :: '\x7b' :: (t.name ++ closing) ∧ '\x7b' ∉ t.name ++ closing ∧
      '\x7d' ∉ t.name := by
  cases t <;> exact ⟨rfl, by decide, by decide⟩

/-- The tokens differ in the first letter of their names. -/
theorem Token.head?_name_injective : Function.Injective fun t : Token => t.name.head? := by
  intro t t'
  cases t <;> cases t' <;> decide

theorem Token.mark_unique (h : t.mark ++ r = t'.mark ++ rest) : t = t' := by
  have hletter : ∀ (t : Token) (s : List Char), (t.mark ++ s)[2]? = t.name.head? := by
    intro t s
    cases t <;> rfl
  apply Token.head?_name_injective
  dsimp only
  rw [← hletter t r, ← hletter t' rest, h]

theorem Token.mem_known (h : t ≠ .table) : t ∈ Token.known hasTable := by
  cases hasTable <;> cases t <;> simp [Token.known] at h ⊢

theorem tokenAt?_eq_some_iff :
    tokenAt? hasTable s = some (t, rest) ↔ t ∈ Token.known hasTable ∧ s = t.mark ++ rest := by
  constructor
  · intro h
    obtain ⟨t', ht', h⟩ := List.exists_of_findSome?_eq_some h
    obtain ⟨rest', hrest', heq⟩ := Option.map_eq_some_iff.1 h
    cases heq
    exact ⟨ht', Text.after?_eq_some_iff.1 hrest'⟩
  · rintro ⟨ht, rfl⟩
    have hsome : (tokenAt? hasTable (t.mark ++ rest)).isSome := by
      rw [tokenAt?, List.findSome?_isSome_iff]
      exact ⟨t, ht, by rw [Text.after?_eq_some_iff.2 rfl]; rfl⟩
    obtain ⟨⟨t', rest'⟩, h⟩ := Option.isSome_iff_exists.1 hsome
    obtain ⟨t'', -, h'⟩ := List.exists_of_findSome?_eq_some h
    obtain ⟨rest'', hrest'', heq⟩ := Option.map_eq_some_iff.1 h'
    cases heq
    have hsame := Text.after?_eq_some_iff.1 hrest''
    obtain rfl := Token.mark_unique hsame
    rw [h, List.append_cancel_left hsame]

theorem length_tokenAt?_lt (h : tokenAt? hasTable s = some (t, rest)) : rest.length < s.length := by
  obtain ⟨-, rfl⟩ := tokenAt?_eq_some_iff.1 h
  rw [(Token.mark_eq t).1, List.length_append, List.length_cons]
  omega

/-- The pieces of a template, read once from left to right. -/
def pieces (hasTable : Bool) : List Char → List Piece
  | [] => []
  | c :: r =>
    match _h : tokenAt? hasTable (c :: r) with
    | some (t, rest) => .token t :: pieces hasTable rest
    | none =>
      match _h' : Text.after? opening (c :: r) with
      | some rest => .text opening :: pieces hasTable rest
      | none => .text [c] :: pieces hasTable r
termination_by s => s.length
decreasing_by
  · exact length_tokenAt?_lt _h
  · rw [Text.after?_eq_some_iff.1 _h', List.length_append]
    exact Nat.lt_add_of_pos_left (by decide)
  · exact Nat.lt_succ_self _

theorem pieces_of_token (h : tokenAt? hasTable s = some (t, rest)) :
    pieces hasTable s = .token t :: pieces hasTable rest := by
  cases s with
  | nil => exact absurd (length_tokenAt?_lt h) (Nat.not_lt_zero _)
  | cons c r =>
    rw [pieces]
    split
    · next h' => rw [h] at h'; cases h'; rfl
    · next h' => rw [h] at h'; cases h'

theorem pieces_of_opening (h : tokenAt? hasTable s = none) (h' : Text.after? opening s = some rest) :
    pieces hasTable s = .text opening :: pieces hasTable rest := by
  cases s with
  | nil => cases h'
  | cons c r =>
    rw [pieces]
    split
    · next heq => rw [h] at heq; cases heq
    · split
      · next heq => rw [h'] at heq; cases heq; rfl
      · next heq => rw [h'] at heq; cases heq

theorem tokenAt?_of_plain (h : Text.after? opening s = none) : tokenAt? hasTable s = none := by
  cases htoken : tokenAt? hasTable s with
  | none => rfl
  | some found =>
    obtain ⟨-, rfl⟩ := tokenAt?_eq_some_iff.1 htoken
    rw [Token.mark, List.append_assoc, List.append_assoc, Text.after?_eq_some_iff.2 rfl] at h
    cases h

theorem pieces_of_plain (h : Text.after? opening (c :: r) = none) :
    pieces hasTable (c :: r) = .text [c] :: pieces hasTable r := by
  rw [pieces]
  split
  · next heq => rw [tokenAt?_of_plain h] at heq; cases heq
  · split
    · next heq => rw [h] at heq; cases heq
    · rfl

/-! ### Tokens found by searching -/

theorem breakOn_of_after? (h : Text.after? mark s = some rest) (hs : s ≠ []) :
    Text.breakOn mark s = some ([], rest) := by
  cases s with
  | nil => exact absurd rfl hs
  | cons c r => rw [Text.breakOn, h]

theorem breakOn_of_plain (h : Text.after? mark (c :: r) = none) :
    Text.breakOn mark (c :: r) =
      (Text.breakOn mark r).map fun (before, after) => (c :: before, after) := by
  rw [Text.breakOn, h]

/-- The first closing comes behind a name without closing braces. -/
theorem breakOn_closing (h : '\x7d' ∉ before) :
    Text.breakOn closing (before ++ closing ++ after) = some (before, after) := by
  induction before with
  | nil => exact breakOn_of_after? (Text.after?_eq_some_iff.2 rfl) (by simp [closing])
  | cons c before ih =>
    obtain ⟨hc, hbefore⟩ := List.ne_and_not_mem_of_not_mem_cons h
    have hplain : Text.after? closing (c :: (before ++ closing ++ after)) = none := by
      rw [closing, Text.after?, if_neg hc.symm]
    rw [List.cons_append, List.cons_append, breakOn_of_plain hplain, ih hbefore]
    rfl

/-- The names that something stands for are those of the known tokens. -/
theorem substitute_eq_some {name text : List Char} (h : substitute table params name = some text) :
    ∃ t ∈ Token.known table.isSome, name = t.name ∧ t.text table params = text := by
  have htext : ∀ t : Token, name = t.name → t.text table params = text := by
    rintro t rfl
    rw [Token.text, h, Option.getD_some]
  by_cases htable : name = "table".toList
  · rw [substitute, if_pos htable] at h
    obtain ⟨T, rfl, -⟩ := Option.map_eq_some_iff.1 h
    exact ⟨.table, List.mem_cons_self, htable, htext .table htable⟩
  by_cases hcolumns : name = "columns".toList
  · exact ⟨.columns, Token.mem_known (by decide), hcolumns, htext .columns hcolumns⟩
  by_cases hvalues : name = "values".toList
  · exact ⟨.values, Token.mem_known (by decide), hvalues, htext .values hvalues⟩
  by_cases hupdates : name = "updates".toList
  · exact ⟨.updates, Token.mem_known (by decide), hupdates, htext .updates hupdates⟩
  rw [substitute, if_neg htable, if_neg hcolumns, if_neg hvalues, if_neg hupdates] at h
  cases h

theorem substitute_name (h : t ∈ Token.known table.isSome) :
    substitute table params t.name = some (t.text table params) := by
  have hsome : (substitute table params t.name).isSome := by
    cases t with
    | table =>
      cases table with
      | none => exact absurd h (by decide)
      | some T => rfl
    | columns | values | updates => rfl
  obtain ⟨text, htext⟩ := Option.isSome_iff_exists.1 hsome
  rw [Token.text, htext, Option.getD_some]

/-- Behind an opening, the search for a closing finds a token just where one stands. -/
theorem token?_eq_some_iff {text : List Char} :
    token? (substitute table params) after = some (text, rest) ↔
      ∃ t, tokenAt? table.isSome (opening ++ after) = some (t, rest) ∧
        t.text table params = text := by
  constructor
  · intro h
    obtain ⟨⟨name, r⟩, hbreak, h⟩ := Option.bind_eq_some_iff.1 h
    obtain ⟨text', hsubst, h⟩ := Option.bind_eq_some_iff.1 h
    cases h
    obtain ⟨t, ht, rfl, htext⟩ := substitute_eq_some hsubst
    refine ⟨t, tokenAt?_eq_some_iff.2 ⟨ht, ?_⟩, htext⟩
    rw [Text.eq_append_of_breakOn hbreak, Token.mark, List.append_assoc, List.append_assoc,
      List.append_assoc]
  · rintro ⟨t, ht, rfl⟩
    obtain ⟨hknown, heq⟩ := tokenAt?_eq_some_iff.1 ht
    rw [Token.mark, List.append_assoc, List.append_assoc, ← List.append_assoc t.name] at heq
    rw [List.append_cancel_left heq, token?, breakOn_closing (Token.mark_eq t).2.2]
    dsimp only [bind, Option.bind]
    rw [substitute_name hknown]
    rfl

/-- Only known tokens are pieces. -/
theorem known_of_mem (h : .token t ∈ pieces hasTable s) : t ∈ Token.known hasTable := by
  fun_induction pieces hasTable s with
  | case1 => cases h
  | case2 c r t' rest htoken ih =>
    rcases List.mem_cons.1 h with heq | h
    · cases heq
      exact (tokenAt?_eq_some_iff.1 htoken).1
    · exact ih h
  | case3 c r _ rest _ ih => exact ih ((List.mem_cons.1 h).resolve_left nofun)
  | case4 c r _ _ ih => exact ih ((List.mem_cons.1 h).resolve_left nofun)

/-! ### Rendering -/

theorem renderWith_cons {subst : List Char → Option (List Char)}
    (h : Text.after? opening (c :: r) = none) :
    renderWith subst (c :: r) = c :: renderWith subst r := by
  have hbreak := breakOn_of_plain h
  cases hr : Text.breakOn opening r with
  | none =>
    rw [hr] at hbreak
    rw [renderWith_of_none hbreak, renderWith_of_none hr]
  | some found =>
    obtain ⟨before, after⟩ := found
    rw [hr] at hbreak
    cases htoken : token? subst after with
    | none => rw [renderWith_of_plain hbreak htoken, renderWith_of_plain hr htoken]; rfl
    | some replaced => rw [renderWith_of_token hbreak htoken, renderWith_of_token hr htoken]; rfl

/-- Searching for tokens and reading the pieces in turn render a template alike. -/
theorem renderWith_eq_flatMap (table : Option String) (params : ParamSet) (template : List Char) :
    renderWith (substitute table params) template =
      (pieces table.isSome template).flatMap (Piece.fill table params) := by
  fun_induction pieces table.isSome template with
  | case1 => rw [renderWith_of_none rfl, List.flatMap_nil]
  | case2 c r t rest htoken ih =>
    obtain ⟨-, heq⟩ := tokenAt?_eq_some_iff.1 htoken
    rw [Token.mark, List.append_assoc, List.append_assoc] at heq
    have hbreak : Text.breakOn opening (c :: r) = some ([], t.name ++ (closing ++ rest)) :=
      breakOn_of_after? (Text.after?_eq_some_iff.2 heq) (List.cons_ne_nil c r)
    rw [heq] at htoken
    rw [renderWith_of_token hbreak (token?_eq_some_iff.2 ⟨t, htoken, rfl⟩), ih, List.flatMap_cons]
    rfl
  | case3 c r htoken after hafter ih =>
    have hbreak := breakOn_of_after? hafter (List.cons_ne_nil c r)
    rw [Text.after?_eq_some_iff.1 hafter] at htoken
    have hplain : token? (substitute table params) after = none := by
      cases hfound : token? (substitute table params) after with
      | none => rfl
      | some found =>
        obtain ⟨t, ht, -⟩ := token?_eq_some_iff.1 hfound
        rw [htoken] at ht
        cases ht
    rw [renderWith_of_plain hbreak hplain, ih, List.flatMap_cons]
    rfl
  | case4 c r htoken hafter ih =>
    rw [renderWith_cons hafter, ih, List.flatMap_cons]
    rfl

/-! ### Templates that are put together -/

/-- A token in front of a brace that opens something ends before that brace. -/
theorem eq_mark_append (hs : s ≠ []) (hlast : s.getLast? ≠ some '\x7b')
    (h : s ++ '\x7b' :: r = t.mark ++ rest) : ∃ rest', s = t.mark ++ rest' := by
  rcases List.append_eq_append_iff.1 h with ⟨tail, hmark, htail⟩ | ⟨tail, hs', -⟩
  · cases tail with
    | nil => exact ⟨[], by rw [hmark, List.append_nil, List.append_nil]⟩
    | cons d tail =>
      obtain ⟨rfl, -⟩ := List.cons.inj htail
      obtain ⟨heq, hnot, -⟩ := Token.mark_eq t
      rw [heq] at hmark
      match s, hs, hlast, hmark with
      | [_], _, hlast, hmark =>
        obtain ⟨rfl, -⟩ := List.cons.inj hmark
        exact absurd rfl hlast
      | _ :: _ :: s, _, _, hmark =>
        obtain ⟨-, hmark⟩ := List.cons.inj hmark
        obtain ⟨-, hmark⟩ := List.cons.inj hmark
        exact absurd (hmark ▸ List.mem_append_right s List.mem_cons_self) hnot
  · exact ⟨tail, hs'⟩

theorem pieces_append (h : s.getLast? ≠ some '\x7b') (r : List Char) :
    pieces hasTable (s ++ '\x7b' :: r) =
      pieces hasTable s ++ pieces hasTable ('\x7b' :: r) := by
  have hrest : ∀ {front rest : List Char}, (front ++ rest).getLast? ≠ some '\x7b' →
      rest.getLast? ≠ some '\x7b' := by
    intro front rest h hlast
    rw [List.getLast?_append, hlast] at h
    exact h rfl
  fun_induction pieces hasTable s with
  | case1 => rfl
  | case2 c s t rest htoken ih =>
    obtain ⟨hknown, heq⟩ := tokenAt?_eq_some_iff.1 htoken
    rw [heq] at h
    have hmore : tokenAt? hasTable (c :: s ++ '\x7b' :: r) = some (t, rest ++ '\x7b' :: r) :=
      tokenAt?_eq_some_iff.2 ⟨hknown, by rw [heq, List.append_assoc]⟩
    rw [pieces_of_token hmore, ih (hrest h), List.cons_append]
  | case3 c s htoken after hafter ih =>
    have hmore : tokenAt? hasTable (c :: s ++ '\x7b' :: r) = none := by
      cases hfound : tokenAt? hasTable (c :: s ++ '\x7b' :: r) with
      | none => rfl
      | some found =>
        obtain ⟨hknown, heq⟩ := tokenAt?_eq_some_iff.1 hfound
        obtain ⟨rest', hs⟩ := eq_mark_append (List.cons_ne_nil c s) h heq
        rw [tokenAt?_eq_some_iff.2 ⟨hknown, hs⟩] at htoken
        cases htoken
    have heq := Text.after?_eq_some_iff.1 hafter
    rw [heq] at h
    have hafter' : Text.after? opening (c :: s ++ '\x7b' :: r) = some (after ++ '\x7b' :: r) :=
      Text.after?_eq_some_iff.2 (by rw [heq, List.append_assoc])
    rw [pieces_of_opening hmore hafter', ih (hrest h), List.cons_append]
  | case4 c s htoken hafter ih =>
    have hplain : Text.after? opening (c :: (s ++ '\x7b' :: r)) = none := by
      by_cases hc : c = '\x7b'
      · subst hc
        cases s with
        | nil => exact absurd rfl h
        | cons d s =>
          have hd : d ≠ '\x7b' := by
            rintro rfl
            exact nomatch (show some s = none from hafter)
          rw [List.cons_append, opening, Text.after?, if_pos rfl, Text.after?, if_neg hd]
      · rw [opening, Text.after?, if_neg hc]
    rw [← List.singleton_append] at h
    rw [List.cons_append, pieces_of_plain hplain, ih (hrest h), List.cons_append]

/-! ### Templates -/

/-- A template is rendered by filling its pieces in turn, each of which the parameters let stand or give
a text for. Where it begins and ends depends on the template alone, and a template that opens nothing
stays as it is. -/
theorem render_eq_pieces (template : String) (table : Option String) (params : ParamSet) :
    render template table params =
        String.ofList ((pieces table.isSome template.toList).flatMap (Piece.fill table params)) ∧
      (∀ t, .token t ∈ pieces table.isSome template.toList →
        substitute table params t.name = some (t.text table params)) ∧
      (Text.hasPart opening template.toList = false → render template table params = template) := by
  refine ⟨by rw [render, renderWith_eq_flatMap], fun t ht => substitute_name (known_of_mem ht), ?_⟩
  intro hplain
  have hbreak : Text.breakOn opening template.toList = none := by
    rwa [Text.hasPart, Option.isSome_eq_false_iff, Option.isNone_iff_eq_none] at hplain
  rw [render, renderWith_of_none hbreak, String.ofList_toList]

/-- Openings that overlap and follow one another, a token among what is put in, and a template without
tokens. -/
theorem render_eq_pieces_overlapping :
    let params : ParamSet := [("columns", .string "\x7b\x7btable\x7d\x7d")]
    let template :=
      "\x7b\x7b\x7btable\x7d\x7d \x7b\x7bcolumns\x7d\x7d \x7b\x7bx\x7b\x7btable\x7d\x7d\x7d\x7d"
    render template (some "t") params =
        "\x7b\x7b\x7btable\x7d\x7d \x7b\x7btable\x7d\x7d \x7b\x7bxt\x7d\x7d" ∧
      substitute (some "t") params Token.columns.name = some (Token.columns.text (some "t") params) ∧
      render "\x7btable\x7d\x7d" (some "t") params = "\x7btable\x7d\x7d" := by
  intro params template
  obtain ⟨hrender, hknown, -⟩ := render_eq_pieces template (some "t") params
  refine ⟨?_, hknown .columns (by decide +kernel), ?_⟩
  · rw [hrender]
    decide +kernel
  · exact (render_eq_pieces _ (some "t") params).2.2 (by decide)

end QueryTree.Sql
