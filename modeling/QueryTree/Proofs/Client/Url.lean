import Mathlib.Data.List.TakeWhile
import QueryTree.Client.Url
import QueryTree.Proofs.Http.Form

/-!
# Plain paths

A path is plain if it can be written into an address as it is: it begins with a slash, its characters
are visible ASCII characters without a meaning of their own, and none of its segments is made of dots.
The path of an address is always plain (`plain_path`), so of the paths behind an origin the plain ones
are those that a server is asked for unchanged (`path_target?_eq_iff`).
-/

namespace QueryTree.Url

/-- The characters below 128 that stand for themselves in a path. -/
def isPlainChar (c : Char) : Bool :=
  32 < c.toNat && c.toNat < 127 &&
    !(['"', '#', '<', '>', '?', '\\', '\x60', '\x7b', '\x7d'].contains c)

structure Plain (path : List Char) : Prop where
  rooted : path.head? = some '/'
  chars : ∀ c ∈ path, isPlainChar c = true
  /-- No segment leads nowhere or upwards. -/
  noDots : ∀ s ∈ Text.splitBy (· == '/') path, isDot s = false ∧ isDoubleDot s = false

instance (path : List Char) : Decidable (Plain path) :=
  decidable_of_iff (path.head? = some '/' ∧ path.all isPlainChar = true ∧
      (Text.splitBy (· == '/') path).all (fun s => !isDot s && !isDoubleDot s) = true) <| by
    simp only [List.all_eq_true, Bool.and_eq_true, Bool.not_eq_true']
    exact ⟨fun ⟨rooted, chars, noDots⟩ => ⟨rooted, chars, noDots⟩,
      fun h => ⟨h.rooted, h.chars, h.noDots⟩⟩

variable {s p : List Char} {c : Char} {done segments : List (List Char)}

/-! ### Escaping -/

theorem escapedInPath_of_plain : ∀ n, n < 128 → isPlainChar (Char.ofNat n) = true →
    escapedInPath (UInt8.ofNat n) = false := by
  decide

theorem plain_of_unescaped : ∀ n, n < 128 → escapedInPath (UInt8.ofNat n) = false → n ≠ 92 →
    isPlainChar (Char.ofNat n) = true := by
  decide

theorem plain_hexDigit : ∀ n, n < 16 →
    isPlainChar (Form.hexDigit n) = true ∧ Form.hexDigit n ≠ '/' := by
  decide

theorem toNat_lt_of_plain (h : isPlainChar c = true) : c.toNat < 127 := by
  simp only [isPlainChar, Bool.and_eq_true, decide_eq_true_eq] at h
  exact h.1.2

theorem cases_of_plain (h : isPlainChar c = true) :
    32 < c.toNat ∧ (c != '#') = true ∧ (c != '?') = true := by
  refine ⟨?_, ?_, ?_⟩
  · simp only [isPlainChar, Bool.and_eq_true, decide_eq_true_eq] at h
    exact h.1.1
  · rw [bne_iff_ne]
    rintro rfl
    exact absurd h (by decide)
  · rw [bne_iff_ne]
    rintro rfl
    exact absurd h (by decide)

theorem escape_of_plain (h : ∀ c ∈ s, isPlainChar c = true) : escape escapedInPath s = s := by
  induction s with
  | nil => rfl
  | cons c s ih =>
    have hc := h c List.mem_cons_self
    have hlt := toNat_lt_of_plain hc
    have hkept : escapedInPath (UInt8.ofNat c.toNat) = false :=
      escapedInPath_of_plain _ (by omega) (by rwa [Char.ofNat_toNat])
    have hs := ih fun d hd => h d (List.mem_cons_of_mem c hd)
    rw [escape] at hs
    rw [escape, Utf8.encode_cons, Utf8.encodeChar_of_lt (by omega), List.flatMap_append, hs]
    simp only [List.flatMap_cons, List.flatMap_nil, hkept, Bool.false_eq_true, if_false,
      UInt8.toNat_ofNat_of_lt' (show c.toNat < 256 by omega), Char.ofNat_toNat]
    rfl

theorem mem_percent {b : UInt8} (h : c ∈ Form.percent b) : isPlainChar c = true ∧ c ≠ '/' := by
  have hlt : b.toNat < 256 := b.toNat_lt
  rw [Form.percent] at h
  simp only [List.mem_cons, List.not_mem_nil, or_false] at h
  rcases h with rfl | rfl | rfl
  · decide
  · exact plain_hexDigit _ (by omega)
  · exact plain_hexDigit _ (by omega)

/-- Escaping a segment leaves plain characters only. -/
theorem mem_escape (hs : ∀ d ∈ s, d ≠ '/' ∧ d ≠ '\\') (h : c ∈ escape escapedInPath s) :
    isPlainChar c = true ∧ c ≠ '/' := by
  obtain ⟨b, hb, hc⟩ := List.mem_flatMap.1 h
  obtain ⟨d, hd, hb⟩ := List.mem_flatMap.1 hb
  cases hesc : escapedInPath b with
  | true =>
    rw [hesc, if_pos rfl] at hc
    exact mem_percent hc
  | false =>
    rw [hesc, if_neg Bool.false_ne_true, List.mem_singleton] at hc
    subst hc
    -- a byte that is kept is below 127, so it is all of the character `d` and not a part of it
    have hlow : b.toNat ≤ 126 := by
      simp only [escapedInPath, isControl, Bool.or_eq_false_iff, decide_eq_false_iff_not] at hesc
      exact UInt8.le_iff_toNat_le.1 (UInt8.not_lt.1 hesc.1.2)
    have hbd : b.toNat = d.toNat := by
      rcases Utf8.toNat_of_mem_encodeChar hb with heq | hhigh
      · exact heq
      · omega
    have hchar : Char.ofNat b.toNat = d := by rw [hbd, Char.ofNat_toNat]
    rw [hchar]
    refine ⟨?_, (hs d hd).1⟩
    rw [← hchar]
    refine plain_of_unescaped _ (by omega) (by rwa [UInt8.ofNat_toNat]) fun hback => ?_
    exact (hs d hd).2 (by rw [← hchar, hback])

/-! ### Segments -/

/-- A segment of the resolved path is one from before, an empty one or one without dots. -/
theorem mem_resolve (h : s ∈ resolve done segments) :
    s ∈ done ∨ s = [] ∨ (s ∈ segments ∧ isDot s = false ∧ isDoubleDot s = false) := by
  induction segments generalizing done with
  | nil =>
    rw [resolve, List.mem_reverse] at h
    exact .inl h
  | cons t rest ih =>
    have hends : s ∈ (if rest.isEmpty then [[]] else [] : List (List Char)) → s = [] := by
      intro h
      split at h
      · exact List.mem_singleton.1 h
      · cases h
    -- the segments before `rest` are those before `t`, an empty one at the end, and perhaps `t`
    have hrest : ∀ {before}, s ∈ resolve before rest →
        (s ∈ before → s ∈ done ∨ s = [] ∨ (s = t ∧ isDot t = false ∧ isDoubleDot t = false)) →
        s ∈ done ∨ s = [] ∨ (s ∈ t :: rest ∧ isDot s = false ∧ isDoubleDot s = false) := by
      intro before h hbefore
      rcases ih h with h | hnil | ⟨h, hdots⟩
      · rcases hbefore h with hdone | hnil | ⟨rfl, hdots⟩
        · exact .inl hdone
        · exact .inr (.inl hnil)
        · exact .inr (.inr ⟨List.mem_cons_self, hdots⟩)
      · exact .inr (.inl hnil)
      · exact .inr (.inr ⟨List.mem_cons_of_mem t h, hdots⟩)
    rw [resolve] at h
    split at h
    · refine hrest h fun h => ?_
      rcases List.mem_append.1 h with h | h
      · exact .inr (.inl (hends h))
      · exact .inl (List.mem_of_mem_drop h)
    next hup =>
      split at h
      · refine hrest h fun h => ?_
        rcases List.mem_append.1 h with h | h
        · exact .inr (.inl (hends h))
        · exact .inl h
      next hdot =>
        refine hrest h fun h => ?_
        rcases List.mem_cons.1 h with rfl | h
        · exact .inr (.inr ⟨rfl, Bool.not_eq_true _ ▸ hdot, Bool.not_eq_true _ ▸ hup⟩)
        · exact .inl h

/-- Segments without dots stay as they are. -/
theorem resolve_of_noDots (h : ∀ s ∈ segments, isDot s = false ∧ isDoubleDot s = false) :
    resolve done segments = done.reverse ++ segments := by
  induction segments generalizing done with
  | nil => rw [resolve, List.append_nil]
  | cons s rest ih =>
    obtain ⟨hdot, hup⟩ := h s List.mem_cons_self
    rw [resolve, if_neg (by simp [hup]), if_neg (by simp [hdot]),
      ih fun t ht => h t (List.mem_cons_of_mem s ht), List.reverse_cons, List.append_assoc]
    rfl

theorem noDots_nil : isDot [] = false ∧ isDoubleDot [] = false := by decide

theorem plain_joined (hchars : ∀ s ∈ segments, ∀ c ∈ s, isPlainChar c = true ∧ c ≠ '/')
    (hdots : ∀ s ∈ segments, isDot s = false ∧ isDoubleDot s = false) :
    Plain ('/' :: Text.joinWith ['/'] segments) where
  rooted := rfl
  chars c hc := by
    rcases List.mem_cons.1 hc with rfl | hc
    · decide
    · rcases Text.mem_joinWith hc with hsep | ⟨s, hs, hc⟩
      · obtain rfl := List.mem_singleton.1 hsep
        decide
      · exact (hchars s hs c hc).1
  noDots s hs := by
    rw [Text.splitBy, if_pos (by decide)] at hs
    rcases List.mem_cons.1 hs with rfl | hs
    · exact noDots_nil
    · by_cases hne : segments = []
      · rw [hne, Text.joinWith, Text.splitBy, List.mem_singleton] at hs
        rw [hs]
        exact noDots_nil
      · have hsep : ∀ t ∈ segments, ∀ c ∈ t, (c == '/') = false := fun t ht c hc =>
          beq_false_of_ne (hchars t ht c hc).2
        rw [Text.splitBy_joinWith hne hsep (by decide)] at hs
        exact hdots s hs

/-- The path of an address is plain, whatever is written behind the authority. -/
theorem plain_path (s : List Char) : Plain (path s) := by
  rw [path.eq_def]
  refine plain_joined (fun t ht c hc => ?_) fun t ht => ?_
  · rcases mem_resolve ht with hdone | rfl | ⟨hseg, -⟩
    · cases hdone
    · cases hc
    · obtain ⟨raw, hraw, rfl⟩ := List.mem_map.1 hseg
      refine mem_escape (fun d hd => ?_) hc
      have hd := (Text.mem_of_mem_splitBy hraw hd).2
      simp only [Bool.or_eq_false_iff, beq_eq_false_iff_ne] at hd
      exact hd
  · rcases mem_resolve ht with hdone | rfl | ⟨-, hdots⟩
    · cases hdone
    · exact noDots_nil
    · exact hdots

/-- A plain path stands for itself. -/
theorem path_of_plain (h : Plain p) : path p = p := by
  cases p with
  | nil => cases h.rooted
  | cons c r =>
    obtain rfl : c = '/' := Option.some.inj h.rooted
    have hchars : ∀ d ∈ r, isPlainChar d = true := fun d hd => h.chars d (List.mem_cons_of_mem _ hd)
    have hsplit : Text.splitBy (fun c => c == '/' || c == '\\') r = Text.splitBy (· == '/') r := by
      refine Text.splitBy_congr fun d hd => ?_
      have hne : d ≠ '\\' := by
        rintro rfl
        exact absurd (hchars _ hd) (by decide)
      simp [hne]
    have hplain : (Text.splitBy (· == '/') r).map (escape escapedInPath) =
        Text.splitBy (· == '/') r := by
      refine List.map_congr_left (g := id) (fun s hs => ?_) |>.trans (List.map_id _)
      exact escape_of_plain fun d hd => hchars d (Text.mem_of_mem_splitBy hs hd).1
    have hdots : ∀ s ∈ Text.splitBy (· == '/') r, isDot s = false ∧ isDoubleDot s = false := by
      intro s hs
      refine h.noDots s ?_
      rw [Text.splitBy, if_pos (by decide)]
      exact List.mem_cons_of_mem _ hs
    rw [path]
    simp only [beq_self_eq_true, Bool.true_or, if_true]
    rw [hsplit, hplain, resolve_of_noDots hdots, List.reverse_nil, List.nil_append,
      Text.joinWith_splitBy]

/-! ### Addresses -/

/-- The start of an address: a scheme and an authority. -/
def IsOrigin (origin : List Char) : Prop :=
  ∃ scheme ∈ schemes, ∃ mark host, origin = mark ++ host ∧ mark.map Char.toLower = scheme.toList ∧
    host ≠ [] ∧ ∀ c ∈ host, 32 < c.toNat ∧ c ∉ ['/', '\\', '?', '#']

/-- A text without the blanks at its end and the tabs and line ends in it. -/
def cleanEnd (s : List Char) : List Char :=
  ((s.reverse.dropWhile fun c => c.toNat ≤ 32).reverse).filter fun c =>
    c != '\t' && c != '\n' && c != '\r'

theorem dropWhile_of_visible (h : ∀ c ∈ s, 32 < c.toNat) :
    s.dropWhile (fun c => decide (c.toNat ≤ 32)) = s := by
  cases s with
  | nil => rfl
  | cons c s => exact List.dropWhile_cons_of_neg (by simpa using h c List.mem_cons_self)

theorem filter_of_visible (h : ∀ c ∈ s, 32 < c.toNat) :
    s.filter (fun c => c != '\t' && c != '\n' && c != '\r') = s := by
  refine List.filter_eq_self.2 fun c hc => ?_
  have hc := h c hc
  simp only [Bool.and_eq_true, bne_iff_ne]
  refine ⟨⟨?_, ?_⟩, ?_⟩ <;> rintro rfl <;> exact absurd hc (by decide)

theorem cleanEnd_append (h : ∀ c ∈ s, 32 < c.toNat) (p : List Char) :
    cleanEnd (s ++ p) = s ++ cleanEnd p := by
  have hrev : ∀ c ∈ s.reverse, 32 < c.toNat := fun c hc => h c (List.mem_reverse.1 hc)
  have hdrop : (s ++ p).reverse.dropWhile (fun c => decide (c.toNat ≤ 32)) =
      p.reverse.dropWhile (fun c => decide (c.toNat ≤ 32)) ++ s.reverse := by
    rw [List.reverse_append, List.dropWhile_append]
    split
    · next hempty => rw [List.isEmpty_iff.1 hempty, dropWhile_of_visible hrev, List.nil_append]
    · rfl
  rw [cleanEnd, hdrop, List.reverse_append, List.reverse_reverse, List.filter_append,
    filter_of_visible h]
  rfl

theorem cleanEnd_of_visible (h : ∀ c ∈ s, 32 < c.toNat) : cleanEnd s = s := by
  have hs := cleanEnd_append h []
  rwa [List.append_nil, show cleanEnd [] = [] from rfl, List.append_nil] at hs

theorem clean_append (h : ∀ c ∈ s, 32 < c.toNat) (hne : s ≠ []) (p : List Char) :
    clean (s ++ p) = s ++ cleanEnd p := by
  have hdrop : (s ++ p).dropWhile (fun c => decide (c.toNat ≤ 32)) = s ++ p := by
    cases s with
    | nil => exact absurd rfl hne
    | cons c s => exact List.dropWhile_cons_of_neg (by simpa using h c List.mem_cons_self)
  rw [← cleanEnd_append h, cleanEnd, clean, hdrop]

theorem find?_scheme {scheme : String} (h : scheme ∈ schemes) (rest : List Char) :
    (schemes.find? fun x => (scheme.toList ++ rest).take x.length == x.toList) = some scheme := by
  simp only [schemes, List.mem_cons, List.not_mem_nil, or_false] at h
  rcases h with rfl | rfl <;> rfl

theorem toLower_of_le (h : c.toNat ≤ 32) : c.toLower = c := by
  refine dif_neg ?_
  rintro ⟨hupper, -⟩
  have hupper : 65 ≤ c.toNat := UInt32.le_iff_toNat_le.1 hupper
  omega

theorem visible_of_scheme {scheme : String} (h : scheme ∈ schemes) {mark : List Char}
    (hmark : mark.map Char.toLower = scheme.toList) : ∀ c ∈ mark, 32 < c.toNat := by
  have hscheme : (schemes.all fun scheme => scheme.toList.all fun c => 32 < c.toNat) = true := by
    decide
  intro c hc
  have hlower := of_decide_eq_true (List.all_eq_true.1 (List.all_eq_true.1 hscheme scheme h) c.toLower
    (hmark ▸ List.mem_map_of_mem hc))
  by_cases hupper : c.toNat ≤ 32
  · rwa [toLower_of_le hupper] at hlower
  · omega

/-- What an address with a rooted path asks for. -/
theorem target?_append {origin path : String} (ho : IsOrigin origin.toList) {r : List Char}
    (hp : path.toList = '/' :: r) :
    target? (origin ++ path) =
      some ⟨String.ofList (Url.path ((('/' :: cleanEnd r).takeWhile (· != '#')).takeWhile (· != '?'))),
        String.ofList (escape escapedInQuery
          (((('/' :: cleanEnd r).takeWhile (· != '#')).dropWhile (· != '?')).drop 1))⟩ := by
  obtain ⟨scheme, hscheme, mark, host, horigin, hmark, hne, hhost⟩ := ho
  have hclean : clean (origin ++ path).toList = mark ++ (host ++ '/' :: cleanEnd r) := by
    have hvisible : ∀ c ∈ mark ++ (host ++ ['/']), 32 < c.toNat := by
      intro c hc
      rcases List.mem_append.1 hc with hc | hc
      · exact visible_of_scheme hscheme hmark c hc
      rcases List.mem_append.1 hc with hc | hc
      · exact (hhost c hc).1
      · rw [List.mem_singleton.1 hc]
        decide
    have h := clean_append hvisible (by simp) r
    simpa [String.toList_append, horigin, hp] using h
  have hlength : mark.length = scheme.length := by
    rw [← String.length_toList, ← hmark, List.length_map]
  have hfind : (schemes.find? fun x =>
      ((mark ++ (host ++ '/' :: cleanEnd r)).map Char.toLower).take x.length == x.toList) =
        some scheme := by
    rw [List.map_append, hmark]
    exact find?_scheme hscheme _
  have hdrop : (mark ++ (host ++ '/' :: cleanEnd r)).drop scheme.length =
      host ++ '/' :: cleanEnd r := by
    rw [← hlength, List.drop_left]
  have hinside : ∀ c ∈ host, (!(c == '/' || c == '\\' || c == '?' || c == '#')) = true := by
    intro c hc
    have hc := (hhost c hc).2
    simp only [List.mem_cons, List.not_mem_nil, or_false, not_or] at hc
    simp [hc]
  have htake : (host ++ '/' :: cleanEnd r).takeWhile
      (fun c => !(c == '/' || c == '\\' || c == '?' || c == '#')) = host := by
    rw [List.takeWhile_append_of_pos hinside]
    simp
  have hrest : (host ++ '/' :: cleanEnd r).dropWhile
      (fun c => !(c == '/' || c == '\\' || c == '?' || c == '#')) = '/' :: cleanEnd r := by
    rw [List.dropWhile_append_of_pos hinside]
    simp
  rw [target?, hclean]
  simp only [hfind, hdrop, htake, hrest, Option.bind_eq_bind, Option.bind_some]
  rw [if_neg (by simpa using hne)]
  rfl

/-- Behind an origin, a server is asked for a rooted path as it is just if the path is plain. -/
theorem path_target?_eq_iff {origin path : String} (ho : IsOrigin origin.toList)
    (hp : path.toList.head? = some '/') :
    ∃ target, target? (origin ++ path) = some target ∧
      (target.path = path ↔ Plain path.toList) ∧ (Plain path.toList → target = ⟨path, ""⟩) := by
  obtain ⟨r, hr⟩ : ∃ r, path.toList = '/' :: r := by
    cases h : path.toList with
    | nil => rw [h] at hp; cases hp
    | cons c r =>
      rw [h] at hp
      exact ⟨r, by rw [Option.some.inj hp]⟩
  have htarget := target?_append ho hr
  have hsame : Plain path.toList → target? (origin ++ path) = some ⟨path, ""⟩ := by
    intro h
    have hvisible : cleanEnd r = r := cleanEnd_of_visible fun c hc =>
      (cases_of_plain (h.chars c (hr ▸ List.mem_cons_of_mem _ hc))).1
    have hhash : ('/' :: r).takeWhile (· != '#') = '/' :: r := List.takeWhile_eq_self_iff.2
      fun c hc => (cases_of_plain (h.chars c (hr ▸ hc))).2.1
    have hmark : ('/' :: r).takeWhile (· != '?') = '/' :: r := List.takeWhile_eq_self_iff.2
      fun c hc => (cases_of_plain (h.chars c (hr ▸ hc))).2.2
    have hquery : ('/' :: r).dropWhile (· != '?') = [] := List.dropWhile_eq_nil_iff.2
      fun c hc => (cases_of_plain (h.chars c (hr ▸ hc))).2.2
    rw [htarget, hvisible, hhash, hmark, hquery, ← hr, path_of_plain h, String.ofList_toList]
    rfl
  refine ⟨_, htarget, ⟨fun heq => ?_, fun h => ?_⟩, fun h => ?_⟩
  · rw [← heq, String.toList_ofList]
    exact plain_path _
  · rw [Option.some.inj (htarget.symm.trans (hsame h))]
  · exact Option.some.inj (htarget.symm.trans (hsame h))

end QueryTree.Url
