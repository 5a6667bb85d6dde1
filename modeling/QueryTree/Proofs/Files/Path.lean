import QueryTree.Files.Path
import QueryTree.Proofs.Text.Split

/-!
# The order of paths

`Path.precedes` is a total order: paths are compared by their first different part, and a path comes
before those that go on from it. The extension of a name is what its last dot cuts off. Joining a name
to a path appends one part (`parts_join`), and the text made of parts has these parts (`parts_ofParts`)
and it leaves out
characters of the path only (`sublist_tidied`).
-/

namespace QueryTree.Path

variable {p q : String} {ps qs rs : List String}

theorem precedes_cons : precedes (p :: ps) (q :: qs) = true ↔ p < q ∨ p = q ∧ precedes ps qs := by
  rw [precedes]
  by_cases hpq : p = q
  · subst hpq
    simp
  · simp [hpq]

theorem precedes_refl (ps : List String) : precedes ps ps = true := by
  induction ps with
  | nil => rfl
  | cons p ps ih => exact precedes_cons.2 (.inr ⟨rfl, ih⟩)

theorem precedes_total (ps qs : List String) : precedes ps qs = true ∨ precedes qs ps = true := by
  induction ps generalizing qs with
  | nil => exact .inl rfl
  | cons p ps ih =>
    cases qs with
    | nil => exact .inr rfl
    | cons q qs =>
      simp only [precedes_cons]
      by_cases hpq : p = q
      · subst hpq
        exact (ih qs).imp (fun h => .inr ⟨rfl, h⟩) (fun h => .inr ⟨rfl, h⟩)
      · rcases String.le_total p q with h | h
        · exact .inl (.inl (String.not_le.1 fun h' => hpq (String.le_antisymm h h')))
        · exact .inr (.inl (String.not_le.1 fun h' => hpq (String.le_antisymm h' h)))

theorem precedes_trans (h : precedes ps qs = true) (h' : precedes qs rs = true) :
    precedes ps rs = true := by
  induction ps generalizing qs rs with
  | nil => rfl
  | cons p ps ih =>
    cases qs with
    | nil => cases h
    | cons q qs =>
      cases rs with
      | nil => cases h'
      | cons r rs =>
        rw [precedes_cons] at h h' ⊢
        rcases h with h | ⟨rfl, h⟩
        · rcases h' with h' | ⟨rfl, h'⟩
          · exact .inl (String.lt_trans h h')
          · exact .inl h
        · exact h'.imp id fun h' => ⟨h'.1, ih h h'.2⟩

theorem precedes_antisymm (h : precedes ps qs = true) (h' : precedes qs ps = true) : ps = qs := by
  induction ps generalizing qs with
  | nil =>
    cases qs with
    | nil => rfl
    | cons q qs => cases h'
  | cons p ps ih =>
    cases qs with
    | nil => cases h
    | cons q qs =>
      rw [precedes_cons] at h h'
      rcases h with h | ⟨rfl, h⟩
      · rcases h' with h' | ⟨rfl, -⟩
        · exact absurd h' (String.lt_asymm h)
        · exact absurd h (String.lt_irrefl _)
      · rcases h' with h' | ⟨-, h'⟩
        · exact absurd h' (String.lt_irrefl _)
        · rw [ih h h']

/-- A text without slashes is the text of a single part only. -/
theorem intercalate_eq_iff {s : String} (hs : '/' ∉ s.toList) (hne : s ≠ "") :
    "/".intercalate ps = s ↔ ps = [s] := by
  constructor
  · rintro rfl
    match ps with
    | [] => exact absurd rfl hne
    | [p] => rw [String.intercalate_singleton]
    | p :: q :: ps => simp [String.intercalate_cons_cons] at hs
  · rintro rfl
    exact String.intercalate_singleton

theorem extension?_eq_some_iff {name ext : String} :
    extension? name = some ext ↔
      ∃ stem, stem ≠ [] ∧ name.toList = stem ++ '.' :: ext.toList ∧ '.' ∉ ext.toList ∧
        name ≠ ".." := by
  rw [extension?]
  split
  · next h => simp [h]
  next h =>
    constructor
    · intro heq
      split at heq
      · next c stem after hbreak =>
        cases heq
        rw [String.toList_ofList]
        obtain ⟨hname, hdot⟩ := Text.breakOnLast_eq_some_iff.1 hbreak
        exact ⟨c :: stem, List.cons_ne_nil _ _, hname, hdot, h⟩
      · cases heq
    · rintro ⟨_ | ⟨c, stem⟩, hne, hname, hdot, -⟩
      · exact absurd rfl hne
      · rw [hname, Text.breakOnLast_append hdot]
        exact congrArg some String.ofList_toList

/-! ### Parts -/

/-- A text that a path can have as one of its parts. -/
structure IsPart (name : String) : Prop where
  ne_empty : name ≠ ""
  ne_dot : name ≠ "."
  slash : '/' ∉ name.toList

instance (name : String) : Decidable (IsPart name) :=
  decidable_of_iff (name ≠ "" ∧ name ≠ "." ∧ '/' ∉ name.toList)
    ⟨fun ⟨h, h', h''⟩ => ⟨h, h', h''⟩, fun h => ⟨h.ne_empty, h.ne_dot, h.slash⟩⟩

variable {path name : String} {s r : List Char} {absolute : Bool}

theorem isPart_of_mem_parts (h : name ∈ parts path) : IsPart name := by
  obtain ⟨hpiece, hkept⟩ := List.mem_filter.1 h
  obtain ⟨piece, hmem, rfl⟩ := List.mem_map.1 hpiece
  simp only [ne_eq, decide_not, Bool.and_eq_true, Bool.not_eq_true', decide_eq_false_iff_not] at hkept
  refine ⟨hkept.1, hkept.2, fun hslash => ?_⟩
  rw [String.toList_ofList] at hslash
  have hcut := (Text.mem_of_mem_splitBy hmem hslash).2
  simp at hcut

/-- The parts of a text of characters. -/
def partsOf (s : List Char) : List String :=
  ((Text.splitBy (· == '/') s).map String.ofList).filter fun p => p ≠ "" && p ≠ "."

theorem parts_eq (path : String) : parts path = partsOf path.toList := rfl

theorem partsOf_append_slash (s r : List Char) : partsOf (s ++ '/' :: r) = partsOf s ++ partsOf r := by
  have hcut := Text.splitBy_append_cons (p := (· == '/')) s r (beq_self_eq_true '/')
  rw [partsOf, hcut, List.map_append, List.filter_append]
  rfl

theorem partsOf_nil : partsOf [] = [] := rfl

theorem IsPart.partsOf_eq (h : IsPart name) : partsOf name.toList = [name] := by
  have hnone : ∀ c ∈ name.toList, (c == '/') = false := by
    intro c hc
    rw [beq_eq_false_iff_ne]
    rintro rfl
    exact h.slash hc
  rw [partsOf, Text.splitBy_of_all hnone, List.map_singleton, String.ofList_toList]
  simp [h.ne_empty, h.ne_dot]

theorem IsPart.head?_ne (h : IsPart name) : name.toList.head? ≠ some '/' :=
  fun hhead => h.slash (List.mem_of_head? hhead)

theorem IsPart.toList_ne_nil (h : IsPart name) : name.toList ≠ [] := by
  intro hnil
  exact h.ne_empty (String.toList_inj.1 (hnil.trans (by rfl)))

/-- What stands between a path and a name that is joined to it. -/
def joint (path : String) : String :=
  if path = "" || path.toList.getLast? = some '/' then "" else "/"

theorem join_eq (h : IsPart name) : join path name = path ++ joint path ++ name := by
  have hname : isAbsolute name = false := by simp [isAbsolute, h.head?_ne]
  rw [join, joint, hname]
  by_cases hempty : path = ""
  · subst hempty
    simp
  · simp only [Bool.false_or, hempty, decide_false, Bool.false_eq_true, if_false, decide_eq_true_eq]
    split <;> simp

theorem not_mem_joint {c : Char} (h : c ≠ '/') : c ∉ (joint path).toList := by
  rw [joint]
  split <;> simp [h]

theorem isAbsolute_join (h : IsPart name) : isAbsolute (join path name) = isAbsolute path := by
  rw [join_eq h, joint]
  by_cases hempty : path = ""
  · subst hempty
    simp [isAbsolute, h.head?_ne]
  · obtain ⟨c, rest, hpath⟩ := List.exists_cons_of_ne_nil fun hnil =>
      hempty (String.toList_inj.1 (hnil.trans (by rfl)))
    simp [isAbsolute, String.toList_append, hpath]

theorem parts_join (h : IsPart name) : parts (join path name) = parts path ++ [name] := by
  rw [join_eq h, joint, parts_eq, parts_eq]
  by_cases hempty : path = ""
  · subst hempty
    exact h.partsOf_eq
  simp only [hempty, decide_false, Bool.false_or, decide_eq_true_eq]
  split
  · next hlast =>
    obtain ⟨front, hfront⟩ := List.getLast?_eq_some_iff.1 hlast
    rw [String.append_empty, String.toList_append, hfront, List.append_assoc, List.singleton_append,
      partsOf_append_slash, partsOf_append_slash, h.partsOf_eq, partsOf_nil, List.append_nil]
  · have htext : (path ++ "/" ++ name).toList = path.toList ++ '/' :: name.toList := by
      simp [String.toList_append]
    rw [htext, partsOf_append_slash, h.partsOf_eq]

/-- A path that ends with a part does not ask for a directory. -/
theorem steps_of_append (h : IsPart name) (hpath : path.toList = s ++ name.toList) :
    steps path = parts path := by
  have hlast : path.toList.getLast? = name.toList.getLast? := by
    rw [hpath, List.getLast?_append, List.getLast?_eq_some_getLast h.toList_ne_nil]
    rfl
  rw [steps, hlast]
  split
  · next hslash => exact absurd (List.mem_of_getLast? hslash) h.slash
  · rfl

theorem steps_join (h : IsPart name) : steps (join path name) = parts path ++ [name] := by
  have htext : (join path name).toList = (path ++ joint path).toList ++ name.toList := by
    rw [join_eq h, String.toList_append]
  rw [steps_of_append h htext, parts_join h]

/-! ### Texts made of parts -/

theorem ofParts_append_singleton (hps : ps ≠ []) (p : String) :
    ofParts absolute (ps ++ [p]) = ofParts absolute ps ++ "/" ++ p := by
  have hjoined : "/".intercalate (ps ++ [p]) = "/".intercalate ps ++ "/" ++ p := by
    induction ps with
    | nil => exact absurd rfl hps
    | cons q qs ih =>
      cases qs with
      | nil => simp [String.intercalate_cons_cons]
      | cons q' qs =>
        have ih := ih (List.cons_ne_nil _ _)
        simp only [List.cons_append] at ih ⊢
        rw [String.intercalate_cons_cons, ih, String.intercalate_cons_cons]
        simp only [String.append_assoc]
  rw [ofParts, hjoined, ofParts]
  simp only [String.append_assoc]

theorem parts_ofParts (hps : ∀ p ∈ ps, IsPart p) : parts (ofParts absolute ps) = ps := by
  have hrelative : partsOf ("/".intercalate ps).toList = ps := by
    induction ps with
    | nil => rfl
    | cons p ps ih =>
      have hp := hps p List.mem_cons_self
      have ih := ih fun q hq => hps q (List.mem_cons_of_mem p hq)
      cases ps with
      | nil => rw [String.intercalate_singleton, hp.partsOf_eq]
      | cons q ps =>
        have htext : (p ++ "/" ++ "/".intercalate (q :: ps)).toList =
            p.toList ++ '/' :: ("/".intercalate (q :: ps)).toList := by
          simp [String.toList_append]
        rw [String.intercalate_cons_cons, htext, partsOf_append_slash, hp.partsOf_eq, ih,
          List.singleton_append]
  rw [parts_eq, ofParts, String.toList_append]
  cases absolute with
  | false => exact hrelative
  | true => exact (partsOf_append_slash [] _).trans hrelative

theorem steps_ofParts (hps : ∀ p ∈ ps, IsPart p) (hne : ps ≠ []) :
    steps (ofParts absolute ps) = ps := by
  rcases List.eq_nil_or_concat ps with rfl | ⟨front, p, rfl⟩
  · exact absurd rfl hne
  rw [List.concat_eq_append] at hps ⊢
  have hend : ∃ s, (ofParts absolute (front ++ [p])).toList = s ++ p.toList := by
    cases front with
    | nil => exact ⟨_, by rw [ofParts, List.nil_append, String.intercalate_singleton, String.toList_append]⟩
    | cons q front =>
      exact ⟨_, by rw [ofParts_append_singleton (List.cons_ne_nil _ _), String.toList_append]⟩
  obtain ⟨s, hs⟩ := hend
  rw [steps_of_append (hps p (by simp)) hs, parts_ofParts hps]

theorem isAbsolute_ofParts (hps : ∀ p ∈ ps, IsPart p) : isAbsolute (ofParts absolute ps) = absolute := by
  have hrelative : ("/".intercalate ps).toList.head? ≠ some '/' := by
    cases ps with
    | nil => exact nofun
    | cons p ps =>
      have hp := hps p List.mem_cons_self
      obtain ⟨c, rest, hcons⟩ := List.exists_cons_of_ne_nil hp.toList_ne_nil
      have hhead := hp.head?_ne
      rw [hcons] at hhead
      cases ps with
      | nil => rw [String.intercalate_singleton, hcons]; exact hhead
      | cons q ps =>
        rw [String.intercalate_cons_cons, String.toList_append, String.toList_append, hcons]
        exact hhead
  rw [isAbsolute, ofParts, String.toList_append]
  cases absolute with
  | false => exact decide_eq_false hrelative
  | true => rfl

/-- A path with its parts alone. -/
def tidied (path : String) : String := ofParts (isAbsolute path) (parts path)

theorem sublist_intercalate_partsOf (s : List Char) :
    ("/".intercalate (partsOf s)).toList.Sublist s := by
  have hkept : (partsOf s).map String.toList =
      (Text.splitBy (· == '/') s).filter fun p => String.ofList p ≠ "" && String.ofList p ≠ "." := by
    rw [partsOf, List.filter_map, List.map_map]
    exact (List.map_congr_left fun p _ => String.toList_ofList).trans (List.map_id _)
  have hsub := Text.sublist_joinWith_filter ['/'] (fun p => String.ofList p ≠ "" && String.ofList p ≠ ".")
    (Text.splitBy (· == '/') s)
  rw [Text.joinWith_splitBy, ← hkept, Text.joinWith_eq_intercalate] at hsub
  rw [String.toList_intercalate]
  exact hsub

/-- Tidying only leaves characters out. -/
theorem sublist_tidied (path : String) : (tidied path).toList.Sublist path.toList := by
  rw [tidied, ofParts, String.toList_append, parts_eq]
  cases habs : isAbsolute path with
  | false => exact sublist_intercalate_partsOf path.toList
  | true =>
    obtain ⟨rest, hpath⟩ := List.head?_eq_some_iff.1 (of_decide_eq_true habs)
    rw [hpath]
    have hparts : partsOf ('/' :: rest) = partsOf rest := partsOf_append_slash [] rest
    rw [hparts]
    exact (sublist_intercalate_partsOf rest).cons_cons '/'

theorem parts_tidied (path : String) : parts (tidied path) = parts path :=
  parts_ofParts fun _ => isPart_of_mem_parts

theorem isAbsolute_tidied (path : String) : isAbsolute (tidied path) = isAbsolute path :=
  isAbsolute_ofParts fun _ => isPart_of_mem_parts

theorem tidied_join (h : IsPart name) :
    tidied (join path name) = ofParts (isAbsolute path) (parts path ++ [name]) := by
  rw [tidied, isAbsolute_join h, parts_join h]

theorem parent?_join (h : IsPart name) : parent? (join path name) = some (tidied path) := by
  have hparts : parts (join path name) = parts path ++ [name] := parts_join h
  obtain ⟨p, ps, hcons⟩ :=
    List.exists_cons_of_ne_nil (List.append_ne_nil_of_right_ne_nil (parts path) (List.cons_ne_nil name []))
  rw [parent?, hparts, hcons]
  simp only [← hcons, List.dropLast_concat, isAbsolute_join h, tidied]

theorem utf8ByteSize_le (h : p.toList.Sublist q.toList) : p.utf8ByteSize ≤ q.utf8ByteSize := by
  have hchars : ∀ {s t : List Char}, s.Sublist t →
      (String.ofList s).utf8ByteSize ≤ (String.ofList t).utf8ByteSize := by
    intro s t hsub
    induction hsub with
    | slnil => exact Nat.le_refl _
    | cons c _ ih =>
      rw [String.ofList_cons, String.utf8ByteSize_append]
      omega
    | cons_cons c _ ih =>
      simp only [String.ofList_cons, String.utf8ByteSize_append]
      omega
  have hsize := hchars h
  rw [String.ofList_toList, String.ofList_toList] at hsize
  exact hsize

theorem ofParts_ne_empty (hps : ∀ p ∈ ps, IsPart p) (hne : ps ≠ []) : ofParts absolute ps ≠ "" := by
  intro hempty
  have hparts : parts (ofParts absolute ps) = ps := parts_ofParts hps
  rw [hempty] at hparts
  exact hne hparts.symm

end QueryTree.Path
