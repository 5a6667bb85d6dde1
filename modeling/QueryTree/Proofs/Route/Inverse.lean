import QueryTree.Proofs.Route.Scaffold

/-!
# Reading the convention backwards

What the convention makes of a file's place can be read off the descriptor again: the table from the
path, the stem from its last segment, and the whole descriptor from the file that it names
(`Naming.describe_inverts`). The name of the table's folder shows in the table, in the path and in the
file, and nowhere else: a descriptor is made of the folders around the one of the table
(`Naming.describe_of_table`), and another name put in its place leaves them where they are
(`Naming.TableAt.segments_append`).
-/

namespace QueryTree.Naming

open Layout (IsSegment segments_intercalate)

variable {path base name table file before after : String} {parts pre post : List String}
  {s r : List Char} {c : Char} {n : Nat}

/-! ### Segments -/

def isSeparator (c : Char) : Bool := c == '/' || c == '\\'

/-- The segments of a text of characters. -/
def segmentsOf (s : List Char) : List String :=
  ((Text.splitBy isSeparator s).map String.ofList).filter fun part => part ≠ "" && part ≠ "."

theorem segments_eq (path : String) : segments path = segmentsOf path.toList := rfl

theorem segmentsOf_nil : segmentsOf [] = [] := rfl

theorem segmentsOf_append_cons (hc : isSeparator c = true) (s r : List Char) :
    segmentsOf (s ++ c :: r) = segmentsOf s ++ segmentsOf r := by
  rw [segmentsOf, Text.splitBy_append_cons s r hc, List.map_append, List.filter_append]
  rfl

theorem isSegment_of_mem_segments (h : name ∈ segments path) : IsSegment name := by
  obtain ⟨hpiece, hkept⟩ := List.mem_filter.1 h
  obtain ⟨piece, hmem, rfl⟩ := List.mem_map.1 hpiece
  simp only [ne_eq, decide_not, Bool.and_eq_true, Bool.not_eq_true', decide_eq_false_iff_not] at hkept
  have hcut : ∀ c ∈ piece, isSeparator c = false := fun c hc => (Text.mem_of_mem_splitBy hmem hc).2
  refine ⟨⟨hkept.1, hkept.2, fun hslash => ?_⟩, fun hback => ?_⟩
  · rw [String.toList_ofList] at hslash
    exact absurd (hcut _ hslash) (by decide)
  · rw [String.toList_ofList] at hback
    exact absurd (hcut _ hback) (by decide)

theorem not_isSeparator (h : IsSegment name) : ∀ c ∈ name.toList, isSeparator c = false := by
  intro c hc
  rw [isSeparator, Bool.or_eq_false_iff, beq_eq_false_iff_ne, beq_eq_false_iff_ne]
  constructor
  · rintro rfl
    exact h.part.slash hc
  · rintro rfl
    exact h.backslash hc

theorem segmentsOf_of_all (h : ∀ c ∈ s, isSeparator c = false) :
    segmentsOf s = [String.ofList s].filter fun part => part ≠ "" && part ≠ "." := by
  rw [segmentsOf, Text.splitBy_of_all h, List.map_singleton]

theorem segmentsOf_of_isSegment (h : IsSegment name) : segmentsOf name.toList = [name] := by
  rw [segmentsOf_of_all (not_isSeparator h), String.ofList_toList]
  simp [h.part.ne_empty, h.part.ne_dot]

theorem segments_sqlPath (path base : String) :
    segments (describe path base).sqlPath = segments path := by
  show segments ("/".intercalate (segments path)) = segments path
  by_cases hnil : segments path = []
  · rw [hnil]
    rfl
  · exact segments_intercalate (fun _ => isSegment_of_mem_segments) hnil

/-- Nothing of a path counts but its segments. -/
theorem describe_congr {path' : String} (h : segments path = segments path') (base : String) :
    describe path base = describe path' base := by
  rw [describe, describe, h]

/-! ### The table in a path -/

theorem fileStem_ne_empty (h : name ≠ "") : fileStem name ≠ "" := by
  rw [fileStem]
  split
  · intro hempty
    have hlist := congrArg String.toList hempty
    rw [String.toList_ofList] at hlist
    cases hlist
  · exact h

theorem after?_routePath (base : String) (table : Option String) (stem : String) :
    Text.after? base.toList (routePath base table stem).toList =
      some ((table.elim [] fun t => '/' :: t.toList) ++ '/' :: stem.toList) := by
  rw [Text.after?_eq_some_iff, toList_routePath, List.append_assoc]

theorem tableOfPath?_routePath {table : Option String} {stem : String} (base : String)
    (htable : ∀ name ∈ table, IsSegment name ∧ stem ≠ "") (hstem : '/' ∉ stem.toList) :
    tableOfPath? (routePath base table stem) base = table := by
  have hlast : Text.splitBy (· == '/') stem.toList = [stem.toList] := by
    refine Text.splitBy_of_all fun c hc => beq_eq_false_iff_ne.2 ?_
    rintro rfl
    exact hstem hc
  have hslash : ('/' == '/') = true := rfl
  rw [tableOfPath?, after?_routePath, Option.getD_some]
  cases table with
  | none =>
    rw [Option.elim_none, List.nil_append, Text.splitBy, if_pos hslash, hlast]
    by_cases hne : stem.toList = []
    · simp [hne]
    · simp [hne]
  | some t =>
    obtain ⟨ht, hne⟩ := htable t rfl
    have hnone : ∀ c ∈ t.toList, (c == '/') = false := by
      intro c hc
      rw [beq_eq_false_iff_ne]
      rintro rfl
      exact ht.part.slash hc
    have hstem : stem.toList ≠ [] := fun hnil => hne (String.toList_inj.1 hnil)
    rw [Option.elim_some, List.cons_append, Text.splitBy, if_pos hslash,
      Text.splitBy_append hnone hslash, hlast]
    simp [ht.part.toList_ne_nil, hstem]

/-! ### The folder of the table -/

/-- The folder of the table is the one behind the first folder of tables. -/
theorem tableSegment?_eq_some_iff {folders : List String} :
    tableSegment? folders = some (n, table) ↔ ∃ pre post,
      folders = pre ++ tablesFolder :: table :: post ∧ tablesFolder ∉ pre ∧ n = pre.length + 1 := by
  rw [tableSegment?, Option.bind_eq_some_iff]
  constructor
  · rintro ⟨i, hi, h⟩
    obtain ⟨table', htable, heq⟩ := Option.map_eq_some_iff.1 h
    cases heq
    obtain ⟨hlt, hfolder, hbefore⟩ := List.idxOf?_eq_some_iff.1 hi
    obtain ⟨hlt', hname⟩ := List.getElem?_eq_some_iff.1 htable
    have hfirst : tablesFolder ∉ folders.take i := by
      intro hmem
      obtain ⟨j, hj, heq⟩ := List.mem_take_iff_getElem.1 hmem
      exact hbefore j (by omega) heq
    refine ⟨folders.take i, folders.drop (i + 2), ?_, hfirst, ?_⟩
    · rw [← hfolder, ← hname, ← List.drop_eq_getElem_cons, ← List.drop_eq_getElem_cons,
        List.take_append_drop]
    · rw [List.length_take_of_le hlt.le]
  · rintro ⟨pre, post, rfl, hpre, rfl⟩
    refine ⟨pre.length, List.idxOf?_eq_some_iff.2 ⟨by simp, by simp, fun j hj heq => ?_⟩, by simp⟩
    rw [List.getElem_append_left hj] at heq
    exact hpre (heq ▸ List.getElem_mem hj)

/-- Folders elsewhere than the one that is passed over all have a say. -/
theorem findSome?_zipIdx_filter {k : Nat} (l : List String) (h : ∀ i, k ≤ i → i < k + l.length → i ≠ n) :
    ((l.zipIdx k).filter fun (_, i) => some i ≠ some n).findSome?
        (fun (folder, _) => Method.ofName? folder) = l.findSome? Method.ofName? := by
  have hall : ((l.zipIdx k).filter fun (_, i) => some i ≠ some n) = l.zipIdx k := by
    refine List.filter_eq_self.2 fun x hx => ?_
    have hne := h x.2 (List.le_snd_of_mem_zipIdx hx) (List.snd_lt_add_of_mem_zipIdx hx)
    simpa using hne
  have hnames : l.findSome? Method.ofName? =
      ((l.zipIdx k).map Prod.fst).findSome? Method.ofName? := by
    rw [List.zipIdx_map_fst]
  rw [hall, hnames, List.findSome?_map]
  rfl

/-- A folder that is passed over has no say in the method. -/
theorem methodFor_append (pre : List String) (name : String) (post : List String) (stem : String) :
    methodFor (pre ++ name :: post) (some pre.length) stem =
      ((pre ++ post).findSome? Method.ofName?).getD (methodOfStem stem) := by
  rw [methodFor, List.zipIdx_append, List.zipIdx_cons, List.filter_append,
    List.filter_cons_of_neg (by simp), List.findSome?_append, List.findSome?_append,
    findSome?_zipIdx_filter pre fun i _ hi => by omega,
    findSome?_zipIdx_filter post fun i hi _ => by omega]

/-- The descriptor of a file in the folder of a table. -/
theorem describe_of_table (base : String) (hpre : tablesFolder ∉ pre)
    (h : segments path = (pre ++ tablesFolder :: table :: post) ++ [file]) :
    describe path base =
      { method := ((pre ++ tablesFolder :: post).findSome? Method.ofName?).getD
          (methodOfStem (fileStem file))
        path := routePath base (some table) (fileStem file)
        sqlPath := "/".intercalate (segments path)
        table := some table } := by
  have htable : tableSegment? (pre ++ tablesFolder :: table :: post) = some (pre.length + 1, table) :=
    tableSegment?_eq_some_iff.2 ⟨pre, post, rfl, hpre, rfl⟩
  have hmethod := methodFor_append (pre ++ [tablesFolder]) table post (fileStem file)
  rw [List.length_append, List.length_singleton, List.append_assoc, List.append_assoc,
    List.singleton_append, List.singleton_append] at hmethod
  rw [describe, h, List.dropLast_concat, List.getLast?_concat, htable]
  simp only [Option.map_some, Option.getD_some, hmethod]

/-! ### Another table -/

/-- The text behind `before` and ahead of `after` is the name of the table's folder in the path that the
three make. -/
structure TableAt (before table after : String) : Prop where
  behind : ∃ s c, before.toList = s ++ [c] ∧ isSeparator c = true
  ahead : ∃ c s, after.toList = c :: s ∧ isSeparator c = true
  found : tableSegment? (segments (before ++ table ++ after)).dropLast =
    some ((segments before).length, table)

/-- A name between separators is a segment between those of the texts around it. -/
theorem TableAt.segments_append (h : TableAt before table after) (hname : IsSegment name) :
    segments (before ++ name ++ after) = segments before ++ name :: segments after := by
  obtain ⟨s, c, hbefore, hc⟩ := h.behind
  obtain ⟨d, r, hafter, hd⟩ := h.ahead
  have htext : (before ++ name ++ after).toList = s ++ c :: (name.toList ++ d :: r) := by
    simp [String.toList_append, hbefore, hafter]
  have hfront : segments before = segmentsOf s := by
    rw [segments_eq, hbefore, segmentsOf_append_cons hc, segmentsOf_nil, List.append_nil]
  have hback : segments after = segmentsOf r := by
    rw [segments_eq, hafter]
    exact segmentsOf_append_cons hd [] r
  rw [segments_eq, htext, segmentsOf_append_cons hc, segmentsOf_append_cons hd,
    segmentsOf_of_isSegment hname, hfront, hback, List.singleton_append]

theorem TableAt.isSegment (h : TableAt before table after) : IsSegment table := by
  obtain ⟨pre, post, heq, -, -⟩ := tableSegment?_eq_some_iff.1 h.found
  have hmem : table ∈ (segments (before ++ table ++ after)).dropLast := by
    rw [heq]
    simp
  exact isSegment_of_mem_segments (List.mem_of_mem_dropLast hmem)

/-- The folder of tables stands directly in front of the table's folder, and a file behind it. -/
theorem TableAt.exists_segments (h : TableAt before table after) :
    ∃ pre post file, segments before = pre ++ [tablesFolder] ∧ segments after = post ++ [file] ∧
      tablesFolder ∉ pre := by
  have hfound := h.found
  rw [h.segments_append h.isSegment] at hfound
  obtain ⟨pre, post, heq, hpre, hlength⟩ := tableSegment?_eq_some_iff.1 hfound
  rcases List.eq_nil_or_concat (segments after) with hnil | ⟨post', file, hafter⟩
  · rw [hnil, List.dropLast_concat] at heq
    have hsum := congrArg List.length heq
    simp only [List.length_append, List.length_cons] at hsum
    omega
  · rw [List.concat_eq_append] at hafter
    rw [hafter, ← List.cons_append, ← List.append_assoc, List.dropLast_concat] at heq
    have hsplit : segments before ++ table :: post' = (pre ++ [tablesFolder]) ++ table :: post := by
      rw [heq, List.append_assoc, List.singleton_append]
    obtain ⟨hbefore, -⟩ := List.append_inj hsplit (by simp [hlength])
    exact ⟨pre, post', file, hbefore, hafter, hpre⟩

/-- A text holds no separator, or a first one. -/
theorem no_separator_or (s : List Char) :
    (∀ c ∈ s, isSeparator c = false) ∨ ∃ piece c r, s = piece ++ c :: r ∧ isSeparator c = true ∧
      ∀ d ∈ piece, isSeparator d = false := by
  induction s with
  | nil => exact .inl nofun
  | cons c s ih =>
    cases hc : isSeparator c with
    | true => exact .inr ⟨[], c, s, rfl, hc, nofun⟩
    | false =>
      rcases ih with hnone | ⟨piece, d, r, rfl, hd, hpiece⟩
      · exact .inl (List.forall_mem_cons.2 ⟨hc, hnone⟩)
      · exact .inr ⟨c :: piece, d, r, rfl, hd, List.forall_mem_cons.2 ⟨hc, hpiece⟩⟩

/-- A text without a separator is one segment, or none. -/
theorem segmentsOf_of_no_separator (h : ∀ c ∈ s, isSeparator c = false) :
    segmentsOf s = [] ∨ segmentsOf s = [String.ofList s] := by
  rw [segmentsOf_of_all h, List.filter_cons, List.filter_nil]
  split
  · exact .inr rfl
  · exact .inl rfl

/-- The text ends where a segment may start. -/
def Opens (before : List Char) : Prop := before = [] ∨ ∃ s c, before = s ++ [c] ∧ isSeparator c = true

/-- The text begins where a segment may end. -/
def Closes (after : List Char) : Prop := after = [] ∨ ∃ c s, after = c :: s ∧ isSeparator c = true

theorem Opens.append_cons {front : List Char} (h : Opens front) (hc : isSeparator c = true)
    (piece : List Char) : Opens (piece ++ c :: front) := by
  rcases h with rfl | ⟨s, d, rfl, hd⟩
  · exact .inr ⟨piece, c, rfl, hc⟩
  · exact .inr ⟨piece ++ c :: s, d, by simp, hd⟩

/-- A segment stands somewhere in the text, between separators or at its ends. -/
theorem exists_of_segmentsOf_eq (s : List Char) {pre : List String}
    (h : segmentsOf s = pre ++ name :: post) :
    ∃ front back, s = front ++ name.toList ++ back ∧ segmentsOf front = pre ∧
      segmentsOf back = post ∧ Opens front ∧ Closes back := by
  rcases no_separator_or s with hnone | ⟨piece, c, r, rfl, hc, hpiece⟩
  · rcases segmentsOf_of_no_separator hnone with hnil | hone
    · rw [hnil] at h
      exact absurd (congrArg List.length h) (by simp)
    · rw [hone, List.singleton_eq_append_iff] at h
      rcases h with ⟨rfl, heq⟩ | ⟨-, heq⟩
      · cases heq
        exact ⟨[], [], by simp, rfl, rfl, .inl rfl, .inl rfl⟩
      · cases heq
  · rw [segmentsOf_append_cons hc] at h
    -- the segment stands behind the first separator, unless it is the text in front of it
    have hrest : ∀ pre', segmentsOf piece ++ pre' = pre → segmentsOf r = pre' ++ name :: post →
        ∃ front back, piece ++ c :: r = front ++ name.toList ++ back ∧ segmentsOf front = pre ∧
          segmentsOf back = post ∧ Opens front ∧ Closes back := by
      intro pre' hpre' hr
      obtain ⟨front, back, rfl, hfront, hback, hopens, hcloses⟩ := exists_of_segmentsOf_eq r hr
      refine ⟨piece ++ c :: front, back, by simp, ?_, hback, hopens.append_cons hc piece, hcloses⟩
      rw [segmentsOf_append_cons hc, hfront, hpre']
    rcases segmentsOf_of_no_separator hpiece with hnil | hone
    · rw [hnil, List.nil_append] at h
      exact hrest pre (by rw [hnil, List.nil_append]) h
    · rw [hone, List.singleton_append] at h
      cases pre with
      | nil =>
        rw [List.nil_append, List.cons.injEq] at h
        obtain ⟨rfl, rfl⟩ := h
        exact ⟨[], c :: r, by simp, rfl, segmentsOf_append_cons hc [] r, .inl rfl,
          .inr ⟨c, r, rfl, hc⟩⟩
      | cons first pre' =>
        rw [List.cons_append, List.cons.injEq] at h
        exact hrest pre' (by rw [hone, h.1, List.singleton_append]) h.2
termination_by s.length
decreasing_by simp [‹s = piece ++ c :: r›]; omega

/-- Where the convention finds a table, its folder stands at a place of the path. -/
theorem exists_tableAt (h : (describe path base).table = some table) :
    ∃ before after, path = before ++ table ++ after ∧ TableAt before table after := by
  obtain ⟨⟨n, table'⟩, hfound, rfl⟩ := Option.map_eq_some_iff.1 h
  obtain ⟨pre, post, heq, hpre, rfl⟩ := tableSegment?_eq_some_iff.1 hfound
  have hne : segments path ≠ [] := by
    intro hnil
    rw [hnil] at heq
    exact absurd (congrArg List.length heq) (by simp)
  have hsegments : segmentsOf path.toList =
      (pre ++ [tablesFolder]) ++ table' :: (post ++ [(segments path).getLast hne]) := by
    calc segments path = (segments path).dropLast ++ [(segments path).getLast hne] :=
          (List.dropLast_append_getLast hne).symm
      _ = _ := by rw [heq]; simp
  obtain ⟨front, back, hpath, hfront, hback, hopens, hcloses⟩ := exists_of_segmentsOf_eq _ hsegments
  have hwhole : path = String.ofList front ++ table' ++ String.ofList back := by
    rw [← String.toList_inj, hpath]
    simp [String.toList_append]
  refine ⟨String.ofList front, String.ofList back, hwhole, ?_, ?_, ?_⟩
  · rw [String.toList_ofList]
    refine hopens.resolve_left fun hnil => ?_
    rw [hnil, segmentsOf_nil] at hfront
    exact absurd (congrArg List.length hfront) (by simp)
  · rw [String.toList_ofList]
    refine hcloses.resolve_left fun hnil => ?_
    rw [hnil, segmentsOf_nil] at hback
    exact absurd (congrArg List.length hback) (by simp)
  · rw [← hwhole, hfound, segments_eq, String.toList_ofList, hfront]
    simp

/-- Whatever the folder of the table is called, the descriptor is the same but for this name. -/
theorem TableAt.exists_describe_eq (h : TableAt before table after) (base : String) :
    ∃ method file, ∀ name, IsSegment name →
      stem (before ++ name ++ after) = fileStem file ∧ describe (before ++ name ++ after) base =
        { method := method
          path := routePath base (some name) (fileStem file)
          sqlPath := "/".intercalate (segments before ++ name :: segments after)
          table := some name } := by
  obtain ⟨pre, post, file, hbefore, hafter, hpre⟩ := h.exists_segments
  refine ⟨((pre ++ tablesFolder :: post).findSome? Method.ofName?).getD
    (methodOfStem (fileStem file)), file, fun name hname => ?_⟩
  have hsegments := h.segments_append hname
  have hplace : segments (before ++ name ++ after) =
      (pre ++ tablesFolder :: name :: post) ++ [file] := by
    rw [hsegments, hbefore, hafter]
    simp
  constructor
  · rw [stem, hplace, List.getLast?_concat, Option.getD_some]
  · rw [describe_of_table base hpre hplace, hsegments]

theorem routePath_injective {t t' stem : String}
    (h : routePath base (some t) stem = routePath base (some t') stem) : t = t' := by
  have hlist := congrArg String.toList h
  rw [← String.toList_inj]
  simpa [routePath, String.toList_append] using hlist

/-- What becomes of a descriptor `d` when the folder of its table, between `before` and `after`, is
called `t'` and not `t`. -/
structure Renamed (base before after t t' : String) (d d' : Descriptor) : Prop where
  table : d.table = some t ∧ d'.table = some t'
  path : d.path = routePath base (some t) d.operation ∧ d'.path = routePath base (some t') d.operation
  sqlPath : d.sqlPath = "/".intercalate (segments before ++ t :: segments after) ∧
    d'.sqlPath = "/".intercalate (segments before ++ t' :: segments after)
  differ : t' ≠ t → d'.path ≠ d.path ∧ d'.sqlPath ≠ d.sqlPath
  method : d'.method = d.method
  operation : d'.operation = d.operation

theorem TableAt.renamed (h : TableAt before table after) (hname : IsSegment name) (base : String) :
    Renamed base before after table name (describe (before ++ table ++ after) base)
      (describe (before ++ name ++ after) base) := by
  obtain ⟨method, file, hall⟩ := h.exists_describe_eq base
  obtain ⟨hstem, hold⟩ := hall table h.isSegment
  obtain ⟨hstem', hnew⟩ := hall name hname
  have hoperation := operation_describe (before ++ table ++ after) base
  have hoperation' := operation_describe (before ++ name ++ after) base
  rw [hstem] at hoperation
  rw [hstem'] at hoperation'
  have hpath : (describe (before ++ table ++ after) base).path =
      routePath base (some table) (fileStem file) := by rw [hold]
  have hpath' : (describe (before ++ name ++ after) base).path =
      routePath base (some name) (fileStem file) := by rw [hnew]
  refine ⟨⟨by rw [hold], by rw [hnew]⟩, ⟨by rw [hpath, hoperation], by rw [hpath', hoperation]⟩,
    ⟨by rw [hold], by rw [hnew]⟩, fun hne => ⟨fun heq => hne ?_, fun heq => hne ?_⟩,
    by rw [hold, hnew], by rw [hoperation, hoperation']⟩
  · rw [hpath, hpath'] at heq
    exact routePath_injective heq
  · have hsegments := congrArg segments heq
    rw [segments_sqlPath, segments_sqlPath, h.segments_append hname, h.segments_append h.isSegment,
      List.append_right_inj, List.cons.injEq] at hsegments
    exact hsegments.1

/-! ### Everything that can be read off a descriptor -/

/-- The descriptor `d` of the file at a path gives back what it was made of. -/
structure Inverts (path base : String) (d : Descriptor) : Prop where
  table : tableOfPath? d.path base = d.table
  operation : d.operation = ((segments path).getLast?.map fileStem).getD ""
  describe : describe d.sqlPath base = d
  folder : ∀ t, d.table = some t → ∃ before after, path = before ++ t ++ after ∧ TableAt before t after
  renamed : ∀ before t after, path = before ++ t ++ after → TableAt before t after →
    ∀ t', IsSegment t' → Renamed base before after t t' d (Naming.describe (before ++ t' ++ after) base)

theorem stem_eq (path : String) : stem path = ((segments path).getLast?.map fileStem).getD "" := by
  rw [stem]
  cases (segments path).getLast? with
  | none => rfl
  | some file => rfl

theorem segment_of_table (h : (describe path base).table = some table) :
    IsSegment table ∧ stem path ≠ "" := by
  obtain ⟨before, after, rfl, hat⟩ := exists_tableAt h
  obtain ⟨_, _, file, -, hafter, -⟩ := hat.exists_segments
  refine ⟨hat.isSegment, ?_⟩
  have hlast : (segments (before ++ table ++ after)).getLast? = some file := by
    rw [hat.segments_append hat.isSegment, hafter, ← List.cons_append, ← List.append_assoc,
      List.getLast?_concat]
  rw [stem, hlast]
  exact fileStem_ne_empty (isSegment_of_mem_segments (List.mem_of_getLast? hlast)).part.ne_empty

/-- The convention can be read backwards, whatever the path and the base. -/
theorem describe_inverts (path base : String) : Inverts path base (describe path base) where
  table := by
    rw [path_describe]
    exact tableOfPath?_routePath base (fun _ h => segment_of_table h) (slash_not_mem_stem path)
  operation := by rw [operation_describe, stem_eq]
  describe := describe_congr (segments_sqlPath path base) base
  folder _ h := exists_tableAt h
  renamed := by
    rintro before t after rfl hat t' hname
    exact hat.renamed hname base

end QueryTree.Naming
