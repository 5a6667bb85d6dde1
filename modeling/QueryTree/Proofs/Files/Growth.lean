import Mathlib.Order.Defs.PartialOrder
import QueryTree.Proofs.Files.Path
import QueryTree.Proofs.Files.Tree

/-!
# Trees that grow

`t ≤ t'`: everything that stands in `t` stands in `t'` too, at its place and unchanged. What a path
leads to in a tree it leads to in every larger one (`find_mono`). Putting an entry at a free place makes
a tree larger, and the path then leads there (`walk_set`). A path leads somewhere only if its front
leads to a directory, and then the rest of it is looked up from there (`walk_append`, `walk_front`).
-/

namespace QueryTree.FileTree

variable {t t' : FileTree} {place dir start : Place} {entry : Entry} {found : Found} {follow : Bool}
  {links : Nat} {front rest steps : List String} {path name : String}

instance : Preorder FileTree where
  le t t' := ∀ place entry, t.entryOf? place = some entry → t'.entryOf? place = some entry
  le_refl _ _ _ h := h
  le_trans _ _ _ h h' place entry hentry := h' place entry (h place entry hentry)

theorem entryOf?_mono (hle : t ≤ t') (h : t.entryOf? place = some entry) :
    t'.entryOf? place = some entry := hle place entry h

theorem le_set (h : t.entryOf? place = none) (entry : Entry) : t ≤ t.set place entry := by
  have hne : place ≠ [] := by
    rintro rfl
    rw [entryOf?_nil] at h
    cases h
  intro other e hother
  rw [entryOf?_set hne, if_neg]
  · exact hother
  · rintro rfl
    rw [h] at hother
    cases hother

/-! ### Walking -/

theorem walk_mono (hle : t ≤ t') (h : t.walk follow links start steps = .ok (.here place entry)) :
    t'.walk follow links start steps = .ok (.here place entry) := by
  fun_induction walk t follow links start steps with
  | case1 =>
    rw [walk]
    exact h
  | case2 _ _ _ ih =>
    rw [walk]
    exact ih h
  | case3 _ _ _ ih =>
    rw [walk]
    exact ih h
  | case4 | case5 | case6 | case9 | case11 => cases h
  | case7 _ _ name _ hdot hup place hshort hdir ih =>
    rw [walk_name hdot hup, if_neg hshort, entryOf?_mono hle hdir]
    exact ih h
  | case8 _ _ name hdot hup place hshort bytes hfile =>
    rw [walk_name hdot hup, if_neg hshort, entryOf?_mono hle hfile]
    exact h
  | case10 _ _ name _ hdot hup place hshort target hlink hstop =>
    rw [walk_name hdot hup, if_neg hshort, entryOf?_mono hle hlink]
    exact (if_pos hstop).trans h
  | case12 _ name _ hdot hup place hshort target hlink hgo links ih =>
    rw [walk_name hdot hup, if_neg hshort, entryOf?_mono hle hlink]
    exact (if_neg hgo).trans (ih h)

theorem walk_eq_free (h : t.walk follow links start steps = .ok (.free place)) :
    t.entryOf? place = none := by
  fun_induction walk t follow links start steps with
  | case2 _ _ _ ih | case3 _ _ _ ih | case7 _ _ _ _ _ _ _ _ _ ih | case12 _ _ _ _ _ _ _ _ _ _ _ ih =>
    exact ih h
  | case5 _ _ _ _ _ _ _ hnone =>
    obtain rfl := Found.free.inj (Except.ok.inj h)
    exact hnone
  | case1 | case4 | case6 | case8 | case9 | case10 | case11 => cases h

/-- What is put where a path ends at a free place is what the path leads to. -/
theorem walk_set (h : t.walk follow links start steps = .ok (.free place))
    (hentry : ∀ target, entry ≠ .link target) :
    (t.set place entry).walk follow links start steps = .ok (.here place entry) := by
  have hnone := walk_eq_free h
  have hne : place ≠ [] := by
    rintro rfl
    rw [entryOf?_nil] at hnone
    cases hnone
  have hle := le_set hnone entry
  fun_induction walk t follow links start steps with
  | case2 _ _ _ ih | case3 _ _ _ ih =>
    rw [walk]
    exact ih h
  | case5 _ _ name hdot hup _ hshort =>
    obtain rfl := Found.free.inj (Except.ok.inj h)
    rw [walk_name hdot hup, if_neg hshort, entryOf?_set hne, if_pos rfl]
    cases entry with
    | directory => exact walk.eq_1 ..
    | file bytes => rfl
    | link target => exact absurd rfl (hentry target)
  | case7 _ _ name _ hdot hup _ hshort hdir ih =>
    rw [walk_name hdot hup, if_neg hshort, entryOf?_mono hle hdir]
    exact ih h
  | case12 _ name _ hdot hup _ hshort target hlink hgo links ih =>
    rw [walk_name hdot hup, if_neg hshort, entryOf?_mono hle hlink]
    exact (if_neg hgo).trans (ih h)
  | case1 | case4 | case6 | case8 | case9 | case10 | case11 => cases h

/-- A path that does not end at a link leads to the same place when links at its end are followed. -/
theorem walk_following (h : t.walk false links start steps = .ok found)
    (hfound : ∀ place target, found ≠ .here place (.link target)) :
    t.walk true links start steps = .ok found := by
  generalize hfollow : false = follow at h
  fun_induction walk t follow links start steps with
  | case1 =>
    rw [walk]
    exact h
  | case2 _ _ _ ih | case3 _ _ _ ih =>
    rw [walk]
    exact ih h
  | case5 _ _ name hdot hup _ hshort hnone =>
    rw [walk_name hdot hup, if_neg hshort, hnone]
    exact h
  | case7 _ _ name _ hdot hup _ hshort hdir ih =>
    rw [walk_name hdot hup, if_neg hshort, hdir]
    exact ih h
  | case8 _ _ name hdot hup _ hshort bytes hfile =>
    rw [walk_name hdot hup, if_neg hshort, hfile]
    exact h
  | case10 =>
    cases h
    exact absurd rfl (hfound _ _)
  | case12 _ name _ hdot hup _ hshort target hlink hgo links ih =>
    rw [walk_name hdot hup, if_neg hshort, hlink]
    exact (if_neg fun hstop => hstop.2 rfl).trans (ih h)
  | case4 | case6 | case9 | case11 => cases h

/-- Where a path leads with links followed, something stands also at its unfollowed end. -/
theorem walk_unfollowed (h : t.walk true links start steps = .ok (.here place entry)) :
    ∃ place entry, t.walk false links start steps = .ok (.here place entry) := by
  generalize hfollow : true = follow at h
  fun_induction walk t follow links start steps with
  | case1 links start => exact ⟨start, .directory, walk.eq_1 ..⟩
  | case2 _ _ _ ih | case3 _ _ _ ih =>
    rw [walk]
    exact ih h
  | case7 _ _ name _ hdot hup place' hshort hdir ih =>
    rw [walk_name hdot hup, if_neg hshort, hdir]
    exact ih h
  | case8 _ _ name hdot hup place' hshort bytes hfile =>
    rw [walk_name hdot hup, if_neg hshort, hfile]
    exact ⟨place', .file bytes, rfl⟩
  | case10 _ _ _ _ _ _ _ _ _ _ hstop => exact absurd hfollow.symm hstop.2
  | case12 _ name rest hdot hup place' hshort target hlink hgo links ih =>
    rw [walk_name hdot hup, if_neg hshort, hlink]
    by_cases hrest : rest = []
    · exact ⟨place', .link target, if_pos ⟨hrest, Bool.false_ne_true⟩⟩
    · obtain ⟨place'', entry', hwalk⟩ := ih h
      exact ⟨place'', entry', (if_neg fun hstop => hrest hstop.1).trans hwalk⟩
  | case4 | case5 | case6 | case9 | case11 => cases h

/-- Behind a front that leads to a directory, the rest is looked up from there. -/
theorem walk_append (h : t.walk true links start front = .ok (.here dir .directory)) :
    ∃ links', ∀ follow rest, rest ≠ [] →
      t.walk follow links start (front ++ rest) = t.walk follow links' dir rest := by
  generalize hfollow : true = follow at h
  fun_induction walk t follow links start front with
  | case1 links =>
    cases h
    exact ⟨links, fun _ _ _ => rfl⟩
  | case2 _ _ _ ih | case3 _ _ _ ih =>
    obtain ⟨links', hrest⟩ := ih h
    exact ⟨links', fun follow rest hne => by rw [List.cons_append, walk, hrest follow rest hne]⟩
  | case7 _ _ name _ hdot hup _ hshort hdir ih =>
    obtain ⟨links', hrest⟩ := ih h
    refine ⟨links', fun follow rest hne => ?_⟩
    rw [List.cons_append, walk_name hdot hup, if_neg hshort, hdir]
    exact hrest follow rest hne
  | case10 _ _ _ _ _ _ _ _ _ _ hstop => exact absurd hfollow.symm hstop.2
  | case12 _ name _ hdot hup _ hshort target hlink hgo links ih =>
    obtain ⟨links', hrest⟩ := ih h
    refine ⟨links', fun follow rest hne => ?_⟩
    have hmore : ∀ more : List String, ¬ (more ++ rest = [] ∧ ¬ follow = true) := fun more hstop =>
      hne (List.append_eq_nil_iff.1 hstop.1).2
    rw [List.cons_append, walk_name hdot hup, if_neg hshort, hlink]
    refine (if_neg (hmore _)).trans ?_
    rw [← List.append_assoc]
    exact hrest follow rest hne
  | case8 => cases (Found.here.inj (Except.ok.inj h)).2
  | case4 | case5 | case6 | case9 | case11 => cases h

/-- The front of a path that leads somewhere leads to a directory. -/
theorem walk_front (hrest : rest ≠ []) (h : t.walk follow links start (front ++ rest) = .ok found) :
    ∃ dir, t.walk true links start front = .ok (.here dir .directory) := by
  generalize hfollow : true = follow'
  fun_induction walk t follow' links start front with
  | case1 links start => exact ⟨start, rfl⟩
  | case2 _ _ _ ih | case3 _ _ _ ih =>
    rw [List.cons_append, walk] at h
    exact ih h
  | case4 _ _ name _ hdot hup hlong =>
    rw [List.cons_append, walk_name hdot hup, if_pos hlong] at h
    cases h
  | case5 _ _ name hdot hup place hshort hnone =>
    rw [List.cons_append, walk_name hdot hup, if_neg hshort] at h
    simp [place, hnone, hrest] at h
  | case6 _ _ name _ hdot hup place hshort hnone =>
    rw [List.cons_append, walk_name hdot hup, if_neg hshort] at h
    simp [place, hnone, hrest] at h
  | case7 _ _ name _ hdot hup place hshort hdir ih =>
    rw [List.cons_append, walk_name hdot hup, if_neg hshort, hdir] at h
    exact ih h
  | case8 _ _ name hdot hup place hshort bytes hfile =>
    rw [List.cons_append, walk_name hdot hup, if_neg hshort] at h
    simp [place, hfile, hrest] at h
  | case9 _ _ name _ hdot hup place hshort bytes hfile =>
    rw [List.cons_append, walk_name hdot hup, if_neg hshort] at h
    simp [place, hfile, hrest] at h
  | case10 _ _ _ _ _ _ _ _ _ _ hstop => exact absurd hfollow.symm hstop.2
  | case11 _ name _ hdot hup place hshort target hlink hgo =>
    rw [List.cons_append, walk_name hdot hup, if_neg hshort] at h
    simp [place, hlink, hrest] at h
  | case12 _ name _ hdot hup place hshort target hlink hgo links ih =>
    rw [List.cons_append, walk_name hdot hup, if_neg hshort] at h
    refine ih ?_
    simpa [place, hlink, hrest] using h

/-! ### Finding -/

/-- A path that is not refused before it is looked up. -/
structure Findable (path : String) : Prop where
  nul : '\x00' ∉ path.toList
  ne_empty : path ≠ ""
  short : path.utf8ByteSize < maxPath

theorem find_of_findable (h : Findable path) :
    t.find follow path = t.walk follow maxLinks [] (Path.steps path) := by
  simp [find, h.nul, h.ne_empty, Nat.not_le.2 h.short]

theorem find_eq_ok_iff : t.find follow path = .ok found ↔
    Findable path ∧ t.walk follow maxLinks [] (Path.steps path) = .ok found := by
  constructor
  · intro h
    have hpath : Findable path := by
      constructor
      · intro hnul
        simp [find, hnul] at h
      · rintro rfl
        simp [find] at h
      · by_contra hlong
        simp only [find, Nat.not_lt.1 hlong, if_true] at h
        split at h
        · cases h
        split at h <;> cases h
    exact ⟨hpath, find_of_findable hpath ▸ h⟩
  · rintro ⟨hpath, hwalk⟩
    rw [find_of_findable hpath, hwalk]

theorem find_mono (hle : t ≤ t') (h : t.find follow path = .ok (.here place entry)) :
    t'.find follow path = .ok (.here place entry) := by
  rw [find_eq_ok_iff] at h ⊢
  exact ⟨h.1, walk_mono hle h.2⟩

theorem find_eq_free (h : t.find follow path = .ok (.free place)) : t.entryOf? place = none :=
  walk_eq_free (find_eq_ok_iff.1 h).2

theorem find_set (h : t.find follow path = .ok (.free place)) (hentry : ∀ target, entry ≠ .link target) :
    (t.set place entry).find true path = .ok (.here place entry) := by
  rw [find_eq_ok_iff] at h ⊢
  refine ⟨h.1, ?_⟩
  have hset := walk_set h.2 hentry
  cases follow with
  | true => exact hset
  | false =>
    refine walk_following hset fun _ target heq => ?_
    cases heq
    exact hentry target rfl

theorem find_unfollowed (h : t.find true path = .ok (.here place entry)) :
    ∃ place entry, t.find false path = .ok (.here place entry) := by
  simp only [find_eq_ok_iff] at h ⊢
  obtain ⟨place', entry', hwalk⟩ := walk_unfollowed h.2
  exact ⟨place', entry', h.1, hwalk⟩

theorem entryAt?_eq_some_iff :
    t.entryAt? path = some entry ↔ ∃ place, t.find true path = .ok (.here place entry) := by
  rw [entryAt?]
  constructor
  · intro h
    split at h
    · next place e hfind =>
      cases h
      exact ⟨place, hfind⟩
    · cases h
  · rintro ⟨place, hfind⟩
    rw [hfind]

theorem isDirectory_iff :
    t.isDirectory path = true ↔ ∃ place, t.find true path = .ok (.here place .directory) := by
  rw [isDirectory, decide_eq_true_eq, entryAt?_eq_some_iff]

theorem has_iff :
    t.has path = true ↔ ∃ place entry, t.find true path = .ok (.here place entry) := by
  rw [has, Option.isSome_iff_exists]
  simp only [entryAt?_eq_some_iff]
  exact exists_comm

theorem has_of_isDirectory (h : t.isDirectory path = true) : t.has path = true := by
  obtain ⟨place, hfind⟩ := isDirectory_iff.1 h
  exact has_iff.2 ⟨place, .directory, hfind⟩

theorem isDirectory_mono (hle : t ≤ t') (h : t.isDirectory path = true) :
    t'.isDirectory path = true := by
  obtain ⟨place, hfind⟩ := isDirectory_iff.1 h
  exact isDirectory_iff.2 ⟨place, find_mono hle hfind⟩

theorem has_mono (hle : t ≤ t') (h : t.has path = true) : t'.has path = true := by
  obtain ⟨place, entry, hfind⟩ := has_iff.1 h
  exact has_iff.2 ⟨place, entry, find_mono hle hfind⟩

/-- The text of a file, or why there is none, is the same in every larger tree. -/
theorem readText_mono (hle : t ≤ t') (h : t.has path = true) : t'.readText path = t.readText path := by
  obtain ⟨place, entry, hfind⟩ := has_iff.1 h
  rw [readText, readText, read, read, hfind, find_mono hle hfind]

theorem Findable.above {absolute : Bool} {ps : List String} (hps : ∀ p ∈ ps, Path.IsPart p)
    (hne : ps ≠ []) (h : Findable (Path.ofParts absolute (ps ++ [name]))) :
    Findable (Path.ofParts absolute ps) := by
  have hnul := h.nul
  have hshort := h.short
  rw [Path.ofParts_append_singleton hne] at hnul hshort
  refine ⟨fun hmem => hnul ?_, Path.ofParts_ne_empty hps hne, ?_⟩
  · simp [String.toList_append, hmem]
  · simp only [String.utf8ByteSize_append] at hshort
    omega

/-- Above a directory there is a directory. -/
theorem isDirectory_above {absolute : Bool} {ps : List String}
    (hps : ∀ p ∈ ps ++ [name], Path.IsPart p) (hne : ps ≠ [])
    (h : t.isDirectory (Path.ofParts absolute (ps ++ [name])) = true) :
    t.isDirectory (Path.ofParts absolute ps) = true := by
  obtain ⟨place, hfind⟩ := isDirectory_iff.1 h
  rw [find_eq_ok_iff, Path.steps_ofParts hps (by simp)] at hfind
  obtain ⟨hpath, hwalk⟩ := hfind
  have hparts : ∀ p ∈ ps, Path.IsPart p := fun p hp => hps p (List.mem_append_left _ hp)
  obtain ⟨dir, hdir⟩ := walk_front (List.cons_ne_nil _ _) hwalk
  refine isDirectory_iff.2 ⟨dir, find_eq_ok_iff.2 ⟨hpath.above hparts hne, ?_⟩⟩
  rw [Path.steps_ofParts hparts hne]
  exact hdir

theorem findable_join_iff (hname : Path.IsPart name) :
    Findable (Path.join path name) ↔ '\x00' ∉ path.toList ∧ '\x00' ∉ name.toList ∧
      (Path.join path name).utf8ByteSize < maxPath := by
  have hnul : '\x00' ∈ (Path.join path name).toList ↔ '\x00' ∈ path.toList ∨ '\x00' ∈ name.toList := by
    have hjoint : '\x00' ∉ (Path.joint path).toList := Path.not_mem_joint (by decide)
    simp [Path.join_eq hname, String.toList_append, hjoint]
  constructor
  · intro h
    exact ⟨fun hmem => h.nul (hnul.2 (.inl hmem)), fun hmem => h.nul (hnul.2 (.inr hmem)), h.short⟩
  · rintro ⟨hpath, hnul', hshort⟩
    refine ⟨fun hmem => (hnul.1 hmem).elim hpath hnul', fun hempty => ?_, hshort⟩
    have hparts : Path.parts (Path.join path name) = Path.parts path ++ [name] := Path.parts_join hname
    rw [hempty] at hparts
    exact absurd hparts.symm (by simp [Path.parts_eq, Path.partsOf_nil])

theorem Findable.of_join (hname : Path.IsPart name) (hne : path ≠ "")
    (h : Findable (Path.join path name)) : Findable path := by
  have hshort := h.short
  rw [Path.join_eq hname, String.utf8ByteSize_append, String.utf8ByteSize_append] at hshort
  exact ⟨((findable_join_iff hname).1 h).1, hne, by omega⟩

/-- A name that is not longer can be looked up in the same place. -/
theorem Findable.sibling {other : String} (hname : Path.IsPart name) (hother : Path.IsPart other)
    (hnul : '\x00' ∉ other.toList) (hsize : other.utf8ByteSize ≤ name.utf8ByteSize)
    (h : Findable (Path.join path name)) : Findable (Path.join path other) := by
  have hshort := h.short
  rw [Path.join_eq hname, String.utf8ByteSize_append] at hshort
  refine (findable_join_iff hother).2 ⟨((findable_join_iff hname).1 h).1, hnul, ?_⟩
  rw [Path.join_eq hother, String.utf8ByteSize_append]
  omega

/-- Tidying a path keeps it findable. -/
theorem Findable.tidied (h : Findable path) (hparts : Path.parts path ≠ []) :
    Findable (Path.tidied path) where
  nul hmem := h.nul ((Path.sublist_tidied path).subset hmem)
  ne_empty := Path.ofParts_ne_empty (fun _ => Path.isPart_of_mem_parts) hparts
  short := Nat.lt_of_le_of_lt (Path.utf8ByteSize_le (Path.sublist_tidied path)) h.short

end QueryTree.FileTree
