import QueryTree.Files.Tree
import QueryTree.Proofs.Keyed

/-!
# Well-formed trees

`WellFormed t`: a place has at most one entry, and every entry lies in a directory. The tree without
entries is well-formed, and making and writing keep it so (`make`, `write`). In a well-formed tree the
entries below a place are those that are reached from there through directories, never through a link
(`mem_below`), and looking a path up depends on the entries only, not on their order (`walk_congr`).
-/

namespace QueryTree.FileTree

variable {t t' : FileTree} {place dir : Place} {name : String} {entry : Entry}

theorem entryOf?_nil (t : FileTree) : t.entryOf? [] = some .directory := if_pos rfl

theorem entryOf?_of_ne (h : place ≠ []) : t.entryOf? place = Keyed.get? place t.entries := if_neg h

theorem entryOf?_set (h : place ≠ []) (other : Place) :
    (t.set place entry).entryOf? other = if place = other then some entry else t.entryOf? other := by
  by_cases hother : other = []
  · subst hother
    rw [entryOf?_nil, entryOf?_nil, if_neg h]
  · rw [entryOf?_of_ne hother, entryOf?_of_ne hother, set, Keyed.get?_put]

structure WellFormed (t : FileTree) : Prop where
  /-- Every place has at most one entry. -/
  distinct : (Keyed.keys t.entries).Nodup
  /-- The top is not among the entries. -/
  top : [] ∉ Keyed.keys t.entries
  /-- Every entry lies in a directory. -/
  parent : ∀ place ∈ Keyed.keys t.entries, t.entryOf? place.dropLast = some .directory

instance (t : FileTree) : Decidable t.WellFormed :=
  decidable_of_iff (_ ∧ _ ∧ _) ⟨fun ⟨distinct, top, parent⟩ => ⟨distinct, top, parent⟩,
    fun ht => ⟨ht.distinct, ht.top, ht.parent⟩⟩

theorem wellFormed_empty : empty.WellFormed := by decide

namespace WellFormed

theorem mem_entries (ht : t.WellFormed) :
    (place, entry) ∈ t.entries ↔ place ≠ [] ∧ t.entryOf? place = some entry := by
  rw [← Keyed.get?_eq_some_iff ht.distinct]
  constructor
  · intro h
    have hne : place ≠ [] := by
      rintro rfl
      exact ht.top (Keyed.mem_keys_of_get? h)
    exact ⟨hne, by rwa [entryOf?_of_ne hne]⟩
  · rintro ⟨hne, h⟩
    rwa [entryOf?_of_ne hne] at h

theorem entryOf?_dropLast (ht : t.WellFormed) (h : t.entryOf? place = some entry) :
    t.entryOf? place.dropLast = some .directory := by
  by_cases hne : place = []
  · rw [hne]
    exact entryOf?_nil t
  · rw [entryOf?_of_ne hne] at h
    exact ht.parent place (Keyed.mem_keys_of_get? h)

theorem entryOf?_parent (ht : t.WellFormed) (h : t.entryOf? (dir ++ [name]) = some entry) :
    t.entryOf? dir = some .directory := by
  have hparent := ht.entryOf?_dropLast h
  rwa [List.dropLast_concat] at hparent

/-- An entry may be put into a directory where no directory is replaced by something else. -/
theorem set (ht : t.WellFormed) (hdir : t.entryOf? dir = some .directory)
    (hold : t.entryOf? (dir ++ [name]) ≠ some .directory) :
    (t.set (dir ++ [name]) entry).WellFormed where
  distinct := Keyed.nodup_keys_put ht.distinct
  top h := by
    rcases Keyed.mem_keys_put.1 h with h | h
    · simp at h
    · exact ht.top h
  parent place h := by
    have hparent : t.entryOf? place.dropLast = some .directory := by
      rcases Keyed.mem_keys_put.1 h with rfl | h
      · rwa [List.dropLast_concat]
      · exact ht.parent place h
    rw [entryOf?_set (by simp), if_neg]
    · exact hparent
    · intro heq
      rw [← heq] at hparent
      exact hold hparent

end WellFormed

/-! ### Looking paths up -/

/-- Outcomes are compared by what they hold. -/
instance {ε α : Type} [DecidableEq ε] [DecidableEq α] : DecidableEq (Except ε α)
  | .ok a, .ok b => decidable_of_iff (a = b) ⟨congrArg _, Except.ok.inj⟩
  | .error e, .error e' => decidable_of_iff (e = e') ⟨congrArg _, Except.error.inj⟩
  | .ok _, .error _ => isFalse nofun
  | .error _, .ok _ => isFalse nofun

/-- What a path leads to is there; a free place lies in a directory. -/
def Holds (t : FileTree) : Found → Prop
  | .here place entry => t.entryOf? place = some entry
  | .free place =>
    t.entryOf? place = none ∧ ∃ dir name, place = dir ++ [name] ∧ t.entryOf? dir = some .directory

/-- One step along a path, to a name. -/
theorem walk_name {follow : Bool} {links : Nat} {start : Place} {rest : List String}
    (hdot : name = "." → False) (hup : name = ".." → False) :
    t.walk follow links start (name :: rest) =
      if maxName < name.utf8ByteSize then .error .nameTooLong
      else match t.entryOf? (start ++ [name]) with
        | none => if rest = [] then .ok (.free (start ++ [name])) else .error .absent
        | some .directory => t.walk follow links (start ++ [name]) rest
        | some (.file bytes) =>
          if rest = [] then .ok (.here (start ++ [name]) (.file bytes)) else .error .notDirectory
        | some (.link target) =>
          if rest = [] ∧ ¬ follow then .ok (.here (start ++ [name]) (.link target))
          else match links with
            | 0 => .error .tooManyLinks
            | links + 1 =>
              t.walk follow links (if Path.isAbsolute target then [] else start)
                (Path.steps target ++ rest) :=
  walk.eq_4 t follow links start name rest hdot hup

theorem walk_holds (ht : t.WellFormed) {follow : Bool} {links : Nat} {start : Place}
    {steps : List String} {found : Found} (hstart : t.entryOf? start = some .directory)
    (h : t.walk follow links start steps = .ok found) : t.Holds found := by
  fun_induction walk t follow links start steps with
  | case1 => cases h; exact hstart
  | case2 _ _ _ ih => exact ih hstart h
  | case3 _ _ _ ih => exact ih (ht.entryOf?_dropLast hstart) h
  | case5 links start name _ _ place _ hnone => cases h; exact ⟨hnone, start, name, rfl, hstart⟩
  | case7 _ _ _ _ _ _ place _ hdir ih => exact ih hdir h
  | case8 _ _ _ _ _ place _ bytes hfile => cases h; exact hfile
  | case10 _ _ _ _ _ _ place _ target hlink => cases h; exact hlink
  | case12 start _ _ _ _ place _ target _ _ links ih =>
    refine ih ?_ h
    split
    · exact entryOf?_nil t
    · exact hstart
  | case4 | case6 | case9 | case11 => cases h

theorem find_holds (ht : t.WellFormed) {follow : Bool} {path : String} {found : Found}
    (h : t.find follow path = .ok found) : t.Holds found := by
  rw [find] at h
  split at h
  · cases h
  split at h
  · cases h
  split at h
  · cases h
  · exact walk_holds ht (entryOf?_nil t) h

theorem directoryAt_eq_ok (ht : t.WellFormed) {path : String} (h : t.directoryAt path = .ok place) :
    t.entryOf? place = some .directory := by
  rw [directoryAt] at h
  cases hfind : t.find true path with
  | error fault => rw [hfind] at h; cases h
  | ok found =>
    have hheld := find_holds ht hfind
    rw [hfind] at h
    cases found with
    | free place => cases h
    | here place entry =>
      cases entry with
      | directory => cases h; exact hheld
      | file bytes => cases h
      | link target => cases h

/-- An entry may be put where a path ends at a free place. -/
theorem WellFormed.set_free (ht : t.WellFormed) (h : t.Holds (.free place)) :
    (t.set place entry).WellFormed := by
  obtain ⟨hnone, dir, name, rfl, hdir⟩ := h
  exact ht.set hdir (by rw [hnone]; exact nofun)

/-- Looking up depends on what stands at each place. -/
theorem walk_congr (h : ∀ place, t'.entryOf? place = t.entryOf? place) (follow : Bool) (links : Nat)
    (start : Place) (steps : List String) :
    t.walk follow links start steps = t'.walk follow links start steps := by
  fun_induction walk t follow links start steps with
  | case1 => rw [walk]
  | case2 _ _ _ ih => rw [walk, ih]
  | case3 _ _ _ ih => rw [walk, ih]
  | case4 _ _ name _ hdot hup hlong => rw [walk_name hdot hup, if_pos hlong]
  | case5 _ _ name hdot hup place hshort hnone =>
    rw [walk_name hdot hup, if_neg hshort, h, hnone]
    rfl
  | case6 _ _ name _ hdot hup place hshort hnone hrest =>
    rw [walk_name hdot hup, if_neg hshort, h, hnone]
    exact (if_neg hrest).symm
  | case7 _ _ name _ hdot hup place hshort hdir ih =>
    rw [walk_name hdot hup, if_neg hshort, h, hdir]
    exact ih
  | case8 _ _ name hdot hup place hshort bytes hfile =>
    rw [walk_name hdot hup, if_neg hshort, h, hfile]
    rfl
  | case9 _ _ name _ hdot hup place hshort bytes hfile hrest =>
    rw [walk_name hdot hup, if_neg hshort, h, hfile]
    exact (if_neg hrest).symm
  | case10 _ _ name _ hdot hup place hshort target hlink hstop =>
    rw [walk_name hdot hup, if_neg hshort, h, hlink]
    exact (if_pos hstop).symm
  | case11 _ name _ hdot hup place hshort target hlink hgo =>
    rw [walk_name hdot hup, if_neg hshort, h, hlink]
    exact (if_neg hgo).symm
  | case12 _ name _ hdot hup place hshort target hlink hgo links ih =>
    rw [walk_name hdot hup, if_neg hshort, h, hlink]
    exact ih.trans (if_neg hgo).symm

namespace WellFormed

/-- The order of the entries tells nothing. -/
theorem entryOf?_perm (ht : t.WellFormed) (hp : t'.entries.Perm t.entries) (place : Place) :
    t'.entryOf? place = t.entryOf? place := by
  by_cases hne : place = []
  · rw [hne, entryOf?_nil, entryOf?_nil]
  · rw [entryOf?_of_ne hne, entryOf?_of_ne hne, Keyed.get?_perm ht.distinct hp.symm]

theorem make (ht : t.WellFormed) {path : String} (h : t.make path entry = .ok t') :
    t'.WellFormed := by
  rw [FileTree.make] at h
  cases hfind : t.find false path with
  | error fault => rw [hfind] at h; cases h
  | ok found =>
    have hheld := find_holds ht hfind
    rw [hfind] at h
    cases found with
    | here place entry => cases h
    | free place =>
      cases h
      exact ht.set_free hheld

theorem write (ht : t.WellFormed) {path : String} {bytes : List UInt8}
    (h : t.write path bytes = .ok t') : t'.WellFormed := by
  rw [FileTree.write] at h
  cases hfind : t.find true path with
  | error fault => rw [hfind] at h; cases h
  | ok found =>
    have hheld := find_holds ht hfind
    rw [hfind] at h
    cases found with
    | free place =>
      cases h
      exact ht.set_free hheld
    | here place entry =>
      cases entry with
      | directory => cases h
      | link target => cases h
      | file old =>
        cases h
        have hold : t.entryOf? place = some (.file old) := hheld
        rcases List.eq_nil_or_concat place with rfl | ⟨dir, name, rfl⟩
        · rw [entryOf?_nil] at hold
          cases hold
        · rw [List.concat_eq_append] at hold ⊢
          exact ht.set (ht.entryOf?_parent hold) (by rw [hold]; exact nofun)

end WellFormed

/-! ### What stands below a directory -/

/-- The entry at the end of `path` is reached from `dir` through directories. -/
inductive Reaches (t : FileTree) : (dir : Place) → (path : List String) → Entry → Prop
  | entry {dir : Place} {name : String} {entry : Entry}
      (h : t.entryOf? (dir ++ [name]) = some entry) : Reaches t dir [name] entry
  | inside {dir : Place} {name : String} {path : List String} {entry : Entry}
      (hdir : t.entryOf? (dir ++ [name]) = some .directory)
      (h : Reaches t (dir ++ [name]) path entry) : Reaches t dir (name :: path) entry

variable {path : List String}

theorem Reaches.entryOf?_eq (h : t.Reaches dir path entry) :
    path ≠ [] ∧ t.entryOf? (dir ++ path) = some entry := by
  induction h with
  | entry h => exact ⟨List.cons_ne_nil _ _, h⟩
  | inside hdir h ih =>
    refine ⟨List.cons_ne_nil _ _, ?_⟩
    rw [← ih.2, List.append_assoc, List.singleton_append]

/-- What leads to an entry are directories. -/
theorem WellFormed.entryOf?_append (ht : t.WellFormed) (hpath : path ≠ [])
    (h : t.entryOf? (dir ++ path) = some entry) : t.entryOf? dir = some .directory := by
  induction path generalizing dir with
  | nil => exact absurd rfl hpath
  | cons name path ih =>
    cases path with
    | nil => exact ht.entryOf?_parent h
    | cons next path =>
      rw [← List.singleton_append, ← List.append_assoc] at h
      exact ht.entryOf?_parent (ih (List.cons_ne_nil _ _) h)

theorem WellFormed.reaches (ht : t.WellFormed) (hpath : path ≠ [])
    (h : t.entryOf? (dir ++ path) = some entry) : t.Reaches dir path entry := by
  induction path generalizing dir with
  | nil => exact absurd rfl hpath
  | cons name path ih =>
    cases path with
    | nil => exact .entry h
    | cons next path =>
      rw [← List.singleton_append, ← List.append_assoc] at h
      exact .inside (ht.entryOf?_append (List.cons_ne_nil _ _) h) (ih (List.cons_ne_nil _ _) h)

/-- An entry stands below `dir` if its place goes on from there. -/
theorem below_step_eq_some_iff {e : Entry} :
    (if dir.isPrefixOf place && dir.length < place.length then
        some (place.drop dir.length, e) else none) = some (path, entry) ↔
      path ≠ [] ∧ place = dir ++ path ∧ e = entry := by
  constructor
  · intro h
    split at h
    · next hbelow =>
      simp only [Bool.and_eq_true, List.isPrefixOf_iff_prefix, decide_eq_true_eq] at hbelow
      obtain ⟨⟨rest, rfl⟩, hlen⟩ := hbelow
      rw [List.drop_left] at h
      cases h
      refine ⟨?_, rfl, rfl⟩
      rintro rfl
      simp at hlen
    · cases h
  · rintro ⟨hne, rfl, rfl⟩
    have hlen : 0 < path.length := List.length_pos_iff.2 hne
    simp [hlen]

/-- The entries below a place are those that are reached from there. -/
theorem WellFormed.mem_below (ht : t.WellFormed) :
    (path, entry) ∈ t.below dir ↔ t.Reaches dir path entry := by
  rw [below, List.mem_filterMap]
  constructor
  · rintro ⟨⟨place, e⟩, hmem, heq⟩
    obtain ⟨hne, rfl, rfl⟩ := below_step_eq_some_iff.1 heq
    exact ht.reaches hne (ht.mem_entries.1 hmem).2
  · intro h
    obtain ⟨hne, h⟩ := h.entryOf?_eq
    exact ⟨(dir ++ path, entry), ht.mem_entries.2 ⟨by simp [hne], h⟩,
      below_step_eq_some_iff.2 ⟨hne, rfl, rfl⟩⟩

theorem WellFormed.pairwise_below (ht : t.WellFormed) (dir : Place) :
    (t.below dir).Pairwise fun a b => a.1 ≠ b.1 := by
  rw [below, List.pairwise_filterMap]
  refine (List.pairwise_map.1 ht.distinct).imp ?_
  rintro ⟨place, e⟩ ⟨place', e'⟩ hne ⟨path, entry⟩ h ⟨path', entry'⟩ h'
  obtain ⟨-, rfl, -⟩ := below_step_eq_some_iff.1 h
  obtain ⟨-, rfl, -⟩ := below_step_eq_some_iff.1 h'
  exact fun heq => hne (congrArg (dir ++ ·) heq)

theorem directoryAt_congr (h : ∀ place, t'.entryOf? place = t.entryOf? place) (path : String) :
    t'.directoryAt path = t.directoryAt path := by
  rw [directoryAt, directoryAt, find, find, walk_congr h]

end QueryTree.FileTree
