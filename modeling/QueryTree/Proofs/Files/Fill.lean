import QueryTree.Proofs.Files.Action

/-!
# Filling a directory

A `Plan` says which entries may stand below a directory, each given by its path from there: one entry
for a path, directories above it, no links. While a directory is filled by such a plan (`Filling`),
making a planned directory and writing a planned file both succeed.
-/

namespace QueryTree.FileTree

open FileAction

variable {t t' t'' : FileTree} {place dir start : Place} {entry : Entry} {found : Found} {follow : Bool}
  {links : Nat} {front rest names more : List String} {path root name text : String}

/-! ### Names -/

/-- A name that a directory can hold. -/
structure IsName (name : String) : Prop where
  part : Path.IsPart name
  ne_up : name ≠ ".."
  nul : '\x00' ∉ name.toList
  short : name.utf8ByteSize ≤ maxName

theorem IsName.walk (h : IsName name) :
    t.walk follow links start (name :: rest) =
      match t.entryOf? (start ++ [name]) with
      | none => if rest = [] then .ok (.free (start ++ [name])) else .error .absent
      | some .directory => t.walk follow links (start ++ [name]) rest
      | some (.file bytes) =>
        if rest = [] then .ok (.here (start ++ [name]) (.file bytes)) else .error .notDirectory
      | some (.link target) =>
        if rest = [] ∧ ¬ follow then .ok (.here (start ++ [name]) (.link target))
        else match links with
          | 0 => .error .tooManyLinks
          | links + 1 =>
            t.walk follow links (if Path.isAbsolute target then [] else start)
              (Path.steps target ++ rest) := by
  exact (walk_name h.part.ne_dot h.ne_up).trans (if_neg (Nat.not_lt.2 h.short))

theorem walk_down (ht : t.WellFormed) (hnames : ∀ n ∈ names, IsName n)
    (h : t.entryOf? (start ++ names) = some .directory) :
    t.walk follow links start (names ++ more) = t.walk follow links (start ++ names) more := by
  induction names generalizing start with
  | nil => rw [List.nil_append, List.append_nil]
  | cons n names ih =>
    obtain ⟨hn, hnames⟩ := List.forall_mem_cons.1 hnames
    rw [← List.singleton_append, ← List.append_assoc] at h
    have hdir : t.entryOf? (start ++ [n]) = some .directory := by
      by_cases hnil : names = []
      · rw [hnil, List.append_nil] at h
        exact h
      · exact ht.entryOf?_append hnil h
    rw [List.cons_append, hn.walk, hdir]
    refine (ih hnames h).trans ?_
    rw [List.append_assoc, List.singleton_append]

/-- Where nothing but directories stands on the way, what is missing is absent. -/
theorem walk_missing (hnames : ∀ n ∈ names, IsName n) (hmore : more ≠ [])
    (hstart : t.entryOf? start = some .directory)
    (hway : ∀ front, front <+: names → ∀ entry, t.entryOf? (start ++ front) = some entry →
      entry = .directory)
    (h : t.entryOf? (start ++ names) = none) :
    t.walk follow links start (names ++ more) = .error .absent := by
  induction names generalizing start with
  | nil =>
    rw [List.append_nil, hstart] at h
    cases h
  | cons n names ih =>
    obtain ⟨hn, hnames⟩ := List.forall_mem_cons.1 hnames
    rw [List.cons_append, hn.walk]
    cases hentry : t.entryOf? (start ++ [n]) with
    | none => exact if_neg fun hnil => hmore (List.append_eq_nil_iff.1 hnil).2
    | some entry =>
      obtain rfl := hway [n] (List.prefix_append [n] names) entry hentry
      refine ih hnames hentry (fun front hfront entry hat => ?_) ?_
      · refine hway (n :: front) (List.cons_prefix_cons.2 ⟨rfl, hfront⟩) entry ?_
        rw [← List.singleton_append, ← List.append_assoc]
        exact hat
      · rw [List.append_assoc, List.singleton_append]
        exact h

theorem directoryAt_eq_ok_iff :
    t.directoryAt path = .ok dir ↔ t.find true path = .ok (.here dir .directory) := by
  rw [directoryAt]
  constructor
  · intro h
    cases hfind : t.find true path with
    | error fault =>
      rw [hfind] at h
      cases h
    | ok found =>
      rw [hfind] at h
      cases found with
      | free place => cases h
      | here place entry =>
        cases entry with
        | directory =>
          cases h
          rfl
        | file bytes | link target => cases h
  · intro hfind
    rw [hfind]
    rfl

/-- A path that goes on from a directory is looked up from there. -/
theorem find_below (h : t.directoryAt root = .ok dir) :
    ∃ links, ∀ follow path rest, rest ≠ [] → Findable path →
      Path.steps path = Path.parts root ++ rest → t.find follow path = t.walk follow links dir rest := by
  obtain ⟨-, hwalk⟩ := find_eq_ok_iff.1 (directoryAt_eq_ok_iff.1 h)
  have hroot : t.walk true maxLinks [] (Path.parts root) = .ok (.here dir .directory) := by
    rw [Path.steps] at hwalk
    split at hwalk
    · obtain ⟨dir', hfront⟩ := walk_front (List.cons_ne_nil _ _) hwalk
      obtain ⟨links, hrest⟩ := walk_append hfront
      rw [hrest true ["."] (List.cons_ne_nil _ _), walk, walk] at hwalk
      rw [hfront, hwalk]
    · exact hwalk
  obtain ⟨links, hrest⟩ := walk_append hroot
  refine ⟨links, fun follow path rest hne hpath hsteps => ?_⟩
  rw [find_of_findable hpath, hsteps, hrest follow rest hne]

/-! ### Plans -/

/-- What may stand below a directory. -/
structure Plan (part : List String → Entry → Prop) : Prop where
  names : ∀ {path entry}, part path entry → ∀ name ∈ path, IsName name
  above : ∀ {path name entry}, part (path ++ [name]) entry → path ≠ [] → part path .directory
  unique : ∀ {path entry entry'}, part path entry → part path entry' → entry = entry'
  plain : ∀ {path target}, ¬ part path (.link target)

variable {part : List String → Entry → Prop}

theorem Plan.above_prefix (hp : Plan part) (h : part (names ++ rest) entry) (hne : names ≠ [])
    (hrest : rest ≠ []) : part names .directory := by
  induction rest using List.reverseRecOn generalizing entry with
  | nil => exact absurd rfl hrest
  | append_singleton rest name ih =>
    rw [← List.append_assoc] at h
    have hdir := hp.above h (List.append_ne_nil_of_left_ne_nil hne rest)
    by_cases hnil : rest = []
    · rw [hnil, List.append_nil] at hdir
      exact hdir
    · exact ih hdir hnil

/-- `t'` came from `t` by planned entries below the directory at `root`, and holds no others there. -/
structure Filling (t : FileTree) (root : String) (dir : Place) (part : List String → Entry → Prop)
    (t' : FileTree) : Prop where
  wellFormed : t'.WellFormed
  le : t ≤ t'
  root : t'.directoryAt root = .ok dir
  within : ∀ path entry, path ≠ [] → t'.entryOf? (dir ++ path) = some entry → part path entry
  outside : ∀ place entry, t'.entryOf? place = some entry →
    t.entryOf? place = some entry ∨ dir <+: place

namespace Filling

theorem entryOf?_dir (h : Filling t root dir part t') : t'.entryOf? dir = some .directory :=
  directoryAt_eq_ok h.wellFormed h.root

theorem entryOf?_eq (hp : Plan part) (h : Filling t root dir part t') (hpart : part names entry)
    (hne : names ≠ []) (hentry : t'.entryOf? (dir ++ names) ≠ none) :
    t'.entryOf? (dir ++ names) = some entry := by
  obtain ⟨entry', hentry⟩ := Option.ne_none_iff_exists'.1 hentry
  rw [hentry, hp.unique hpart (h.within names entry' hne hentry)]

theorem put (h : Filling t root dir part t') (hpart : part (front ++ [name]) entry)
    (hdir : t'.entryOf? (dir ++ front) = some .directory)
    (hnone : t'.entryOf? (dir ++ (front ++ [name])) = none) :
    Filling t root dir part (t'.set (dir ++ (front ++ [name])) entry) := by
  have hle := le_set hnone entry
  have hne : dir ++ (front ++ [name]) ≠ [] := by simp
  refine ⟨?_, le_trans h.le hle, ?_, fun path e hpath hat => ?_, fun place e hat => ?_⟩
  · rw [← List.append_assoc] at hnone ⊢
    exact h.wellFormed.set hdir (by rw [hnone]; exact nofun)
  · have hroot := h.root
    rw [directoryAt_eq_ok_iff] at hroot ⊢
    exact find_mono hle hroot
  · rw [entryOf?_set hne] at hat
    split at hat
    · next heq =>
      cases hat
      rw [← List.append_cancel_left heq]
      exact hpart
    · exact h.within path e hpath hat
  · rw [entryOf?_set hne] at hat
    split at hat
    · next heq => exact .inr (heq ▸ List.prefix_append dir _)
    · exact h.outside place e hat

/-- Looking up a planned path: its folder is missing, or it is, or it leads to the planned entry. -/
theorem find_cases (hp : Plan part) (h : Filling t root dir part t')
    (hpart : part (front ++ [name]) entry) (hpath : Findable path)
    (hsteps : Path.steps path = Path.parts root ++ (front ++ [name])) (follow : Bool) :
    (t'.entryOf? (dir ++ front) = none ∧ t'.find follow path = .error .absent) ∨
      (t'.entryOf? (dir ++ front) = some .directory ∧
        t'.entryOf? (dir ++ (front ++ [name])) = none ∧
        t'.find follow path = .ok (.free (dir ++ (front ++ [name])))) ∨
      (t'.entryOf? (dir ++ (front ++ [name])) = some entry ∧
        t'.find follow path = .ok (.here (dir ++ (front ++ [name])) entry)) := by
  obtain ⟨links, hfind⟩ := find_below h.root
  rw [hfind follow path _ (by simp) hpath hsteps]
  have hnames := hp.names hpart
  obtain ⟨hfront, hname⟩ := List.forall_mem_append.1 hnames
  have hway : ∀ path, path <+: front → ∀ e, t'.entryOf? (dir ++ path) = some e → e = .directory := by
    rintro path ⟨rest, rfl⟩ e hat
    by_cases hnil : path = []
    · rw [hnil, List.append_nil, h.entryOf?_dir] at hat
      exact (Option.some.inj hat).symm
    · rw [List.append_assoc] at hpart
      exact hp.unique (h.within path e hnil hat) (hp.above_prefix hpart hnil (by simp))
  cases hdir : t'.entryOf? (dir ++ front) with
  | none => exact .inl ⟨rfl, walk_missing hfront (List.cons_ne_nil _ _) h.entryOf?_dir hway hdir⟩
  | some e =>
    obtain rfl := hway front (List.prefix_refl front) e hdir
    refine .inr ?_
    rw [walk_down h.wellFormed hfront hdir, (hname name (List.mem_singleton_self name)).walk,
      List.append_assoc]
    cases hat : t'.entryOf? (dir ++ (front ++ [name])) with
    | none => exact .inl ⟨rfl, rfl, rfl⟩
    | some e =>
      obtain rfl := hp.unique hpart (h.within _ e (by simp) hat)
      refine .inr ⟨rfl, ?_⟩
      cases entry with
      | directory => exact walk.eq_1 ..
      | file bytes => rfl
      | link target => exact absurd hpart hp.plain

theorem entryOf?_of_has (hp : Plan part) (h : Filling t root dir part t')
    (hpart : part (front ++ [name]) entry)
    (hsteps : Path.steps path = Path.parts root ++ (front ++ [name])) (hhas : t'.has path = true) :
    t'.entryOf? (dir ++ (front ++ [name])) = some entry := by
  obtain ⟨place, e, hfind⟩ := has_iff.1 hhas
  have hpath := (find_eq_ok_iff.1 hfind).1
  rcases h.find_cases hp hpart hpath hsteps true with ⟨-, hfind'⟩ | ⟨-, -, hfind'⟩ | ⟨hat, -⟩
  · rw [hfind] at hfind'
    cases hfind'
  · rw [hfind] at hfind'
    cases hfind'
  · exact hat

/-! ### Making planned directories and files -/

/-- Making a planned directory whose folder is there either succeeds or finds it there. -/
theorem make (hp : Plan part) (h : Filling t root dir part t')
    (hpart : part (front ++ [name]) .directory) (hpath : Findable path)
    (hsteps : Path.steps path = Path.parts root ++ (front ++ [name]))
    (hdir : t'.entryOf? (dir ++ front) = some .directory) :
    (∃ t'', t'.make path .directory = .ok t'' ∧ Filling t root dir part t'' ∧
        t''.entryOf? (dir ++ (front ++ [name])) = some .directory) ∨
      (t'.make path .directory = .error .taken ∧ t'.isDirectory path = true ∧
        t'.entryOf? (dir ++ (front ++ [name])) = some .directory) := by
  have hne : dir ++ (front ++ [name]) ≠ [] := by simp
  rcases h.find_cases hp hpart hpath hsteps true with ⟨hnone, -⟩ | ⟨-, hnone, -⟩ | ⟨hat, hfind⟩
  · rw [hnone] at hdir
    cases hdir
  · rcases h.find_cases hp hpart hpath hsteps false with ⟨hmissing, -⟩ | ⟨-, -, hfind⟩ | ⟨hat, -⟩
    · rw [hmissing] at hdir
      cases hdir
    · refine .inl ⟨_, ?_, h.put hpart hdir hnone, ?_⟩
      · rw [FileTree.make, hfind]
        rfl
      · rw [entryOf?_set hne, if_pos rfl]
    · rw [hnone] at hat
      cases hat
  · have hisdir := isDirectory_iff.2 ⟨_, hfind⟩
    exact .inr ⟨make_of_isDirectory hisdir, hisdir, hat⟩

theorem makeDirectories {absolute : Bool} (hp : Plan part) (h : Filling t root dir part t')
    (hne : names ≠ []) (hpart : part names .directory)
    (hpath : Findable (Path.ofParts absolute (Path.parts root ++ names))) :
    ∃ t'', (FileAction.makeDirectories absolute (Path.parts root ++ names).reverse).run t' =
        (.ok (), t'') ∧ Filling t root dir part t'' ∧
      t''.entryOf? (dir ++ names) = some .directory := by
  induction names using List.reverseRecOn with
  | nil => exact absurd rfl hne
  | append_singleton front name ih =>
    have hparts : ∀ p ∈ Path.parts root ++ (front ++ [name]), Path.IsPart p := by
      refine List.forall_mem_append.2 ⟨fun p => Path.isPart_of_mem_parts, fun p hmem => ?_⟩
      exact (hp.names hpart p hmem).part
    have hsteps : Path.steps (Path.ofParts absolute (Path.parts root ++ (front ++ [name]))) =
        Path.parts root ++ (front ++ [name]) := Path.steps_ofParts hparts (by simp)
    have hrev : (Path.parts root ++ (front ++ [name])).reverse =
        name :: (Path.parts root ++ front).reverse := by simp
    have htext : (name :: (Path.parts root ++ front).reverse).reverse =
        Path.parts root ++ (front ++ [name]) := by simp
    rw [hrev, FileAction.makeDirectories, run_get, htext]
    rcases h.find_cases hp hpart hpath hsteps false with ⟨hmissing, hfind⟩ | hthere
    · have hmake : t'.make (Path.ofParts absolute (Path.parts root ++ (front ++ [name]))) .directory =
          .error .absent := by
        rw [FileTree.make, hfind]
        rfl
      rw [hmake]
      have hfront : front ≠ [] := by
        rintro rfl
        rw [List.append_nil, h.entryOf?_dir] at hmissing
        cases hmissing
      have hdirpart := hp.above hpart hfront
      have habove : Findable (Path.ofParts absolute (Path.parts root ++ front)) := by
        rw [← List.append_assoc] at hpath hparts
        exact hpath.above (fun p hmem => hparts p (List.mem_append_left _ hmem)) (by simp [hfront])
      obtain ⟨t₁, hrun, h₁, hdir⟩ := ih hfront hdirpart habove
      simp only
      rw [run_bind_ok hrun, run_get]
      rcases h₁.make hp hpart hpath hsteps hdir with ⟨t₂, hmake, h₂, hat⟩ | ⟨hmake, hisdir, hat⟩
      · rw [hmake]
        exact ⟨t₂, rfl, h₂, hat⟩
      · rw [hmake, run_get, if_pos hisdir]
        exact ⟨t₁, rfl, h₁, hat⟩
    · have hdir : t'.entryOf? (dir ++ front) = some .directory := by
        rcases hthere with ⟨hdir, -⟩ | ⟨hat, -⟩
        · exact hdir
        · rw [← List.append_assoc] at hat
          exact h.wellFormed.entryOf?_parent hat
      rcases h.make hp hpart hpath hsteps hdir with ⟨t₂, hmake, h₂, hat⟩ | ⟨hmake, hisdir, hat⟩
      · rw [hmake]
        exact ⟨t₂, rfl, h₂, hat⟩
      · rw [hmake]
        simp only
        rw [run_get, if_pos hisdir]
        exact ⟨t', rfl, h, hat⟩

theorem succeeds_makePath (hp : Plan part) (hne : names ≠ []) (hpart : part names .directory)
    (hpath : Findable path) (hparts : Path.parts path = Path.parts root ++ names) :
    Succeeds (Filling t root dir part) (makePath path) fun _ => True := by
  intro t' h
  have htidied := hpath.tidied (by rw [hparts]; simp [hne])
  rw [Path.tidied, hparts] at htidied
  obtain ⟨t'', hrun, h'', -⟩ := h.makeDirectories hp hne hpart htidied
  refine ⟨(), t'', ?_, trivial, h''⟩
  rw [makePath, hparts]
  exact hrun

/-- Writing a planned file below a folder that is there succeeds. -/
theorem writeNew {folder : String} (hp : Plan part) (h : Filling t root dir part t')
    (hpart : part (front ++ [name]) (.file (Utf8.ofString text)))
    (hpath : Findable (Path.join folder name))
    (hparts : Path.parts folder = Path.parts root ++ front)
    (hdir : t'.entryOf? (dir ++ front) = some .directory)
    (hfolder : t'.isDirectory (Path.tidied folder) = true) :
    ∃ written t'', (FileAction.writeNew (Path.join folder name) text).run t' = (.ok written, t'') ∧
      Filling t root dir part t'' := by
  have hname : Path.IsPart name := (hp.names hpart name (by simp)).part
  have hsteps : Path.steps (Path.join folder name) = Path.parts root ++ (front ++ [name]) := by
    rw [Path.steps_join hname, hparts, List.append_assoc]
  cases hhas : t'.has (Path.join folder name) with
  | true => exact ⟨false, t', idle_writeNew text hhas t' (le_refl t'), h⟩
  | false =>
    have hrun := run_writeNew text hname (idle_makePath hfolder) hhas
    rcases h.find_cases hp hpart hpath hsteps true with ⟨hmissing, -⟩ | ⟨-, hnone, hfind⟩ | ⟨-, hfind⟩
    · rw [hmissing] at hdir
      cases hdir
    · have hwrite : t'.write (Path.join folder name) (Utf8.ofString text) =
          .ok (t'.set (dir ++ (front ++ [name])) (.file (Utf8.ofString text))) := by
        rw [FileTree.write, hfind]
        rfl
      rw [hwrite] at hrun
      exact ⟨true, _, hrun, h.put hpart hdir hnone⟩
    · rw [has_iff.2 ⟨_, _, hfind⟩] at hhas
      cases hhas

end Filling

end QueryTree.FileTree
