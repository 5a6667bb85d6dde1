import QueryTree.Proofs.Files.Growth

/-!
# Actions that only add

`Adds action t post`: run from `t` the action takes nothing away and changes no entry, whether it
succeeds or fails; and where it succeeds, `post` holds of its result and of the tree it leaves.
`Idle action t a`: in every tree from `t` on the action does nothing and answers `a`. Both are proved
part by part of an action. Making a path adds, and is idle once the directory is there; so does
writing a new file below a directory. `Succeeds` says that an action does not fail as long as the tree
is as it has to be.
-/

namespace QueryTree

open FileTree

namespace FileAction

variable {α β : Type} {action : FileAction α} {next : α → FileAction β} {t t' : FileTree}
  {post : α → FileTree → Prop} {post' : β → FileTree → Prop} {a : α} {b : β} {fault : FileFault}
  {path text name : String}

structure Adds (action : FileAction α) (t : FileTree) (post : α → FileTree → Prop) : Prop where
  le : t ≤ (action.run t).2
  post : ∀ a, (action.run t).1 = .ok a → post a (action.run t).2

def Idle (action : FileAction α) (t : FileTree) (a : α) : Prop :=
  ∀ t', t ≤ t' → action.run t' = (.ok a, t')

theorem run_get (f : FileTree → FileAction β) (t : FileTree) : (get >>= f).run t = (f t).run t := rfl

theorem run_bind_ok (h : action.run t = (.ok a, t')) :
    (action >>= next).run t = (next a).run t' := by
  change (ExceptT.bindCont next (action t).1 : StateM FileTree (Except FileFault β)) (action t).2 = _
  rw [show action t = (Except.ok a, t') from h]
  rfl

theorem run_bind_error (h : action.run t = (.error fault, t')) :
    (action >>= next).run t = (.error fault, t') := by
  change (ExceptT.bindCont next (action t).1 : StateM FileTree (Except FileFault β)) (action t).2 = _
  rw [show action t = (Except.error fault, t') from h]
  rfl

namespace Idle

theorem mono (h : Idle action t a) (hle : t ≤ t') : Idle action t' a :=
  fun t'' hle' => h t'' (le_trans hle hle')

theorem pure (a : α) : Idle (pure a) t a := fun _ _ => rfl

theorem bind (h : Idle action t a) (hnext : Idle (next a) t b) : Idle (action >>= next) t b :=
  fun t' hle => (run_bind_ok (h t' hle)).trans (hnext t' hle)

theorem forIn {l : List α} {body : α → PUnit → FileAction (ForInStep PUnit)}
    (h : ∀ x ∈ l, Idle (body x ⟨⟩) t (.yield ⟨⟩)) : Idle (forIn l ⟨⟩ body) t ⟨⟩ := by
  induction l with
  | nil => exact pure _
  | cons x l ih =>
    rw [List.forIn_cons]
    exact bind (h x List.mem_cons_self) (ih fun y hy => h y (List.mem_cons_of_mem x hy))

theorem filterMapM {l : List α} {f : α → FileAction (Option β)} (h : ∀ x ∈ l, Idle (f x) t none) :
    Idle (l.filterMapM f) t [] := by
  induction l with
  | nil => exact pure []
  | cons x l ih =>
    rw [List.filterMapM_cons]
    exact bind (h x List.mem_cons_self) (ih fun y hy => h y (List.mem_cons_of_mem x hy))

theorem flatMapM {l : List α} {f : α → FileAction (List β)} (h : ∀ x ∈ l, Idle (f x) t []) :
    Idle (l.flatMapM f) t [] := by
  induction l with
  | nil => exact pure []
  | cons x l ih =>
    rw [List.flatMapM_cons]
    refine bind (h x List.mem_cons_self) ?_
    exact bind (ih fun y hy => h y (List.mem_cons_of_mem x hy)) (pure _)

end Idle

namespace Adds

theorem imp {post' : α → FileTree → Prop} (h : Adds action t post)
    (himp : ∀ a t', t ≤ t' → post a t' → post' a t') : Adds action t post' :=
  ⟨h.le, fun a ha => himp a _ h.le (h.post a ha)⟩

theorem pure (h : post a t) : Adds (pure a) t post :=
  ⟨le_refl t, fun _ ha => Except.ok.inj ha ▸ h⟩

theorem throw : Adds (throw fault : FileAction α) t post := ⟨le_refl t, nofun⟩

theorem get {f : FileTree → FileAction β} (h : Adds (f t) t post') :
    Adds (get >>= f) t post' :=
  ⟨h.le, h.post⟩

theorem set {post : PUnit → FileTree → Prop} (hle : t ≤ t') (h : post () t') :
    Adds (set t' : FileAction PUnit) t post :=
  ⟨hle, fun _ _ => h⟩

theorem bind (h : Adds action t post)
    (hnext : ∀ a t', t ≤ t' → post a t' → Adds (next a) t' post') :
    Adds (action >>= next) t post' := by
  cases hrun : action.run t with
  | mk outcome t' =>
    have hle := h.le
    have hpost := h.post
    rw [hrun] at hle hpost
    cases outcome with
    | ok a =>
      have hadds := hnext a t' hle (hpost a rfl)
      have heq : (action >>= next).run t = (next a).run t' := run_bind_ok hrun
      exact ⟨heq ▸ le_trans hle hadds.le, heq ▸ hadds.post⟩
    | error fault =>
      have heq : (action >>= next).run t = (.error fault, t') := run_bind_error hrun
      exact ⟨heq ▸ hle, heq ▸ nofun⟩

theorem of_run_ok (h : Adds action t post) (hrun : action.run t = (.ok a, t')) :
    t ≤ t' ∧ post a t' := by
  have hle := h.le
  have hpost := h.post
  rw [hrun] at hle hpost
  exact ⟨hle, hpost a rfl⟩

/-- A loop adds if its body does. What the body leaves true of each item has to last. -/
theorem forIn {l : List α} {body : α → PUnit → FileAction (ForInStep PUnit)}
    (done : α → FileTree → Prop) (hlast : ∀ {x t t'}, t ≤ t' → done x t → done x t')
    (h : ∀ x ∈ l, ∀ t', t ≤ t' → Adds (body x ⟨⟩) t' fun s t'' => s = .yield ⟨⟩ ∧ done x t'') :
    Adds (forIn l ⟨⟩ body) t fun _ t' => ∀ x ∈ l, done x t' := by
  induction l generalizing t with
  | nil => exact pure fun _ hx => nomatch hx
  | cons x l ih =>
    rw [List.forIn_cons]
    refine bind (h x List.mem_cons_self t (le_refl t)) fun s t' hle hx => ?_
    obtain ⟨rfl, hx⟩ := hx
    have hrest := ih fun y hy t'' hle' => h y (List.mem_cons_of_mem x hy) t'' (le_trans hle hle')
    exact hrest.imp fun _ t'' hle' hl => List.forall_mem_cons.2 ⟨hlast hle' hx, hl⟩

theorem filterMapM {l : List α} {f : α → FileAction (Option β)} (done : α → FileTree → Prop)
    (hlast : ∀ {x t t'}, t ≤ t' → done x t → done x t')
    (h : ∀ x ∈ l, ∀ t', t ≤ t' → Adds (f x) t' fun _ => done x) :
    Adds (l.filterMapM f) t fun _ t' => ∀ x ∈ l, done x t' := by
  induction l generalizing t with
  | nil => exact pure fun _ hx => nomatch hx
  | cons x l ih =>
    rw [List.filterMapM_cons]
    refine bind (h x List.mem_cons_self t (le_refl t)) fun b t' hle hx => ?_
    have hrest := ih fun y hy t'' hle' => h y (List.mem_cons_of_mem x hy) t'' (le_trans hle hle')
    cases b with
    | none => exact hrest.imp fun _ t'' hle' hl => List.forall_mem_cons.2 ⟨hlast hle' hx, hl⟩
    | some b =>
      refine hrest.bind fun _ t'' hle' hl => pure ?_
      exact List.forall_mem_cons.2 ⟨hlast hle' hx, hl⟩

theorem flatMapM {l : List α} {f : α → FileAction (List β)} (done : α → FileTree → Prop)
    (hlast : ∀ {x t t'}, t ≤ t' → done x t → done x t')
    (h : ∀ x ∈ l, ∀ t', t ≤ t' → Adds (f x) t' fun _ => done x) :
    Adds (l.flatMapM f) t fun _ t' => ∀ x ∈ l, done x t' := by
  induction l generalizing t with
  | nil => exact pure fun _ hx => nomatch hx
  | cons x l ih =>
    rw [List.flatMapM_cons]
    refine bind (h x List.mem_cons_self t (le_refl t)) fun bs t' hle hx => ?_
    have hrest := ih fun y hy t'' hle' => h y (List.mem_cons_of_mem x hy) t'' (le_trans hle hle')
    refine hrest.bind fun _ t'' hle' hl => pure ?_
    exact List.forall_mem_cons.2 ⟨hlast hle' hx, hl⟩

end Adds

/-- From every tree with `inv` the action succeeds, with a result as `post` says, and `inv` still
holds. -/
def Succeeds (inv : FileTree → Prop) (action : FileAction α) (post : α → Prop) : Prop :=
  ∀ t, inv t → ∃ a t', action.run t = (.ok a, t') ∧ post a ∧ inv t'

namespace Succeeds

variable {inv : FileTree → Prop} {post : α → Prop} {post' : β → Prop}

theorem pure (h : post a) : Succeeds inv (pure a) post := fun t ht => ⟨a, t, rfl, h, ht⟩

theorem bind (h : Succeeds inv action post) (hnext : ∀ a, post a → Succeeds inv (next a) post') :
    Succeeds inv (action >>= next) post' := by
  intro t ht
  obtain ⟨a, t', hrun, ha, ht'⟩ := h t ht
  obtain ⟨b, t'', hrun', hb, ht''⟩ := hnext a ha t' ht'
  exact ⟨b, t'', (run_bind_ok hrun).trans hrun', hb, ht''⟩

theorem forIn {l : List α} {body : α → PUnit → FileAction (ForInStep PUnit)}
    (h : ∀ x ∈ l, Succeeds inv (body x ⟨⟩) (· = .yield ⟨⟩)) :
    Succeeds inv (forIn l ⟨⟩ body) fun _ => True := by
  induction l with
  | nil => exact pure trivial
  | cons x l ih =>
    rw [List.forIn_cons]
    refine bind (h x List.mem_cons_self) ?_
    rintro _ rfl
    exact ih fun y hy => h y (List.mem_cons_of_mem x hy)

theorem filterMapM {l : List α} {f : α → FileAction (Option β)}
    (h : ∀ x ∈ l, Succeeds inv (f x) fun _ => True) :
    Succeeds inv (l.filterMapM f) fun _ => True := by
  induction l with
  | nil => exact pure trivial
  | cons x l ih =>
    rw [List.filterMapM_cons]
    have hrest := ih fun y hy => h y (List.mem_cons_of_mem x hy)
    refine bind (h x List.mem_cons_self) fun b _ => ?_
    cases b with
    | none => exact hrest
    | some b => exact hrest.bind fun _ _ => pure trivial

theorem flatMapM {l : List α} {f : α → FileAction (List β)}
    (h : ∀ x ∈ l, Succeeds inv (f x) fun _ => True) :
    Succeeds inv (l.flatMapM f) fun _ => True := by
  induction l with
  | nil => exact pure trivial
  | cons x l ih =>
    rw [List.flatMapM_cons]
    refine bind (h x List.mem_cons_self) fun _ _ => ?_
    exact bind (ih fun y hy => h y (List.mem_cons_of_mem x hy)) fun _ _ => pure trivial

end Succeeds

end FileAction

/-! ### Making one entry -/

namespace FileTree

variable {t t' : FileTree} {path : String} {entry : Entry} {bytes : List UInt8}

theorem make_eq_ok (h : t.make path entry = .ok t') :
    ∃ place, t.find false path = .ok (.free place) ∧ t' = t.set place entry := by
  rw [make] at h
  cases hfind : t.find false path with
  | error fault =>
    rw [hfind] at h
    cases h
  | ok found =>
    rw [hfind] at h
    cases found with
    | here place e => cases h
    | free place =>
      cases h
      exact ⟨place, rfl, rfl⟩

theorem le_make (h : t.make path entry = .ok t') : t ≤ t' := by
  obtain ⟨place, hfind, rfl⟩ := make_eq_ok h
  exact le_set (find_eq_free hfind) entry

theorem isDirectory_make (h : t.make path .directory = .ok t') : t'.isDirectory path = true := by
  obtain ⟨place, hfind, rfl⟩ := make_eq_ok h
  exact isDirectory_iff.2 ⟨place, find_set hfind nofun⟩

/-- A directory is not made again. -/
theorem make_of_isDirectory (h : t.isDirectory path = true) :
    t.make path .directory = .error .taken := by
  obtain ⟨place, hfind⟩ := isDirectory_iff.1 h
  obtain ⟨place', entry, hfind'⟩ := find_unfollowed hfind
  rw [make, hfind']
  rfl

theorem write_eq_ok (hnot : t.has path = false) (h : t.write path bytes = .ok t') :
    ∃ place, t.find true path = .ok (.free place) ∧ t' = t.set place (.file bytes) := by
  rw [write] at h
  cases hfind : t.find true path with
  | error fault =>
    rw [hfind] at h
    cases h
  | ok found =>
    cases found with
    | here place e =>
      rw [has_iff.2 ⟨place, e, hfind⟩] at hnot
      cases hnot
    | free place =>
      rw [hfind] at h
      cases h
      exact ⟨place, rfl, rfl⟩

end FileTree

/-! ### Making paths and files -/

namespace FileAction

variable {t t' : FileTree} {path text : String} {absolute : Bool} {ps : List String}

theorem idle_makeDirectories (h : t.isDirectory (Path.ofParts absolute ps.reverse) = true) :
    Idle (makeDirectories absolute ps) t () := by
  intro t' hle
  cases ps with
  | nil => rfl
  | cons p ps =>
    have hdir := isDirectory_mono hle h
    rw [makeDirectories, run_get, make_of_isDirectory hdir]
    simp only [run_get]
    rw [if_pos hdir]
    rfl

theorem adds_makeDirectories (t : FileTree) (absolute : Bool) (ps : List String) :
    Adds (makeDirectories absolute ps) t fun _ t' =>
      ps ≠ [] → t'.isDirectory (Path.ofParts absolute ps.reverse) = true := by
  induction ps generalizing t with
  | nil => exact .pure fun hne => absurd rfl hne
  | cons p before ih =>
    have htest : ∀ (t : FileTree) fault, Adds (do
        if (← get).isDirectory (Path.ofParts absolute (p :: before).reverse) then pure ()
        else throw fault : FileAction Unit) t fun _ t' =>
          p :: before ≠ [] → t'.isDirectory (Path.ofParts absolute (p :: before).reverse) = true := by
      intro t fault
      refine .get ?_
      split
      · next hdir => exact .pure fun _ => hdir
      · exact .throw
    rw [makeDirectories]
    refine .get ?_
    split
    · next hmake => exact .set (le_make hmake) fun _ => isDirectory_make hmake
    · refine .bind (ih t) fun _ t' _ _ => .get ?_
      split
      · next hmake => exact .set (le_make hmake) fun _ => isDirectory_make hmake
      · exact htest t' _
    · exact htest t _

theorem makePath_tidied (path : String) : makePath (Path.tidied path) = makePath path := by
  rw [makePath, Path.parts_tidied, Path.isAbsolute_tidied, makePath]

theorem idle_makePath (h : t.isDirectory (Path.tidied path) = true) : Idle (makePath path) t () := by
  refine idle_makeDirectories ?_
  rw [List.reverse_reverse]
  exact h

theorem adds_makePath {name : String} (folder : String) (hname : Path.IsPart name) (t : FileTree) :
    Adds (makePath (Path.join folder name)) t fun _ t' =>
      t'.isDirectory (Path.tidied (Path.join folder name)) = true := by
  have hparts : (Path.parts (Path.join folder name)).reverse ≠ [] := by
    rw [Path.parts_join hname, List.reverse_append]
    exact List.cons_ne_nil _ _
  refine (adds_makeDirectories t _ _).imp fun _ t' _ hdir => ?_
  rw [Path.tidied, ← List.reverse_reverse (Path.parts _)]
  exact hdir hparts

theorem idle_writeNew (text : String) (h : t.has path = true) : Idle (writeNew path text) t false := by
  intro t' hle
  rw [writeNew, run_get, if_pos (has_mono hle h)]
  rfl

/-- In a directory that is there already, writing a new file makes nothing else. -/
theorem run_writeNew {folder name : String} (text : String) (hname : Path.IsPart name)
    (hfolder : Idle (makePath folder) t ()) (hnot : t.has (Path.join folder name) = false) :
    (writeNew (Path.join folder name) text).run t =
      match t.write (Path.join folder name) (Utf8.ofString text) with
      | .ok t' => (.ok true, t')
      | .error fault => (.error fault, t) := by
  have hparent : (makePath ((Path.parent? (Path.join folder name)).getD "")).run t = (.ok (), t) := by
    rw [Path.parent?_join hname, Option.getD_some, makePath_tidied]
    exact hfolder t (le_refl t)
  rw [writeNew, run_get, if_neg (by simp [hnot]), run_bind_ok hparent, step, bind_assoc, run_get]
  cases t.write (Path.join folder name) (Utf8.ofString text) with
  | ok t' => rfl
  | error fault => rfl

theorem adds_writeNew {folder name : String} (hname : Path.IsPart name)
    (hfolder : Idle (makePath folder) t ()) :
    Adds (writeNew (Path.join folder name) text) t fun _ t' =>
      t'.has (Path.join folder name) = true := by
  cases hhas : t.has (Path.join folder name) with
  | true =>
    have hrun := idle_writeNew text hhas t (le_refl t)
    exact ⟨hrun ▸ le_refl t, fun _ _ => hrun ▸ hhas⟩
  | false =>
    have hrun := run_writeNew text hname hfolder hhas
    cases hwrite : t.write (Path.join folder name) (Utf8.ofString text) with
    | error fault =>
      rw [hwrite] at hrun
      exact ⟨hrun ▸ le_refl t, hrun ▸ nofun⟩
    | ok t' =>
      rw [hwrite] at hrun
      obtain ⟨place, hfind, rfl⟩ := write_eq_ok hhas hwrite
      exact ⟨hrun ▸ le_set (find_eq_free hfind) _,
        fun _ _ => hrun ▸ has_iff.2 ⟨place, _, find_set hfind nofun⟩⟩

end FileAction
end QueryTree
