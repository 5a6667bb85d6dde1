import QueryTree.Proofs.Route.Compile
import QueryTree.Proofs.Route.Naming
import QueryTree.Proofs.Route.Order
import QueryTree.Startup

/-!
# Putting the router together

The paths of an app are given to a router, and no app comes of it if the router refuses one. What a
router refuses is a parameter here; it is assumed to have one of four reasons (`Router.Documented`).
The paths of a table that is compiled under a normalized base give it none, neither each other nor
beside the paths that an app answers itself, and they leave these alone (`RouteTable.mounts_of_compile`).
-/

namespace QueryTree

/-- Whether a router refuses a path, by the paths that it has. -/
abbrev Router := List String → String → Bool

namespace Router

variable {refuses : Router} {known paths : List String} {path : String}

def HasCapture (path : String) : Prop := ∃ c ∈ path.toList, Naming.isCapture c = true

/-- A path is refused only if it is empty, does not begin with a slash, is there already or conflicts
with one that is there through a capture. -/
def Documented (refuses : Router) : Prop :=
  ∀ known path, refuses known path = true →
    path = "" ∨ path.toList.head? ≠ some '/' ∨ path ∈ known ∨ ∃ p ∈ path :: known, HasCapture p

/-- The paths of a router that is given some more; none if it refuses one of them. -/
def add? (refuses : Router) (known : List String) : List String → Option (List String)
  | [] => some known
  | path :: paths => if refuses known path then none else add? refuses (known ++ [path]) paths

/-- Each path is given to a router of its own, and that one is joined to those before. -/
def join? (refuses : Router) (known : List String) : List String → Option (List String)
  | [] => some known
  | path :: paths => do
    let own ← add? refuses [] [path]
    join? refuses (← add? refuses known own) paths

/-- The paths of the router of an app. The router of the built-in paths takes the compiled ones over
from a router of theirs, in an order of its own. -/
def assemble? (refuses : Router) (shuffle : List String → List String) (paths : List String) :
    Option (List String) := do
  let compiled ← join? refuses [] paths
  let builtIn ← add? refuses [] Naming.builtInPaths
  add? refuses builtIn (shuffle compiled)

/-- A path that begins with a slash and holds no character that stands for a capture. -/
structure Literal (path : String) : Prop where
  rooted : path.toList.head? = some '/'
  no_colon : ':' ∉ path.toList
  no_star : '*' ∉ path.toList

theorem Literal.not_hasCapture (h : Literal path) : ¬ HasCapture path := by
  rintro ⟨c, hc, hcapture⟩
  rw [Naming.isCapture, Bool.or_eq_true, beq_iff_eq, beq_iff_eq] at hcapture
  rcases hcapture with rfl | rfl
  · exact h.no_colon hc
  · exact h.no_star hc

theorem literal_of_mem_builtInPaths (h : path ∈ Naming.builtInPaths) : Literal path := by
  have hall : ∀ path ∈ Naming.builtInPaths,
      path.toList.head? = some '/' ∧ ':' ∉ path.toList ∧ '*' ∉ path.toList := by decide
  obtain ⟨hrooted, hcolon, hstar⟩ := hall path h
  exact ⟨hrooted, hcolon, hstar⟩

/-- Beside literal paths, another one is not refused. -/
theorem Documented.takes (h : Documented refuses) (hknown : ∀ p ∈ known, Literal p)
    (hpath : Literal path) (hnew : path ∉ known) : refuses known path = false := by
  rw [← Bool.not_eq_true]
  intro hrefused
  rcases h known path hrefused with rfl | hrooted | hmem | ⟨p, hp, hcapture⟩
  · cases hpath.rooted
  · exact hrooted hpath.rooted
  · exact hnew hmem
  · rcases List.mem_cons.1 hp with rfl | hp
    · exact hpath.not_hasCapture hcapture
    · exact (hknown p hp).not_hasCapture hcapture

theorem Documented.add?_eq_some (h : Documented refuses) (hliteral : ∀ p ∈ known ++ paths, Literal p)
    (hnodup : (known ++ paths).Nodup) : add? refuses known paths = some (known ++ paths) := by
  induction paths generalizing known with
  | nil =>
    rw [List.append_nil]
    rfl
  | cons path paths ih =>
    have hnew : path ∉ known := fun hmem =>
      (List.nodup_append.1 hnodup).2.2 path hmem path List.mem_cons_self rfl
    have htakes := h.takes (fun p hp => hliteral p (List.mem_append_left _ hp))
      (hliteral path (List.mem_append_right _ List.mem_cons_self)) hnew
    rw [List.append_cons] at hliteral hnodup ⊢
    rw [add?, htakes]
    exact ih hliteral hnodup

theorem Documented.join?_eq_some (h : Documented refuses) (hliteral : ∀ p ∈ known ++ paths, Literal p)
    (hnodup : (known ++ paths).Nodup) : join? refuses known paths = some (known ++ paths) := by
  induction paths generalizing known with
  | nil =>
    rw [List.append_nil]
    rfl
  | cons path paths ih =>
    rw [List.append_cons] at hliteral hnodup ⊢
    have hknown : ∀ p ∈ known ++ [path], Literal p :=
      fun p hp => hliteral p (List.mem_append_left paths hp)
    have hown : add? refuses [] [path] = some [path] :=
      h.add?_eq_some (fun p hp => hknown p (List.mem_append_right known hp)) (List.nodup_singleton path)
    have hjoined : add? refuses known [path] = some (known ++ [path]) :=
      h.add?_eq_some hknown (List.nodup_append.1 hnodup).1
    simp only [join?, hown, hjoined, Option.bind_eq_bind, Option.bind_some]
    exact ih hliteral hnodup

/-- Of distinct literal paths other than the built-in ones, none is refused, in whatever order they
are taken over. -/
theorem Documented.assemble?_eq_some (h : Documented refuses)
    {shuffle : List String → List String} (hshuffle : ∀ l, (shuffle l).Perm l)
    (hliteral : ∀ p ∈ paths, Literal p) (hown : ∀ p ∈ paths, p ∉ Naming.builtInPaths)
    (hnodup : paths.Nodup) :
    assemble? refuses shuffle paths = some (Naming.builtInPaths ++ shuffle paths) := by
  have hbuiltIn : add? refuses [] Naming.builtInPaths = some Naming.builtInPaths :=
    h.add?_eq_some (fun p hp => literal_of_mem_builtInPaths hp) (by decide)
  have hmem : ∀ p, p ∈ shuffle paths ↔ p ∈ paths := fun p => (hshuffle paths).mem_iff
  have htaken : add? refuses Naming.builtInPaths (shuffle paths) =
      some (Naming.builtInPaths ++ shuffle paths) := by
    refine h.add?_eq_some (fun p hp => ?_) ?_
    · rcases List.mem_append.1 hp with hp | hp
      · exact literal_of_mem_builtInPaths hp
      · exact hliteral p ((hmem p).1 hp)
    · refine List.nodup_append.2 ⟨by decide, (hshuffle paths).nodup_iff.2 hnodup, ?_⟩
      rintro p hp q hq rfl
      exact hown p ((hmem p).1 hq) hp
  have hjoined : join? refuses [] paths = some ([] ++ paths) := h.join?_eq_some hliteral hnodup
  simp only [assemble?, hjoined, hbuiltIn, Option.bind_eq_bind, Option.bind_some]
  exact htaken

/-- The router that refuses a path for any of the documented reasons. -/
def strict : Router := fun known path =>
  path.toList.head? != some '/' || known.contains path ||
    (path :: known).any fun p => p.toList.any Naming.isCapture

theorem documented_strict : Documented strict := by
  intro known path hrefused
  rw [strict, Bool.or_eq_true, Bool.or_eq_true, bne_iff_ne, List.contains_iff_mem,
    List.any_eq_true] at hrefused
  rcases hrefused with (hrooted | hknown) | ⟨p, hp, hcapture⟩
  · exact .inr (.inl hrooted)
  · exact .inr (.inr (.inl hknown))
  · exact .inr (.inr (.inr ⟨p, hp, List.any_eq_true.1 hcapture⟩))

end Router

namespace RouteTable

variable {refuses : Router} {shuffle : List String → List String} {t : FileTree}
  {root base : String} {table : RouteTable}

/-- The routes of the table can be served beside the paths that an app answers itself. -/
structure Mounts (refuses : Router) (shuffle : List String → List String) (table : RouteTable) :
    Prop where
  literal : ∀ r ∈ table.routes, Router.Literal r.descriptor.path
  not_builtIn : ∀ r ∈ table.routes, r.descriptor.path ≠ "/" ∧ r.descriptor.path ≠ "/health"
  nodup_paths : (table.byPath.map Prod.fst).Nodup
  nodup_methods : ∀ group ∈ table.byPath, (group.2.map fun r => r.descriptor.method).Nodup
  /-- The router takes all paths. -/
  assembled : Router.assemble? refuses shuffle (table.byPath.map Prod.fst) =
    some (Naming.builtInPaths ++ shuffle (table.byPath.map Prod.fst))
  /-- So no path keeps an app from starting. -/
  rooted : table.unrooted? = none

theorem literal_of_compile (h : compile t root (Config.normalizeBase base) = .ok table) {r : Route}
    (hr : r ∈ table.routes) : Router.Literal r.descriptor.path := by
  obtain ⟨file, hdescribed, hserved⟩ := described_of_mem h hr
  have hcapture := (Naming.obstacle?_eq_none_iff.1 hserved).2
  refine ⟨?_, fun hcolon => ?_, fun hstar => ?_⟩
  · rw [hdescribed]
    exact Naming.rooted_describe (Config.rooted_normalizeBase base) file
  · cases hcapture ':' hcolon
  · cases hcapture '*' hstar

/-- Whatever text the base is made from, the routes of a table that is compiled under it can be
served, whichever paths the router refuses for the documented reasons. -/
theorem mounts_of_compile (h : compile t root (Config.normalizeBase base) = .ok table)
    (hrefuses : refuses.Documented) (hshuffle : ∀ l, (shuffle l).Perm l) :
    table.Mounts refuses shuffle := by
  have hbuiltIn : ∀ r ∈ table.routes, r.descriptor.path ∉ Naming.builtInPaths := by
    intro r hr
    obtain ⟨-, -, hserved⟩ := described_of_mem h hr
    exact (Naming.obstacle?_eq_none_iff.1 hserved).1
  have hliteral : ∀ path ∈ table.paths, Router.Literal path :=
    forall_mem_paths.2 fun r hr => literal_of_compile h hr
  have hown : ∀ path ∈ table.paths, path ∉ Naming.builtInPaths := forall_mem_paths.2 hbuiltIn
  refine ⟨fun r hr => literal_of_compile h hr, fun r hr => ?_, ?_, ?_, ?_, ?_⟩
  · have hr := hbuiltIn r hr
    simp only [Naming.builtInPaths, List.mem_cons, List.not_mem_nil, or_false, not_or] at hr
    exact hr
  · rw [map_fst_byPath]
    exact table.nodup_paths
  · intro group hgroup
    rw [snd_of_mem_byPath hgroup]
    exact nodup_methods_routesAt (nodup_keys_of_compile h) group.1
  · rw [map_fst_byPath]
    exact hrefuses.assemble?_eq_some hshuffle hliteral hown table.nodup_paths
  · refine List.find?_eq_none.2 fun path hpath => ?_
    rw [(hliteral path hpath).rooted]
    decide

/-- A table with two routes on one path, taken over from its end. -/
theorem mounts_mixed :
    compile mixed "db" (Config.normalizeBase " api/") = .ok mixedTable ∧
      Router.strict.Documented ∧ (∀ l : List String, l.reverse.Perm l) ∧
      mixedTable.Mounts Router.strict List.reverse ∧
      Router.strict.assemble? List.reverse (mixedTable.byPath.map Prod.fst) =
        some ["/", "/health", "/api/a b", "/api/system/x", "/api/x"] ∧
      Router.strict.add? ["/", "/health"] ["/api/x", "/health"] = none := by
  have hbase : Config.normalizeBase " api/" = "/api" := by decide +kernel
  have hcompiled : compile mixed "db" (Config.normalizeBase " api/") = .ok mixedTable := by
    rw [hbase]
    exact compile_mixed
  exact ⟨hcompiled, Router.documented_strict, List.reverse_perm,
    mounts_of_compile hcompiled Router.documented_strict List.reverse_perm, by decide +kernel,
    by decide +kernel⟩

end RouteTable

end QueryTree
