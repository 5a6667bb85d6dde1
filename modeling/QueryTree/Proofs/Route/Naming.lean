import QueryTree.Config
import QueryTree.Proofs.Text.Split
import QueryTree.Route.Naming

/-!
# Paths of descriptors

The path of a descriptor is the base, the table and the stem of the file. A stem holds no slash, so it
is the last segment of the path (`operation_describe`), and below a normalized base every path begins
with a slash (`rooted_describe`). A path is served if the server does not answer it itself and no
character of it stands for a capture (`obstacle?_eq_none_iff`).
-/

namespace QueryTree

namespace Config

theorem rooted_normalizeBase (base : String) :
    normalizeBase base = "" ∨ (normalizeBase base).toList.head? = some '/' := by
  rw [normalizeBase]
  split
  · exact .inl rfl
  · exact .inr (by rw [String.toList_ofList]; rfl)

end Config

namespace Naming
variable {path base name : String} {table : Option String} {c : Char}

/-- The stem of the file at a relative path. -/
def stem (path : String) : String := fileStem ((segments path).getLast?.getD "")

theorem path_describe (path base : String) :
    (describe path base).path = routePath base (describe path base).table (stem path) := rfl

/-! ### Stems -/

theorem slash_not_mem_of_mem_segments (h : name ∈ segments path) : '/' ∉ name.toList := by
  obtain ⟨piece, hpiece, rfl⟩ := List.mem_map.1 (List.mem_filter.1 h).1
  rw [String.toList_ofList]
  intro hslash
  exact absurd (Text.mem_of_mem_splitBy hpiece hslash).2 (by decide)

theorem mem_of_mem_fileStem (h : c ∈ (fileStem name).toList) : c ∈ name.toList := by
  rw [fileStem] at h
  split at h
  · next d before after hbreak =>
    rw [String.toList_ofList] at h
    rw [(Text.breakOnLast_eq_some_iff.1 hbreak).1]
    exact List.mem_append_left _ h
  · exact h

theorem slash_not_mem_stem (path : String) : '/' ∉ (stem path).toList := by
  intro h
  have h := mem_of_mem_fileStem h
  cases hlast : (segments path).getLast? with
  | none => rw [hlast] at h; cases h
  | some file =>
    rw [hlast] at h
    exact slash_not_mem_of_mem_segments (List.mem_of_getLast? hlast) h

/-! ### Served paths -/

theorem obstacle?_eq_none_iff :
    obstacle? path = none ↔ path ∉ builtInPaths ∧ ∀ c ∈ path.toList, isCapture c = false := by
  rw [obstacle?]
  by_cases hbuiltIn : path ∈ builtInPaths
  · simp [hbuiltIn]
  · have hany : path.toList.any isCapture = false ↔ ∀ c ∈ path.toList, isCapture c = false := by
      simp
    rw [if_neg hbuiltIn, ← hany]
    cases path.toList.any isCapture <;> simp [hbuiltIn]

/-! ### Route paths -/

theorem toList_routePath (base : String) (table : Option String) (stem : String) :
    (routePath base table stem).toList =
      base.toList ++ (table.elim [] fun t => '/' :: t.toList) ++ '/' :: stem.toList := by
  cases table <;> simp [routePath, String.toList_append]

theorem operation_describe (path base : String) : (describe path base).operation = stem path := by
  rw [Descriptor.operation, path_describe, toList_routePath,
    Text.breakOnLast_append (slash_not_mem_stem path)]
  exact String.ofList_toList

theorem path_eq_routePath (path base : String) :
    (describe path base).path =
      routePath base (describe path base).table (describe path base).operation := by
  rw [operation_describe, path_describe]

/-- Below a base that is empty or begins with a slash, every path begins with a slash. -/
theorem rooted_describe (h : base = "" ∨ base.toList.head? = some '/') (path : String) :
    (describe path base).path.toList.head? = some '/' := by
  rw [path_describe, toList_routePath]
  rcases h with rfl | h
  · cases (describe path "").table <;> rfl
  · cases hb : base.toList with
    | nil => rw [hb] at h; cases h
    | cons d r => rwa [hb] at h

end Naming
end QueryTree
