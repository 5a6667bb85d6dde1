import QueryTree.Http.Execution
import QueryTree.Proofs.Json.ReadBack

/-!
# Answers that can be written as text

An answer of the store holds every column of a row once (`Answer.WellKeyed`), because its rows are
built by putting one cell after the other. If besides its cells are plain (`Answer.Plain`), its JSON
value can be read back from its text (`Answer.fits_toJson`).
-/

namespace QueryTree

namespace Answer

/-- In every row each column stands once. -/
def WellKeyed : Answer → Prop
  | query _ rows => ∀ row ∈ rows, (Keyed.keys row).Nodup
  | mutation .. => True

/-- Cells are null, texts, truth values or whole numbers of 64 bits, and so are the counts. -/
def Plain : Answer → Prop
  | query _ rows => (∀ row ∈ rows, ∀ cell ∈ row, cell.2.Fits 0) ∧ rows.length < 2 ^ 64
  | mutation lastId affected => -2 ^ 63 ≤ lastId ∧ lastId < 2 ^ 63 ∧ affected < 2 ^ 64

instance (a : Answer) : Decidable a.Plain :=
  match a with
  | query .. => inferInstanceAs (Decidable (_ ∧ _))
  | mutation .. => inferInstanceAs (Decidable (_ ∧ _))

/-- What is asked of every answer that an outcome gives can be tested on the outcome. -/
instance {ε : Type} (outcome : Except ε Answer) : Decidable (∀ a, outcome = .ok a → a.Plain) :=
  match outcome with
  | .ok a => decidable_of_iff a.Plain ⟨fun h _ ha => Except.ok.inj ha ▸ h, fun h => h a rfl⟩
  | .error _ => isTrue nofun

theorem wellKeyed_ofQuery (columns : List String) (all : List Done) :
    (ofQuery columns all).WellKeyed := by
  intro r hr
  obtain ⟨d, -, hr⟩ := List.mem_flatMap.1 hr
  obtain ⟨cells, -, rfl⟩ := List.mem_map.1 hr
  exact Keyed.nodup_keys_ofList _

variable {a : Answer}

theorem toJson_ne_null (a : Answer) : a.toJson ≠ .null := by
  cases a <;> exact Json.noConfusion

theorem fits_ofNat {depth n : Nat} (h : n < 2 ^ 64) : (Json.ofNat n).Fits depth :=
  .int (by omega) (by omega)

theorem fits_strings {depth : Nat} (items : List String) :
    (Json.strings items).Fits (depth + 1) := by
  refine .array fun x hx => ?_
  obtain ⟨s, -, rfl⟩ := List.mem_map.1 hx
  exact .string s

theorem fits_toJson (hkeys : a.WellKeyed) (h : a.Plain) : a.toJson.Fits 3 := by
  cases a with
  | query columns rows =>
    obtain ⟨hcells, hcount⟩ := h
    have hrows : (Json.array (rows.map .object)).Fits 2 := by
      refine .array fun x hx => ?_
      obtain ⟨row, hrow, rfl⟩ := List.mem_map.1 hx
      exact .object (hkeys row hrow) (hcells row hrow)
    have hnames : ["columns", "rows", "count"].Nodup := by decide
    refine .object hnames fun m hm => ?_
    simp only [List.mem_cons, List.not_mem_nil, or_false] at hm
    rcases hm with rfl | rfl | rfl
    · exact fits_strings columns
    · exact hrows
    · exact fits_ofNat hcount
  | mutation lastId affected =>
    obtain ⟨hlow, hhigh, haffected⟩ := h
    have hnames : ["last_insert_id", "rows_affected", "success"].Nodup := by decide
    refine .object hnames fun m hm => ?_
    simp only [List.mem_cons, List.not_mem_nil, or_false] at hm
    rcases hm with rfl | rfl | rfl
    · exact .int hlow (by omega)
    · exact fits_ofNat haffected
    · exact .bool true

end Answer

variable {σ : Type} [Engine σ]

theorem Store.wellKeyed_of_execute {s s' : Store σ} {sql : String} {args : List Json} {a : Answer}
    (h : s.execute sql args = (.ok a, s')) : a.WellKeyed := by
  rw [execute] at h
  split at h
  · cases h
  split at h
  · cases h
  split at h
  · rw [query] at h
    split at h
    · cases h
    split at h
    · cases h
      exact Answer.wellKeyed_ofQuery _ _
    · cases h
  · rw [mutate] at h
    split at h
    · cases h
      trivial
    · cases h

theorem Route.wellKeyed_of_run {r : Route} {params : ParamSet} {s : Store σ} {a : Answer}
    (h : (r.run params s).1.outcome = .ok a) : a.WellKeyed := by
  rw [run] at h
  split at h
  · cases h
  · dsimp only at h
    generalize he : s.execute _ _ = result at h
    obtain ⟨outcome, s'⟩ := result
    have ho : outcome = .ok a := h
    exact Store.wellKeyed_of_execute (ho ▸ he)

end QueryTree
