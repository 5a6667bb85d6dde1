import Mathlib.Data.List.TakeWhile
import QueryTree.Sql.TableDecl

/-!
# The names of declared tables

A table that a script declares is named by word characters only, whatever stands around the name.
-/

namespace QueryTree.Sql

open Text (isWord)

variable {s name rest : List Char} {script : String}

/-- At least one word character, and no other. -/
def IsWordName (name : List Char) : Prop := name ≠ [] ∧ ∀ c ∈ name, isWord c = true

theorem isWordName_takeWhile (h : (s.takeWhile isWord).isEmpty ≠ true) :
    IsWordName (s.takeWhile isWord) :=
  ⟨fun hnil => h (List.isEmpty_iff.2 hnil), fun _ hc => List.mem_takeWhile_imp hc⟩

theorem isWordName_nameAt? (h : nameAt? s = some name) : IsWordName name := by
  have hbare : ∀ s : List Char, (if (s.takeWhile isWord).isEmpty then none
      else some (s.takeWhile isWord)) = some name → IsWordName name := by
    intro s h
    split at h
    · cases h
    · next hne =>
      cases h
      exact isWordName_takeWhile hne
  cases s with
  | nil => cases h
  | cons c r =>
    rw [nameAt?] at h
    split at h
    · exact hbare r h
    · exact hbare (c :: r) h

theorem isWordName_declaredAt? (h : declaredAt? s = some (name, rest)) : IsWordName name := by
  obtain ⟨⟨temp, r⟩, -, h⟩ := Option.bind_eq_some_iff.1 h
  dsimp only at h
  split at h
  · next named hguarded =>
    cases h
    obtain ⟨_, -, hguarded⟩ := Option.bind_eq_some_iff.1 hguarded
    obtain ⟨_, hname, hguarded⟩ := Option.bind_eq_some_iff.1 hguarded
    cases hguarded
    exact isWordName_nameAt? hname
  · obtain ⟨_, hname, h⟩ := Option.bind_eq_some_iff.1 h
    cases h
    exact isWordName_nameAt? hname

theorem isWordName_of_mem_declaredFrom {inWord : Bool} (h : name ∈ declaredFrom inWord s) :
    IsWordName name := by
  fun_induction declaredFrom inWord s with
  | case1 => cases h
  | case2 _ _ ih => exact ih h
  | case4 _ _ _ _ _ ih => exact ih h
  | case3 _ _ _ _ _ _ hdeclared ih =>
    rcases List.mem_cons.1 h with rfl | h
    · exact isWordName_declaredAt? hdeclared
    · exact ih h

theorem mem_of_mem_foldl_distinct {α : Type} [BEq α] {a : α} (l acc : List α)
    (h : a ∈ l.foldl (fun names name => if names.contains name then names else names ++ [name]) acc) :
    a ∈ acc ∨ a ∈ l := by
  induction l generalizing acc with
  | nil => exact .inl h
  | cons b l ih =>
    rcases ih _ h with hacc | hl
    · dsimp only at hacc
      split at hacc
      · exact .inl hacc
      · rcases List.mem_append.1 hacc with hacc | hb
        · exact .inl hacc
        · exact .inr (List.mem_cons.2 (.inl (List.mem_singleton.1 hb)))
    · exact .inr (List.mem_cons_of_mem b hl)

theorem isWordName_of_mem_declaredTables {table : String} (h : table ∈ declaredTables script) :
    IsWordName table.toList := by
  rcases mem_of_mem_foldl_distinct _ _ h with hnil | hmem
  · cases hnil
  · obtain ⟨name, hname, rfl⟩ := List.mem_map.1 hmem
    rw [String.toList_ofList]
    exact isWordName_of_mem_declaredFrom hname

theorem IsWordName.not_mem {c : Char} (h : IsWordName name) (hc : isWord c = false) : c ∉ name := by
  intro hmem
  rw [h.2 c hmem] at hc
  cases hc

end QueryTree.Sql
