import Mathlib.Data.Finset.Card
import Mathlib.Data.List.Induction

/-!
# Distinct items

`List.eraseDups` keeps every item where it first appears. What is appended at the end shows only if it
is new (`eraseDups_append_singleton`), so distinct items can be followed along a list that grows. Items
grouped by distinct keys are the items, each in one group (`flatMap_filter_perm`), and distinct texts
are in strict order once they are sorted (`pairwise_lt_of_nodup`).
-/

namespace QueryTree

section Distinct
variable {α β : Type} [BEq α] [LawfulBEq α] [BEq β] [LawfulBEq β]

theorem eraseDups_append_singleton (l : List α) (a : α) :
    (l ++ [a]).eraseDups = if a ∈ l then l.eraseDups else l.eraseDups ++ [a] := by
  rw [List.eraseDups_append]
  by_cases h : a ∈ l
  · simp [List.removeAll, h]
  · simp [List.removeAll, h, List.eraseDups_cons]

/-- Items put at the end where they are new. -/
theorem foldl_distinct_eq_eraseDups (l : List α) :
    l.foldl (fun items a => if items.contains a then items else items ++ [a]) [] = l.eraseDups := by
  induction l using List.reverseRecOn with
  | nil => rfl
  | append_singleton l a ih =>
    rw [List.foldl_append, ih, eraseDups_append_singleton, List.foldl_cons, List.foldl_nil]
    simp only [List.contains_iff_mem, List.mem_eraseDups]

theorem nodup_eraseDups (l : List α) : l.eraseDups.Nodup := by
  induction l using List.reverseRecOn with
  | nil => exact List.nodup_nil
  | append_singleton l a ih =>
    rw [eraseDups_append_singleton]
    split
    · exact ih
    · next hnew =>
      refine List.nodup_append.2 ⟨ih, List.nodup_singleton a, fun b hb c hc => ?_⟩
      rw [List.mem_singleton.1 hc]
      rintro rfl
      exact hnew (List.mem_eraseDups.1 hb)

/-- Whether an item is kept where it came again does not matter for what is read off the items. -/
theorem eraseDups_map_eraseDups (f : α → β) (l : List α) :
    (l.eraseDups.map f).eraseDups = (l.map f).eraseDups := by
  induction l using List.reverseRecOn with
  | nil => rfl
  | append_singleton l a ih =>
    have hmem : f a ∈ l.eraseDups.map f ↔ f a ∈ l.map f := by
      simp only [List.mem_map, List.mem_eraseDups]
    rw [eraseDups_append_singleton, List.map_append, List.map_singleton, eraseDups_append_singleton]
    by_cases ha : a ∈ l
    · rw [if_pos ha, if_pos (List.mem_map_of_mem ha), ih]
    · rw [if_neg ha, List.map_append, List.map_singleton, eraseDups_append_singleton, ih]
      simp only [hmem]

theorem length_eraseDups [DecidableEq α] (l : List α) : l.eraseDups.length = l.toFinset.card := by
  have hsame : l.eraseDups.toFinset = l.toFinset := by
    ext a
    simp only [List.mem_toFinset, List.mem_eraseDups]
  rw [← hsame, List.toFinset_card_of_nodup (nodup_eraseDups l)]

theorem pairwise_le_mergeSort (l : List String) :
    (l.mergeSort fun s s' => !decide (s' < s)).Pairwise (· ≤ ·) := by
  have hsorted : (l.mergeSort fun s s' => !decide (s' < s)).Pairwise fun s s' =>
      (!decide (s' < s)) = true := by
    refine List.pairwise_mergeSort (fun a b c hab hbc => ?_) (fun a b => ?_) _
    · simp only [Bool.not_eq_true', decide_eq_false_iff_not, String.not_lt] at *
      exact String.le_trans hab hbc
    · simp only [Bool.or_eq_true, Bool.not_eq_true', decide_eq_false_iff_not, String.not_lt]
      exact String.le_total a b
  refine hsorted.imp fun {s s'} h => ?_
  simpa only [Bool.not_eq_true', decide_eq_false_iff_not, String.not_lt] using h

/-- Distinct texts, once they are sorted, stand in strictly ascending order. -/
theorem pairwise_lt_of_nodup {l : List String} (hle : l.Pairwise (· ≤ ·)) (h : l.Nodup) :
    l.Pairwise (· < ·) :=
  (hle.and h).imp fun h => Std.lt_of_le_of_ne h.1 h.2

end Distinct

/-- The groups of distinct keys hold every item that has one of the keys, once. -/
theorem flatMap_filter_perm {α κ : Type} [DecidableEq κ] (key : α → κ) {keys : List κ}
    (h : keys.Nodup) (l : List α) :
    (keys.flatMap fun k => l.filter fun a => key a = k).Perm (l.filter fun a => key a ∈ keys) := by
  induction keys with
  | nil => simp
  | cons k keys ih =>
    obtain ⟨hk, hkeys⟩ := List.nodup_cons.1 h
    -- the group of the first key is split off from all items that are grouped
    have hfirst : (l.filter fun a => key a ∈ k :: keys).filter (fun a => key a = k) =
        l.filter fun a => key a = k := by
      rw [List.filter_filter]
      refine List.filter_congr fun a _ => ?_
      by_cases ha : key a = k <;> simp [ha]
    have hrest : (l.filter fun a => key a ∈ k :: keys).filter (fun a => !decide (key a = k)) =
        l.filter fun a => key a ∈ keys := by
      rw [List.filter_filter]
      refine List.filter_congr fun a _ => ?_
      by_cases ha : key a = k
      · simp [ha, hk]
      · simp [ha]
    have hsplit := List.filter_append_perm (fun a => decide (key a = k))
      (l.filter fun a => key a ∈ k :: keys)
    rw [hfirst, hrest] at hsplit
    rw [List.flatMap_cons]
    exact ((ih hkeys).append_left _).trans hsplit

end QueryTree
