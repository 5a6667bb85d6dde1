import Mathlib.Data.List.Nodup
import Mathlib.Logic.Relation
import QueryTree.Database.Change

/-!
# Catalogues

The catalogue of a database has an entry for each table, index, view and trigger in it. What statements
make of it is put together from single changes (`Catalogue.Alteration`), and these never give two tables
one name (`Catalogue.Alters.apart`). Between catalogues in which no two tables have one name there is
always such a way (`Catalogue.alters_of_apart`), so that a transaction can also be taken back.
-/

namespace QueryTree

namespace Catalogue

inductive Kind where
  | table
  | index
  | view
  | trigger
  deriving DecidableEq

structure Entry where
  kind : Kind
  name : String
  deriving DecidableEq

end Catalogue

abbrev Catalogue := List Catalogue.Entry

namespace Catalogue

variable {c c' c'' : Catalogue} {e : Entry}

/-- The names of the tables, the engine's own among them. -/
def tables (c : Catalogue) : List String := (c.filter fun e => e.kind = .table).map Entry.name

/-- The names of the tables that users have made: they do not begin with the reserved prefix. -/
def userTables (c : Catalogue) : List String := c.tables.filter fun name => !Database.isReserved name

/-- No two tables have one name. -/
def Apart (c : Catalogue) : Prop := c.tables.Nodup

/-- A single change of a catalogue. A table is given a name only if no other has it. -/
inductive Alteration : Catalogue → Catalogue → Prop where
  /-- What is made may be a table of any sort, also one from a query or a virtual one. -/
  | create (c : Catalogue) (e : Entry) (hnew : e.kind = .table → e.name ∉ c.tables) :
      Alteration c (c ++ [e])
  /-- With a table goes what belongs to it. -/
  | drop (c : Catalogue) (keeps : Entry → Bool) : Alteration c (c.filter keeps)
  | rename (c c' : Catalogue) (e : Entry) (name : String)
      (hnew : e.kind = .table → name ∉ (c ++ c').tables) :
      Alteration (c ++ e :: c') (c ++ { e with name } :: c')
  | reorder {c c' : Catalogue} (h : c.Perm c') : Alteration c c'

/-- The second catalogue can be made from the first. -/
abbrev Alters : Catalogue → Catalogue → Prop := Relation.ReflTransGen Alteration

theorem tables_append (c c' : Catalogue) : tables (c ++ c') = c.tables ++ c'.tables := by
  rw [tables, List.filter_append, List.map_append]
  rfl

theorem tables_cons (e : Entry) (c : Catalogue) :
    tables (e :: c) = if e.kind = .table then e.name :: c.tables else c.tables := by
  by_cases h : e.kind = .table <;> simp [tables, h]

theorem filter_tables (c : Catalogue) (p : String → Bool) :
    c.tables.filter p = (c.filter fun e => e.kind = .table && p e.name).map Entry.name := by
  rw [tables, List.filter_map, List.filter_filter]
  refine congrArg (List.map Entry.name) (List.filter_congr fun e _ => ?_)
  rw [Bool.and_comm]
  rfl

theorem apart_middle : Apart (c ++ e :: c') ↔ Apart (c ++ c') ∧
    (e.kind = .table → e.name ∉ tables (c ++ c')) := by
  rw [Apart, Apart, tables_append, tables_append, tables_cons]
  by_cases h : e.kind = .table
  · simp [h, List.nodup_middle, and_comm]
  · simp [h]

theorem Alteration.apart (h : Alteration c c') (hapart : c.Apart) : c'.Apart := by
  cases h with
  | create c e hnew =>
    refine apart_middle.2 ?_
    rw [List.append_nil]
    exact ⟨hapart, hnew⟩
  | drop c keeps => exact hapart.sublist ((List.filter_sublist.filter _).map _)
  | rename c c' e name hnew => exact apart_middle.2 ⟨(apart_middle.1 hapart).1, hnew⟩
  | reorder h => exact ((h.filter _).map _).nodup_iff.1 hapart

theorem Alters.apart (h : Alters c c') (hapart : c.Apart) : c'.Apart := by
  induction h with
  | refl => exact hapart
  | tail _ hlast ih => exact hlast.apart ih

theorem alters_append (h : Apart (c ++ c')) : Alters c (c ++ c') := by
  induction c' generalizing c with
  | nil => rw [List.append_nil]
  | cons e c' ih =>
    rw [List.append_cons] at h ⊢
    have hfirst : Apart (c ++ [e]) := by
      rw [Apart, tables_append] at h
      exact h.of_append_left
    have hnew := (apart_middle.1 hfirst).2
    rw [List.append_nil] at hnew
    exact (ih h).head (.create c e hnew)

/-- From any catalogue there is a way to one without two tables of one name: everything is dropped, then
made anew. -/
theorem alters_of_apart (c : Catalogue) (h : c'.Apart) : Alters c c' := by
  have hdrop : Alteration c [] := by
    have hnone : c.filter (fun _ => false) = [] := List.filter_false c
    exact hnone ▸ .drop c fun _ => false
  have happend : Alters [] ([] ++ c') := alters_append h
  exact happend.head hdrop

end Catalogue
end QueryTree
