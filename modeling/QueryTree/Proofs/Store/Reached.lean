import QueryTree.Proofs.Database.Listing
import QueryTree.Proofs.Database.Run
import QueryTree.Proofs.Store.Closing
import QueryTree.Store.Disk

/-!
# Stores as they come about

A store is opened on a database that others may have made something of, works on it and now and then
meets what other connections have changed in it (`Store.Reached`). Whatever is done alters the catalogue,
and so no two tables in it ever have one name (`Store.Reached.apart`). The stores of the program are among
these: an operation with its engine always alters the catalogue (`Store.Sound.performs`), and so does
another store that has written to the same file (`Disk.sound_refresh`).
-/

namespace QueryTree

namespace Store

variable {σ : Type} [Engine σ] {catalogue : σ → Catalogue} {s s' : Store σ}

/-- The stores that can come about over an engine of which one sees the catalogues. Only what overwrites
the catalogue itself, row by row, is left aside. -/
inductive Reached (catalogue : σ → Catalogue) : Store σ → Prop where
  | opens (session : σ) (place : Option Place) (h : Catalogue.Alters [] (catalogue session)) :
      Reached catalogue ⟨true, session, place⟩
  | performs {s : Store σ} (op : Operation) (h : Reached catalogue s)
      (halters : Catalogue.Alters (catalogue s.session) (catalogue (s.perform op).2.session)) :
      Reached catalogue (s.perform op).2
  /-- Another connection to the same database has changed it. -/
  | meets {s : Store σ} (session : σ) (h : Reached catalogue s)
      (halters : Catalogue.Alters (catalogue s.session) (catalogue session)) :
      Reached catalogue { s with session }

theorem Reached.apart (h : Reached catalogue s) : (catalogue s.session).Apart := by
  induction h with
  | opens session place h => exact h.apart List.nodup_nil
  | performs op _ halters ih => exact halters.apart ih
  | meets session _ halters ih => exact halters.apart ih

/-- Going back to the catalogue of another store that came about, as a transaction does that is rolled
back, alters the catalogue too. -/
theorem Reached.alters (h' : Reached catalogue s') :
    Catalogue.Alters (catalogue s.session) (catalogue s'.session) :=
  Catalogue.alters_of_apart _ h'.apart

end Store

/-! ### The engine of the program -/

def Session.catalogue (s : Session) : Catalogue := s.database.catalogue

namespace Store

/-- A store of the program that comes about, with the titles of its temporary tables apart as well. -/
structure Sound (s : Store) : Prop where
  apart : Database.Apart s.session.database.titles
  reached : Reached Session.catalogue s

variable {s : Store}

theorem sound_start {db : Database} (h : Database.Apart db.titles) (place : Option Place) :
    (start db place).Sound where
  apart := h
  reached := .opens _ place (Catalogue.alters_of_apart [] (Database.apart_catalogue h))

/-- Any operation alters the catalogue. -/
theorem Sound.performs (h : s.Sound) (op : Operation) : (s.perform op).2.Sound := by
  have hkept : Kept fun session : Session => Database.Apart session.database.titles :=
    Session.apart_run
  have hapart := hkept.perform h.apart op
  exact ⟨hapart, h.reached.performs op (Catalogue.alters_of_apart _ (Database.apart_catalogue hapart))⟩

theorem Sound.meets {session : Session} (h : s.Sound)
    (hapart : Database.Apart session.database.titles) : { s with session }.Sound :=
  ⟨hapart, h.reached.meets session (Catalogue.alters_of_apart _ (Database.apart_catalogue hapart))⟩

end Store

namespace Disk

open Database

variable {d d' : Disk} {s : Store}

/-- The databases on the disk hold lasting tables, and no two of one title. -/
def Sound (d : Disk) : Prop :=
  ∀ place db, Keyed.get? place d.databases = some db →
    Apart db.titles ∧ ∀ a ∈ db.titles, a.1 = false

theorem sound_empty : empty.Sound := nofun

/-- What is done to the files alone leaves the databases as they are. -/
theorem sound_act {α : Type} (h : d.Sound) (action : FileAction α) : (d.act action).2.Sound := by
  unfold act
  generalize action.run d.files = result
  exact h

theorem sound_save (h : d.Sound) (hs : s.Sound) : (d.save s).Sound := by
  unfold save
  split
  · exact h
  next place _ =>
  intro other db hkept
  rw [Keyed.get?_put] at hkept
  split at hkept
  · cases hkept
    have htitles : (s.session.database.tables.filter fun t => !t.temporary).map Table.title =
        s.session.database.titles.filter fun a => !a.1 := by
      rw [Database.titles, List.filter_map]
      rfl
    rw [Database.titles, htitles]
    exact ⟨hs.apart.filter _, fun a ha => by simpa using List.of_mem_filter ha⟩
  · exact h other db hkept

theorem apart_refreshed {titles titles' : List Title} (h : Apart titles) (h' : Apart titles')
    (hlasting : ∀ a ∈ titles', a.1 = false) : Apart (titles.filter Prod.fst ++ titles') := by
  rw [Apart, List.map_append]
  refine List.nodup_append'.2 ⟨h.filter _, h', ?_⟩
  intro key hown hkept
  obtain ⟨a, ha, rfl⟩ := List.mem_map.1 hown
  obtain ⟨b, hb, hkey⟩ := List.mem_map.1 hkept
  -- a temporary table and a lasting one differ in the first part of their keys
  have htemporary : b.1 = a.1 := (Prod.mk.inj hkey).1
  rw [hlasting b hb, List.of_mem_filter ha] at htemporary
  cases htemporary

theorem sound_refresh (h : d.Sound) (hs : s.Sound) : (d.refresh s).Sound := by
  unfold refresh
  split
  · exact hs
  next kept hfound =>
  obtain ⟨place, -, hkept⟩ := Option.bind_eq_some_iff.1 hfound
  obtain ⟨hapart, hlasting⟩ := h place kept hkept
  refine hs.meets ?_
  have htitles : (s.session.database.tables.filter Table.temporary ++ kept.tables).map Table.title =
      s.session.database.titles.filter Prod.fst ++ kept.titles := by
    rw [List.map_append, Database.titles, List.filter_map]
    rfl
  rw [Database.titles, htitles]
  exact apart_refreshed hs.apart hapart hlasting

theorem sound_applyTo (hs : s.Sound) (schema : Option String) : (applyTo s schema).2.Sound := by
  unfold applyTo
  split
  · next script =>
    split
    · exact hs
    · exact hs.performs (.applySchema script)
  · exact hs

theorem apart_of_locate {path : String} {place : Place} {db : Database} (h : d.Sound)
    (hlocate : d.locate path = .ok (place, db)) : Apart db.titles := by
  unfold locate at hlocate
  split at hlocate
  · cases hlocate
  split at hlocate
  · split at hlocate
    · next hkept =>
      cases hlocate
      exact (h _ _ hkept).1
    · split at hlocate
      · cases hlocate
        exact List.nodup_nil
      · cases hlocate
  · cases hlocate
    exact List.nodup_nil
  · cases hlocate

/-- Whatever stores are opened on a disk, they are among those that come about, and the databases that
they leave there are sound again. -/
theorem sound_openStore (h : d.Sound) (path : String) (schema : Option String) :
    (d.openStore path schema).2.Sound ∧ ∀ s, (d.openStore path schema).1 = .ok s → s.Sound := by
  have hmemory : ∀ s, openInMemory schema = .ok s → s.Sound := by
    intro s hs
    have hempty : Apart Database.empty.titles := List.nodup_nil
    have happlied := sound_applyTo (Store.sound_start hempty none) schema
    unfold openInMemory at hs
    generalize applyTo (.start .empty none) schema = applied at happlied hs
    obtain ⟨outcome, s'⟩ := applied
    obtain ⟨_, -, rfl⟩ := map_eq_ok.1 hs
    exact happlied
  unfold openStore
  have hd' := sound_act h (FileAction.makePath ((Path.parent? path).getD ""))
  generalize d.act (FileAction.makePath ((Path.parent? path).getD "")) = acted at hd' ⊢
  obtain ⟨outcome, d'⟩ := acted
  cases outcome with
  | error fault => exact ⟨hd', nofun⟩
  | ok _ =>
    dsimp only
    split
    · exact ⟨hd', nofun⟩
    split
    · exact ⟨hd', hmemory⟩
    split
    · exact ⟨hd', nofun⟩
    next place db hlocate =>
    have happlied := sound_applyTo (Store.sound_start (apart_of_locate hd' hlocate) (some place)) schema
    generalize applyTo (.start db (some place)) schema = applied at happlied ⊢
    obtain ⟨outcome, s⟩ := applied
    refine ⟨sound_save hd' happlied, fun opened hopened => ?_⟩
    obtain ⟨_, -, rfl⟩ := map_eq_ok.1 hopened
    exact happlied

end Disk
end QueryTree
