import QueryTree.Proofs.Database.Catalogue
import QueryTree.Proofs.Database.Pattern
import QueryTree.Proofs.Database.Title
import QueryTree.Proofs.Distinct

/-!
# Names in the list of tables

In the program's engine a database lists its lasting tables with their indexes, and this list is its
catalogue (`cells_catalogue`). A selection asks it for the names of tables that a pattern does not match
(`tableNames`). What the selection gives are the names of the lasting tables that are not masked, in
order (`rows_namesPlan`). No two of the tables in the catalogue have one name as long as the titles of the
tables are apart (`apart_catalogue`).
-/

namespace QueryTree

/-- How an entry is shown. -/
def Catalogue.Entry.cells (e : Catalogue.Entry) : List Value :=
  [.text (match e.kind with
    | .table => "table"
    | .index => "index"
    | .view => "view"
    | .trigger => "trigger"), .text e.name]

namespace Database

variable {db : Database} {name : String}

/-! ### The list -/

/-- The catalogue of the lasting tables and their indexes. -/
def catalogue (db : Database) : Catalogue :=
  (db.tables.filter fun t => !t.temporary).flatMap fun t =>
    ⟨.table, t.name⟩ :: (t.columns.filter Column.isIndexed).zipIdx.map fun (_, i) =>
      ⟨.index, "sqlite_autoindex_" ++ t.name ++ "_" ++ toString (i + 1)⟩

theorem values_list (db : Database) :
    (db.list false).rows.map Row.values = (db.tables.filter fun t => !t.temporary).flatMap entries := by
  rw [list, List.map_map]
  simp only [beq_false]
  exact List.zipIdx_map_fst 0 _

/-- The catalogue holds what the list shows. -/
theorem cells_catalogue (db : Database) :
    db.catalogue.map Catalogue.Entry.cells = (db.list false).rows.map fun row => row.values.take 2 := by
  have hrows : ((db.list false).rows.map fun row => row.values.take 2) =
      ((db.list false).rows.map Row.values).map (List.take 2) := by
    rw [List.map_map]
    rfl
  rw [hrows, values_list, catalogue, List.map_flatMap, List.map_flatMap]
  refine List.flatMap_congr fun t _ => ?_
  rw [entries, List.map_cons, List.map_cons, List.map_map, List.map_map]
  rfl

theorem tables_catalogue (db : Database) : db.catalogue.tables = db.lastingNames := by
  rw [catalogue, lastingNames]
  induction db.tables.filter fun t => !t.temporary with
  | nil => rfl
  | cons t tables ih =>
    have hindexes : ∀ columns : List (Column × Nat), Catalogue.tables (columns.map fun (_, i) =>
        ⟨.index, "sqlite_autoindex_" ++ t.name ++ "_" ++ toString (i + 1)⟩) = [] := by
      intro columns
      rw [Catalogue.tables, List.map_eq_nil_iff, List.filter_eq_nil_iff]
      exact List.forall_mem_map.2 fun _ _ => by simp
    rw [List.flatMap_cons, Catalogue.tables_append, Catalogue.tables_cons, if_pos rfl, hindexes, ih]
    rfl

/-- What is asked of the list of tables. -/
def tableNames : Select where
  items := [.value (.column none "name" false) none "name"]
  source := some ("sqlite_master", none)
  condition := some (.both (.equal (.column none "type" false) (.literal (.text "table")))
    (.like true (.column none "name" false) (.literal (.text "sqlite_%"))))
  order := [⟨.column none "name" false, false⟩]
  limit := none

/-- The name that an entry of the list shows. -/
def nameTerm : Term := ⟨some .text, some "name", fun _ cells => cells[1]?.getD .null⟩

/-- The entry is one of a table, and the pattern of the reserved names does not match its name. -/
def listedTerm : Term where
  affinity := none
  column := none
  value _ cells :=
    let kind : Value := cells[0]?.getD .null
    let name : Value := cells[1]?.getD .null
    let (kind, table) := Value.adapt (some .text) none kind (.text "table")
    ofTruth (conjunction (truth? (ofTruth (kind.equal? table)))
      (truth? (ofTruth ((name.like? (.text "sqlite_%")).map (true ^^ ·)))))

def nameOutput : Labelled := ⟨("name", some .text), false, .term nameTerm⟩

def namesPlan (db : Database) : Plan where
  columns := [nameOutput.heading]
  numberLabel := none
  rows binding := selectRows [nameOutput] listedTerm [(.term nameTerm, false)] none binding
    ((db.list false).rows.map Row.cells)

theorem ofSelect_tableNames (db : Database) : Plan.ofSelect db [] tableNames = .ok db.namesPlan := rfl

theorem truth?_ofTruth (b : Option Bool) : truth? (ofTruth b) = b := by
  rcases b with _ | _ | _ <;> rfl

theorem order_text (a b : String) :
    (Value.text a).order (.text b) = compareOfLessAndEq a b := rfl

theorem order_text_eq_iff (a b : String) : (Value.text a).order (.text b) = .eq ↔ a = b := by
  rw [order_text, compareOfLessAndEq]
  split
  · next hlt =>
    have hne : a ≠ b := by
      rintro rfl
      exact String.lt_irrefl a hlt
    simp [hne]
  · simp

theorem equal?_text (a b : String) : (Value.text a).equal? (.text b) = some (a == b) := by
  rw [Value.equal?, if_neg (by simp), Option.some.injEq, Bool.eq_iff_iff, decide_eq_true_iff,
    order_text_eq_iff, beq_iff_eq]

theorem admits_listedTerm (binding : Binding) (kind name : String) (rest : List Value) :
    listedTerm.admits binding (.text kind :: .text name :: rest) =
      (kind == "table" && !isMasked name) := by
  have hmasked : (Value.text name).like? (.text "sqlite_%") = some (isMasked name) :=
    congrArg some (Value.likeRules_matchesPattern.reserved name)
  have hvalue : listedTerm.value binding (.text kind :: .text name :: rest) =
      ofTruth (conjunction (truth? (ofTruth ((Value.text kind).equal? (.text "table"))))
        (truth? (ofTruth (((Value.text name).like? (.text "sqlite_%")).map (true ^^ ·))))) := rfl
  rw [Term.admits, hvalue, equal?_text, hmasked]
  simp only [truth?_ofTruth]
  cases kind == "table" <;> cases isMasked name <;> rfl

/-! ### What the list gives -/

/-- Cells with numbers behind them are chosen and shown as they are without. -/
theorem map_filter_cells {β : Type} {l : List (List Value)} {p p' : List Value → Bool}
    {f f' : List Value → β} (hp : ∀ values ∈ l, ∀ cells, p (values ++ cells) = p' values)
    (hf : ∀ values ∈ l, ∀ cells, f (values ++ cells) = f' values) (n : Nat) :
    ((((l.zipIdx n).map fun (values, i) => (⟨i + 1, values⟩ : Row)).map Row.cells).filter p).map f =
      (l.filter p').map f' := by
  induction l generalizing n with
  | nil => rfl
  | cons values l ih =>
    obtain ⟨hpv, hp⟩ := List.forall_mem_cons.1 hp
    obtain ⟨hfv, hf⟩ := List.forall_mem_cons.1 hf
    simp only [List.zipIdx_cons, List.map_cons, List.filter_cons, Row.cells, hpv]
    split
    · simp only [List.map_cons, hfv]
      rw [← ih hp hf (n + 1)]
    · rw [← ih hp hf (n + 1)]

theorem filter_entries (t : Table) (binding : Binding) :
    ((entries t).filter (listedTerm.admits binding)).map (nameTerm.value binding) =
      if isMasked t.name then [] else [.text t.name] := by
  have hindexes : ((entries t).drop 1).filter (listedTerm.admits binding) = [] := by
    refine List.filter_eq_nil_iff.2 fun values hvalues => ?_
    obtain ⟨p, -, rfl⟩ := List.mem_map.1 hvalues
    have hkind : ("index" == "table") = false := by decide
    rw [admits_listedTerm, hkind]
    exact Bool.false_ne_true
  have hentries : ∃ rest, entries t = (.text "table" :: .text t.name :: rest) :: (entries t).drop 1 :=
    ⟨_, rfl⟩
  obtain ⟨rest, hentries⟩ := hentries
  rw [hentries, List.filter_cons, hindexes, admits_listedTerm]
  cases isMasked t.name <;> rfl

theorem flatMap_unless {α β : Type} (p : α → Bool) (f : α → β) (l : List α) :
    (l.flatMap fun a => if p a then [] else [f a]) = (l.filter fun a => !p a).map f := by
  induction l with
  | nil => rfl
  | cons a l ih =>
    rw [List.flatMap_cons, List.filter_cons, ih]
    cases p a <;> rfl

theorem names_list (db : Database) (binding : Binding) :
    (((db.list false).rows.map Row.cells).filter (listedTerm.admits binding)).map
        (nameTerm.value binding) =
      (db.lastingNames.filter fun name => !isMasked name).map .text := by
  have hentry : ∀ values ∈ (db.tables.filter (·.temporary == false)).flatMap entries,
      ∃ kind name rest, values = .text kind :: .text name :: rest := by
    intro values hvalues
    obtain ⟨t, -, hvalues⟩ := List.mem_flatMap.1 hvalues
    rcases List.mem_cons.1 hvalues with rfl | hvalues
    · exact ⟨_, _, _, rfl⟩
    · obtain ⟨p, -, rfl⟩ := List.mem_map.1 hvalues
      exact ⟨_, _, _, rfl⟩
  have hchosen : ∀ values ∈ (db.tables.filter (·.temporary == false)).flatMap entries, ∀ cells,
      listedTerm.admits binding (values ++ cells) = listedTerm.admits binding values := by
    intro values hvalues cells
    obtain ⟨kind, name, rest, rfl⟩ := hentry values hvalues
    simp only [List.cons_append, admits_listedTerm]
  have hshown : ∀ values ∈ (db.tables.filter (·.temporary == false)).flatMap entries, ∀ cells,
      nameTerm.value binding (values ++ cells) = nameTerm.value binding values := by
    intro values hvalues cells
    obtain ⟨kind, name, rest, rfl⟩ := hentry values hvalues
    rfl
  refine (map_filter_cells hchosen hshown 0).trans ?_
  rw [List.filter_flatMap, List.map_flatMap]
  simp only [filter_entries]
  rw [flatMap_unless, lastingNames, List.filter_map, List.map_map]
  simp only [beq_false]
  rfl

theorem precedes_text (a b : String) :
    precedes [false] [.text a] [.text b] = !decide (b < a) := by
  have hstep : precedes [false] [.text a] [.text b] = (compareOfLessAndEq a b).isLE := by
    rw [precedes, if_neg Bool.false_ne_true, order_text]
    cases compareOfLessAndEq a b <;> rfl
  rw [hstep, compareOfLessAndEq]
  by_cases hlt : a < b
  · have hnot : ¬ b < a := fun hgt => String.lt_irrefl a (String.lt_trans hlt hgt)
    rw [if_pos hlt, decide_eq_false hnot]
    rfl
  by_cases heq : a = b
  · simp [heq]
  · have hgt : b < a := Std.lt_of_le_of_ne (String.not_lt.1 hlt) (Ne.symm heq)
    simp [hlt, heq, hgt]

/-- The names that the list of tables gives: those of the lasting tables, in order, without the masked
ones. -/
def listedNames (db : Database) : List String :=
  (db.lastingNames.filter fun name => !isMasked name).mergeSort fun a b => !decide (b < a)

theorem rows_namesPlan (db : Database) (binding : Binding) :
    db.namesPlan.rows binding = .ok (db.listedNames.map fun name => [.text name]) := by
  let kept := ((db.list false).rows.map Row.cells).filter (listedTerm.admits binding)
  -- an entry is sorted by what is shown of it
  let twice (v : Value) : List Value × List Value := ([v], [v])
  have hshown : shownRows [nameOutput] binding kept =
      kept.map fun cells => (cells, [nameTerm.value binding cells]) := rfl
  have hrows : db.namesPlan.rows binding = .ok (sortRows [(.term nameTerm, false)] binding
      (shownRows [nameOutput] binding kept)) := rfl
  have hsort : sortRows [(.term nameTerm, false)] binding (shownRows [nameOutput] binding kept) =
      ((kept.map (twice ∘ nameTerm.value binding)).mergeSort fun a b =>
        precedes [false] a.1 b.1).map Prod.snd := by
    rw [hshown]
    unfold sortRows
    rw [List.map_map]
    rfl
  have hkept : kept.map (twice ∘ nameTerm.value binding) =
      (db.lastingNames.filter fun name => !isMasked name).map (twice ∘ .text) := by
    rw [← List.map_map, names_list, List.map_map]
  have hsorted : db.listedNames.map (twice ∘ .text) =
      ((db.lastingNames.filter fun name => !isMasked name).map (twice ∘ .text)).mergeSort fun a b =>
        precedes [false] a.1 b.1 :=
    List.map_mergeSort fun a _ b _ => (precedes_text a b).symm
  rw [hrows, hsort, hkept, ← hsorted, List.map_map]
  rfl

theorem titles_lasting (db : Database) :
    (db.titles.filter fun a => !a.1) = db.lastingNames.map (Prod.mk false) := by
  rw [titles, lastingNames, List.filter_map, List.map_map]
  refine List.map_congr_left fun t ht => Prod.ext ?_ rfl
  simpa using (List.mem_filter.1 ht).2

theorem apart_catalogue (h : Apart db.titles) : db.catalogue.Apart := by
  have htitles : (db.titles.filter fun a => !a.1).Nodup := h.of_map.filter _
  rw [titles_lasting] at htitles
  rw [Catalogue.Apart, tables_catalogue]
  exact htitles.of_map

end Database
end QueryTree
