import QueryTree.Http.Execution

/-!
# Bound values stay out of the statement

`ParamSet.Agree p q`: the two sets carry the same directives and bind equally many values. A token of
a template sees nothing else of the parameters (`substitute_congr`), and `renderWith` puts nothing
into the statement but text of the template and what stands for a token. So the names and the values
of the bound parameters reach the arguments of a statement and never its text.
-/

namespace QueryTree

namespace ParamSet

/-- The sets carry the same directives and bind equally many values. -/
structure Agree (p q : ParamSet) : Prop where
  directives : ∀ name ∈ directiveNames, p.text? name = q.text? name
  bound : p.bound.length = q.bound.length

namespace Agree
variable {p q : ParamSet}

theorem columns (h : Agree p q) : p.text? "columns" = q.text? "columns" :=
  h.directives _ (by simp [directiveNames])

theorem values (h : Agree p q) : p.text? "values" = q.text? "values" :=
  h.directives _ (by simp [directiveNames])

theorem updates (h : Agree p q) : p.text? "updates" = q.text? "updates" :=
  h.directives _ (by simp [directiveNames])

/-- One mark for each bound parameter: only their number shows. -/
theorem marks (h : Agree p q) :
    (p.bound.map fun _ => ['?']) = q.bound.map fun _ => ['?'] := by
  rw [List.map_const', List.map_const', h.bound]

theorem length_positionalValues (h : Agree p q) :
    p.positionalValues.length = q.positionalValues.length := by
  simp only [positionalValues, List.length_map, h.bound]

end Agree
end ParamSet

namespace Sql
variable {p q : ParamSet}

theorem substitute_congr (table : Option String) (h : p.Agree q) (name : List Char) :
    substitute table p name = substitute table q name := by
  unfold substitute
  by_cases ht : name = "table".toList
  · rw [if_pos ht, if_pos ht]
  rw [if_neg ht, if_neg ht]
  by_cases hc : name = "columns".toList
  · rw [if_pos hc, if_pos hc, h.columns]
  rw [if_neg hc, if_neg hc]
  by_cases hv : name = "values".toList
  · rw [if_pos hv, if_pos hv, h.values, h.marks]
  rw [if_neg hv, if_neg hv, h.updates]

theorem token?_congr {subst subst' : List Char → Option (List Char)}
    (h : ∀ name, subst name = subst' name) (after : List Char) :
    token? subst after = token? subst' after := by
  simp only [token?, h]

section
variable {subst : List Char → Option (List Char)} {template before after text rest : List Char}

theorem renderWith_of_none (hb : Text.breakOn opening template = none) :
    renderWith subst template = template := by
  rw [renderWith]
  split
  · rfl
  · next h => rw [hb] at h; cases h

theorem renderWith_of_token (hb : Text.breakOn opening template = some (before, after))
    (ht : token? subst after = some (text, rest)) :
    renderWith subst template = before ++ text ++ renderWith subst rest := by
  rw [renderWith]
  split
  · next h => rw [hb] at h; cases h
  · next h =>
    rw [hb] at h
    cases h
    split
    · next h' => rw [ht] at h'; cases h'; rfl
    · next h' => rw [ht] at h'; cases h'

theorem renderWith_of_plain (hb : Text.breakOn opening template = some (before, after))
    (ht : token? subst after = none) :
    renderWith subst template = before ++ opening ++ renderWith subst after := by
  rw [renderWith]
  split
  · next h => rw [hb] at h; cases h
  · next h =>
    rw [hb] at h
    cases h
    split
    · next h' => rw [ht] at h'; cases h'
    · rfl

end

theorem renderWith_congr {subst subst' : List Char → Option (List Char)}
    (h : ∀ name, subst name = subst' name) (template : List Char) :
    renderWith subst template = renderWith subst' template := by
  fun_induction renderWith subst template with
  | case1 template hb => rw [renderWith_of_none hb]
  | case2 template before after hb text rest ht ih =>
    rw [ih, renderWith_of_token hb ((token?_congr h after).symm.trans ht)]
  | case3 template before after hb ht ih =>
    rw [ih, renderWith_of_plain hb ((token?_congr h after).symm.trans ht)]

theorem render_congr (template : String) (table : Option String) (h : p.Agree q) :
    render template table p = render template table q := by
  rw [render, render, renderWith_congr (substitute_congr table h)]

end Sql

/-- Two sets that agree render every template to the same text, and every route prepares the same
statement with equally many arguments for them. -/
theorem statement_indep_of_bound {p q : ParamSet} (h : p.Agree q) :
    (∀ (template : String) (table : Option String),
      Sql.render template table p = Sql.render template table q) ∧
    ∀ r : Route, (r.prepare p).sql = (r.prepare q).sql ∧
      (r.prepare p).args.length = (r.prepare q).args.length := by
  have same : ∀ template table, Sql.render template table p = Sql.render template table q :=
    fun template table => Sql.render_congr template table h
  refine ⟨same, fun r => ?_⟩
  have hsql : (r.prepare p).sql = (r.prepare q).sql := same r.sql r.descriptor.table
  refine ⟨hsql, ?_⟩
  show (p.positionalValues.take (Sql.Slot.count (r.prepare p).sql)).length =
    (q.positionalValues.take (Sql.Slot.count (r.prepare q).sql)).length
  rw [List.length_take, List.length_take, h.length_positionalValues, hsql]

/-- A value that tries to end the statement, and one that is a token under a name that is a token. -/
theorem statement_indep_of_hostile_values :
    let p : ParamSet := [("columns", .string "name"), ("name", .string "x'); DROP TABLE users; --")]
    let q : ParamSet := [("\x7b\x7btable\x7d\x7d", .string "\x7b\x7bvalues\x7d\x7d"),
      ("columns", .string "name")]
    let r : Route := ⟨⟨.post, "/users/insert", "Tables/users/insert.sql", some "users"⟩,
      "INSERT INTO \x7b\x7btable\x7d\x7d (\x7b\x7bcolumns\x7d\x7d) VALUES (\x7b\x7bvalues\x7d\x7d)"⟩
    p.Agree q ∧ (r.prepare p).sql = "INSERT INTO users (name) VALUES (?)" ∧
      (r.prepare q).sql = "INSERT INTO users (name) VALUES (?)" ∧
      (r.prepare q).args.length = (r.prepare p).args.length := by
  intro p q r
  have h : p.Agree q := ⟨by decide, by decide⟩
  have hp : (r.prepare p).sql = "INSERT INTO users (name) VALUES (?)" := by decide +kernel
  obtain ⟨hsql, hargs⟩ := (statement_indep_of_bound h).2 r
  exact ⟨h, hp, hsql ▸ hp, hargs.symm⟩

end QueryTree
