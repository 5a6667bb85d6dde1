import QueryTree.Http.Extract
import QueryTree.Http.Failure
import QueryTree.Proofs.Json.Keys
import QueryTree.Proofs.Json.Lexeme

/-!
# Parameters of query and body

The query gives each name its first value, the body replaces values where they stand and adds what is
new behind them. `ParamSet.merge` does the second on a set that is changed member by member; it leaves
the set alone where it refuses the body (`run_merge`). Which names there are then, in which order and
with which values, is said by `ParamSet.Merges`.
-/

namespace QueryTree

namespace ParamSet
variable {pairs : List (String × String)} {params : ParamSet} {body : List UInt8}
  {members : List (String × Json)} {name : String}

/-! ### Queries -/

theorem ofQuery_append_singleton (pairs : List (String × String)) (p : String × String) :
    ofQuery (pairs ++ [p]) = Keyed.putNew p.1 (.string p.2) (ofQuery pairs) := by
  rw [ofQuery, List.foldl_append]
  rfl

theorem keys_ofQuery (pairs : List (String × String)) :
    Keyed.keys (ofQuery pairs) = (Keyed.keys pairs).eraseDups := by
  induction pairs using List.reverseRecOn with
  | nil => rfl
  | append_singleton pairs p ih =>
    rw [ofQuery_append_singleton, Keyed.keys_putNew, ih, Keyed.keys_append, Keyed.keys_cons,
      Keyed.keys_nil, eraseDups_append_singleton]
    simp only [List.mem_eraseDups]

/-- Of several values of a name the first counts. -/
theorem get?_ofQuery (pairs : List (String × String)) (name : String) :
    Keyed.get? name (ofQuery pairs) = (Keyed.get? name pairs).map .string := by
  induction pairs using List.reverseRecOn with
  | nil => rfl
  | append_singleton pairs p ih =>
    obtain ⟨key, value⟩ := p
    rw [ofQuery_append_singleton, Keyed.get?_putNew, ih, Keyed.get?_append, Option.map_or]
    congr 1
    rw [Keyed.get?]
    split <;> rfl

/-! ### Bodies -/

theorem run_forM_put (members : List (String × Json)) (params : ParamSet) :
    (members.forM fun (name, value) => modify (Keyed.put name value) :
      ExceptT Refusal (StateM ParamSet) Unit).run.run params =
      (.ok (), members.foldl (fun params p => Keyed.put p.1 p.2 params) params) := by
  induction members generalizing params with
  | nil => rfl
  | cons p members ih => exact ih (Keyed.put p.1 p.2 params)

theorem run_merge (body : List UInt8) (params : ParamSet) :
    (merge body).run.run params =
      match mergeBody params body with
      | .ok merged => (.ok (), merged)
      | .error refusal => (.error refusal, params) := by
  rw [merge, mergeBody]
  by_cases hblank : body.all Text.isBlankByte = true
  · rw [if_pos hblank, if_pos hblank]
    rfl
  rw [if_neg hblank, if_neg hblank]
  cases Json.parse body with
  | error fault => rfl
  | ok v =>
    cases v with
    | object members => exact run_forM_put members params
    | _ => rfl

/-- A text of blanks holds no value. -/
theorem parse_ne_ok_of_blank (h : body.all Text.isBlankByte = true) (v : Json) :
    Json.parse body ≠ .ok v := by
  intro hparse
  obtain ⟨⟨v', c⟩, hvalue, -⟩ := bind_eq_ok.1 hparse
  have hrest : (Json.Cursor.start body).skipBlank.rest = body.dropWhile Json.Cursor.isBlank := by
    rw [Json.Cursor.skipBlank, Json.Cursor.skip, Json.Cursor.skip_go]
    rfl
  rw [Json.maxDepth, Json.value, Json.valueWith, hrest] at hvalue
  cases hfirst : body.dropWhile Json.Cursor.isBlank with
  | nil =>
    rw [hfirst] at hvalue
    cases hvalue
  | cons b r =>
    -- the form feed is the one blank of a body that is none of a JSON text
    have hblank : Text.isBlankByte b = true :=
      List.all_eq_true.1 h b ((List.dropWhile_sublist _).subset (hfirst ▸ List.mem_cons_self))
    have hkept : Json.Cursor.isBlank b = false := by
      have hhead := List.head?_dropWhile_not Json.Cursor.isBlank body
      rw [hfirst] at hhead
      simpa using hhead
    have hfeed : b = 12 := by
      simp only [Text.isBlankByte, Bool.or_eq_true, beq_iff_eq] at hblank
      rcases hblank with (((rfl | rfl) | rfl) | rfl) | rfl
      · cases hkept
      · cases hkept
      · cases hkept
      · rfl
      · cases hkept
    rw [hfirst, hfeed] at hvalue
    cases hvalue

end ParamSet

/-- A request with a body that is read has the parameters that merging leaves, unless the body is too
long to be taken. -/
theorem Request.params_eq_merge {r : Request} (h : r.carriesBody = true) :
    r.params = if bodyLimit < r.body.length then .error .tooLong else
      match (ParamSet.merge r.body).run.run (ParamSet.ofQuery (Form.parse r.target.query)) with
      | (.ok (), merged) => .ok merged
      | (.error refusal, _) => .error refusal := by
  rw [params, h, ParamSet.run_merge]
  cases (ParamSet.ofQuery (Form.parse r.target.query)).mergeBody r.body <;> rfl

namespace ParamSet

/-- What becomes of the pairs of a query and of a body that is put into them. -/
structure Merges (pairs : List (String × String)) (body : List UInt8) : Prop where
  /-- The query gives each of its names once, where it first appeared, with the text that came first. -/
  query : Keyed.keys (ofQuery pairs) = (Keyed.keys pairs).eraseDups ∧
    ∀ name, Keyed.get? name (ofQuery pairs) = (Keyed.get? name pairs).map .string
  /-- The names of an object that the query does not have follow those of the query, in the order of the
  object, and the values of the object are the ones that count. -/
  object : ∀ members, Json.parse body = .ok (.object members) → ∃ merged : ParamSet,
    (merge body).run.run (ofQuery pairs) = (.ok (), merged) ∧
      Keyed.keys merged =
        (Keyed.keys pairs).eraseDups ++ (Keyed.keys members).filter (· ∉ Keyed.keys pairs) ∧
      ∀ name, Keyed.get? name merged =
        (Keyed.get? name members).or ((Keyed.get? name pairs).map .string)
  /-- A body of blanks adds nothing. -/
  blank : body.all Text.isBlankByte = true → ∀ params : ParamSet,
    (merge body).run.run params = (.ok (), params)
  /-- A body that is no JSON text is a bad request, and the parameters stay as they were. -/
  malformed : body.all Text.isBlankByte = false → ∀ fault, Json.parse body = .error fault →
    ∃ refusal, Failure.ofRefusal refusal = .badRequest ("invalid JSON body: " ++ fault.message body) ∧
      ∀ params : ParamSet, (merge body).run.run params = (.error refusal, params)
  /-- So is any value but an object. -/
  notObject : ∀ v, Json.parse body = .ok v → (∀ members, v ≠ .object members) →
    ∃ refusal, Failure.ofRefusal refusal = .badRequest "body must be a JSON object" ∧
      ∀ params : ParamSet, (merge body).run.run params = (.error refusal, params)
  /-- These are the parameters of a request that posts or puts the body with the query, unless the body
  is longer than any that is taken. -/
  request : ∀ r : Request, (Method.ofName? r.method = some .post ∨ Method.ofName? r.method = some .put) →
    Form.parse r.target.query = pairs → r.body = body →
      r.params = if Request.bodyLimit < body.length then .error .tooLong else
        match (merge body).run.run (ofQuery pairs) with
        | (.ok (), merged) => .ok merged
        | (.error refusal, _) => .error refusal

/-- Each name has one place and one value, whatever the query and the body repeat. -/
theorem merges (pairs : List (String × String)) (body : List UInt8) : Merges pairs body where
  query := ⟨keys_ofQuery pairs, get?_ofQuery pairs⟩
  object members hparse := by
    have hkeys := Json.nodup_keys_of_parse hparse
    have hblank : ¬ body.all Text.isBlankByte = true := fun h => parse_ne_ok_of_blank h _ hparse
    refine ⟨members.foldl (fun params p => Keyed.put p.1 p.2 params) (ofQuery pairs), ?_, ?_,
      fun name => ?_⟩
    · rw [run_merge, mergeBody, if_neg hblank, hparse]
    · rw [Keyed.keys_foldl_put hkeys, keys_ofQuery]
      simp only [List.mem_eraseDups]
    · rw [Keyed.get?_foldl_put hkeys, get?_ofQuery]
  blank h params := by rw [run_merge, mergeBody, if_pos h]
  malformed hblank fault hparse := by
    refine ⟨.invalidJson (fault.message body), rfl, fun params => ?_⟩
    rw [run_merge, mergeBody, hblank, hparse]
    rfl
  notObject v hparse hne := by
    have hblank : ¬ body.all Text.isBlankByte = true := fun h => parse_ne_ok_of_blank h _ hparse
    refine ⟨.notAnObject, rfl, fun params => ?_⟩
    rw [run_merge, mergeBody, if_neg hblank, hparse]
    cases v with
    | object members => exact absurd rfl (hne members)
    | _ => rfl
  request r hmethod hquery hbody := by
    have hcarries : r.carriesBody = true := by
      rw [Request.carriesBody]
      rcases hmethod with h | h <;> rw [h] <;> rfl
    subst hbody hquery
    exact Request.params_eq_merge hcarries

example : (mergeBody (ofQuery [("b", "1"), ("a", "2"), ("b", "3")])
    (Utf8.ofString "\x7b\"c\":null,\"a\":true,\"c\":false\x7d")).toOption.map Keyed.keys =
      some ["b", "a", "c"] := by
  decide +kernel

end ParamSet
end QueryTree
