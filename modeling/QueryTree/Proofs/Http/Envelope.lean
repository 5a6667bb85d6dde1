import QueryTree.Http.Envelope
import QueryTree.Proofs.Json.Record

/-!
# Reading envelopes back

`Envelope.parse_toJson`: an envelope is read back from its text as it is, whatever its error and
its diagnostics say and whichever members it lacks, as long as its data can be read back.
-/

namespace QueryTree

open Json (Takes)

theorem Json.string?_nullable (s : Option String) : (nullable s).string? = s := by
  cases s <;> rfl

namespace Diagnostics

theorem takes_toJson (d : Diagnostics) (depth : Nat) :
    Takes (shape.read (depth + 1)) d.toJson.bytes d.toJson := by
  obtain ⟨method, sqlPath, isUniversal, table, processedSql⟩ := d
  refine Json.takes_record "DebugInfo" ?keys (fun m hm => ?member) ?required
  case keys =>
    show ["method", "sql_path", "is_universal", "table_name", "processed_sql"].Nodup
    decide
  case required =>
    show ["method", "sql_path", "is_universal", "processed_sql"] ⊆
      ["method", "sql_path", "is_universal", "table_name", "processed_sql"]
    decide
  case member =>
    simp only [List.mem_cons, List.not_mem_nil, or_false] at hm
    rcases hm with rfl | rfl | rfl | rfl | rfl
    · exact ⟨_, rfl, Json.takes_text depth _⟩
    · exact ⟨_, rfl, Json.takes_text depth _⟩
    · exact ⟨_, rfl, Json.takes_boolean _⟩
    · exact ⟨_, rfl, Json.takes_nullable depth table⟩
    · exact ⟨_, rfl, Json.takes_text depth _⟩

theorem ofJson?_toJson (d : Diagnostics) : ofJson? d.toJson = some d := by
  obtain ⟨method, sqlPath, isUniversal, table, processedSql⟩ := d
  show some (Diagnostics.mk method sqlPath isUniversal (Json.nullable table).string? _) = _
  rw [Json.string?_nullable]

end Diagnostics

namespace Envelope

theorem mem_member {name : String} {value : Option Json} {m : String × Json} :
    m ∈ member name value ↔ m.1 = name ∧ value = some m.2 := by
  obtain ⟨k, v⟩ := m
  cases value with
  | none => simp [member]
  | some w => simp [member, eq_comm]

theorem keys_member (name : String) (value : Option Json) :
    (Keyed.keys (member name value)).Sublist [name] := by
  cases value with
  | none => exact List.nil_sublist _
  | some v => exact List.Sublist.refl _

/-- The members of an envelope, with null for those that are not written. -/
def allMembers (e : Envelope) : List (String × Json) :=
  [("success", .bool e.success), ("data", e.data.getD .null), ("error", .nullable e.error),
    ("debug", (e.debug.map Diagnostics.toJson).getD .null)]

theorem present?_getD {data : Option Json} (h : ∀ v, data = some v → v ≠ .null) :
    present? (data.getD .null) = data := by
  cases data with
  | none => rfl
  | some v => cases v <;> first | rfl | exact absurd rfl (h _ rfl)

variable {e : Envelope}

theorem ofJson?_allMembers (hdata : ∀ v, e.data = some v → v ≠ .null) :
    ofJson? (.object e.allMembers) = some e := by
  have hdebug : Diagnostics.ofJson? ((e.debug.map Diagnostics.toJson).getD .null) = e.debug := by
    cases e.debug with
    | none => rfl
    | some d => exact d.ofJson?_toJson
  show some (Envelope.mk e.success (present? (e.data.getD .null)) (Json.nullable e.error).string?
    (Diagnostics.ofJson? ((e.debug.map Diagnostics.toJson).getD .null))) = some e
  rw [present?_getD hdata, Json.string?_nullable, hdebug]

theorem takes_toJson (hdata : ∀ v, e.data = some v → v.Fits 126 ∧ v ≠ .null) :
    Takes (shape.read Json.maxDepth) e.toJson.bytes (.object e.allMembers) := by
  have hfilled : Json.filled (Json.Shape.fieldReaders [("success", false, .boolean),
      ("data", true, .optional .any), ("error", true, .optional .text),
      ("debug", true, .optional Diagnostics.shape)] 126)
      (("success", .bool e.success) :: member "data" e.data ++
        member "error" (e.error.map .string) ++ member "debug" (e.debug.map Diagnostics.toJson)) =
      e.allMembers := by
    obtain ⟨success, _ | data, _ | error, _ | debug⟩ := e <;> rfl
  rw [← hfilled]
  refine Json.takes_record "Envelope" ?keys (fun m hm => ?member) ?required
  case keys =>
    have hall : (["success"] ++ ["data"] ++ ["error"] ++ ["debug"]).Nodup := by decide
    rw [Keyed.keys_append, Keyed.keys_append]
    exact hall.sublist ((((keys_member "data" _).cons_cons "success").append
      (keys_member "error" _)).append (keys_member "debug" _))
  case required => exact List.cons_subset_cons _ (List.nil_subset _)
  case member =>
    obtain ⟨k, v⟩ := m
    simp only [List.mem_append, List.mem_cons, mem_member] at hm
    rcases hm with ((hm | ⟨rfl, hv⟩) | ⟨rfl, hv⟩) | ⟨rfl, hv⟩
    · cases hm
      exact ⟨_, rfl, Json.takes_boolean _⟩
    · obtain ⟨hfits, hnull⟩ := hdata v hv
      obtain ⟨b, s, hb, hblank, -, hne⟩ := hfits.first_byte
      have ht := Json.value_bytes hfits
      rw [hb] at ht
      exact ⟨_, rfl, hb ▸ Json.takes_present hblank (hne hnull) ht⟩
    · obtain ⟨s, -, rfl⟩ := Option.map_eq_some_iff.1 hv
      exact ⟨_, rfl, Json.takes_present_text _ s⟩
    · obtain ⟨d, -, rfl⟩ := Option.map_eq_some_iff.1 hv
      exact ⟨_, rfl, Json.takes_present (by decide) (by decide) (d.takes_toJson 125)⟩

theorem parse_toJson (hdata : ∀ v, e.data = some v → v.Fits 126 ∧ v ≠ .null) :
    parse (Utf8.ofString e.toJson.text) = .ok e := by
  rw [parse, Json.Shape.parse, Json.ofString_text, Json.parseWith_of_takes (takes_toJson hdata)]
  show Except.ok ((ofJson? (.object e.allMembers)).getD _) = _
  rw [ofJson?_allMembers fun v hv => (hdata v hv).2]
  rfl

end Envelope
end QueryTree
