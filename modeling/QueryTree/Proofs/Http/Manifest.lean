import QueryTree.Http.Manifest
import QueryTree.Proofs.Client.Request
import QueryTree.Proofs.Http.Envelope

/-!
# Reading manifests back

A manifest is read back from its text as it is (`Manifest.parse_toJson`), and the descriptors of the
routes are rebuilt from it whatever base the reader assumes (`Manifest.descriptors_ofTable`), without
their files if the server does not give them away.
-/

namespace QueryTree

open Json (Takes)

theorem Method.mem_names (m : Method) : m.name ∈ Method.all.map Method.name := by
  cases m <;> decide

namespace Endpoint
variable {e : Endpoint}

/-- The members of an endpoint, with null for those that are not written. -/
def allMembers (e : Endpoint) : List (String × Json) :=
  [("method", .string e.method.name), ("path", .string e.path), ("universal", .bool e.universal),
    ("table", .nullable e.table), ("sql_path", .nullable e.sqlPath)]

theorem ofJson?_allMembers (e : Endpoint) : ofJson? (.object e.allMembers) = some e := by
  obtain ⟨method, path, universal, table, sqlPath⟩ := e
  show (Method.ofName? method.name).map _ = _
  rw [Method.ofName?_name, Option.map_some, Json.string?_nullable, Json.string?_nullable]

/-- The readers of the members of an endpoint. -/
def readers (depth : Nat) : List Json.FieldReader :=
  Json.Shape.fieldReaders
    [("method", false, .choice (Method.all.map Method.name)), ("path", false, .text),
      ("universal", false, .boolean), ("table", true, .optional .text),
      ("sql_path", true, .optional .text)] depth

theorem recorded_toJson (e : Endpoint) (depth : Nat) :
    Json.recorded (readers depth) e.toJson = .object e.allMembers := by
  obtain ⟨method, path, universal, _ | table, _ | sqlPath⟩ := e <;> rfl

theorem takes_toJson (e : Endpoint) (depth : Nat) :
    Takes (shape.read (depth + 1)) e.toJson.bytes (Json.recorded (readers depth) e.toJson) := by
  refine Json.takes_record "EndpointInfo" ?keys (fun m hm => ?member) ?required
  case keys =>
    have hall : (["method", "path", "universal"] ++ ["table"] ++ ["sql_path"]).Nodup := by decide
    rw [Keyed.keys_append, Keyed.keys_append]
    exact hall.sublist (((List.Sublist.refl _).append (Envelope.keys_member "table" _)).append
      (Envelope.keys_member "sql_path" _))
  case required =>
    show ["method", "path", "universal"] ⊆ _
    rw [Keyed.keys_append, Keyed.keys_append, List.append_assoc]
    exact List.subset_append_left _ _
  case member =>
    obtain ⟨k, v⟩ := m
    simp only [List.mem_append, List.mem_cons, List.not_mem_nil, or_false, Prod.mk.injEq,
      Envelope.mem_member, or_assoc] at hm
    rcases hm with ⟨rfl, rfl⟩ | ⟨rfl, rfl⟩ | ⟨rfl, rfl⟩ | ⟨rfl, hv⟩ | ⟨rfl, hv⟩
    · exact ⟨_, rfl, Json.takes_choice depth e.method.mem_names⟩
    · exact ⟨_, rfl, Json.takes_text depth _⟩
    · exact ⟨_, rfl, Json.takes_boolean _⟩
    · obtain ⟨s, -, rfl⟩ := Option.map_eq_some_iff.1 hv
      exact ⟨_, rfl, Json.takes_present_text depth s⟩
    · obtain ⟨s, -, rfl⟩ := Option.map_eq_some_iff.1 hv
      exact ⟨_, rfl, Json.takes_present_text depth s⟩

theorem opens_toJson (e : Endpoint) : Json.Opens e.toJson.bytes :=
  ⟨_, _, Json.bytes_object _, by decide, by decide⟩

/-- The descriptor of a route as a client knows it. -/
def known (debug : Bool) (d : Descriptor) : Descriptor :=
  { d with sqlPath := if debug then d.sqlPath else "" }

theorem descriptor?_ofDescriptor (base : String) (debug : Bool) (d : Descriptor) :
    (ofDescriptor debug d).descriptor? base = some (known debug d) := by
  obtain ⟨method, path, sqlPath, _ | table⟩ := d <;> cases debug <;> rfl

end Endpoint

namespace Manifest
variable {m : Manifest}

/-- The list of endpoints as it is read. -/
def recordedList : Json → Json
  | .array items => .array (items.map (Json.recorded (Endpoint.readers 124)))
  | v => v

theorem takes_toJson (m : Manifest) :
    Takes (shape.read Json.maxDepth) m.toJson.bytes
      (.object [("message", .string m.message),
        ("endpoints", .array (m.endpoints.map fun e => .object e.allMembers))]) := by
  have hlist : recordedList (.array (m.endpoints.map Endpoint.toJson)) =
      .array (m.endpoints.map fun e => .object e.allMembers) := by
    rw [recordedList, List.map_map]
    exact congrArg Json.array (List.map_congr_left fun e _ => e.recorded_toJson 124)
  rw [← hlist]
  refine Json.takes_record_map "Manifest" recordedList ?keys (fun member hm => ?member) ?required
  case keys =>
    show ["message", "endpoints"].Nodup
    decide
  case required => exact List.Subset.refl _
  case member =>
    simp only [List.mem_cons, List.not_mem_nil, or_false] at hm
    rcases hm with rfl | rfl
    · exact ⟨_, rfl, Json.takes_text 126 _⟩
    · refine ⟨_, rfl, Json.takes_list _ fun x hx => ?_⟩
      obtain ⟨e, -, rfl⟩ := List.mem_map.1 hx
      exact ⟨e.opens_toJson, e.takes_toJson 124⟩

theorem parse_toJson (m : Manifest) : parse (Utf8.ofString m.toJson.text) = .ok m := by
  have hread : (m.endpoints.map fun e => Json.object e.allMembers).filterMap Endpoint.ofJson? =
      m.endpoints := by
    have hsome : (Endpoint.ofJson? ∘ fun e : Endpoint => Json.object e.allMembers) = some :=
      funext Endpoint.ofJson?_allMembers
    rw [List.filterMap_map, hsome, List.filterMap_some]
  rw [parse, Json.Shape.parse, Json.ofString_text, Json.parseWith_of_takes m.takes_toJson]
  show Except.ok (Manifest.mk m.message _) = _
  rw [hread]

theorem descriptors_ofTable (base : String) (debug : Bool) (t : RouteTable) :
    (ofTable debug t).descriptors base = .ok (t.descriptors.map (Endpoint.known debug)) := by
  rw [descriptors, ofTable, List.mapM_map]
  induction t.descriptors with
  | nil => rfl
  | cons d ds ih =>
    rw [List.mapM_cons, ih]
    simp only [Function.comp, Endpoint.descriptor?_ofDescriptor]
    rfl

end Manifest
end QueryTree
