import QueryTree.Client.Remote
import QueryTree.Proofs.Http.Form
import QueryTree.Proofs.Json.ReadBack

/-!
# What a server reads of a call

The arguments of a call travel in the query or as a JSON object in the body, as the method has it.
From the query they are read as texts (`params_of_query`), from the body as they are
(`params_of_body`); `ParamSet.received` is what arrives of either. The arguments of a deletion travel
both ways, and its body is not read.
-/

namespace QueryTree

theorem Method.ofName?_name (m : Method) : ofName? m.name = some m := by
  cases m <;> decide

namespace ParamSet

/-- A value as a query carries it: a text as it is, any other value as its JSON text. -/
def asText : Json → Json
  | .string s => .string s
  | v => .string v.text

theorem asText_eq (v : Json) : asText v = .string (v.string?.getD v.text) := by
  cases v <;> rfl

/-- What arrives of the arguments of an operation. -/
def received (method : Method) (args : ParamSet) : ParamSet :=
  match method with
  | .post | .put => args
  | .get | .delete => args.map fun (name, value) => (name, asText value)

/-- A query that names no parameter twice is read pair by pair. -/
theorem ofQuery_eq_map {pairs : List (String × String)} (h : (Keyed.keys pairs).Nodup) :
    ofQuery pairs = pairs.map fun p => (p.1, .string p.2) := by
  have hkeys : Keyed.keys (pairs.map fun p => (p.1, Json.string p.2)) = Keyed.keys pairs := by
    rw [Keyed.keys, Keyed.keys, List.map_map]
    rfl
  have h : (Keyed.keys ([] ++ pairs.map fun p => (p.1, Json.string p.2))).Nodup := by
    rwa [List.nil_append, hkeys]
  have happend := Keyed.foldl_putNew_eq_append h
  rwa [List.foldl_map, List.nil_append] at happend

/-- A body that holds an object adds its members to a query without parameters. -/
theorem mergeBody_object {args : ParamSet} (h : (Json.object args).Fits Json.maxDepth) :
    mergeBody [] (Utf8.ofString (Json.object args).text) = .ok args := by
  have hblank : (Utf8.ofString (Json.object args).text).all Text.isBlankByte = false := by
    rw [Json.ofString_text, Json.bytes_object]
    rfl
  have hkeys : (Keyed.keys ([] ++ args)).Nodup := by
    cases h with
    | object keys values => exact keys
  rw [mergeBody, hblank, Json.parse_text h]
  exact congrArg Except.ok (Keyed.foldl_put_eq_append hkeys)

end ParamSet

namespace Request
variable {r : Request} {args : ParamSet}

theorem params_of_query {pairs : List (String × String)} (hmethod : r.carriesBody = false)
    (hquery : r.target.query = Form.serialize pairs) (h : (Keyed.keys pairs).Nodup) :
    r.params = .ok (pairs.map fun p => (p.1, .string p.2)) := by
  rw [params, hmethod, hquery, Form.parse_serialize, ParamSet.ofQuery_eq_map h]
  rfl

theorem params_of_body (hmethod : r.carriesBody = true) (hquery : r.target.query = "")
    (hbody : r.body = Utf8.ofString (Json.object args).text)
    (hsize : r.body.length ≤ bodyLimit) (h : (Json.object args).Fits Json.maxDepth) :
    r.params = .ok args := by
  have hparse : Form.parse "" = [] := Form.parse_serialize []
  rw [params, hmethod, hquery, hparse]
  show (if bodyLimit < r.body.length then .error .tooLong else ParamSet.mergeBody [] r.body) = _
  rw [if_neg (by omega), hbody, ParamSet.mergeBody_object h]

end Request

/-- The request that a call makes. -/
def Call.request (call : Call) : Request := ⟨call.method.name, call.target, call.body⟩

theorem Call.carriesBody_request (call : Call) :
    call.request.carriesBody = call.method.carriesBody := by
  rw [Request.carriesBody, request, Method.ofName?_name]
  rfl

namespace Client
variable {c : Client} {space name : String} {op : Operation} {target : Target} {args : ParamSet}

theorem withPairs_query (path : String) (pairs : List (String × String)) :
    (withPairs ⟨path, ""⟩ pairs).query = Form.serialize pairs := by
  cases pairs with
  | nil => rfl
  | cons pair pairs => rfl

theorem withPairs_path (t : Target) (pairs : List (String × String)) :
    (withPairs t pairs).path = t.path := by
  rw [withPairs]
  split
  · rfl
  · split <;> rfl

theorem keys_queryPairs (args : ParamSet) : Keyed.keys (queryPairs args) = Keyed.keys args := by
  rw [Keyed.keys, queryPairs, List.map_map]
  rfl

theorem map_queryPairs (args : ParamSet) :
    (queryPairs args).map (fun p => (p.1, Json.string p.2)) =
      args.map fun (name, value) => (name, ParamSet.asText value) := by
  rw [queryPairs, List.map_map]
  exact List.map_congr_left fun p _ => congrArg (Prod.mk p.1) (ParamSet.asText_eq p.2).symm

/-- Sends a call and gives the data of the reply. -/
def ask {σ : Type} (exchange : Exchange σ) (sent : Call) : Action σ Json := do
  let reply ← send exchange sent
  ExceptT.mk (pure (dataOf reply))

/-- What is sent when an operation is called, once its name and address are found. -/
theorem call_eq {σ : Type} (exchange : Exchange σ) (hop : c.operation space name = .ok op)
    (htarget : c.targetOf op.path = .ok target) :
    c.call exchange space name args = ask exchange (callOf op.method target args) := by
  have hstep : c.call exchange space name args =
      (do ask exchange (callOf op.method (← ExceptT.mk (pure (c.targetOf op.path))) args)) := by
    rw [call, hop]
    rfl
  rw [hstep, htarget]
  rfl

theorem method_callOf (m : Method) (t : Target) (args : ParamSet) : (callOf m t args).method = m := by
  cases m <;> rfl

theorem path_callOf (m : Method) (t : Target) (args : ParamSet) :
    (callOf m t args).target.path = t.path := by
  cases m with
  | get | delete => exact withPairs_path t _
  | post | put => rfl

theorem params_of_callOf {m : Method} {path : String} (hkeys : (Keyed.keys args).Nodup)
    (hbody : m.carriesBody = true → (Json.object args).Fits Json.maxDepth ∧
      (Utf8.ofString (Json.object args).text).length ≤ Request.bodyLimit) :
    (callOf m ⟨path, ""⟩ args).request.params = .ok (args.received m) := by
  have hmethod := (callOf m ⟨path, ""⟩ args).carriesBody_request
  rw [method_callOf] at hmethod
  have hpairs : (Keyed.keys (queryPairs args)).Nodup := by rwa [keys_queryPairs]
  cases m with
  | get | delete =>
    rw [Request.params_of_query hmethod (withPairs_query path _) hpairs, map_queryPairs]
    rfl
  | post | put => exact Request.params_of_body hmethod rfl rfl (hbody rfl).2 (hbody rfl).1

/-- A call of a discovered operation sends one request, of the operation's method to its path, and
the parameters that the server reads of it are the arguments. -/
theorem call_sends_args (hop : c.operation space name = .ok op)
    (hpath : c.targetOf op.path = .ok ⟨op.path, ""⟩) (hkeys : (Keyed.keys args).Nodup)
    (hbody : op.method.carriesBody = true → (Json.object args).Fits Json.maxDepth ∧
      (Utf8.ofString (Json.object args).text).length ≤ Request.bodyLimit) :
    ∃ sent : Call,
      (∀ {σ : Type} (exchange : Exchange σ),
        c.call exchange space name args = ask exchange sent) ∧
      sent.request.method = op.method.name ∧ sent.request.target.path = op.path ∧
      sent.request.params = .ok (args.received op.method) := by
  refine ⟨callOf op.method ⟨op.path, ""⟩ args, fun exchange => call_eq exchange hop hpath, ?_, ?_,
    params_of_callOf hkeys hbody⟩
  · rw [Call.request, method_callOf]
  · exact path_callOf _ _ _

/-- A client of a server that notes can be put to and deleted from. -/
def ofNotes : Client where
  origin := "http://notes"
  apiBase := "/api"
  namespaces := some ⟨[⟨"notes",
    [⟨"delete", .delete, "/api/notes"⟩, ⟨"update", .put, "/api/notes"⟩]⟩]⟩

/-- The empty key, keys and texts that look like query syntax, and a list within a list. -/
theorem call_sends_hostile_args :
    (∃ sent : Call,
      (∀ {σ : Type} (exchange : Exchange σ), ofNotes.call exchange "notes" "delete"
        [("", .string "a&b=c"), ("é+%41", .array [.array [.int 7], .null])] = ask exchange sent) ∧
      sent.request.method = "DELETE" ∧ sent.request.target.path = "/api/notes" ∧
      sent.request.params = .ok [("", .string "a&b=c"), ("é+%41", .string "[[7],null]")]) ∧
    ∃ sent : Call,
      (∀ {σ : Type} (exchange : Exchange σ), ofNotes.call exchange "notes" "update"
        [("", .string "a&b=c"), ("é+%41", .array [.array [.int 7], .null])] = ask exchange sent) ∧
      sent.request.method = "PUT" ∧ sent.request.target.path = "/api/notes" ∧
      sent.request.params = .ok [("", .string "a&b=c"), ("é+%41", .array [.array [.int 7], .null])] := by
  have hseven : (Json.array [.int 7]).Fits 125 :=
    .array (List.forall_mem_singleton.2 (.int (by decide) (by decide)))
  have hlist : (Json.array [.array [.int 7], .null]).Fits 126 :=
    .array (List.forall_mem_cons.2 ⟨hseven, List.forall_mem_singleton.2 .null⟩)
  have hdelete : ofNotes.operation "notes" "delete" = .ok ⟨"delete", .delete, "/api/notes"⟩ := rfl
  have hupdate : ofNotes.operation "notes" "update" = .ok ⟨"update", .put, "/api/notes"⟩ := rfl
  refine ⟨call_sends_args hdelete rfl (by decide) nofun,
    call_sends_args hupdate rfl (by decide) fun _ => ⟨?_, ?_⟩⟩
  · exact .object (by decide)
      (List.forall_mem_cons.2 ⟨.string _, List.forall_mem_singleton.2 hlist⟩)
  · decide +kernel

end Client
end QueryTree
