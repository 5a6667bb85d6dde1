import QueryTree.Proofs.Client.Request
import QueryTree.Proofs.Http.Envelope
import QueryTree.Proofs.Http.Verdict

/-!
# What a client makes of a response

`Client.call_gives_verdict`: the outcome of a call is the verdict of the server on its request. An
answer arrives as its JSON value, a failure with its status and its message; diagnostics change
neither.
-/

namespace QueryTree

namespace Client
variable {c : Client} {space name : String} {op : Operation} {target : Target} {args : ParamSet}

/-- The outcome of a call, as the client tells it. -/
def told : Except Failure Answer → Except ClientFault Json
  | .ok answer => .ok answer.toJson
  | .error f => .error (.remote f.status f.message)

theorem dataOf_of_parse {body : List UInt8} {e : Envelope} (h : Envelope.parse body = .ok e)
    (status : Nat) :
    dataOf ⟨status, body⟩ =
      if e.success ∧ Status.isSuccess status then .ok (e.data.getD .null)
      else .error (.remote status (e.error.getD (Status.text status))) := by
  rw [dataOf, h]
  rfl

theorem dataOf_of_carries {r : Response} {outcome : Except Failure Answer}
    (h : r.Carries outcome) (hplain : ∀ a, outcome = .ok a → a.WellKeyed ∧ a.Plain) :
    dataOf ⟨r.status, Utf8.ofString r.body⟩ = told outcome := by
  cases outcome with
  | ok a =>
    obtain ⟨hstatus, notes, hbody⟩ := h
    obtain ⟨hkeys, hplain⟩ := hplain a rfl
    have hfits := (Answer.fits_toJson hkeys hplain).mono (show 3 ≤ 126 by decide)
    have hdata : ∀ v, some a.toJson = some v → v.Fits 126 ∧ v ≠ .null := fun v hv =>
      Option.some.inj hv ▸ ⟨hfits, a.toJson_ne_null⟩
    have hparse : Envelope.parse (Utf8.ofString r.body) = .ok ⟨true, some a.toJson, none, notes⟩ := by
      rw [hbody]
      exact Envelope.parse_toJson (e := (Envelope.succeeded a.toJson).withDebug notes) hdata
    rw [dataOf_of_parse hparse, hstatus]
    rfl
  | error f =>
    obtain ⟨hstatus, notes, hbody⟩ := h
    have hparse : Envelope.parse (Utf8.ofString r.body) =
        .ok ⟨false, none, some f.message, notes⟩ := by
      rw [hbody]
      exact Envelope.parse_toJson (e := (Envelope.failed f.message).withDebug notes) nofun
    rw [dataOf_of_parse hparse, hstatus]
    rfl

section Engine

variable {σ α : Type} [Engine σ] {app : α → App σ} {put : α → App σ → α}

theorem ask_ofApp (now : String) (sent : Call) (a : α) :
    ((ask (Exchange.ofApp app put now) sent).run.run a).1 =
      dataOf ⟨((app a).handle now sent.request).1.status,
        Utf8.ofString ((app a).handle now sent.request).1.body⟩ := rfl

theorem name_ne_options (m : Method) : m.name ≠ "OPTIONS" := by
  cases m <;> decide

/-- A call that an app dispatches, or finds no routes for, gives what the app made of it, over any engine
and wherever the app is kept between calls. -/
theorem call_gives_verdict (now : String) (a : α) (hop : c.operation space name = .ok op)
    (htarget : c.targetOf op.path = .ok target) (hpath : target.path ∉ App.ownPaths)
    (hplain : ∀ answer, (app a).verdict (callOf op.method target args).request = .ok answer →
      answer.Plain) :
    ((c.call (Exchange.ofApp app put now) space name args).run.run a).1 =
      told ((app a).verdict (callOf op.method target args).request) := by
  have hmethod : (callOf op.method target args).request.method ≠ "OPTIONS" := name_ne_options _
  have hsame : (callOf op.method target args).request.target.path = target.path := path_callOf _ _ _
  rw [call_eq _ hop htarget, ask_ofApp]
  refine dataOf_of_carries (App.carries_handle now hmethod ?_) fun answer hanswer => ?_
  · rwa [hsame]
  · exact ⟨App.wellKeyed_of_verdict hanswer, hplain answer hanswer⟩

end Engine

/-- A client that knows of a table of reports. -/
def ofReports : Client where
  origin := "http://reports"
  apiBase := "/api"
  namespaces := some ⟨[⟨"reports", [⟨"select", .get, "/api/reports"⟩]⟩]⟩

/-- A server with diagnostics and a single route. -/
def reports : Server where
  app := ⟨{ Config.standard with debug := true },
    .ofList [⟨⟨.get, "/api/reports", "reports/GET/reports.sql", some "reports"⟩,
      "SELECT -7 AS n, NULL, 'é\"'"⟩], .start .empty none⟩
  disk := .empty

/-- A row of a negative number, of nothing and of a text that needs an escape. -/
theorem call_gives_report :
    ((ofReports.call (Exchange.ofServer "now") "reports" "select" []).run.run reports).1 =
      told (reports.app.verdict (callOf .get ⟨"/api/reports", ""⟩ []).request) ∧
    ((told (reports.app.verdict (callOf .get ⟨"/api/reports", ""⟩ []).request)).toOption.map
      Json.text = some ("\x7b\"columns\":[\"n\",\"NULL\",\"'é\\\"'\"],\"rows\":" ++
        "[\x7b\"n\":-7,\"NULL\":null,\"'é\\\"'\":\"é\\\"\"\x7d],\"count\":1\x7d")) :=
  have hop : ofReports.operation "reports" "select" = .ok ⟨"select", .get, "/api/reports"⟩ := rfl
  ⟨call_gives_verdict "now" reports hop rfl (by decide) (by decide +kernel), by decide +kernel⟩

end Client
end QueryTree
