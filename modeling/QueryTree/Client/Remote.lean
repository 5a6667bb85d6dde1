import QueryTree.Client.Namespace
import QueryTree.Client.Url
import QueryTree.Config
import QueryTree.Http.Manifest
import QueryTree.Http.Status
import QueryTree.Startup
/-!
# Clients

A client discovers the routes of a server from its manifest and calls them as operations. Everything
it knows of the server it learns through an exchange, which takes a call and may give a reply; an
exchange has a state of its own, such as the server behind it.
-/

namespace QueryTree

/-- What a client sends. -/
structure Call where
  method : Method
  target : Target
  contentType : Option String
  body : List UInt8

/-- What comes back. -/
structure Reply where
  status : Nat
  body : List UInt8

/-- The way to a server. -/
abbrev Exchange (σ : Type) := Call → StateM σ (Option Reply)

namespace Exchange

/-- No call gets through. -/
def unreachable : Exchange Unit := fun _ => pure none

/-- Calls are answered at the time `now` by the app in a state, which is then put back. -/
def ofApp {σ α : Type} [Engine σ] (app : α → App σ) (put : α → App σ → α) (now : String) :
    Exchange α := fun call => do
  let state ← get
  let (response, app) := (app state).handle now ⟨call.method.name, call.target, call.body⟩
  set (put state app)
  pure (some ⟨response.status, Utf8.ofString response.body⟩)

/-- Calls are answered by a server at the time `now`. -/
def ofServer (now : String) : Exchange Server := ofApp Server.app Server.put now

end Exchange

inductive ClientFault where
  /-- No reply came, or one that cannot be read. -/
  | exchange
  | discovery (fault : DiscoveryFault)
  | remote (status : Nat) (message : String)
  | manifest (message : String)
  deriving DecidableEq, Repr

namespace ClientFault

def message : ClientFault → String
  | exchange => "http: error sending request"
  | discovery fault => fault.message
  | remote status message => "remote error (" ++ toString status ++ "): " ++ message
  | manifest message => "invalid manifest: " ++ message

/-- The fault of an entry whose table is not known. -/
def noTable (path : String) : ClientFault := manifest ("no table for " ++ path)

end ClientFault

structure Client where
  /-- The address of the server, without slashes at its end. -/
  origin : String
  apiBase : String
  /-- What was discovered. -/
  namespaces : Option NamespaceSet

namespace Client

variable {σ : Type}

abbrev Action (σ : Type) := ExceptT ClientFault (StateM σ)

def new (origin : String) : Client where
  origin := String.ofList ((origin.toList.reverse.dropWhile (· == '/')).reverse)
  apiBase := Config.standard.baseUrl
  namespaces := none

def withApiBase (c : Client) (base : String) : Client :=
  { c with apiBase := Config.normalizeBase base }

/-- The target with the pairs behind its query. -/
def withPairs (t : Target) (pairs : List (String × String)) : Target :=
  if pairs.isEmpty then t
  else if t.query = "" then { t with query := Form.serialize pairs }
  else { t with query := t.query ++ "&" ++ Form.serialize pairs }

/-- Arguments as a query carries them: texts as they are, other values as their JSON text. -/
def queryPairs (args : ParamSet) : List (String × String) :=
  args.map fun (name, value) => (name, value.string?.getD value.text)

def jsonType : String := "application/json"

/-- The call of an operation. A deletion carries its arguments twice, because servers do not read the
body of one. -/
def callOf (method : Method) (target : Target) (args : ParamSet) : Call :=
  let body := Utf8.ofString (Json.object args).text
  match method with
  | .get => ⟨.get, withPairs target (queryPairs args), none, []⟩
  | .delete => ⟨.delete, withPairs target (queryPairs args), some jsonType, body⟩
  | method => ⟨method, target, some jsonType, body⟩

def send (exchange : Exchange σ) (call : Call) : Action σ Reply := do
  match ← (exchange call : StateM σ (Option Reply)) with
  | some reply => pure reply
  | none => throw .exchange

/-- The target at a path of the server. -/
def targetOf (c : Client) (path : String) : Except ClientFault Target :=
  match Url.target? (c.origin ++ path) with
  | some target => .ok target
  | none => .error .exchange

def fetch (c : Client) (exchange : Exchange σ) (path : String) : Action σ Reply := do
  send exchange ⟨.get, ← ExceptT.mk (pure (c.targetOf path)), none, []⟩

def read {α : Type} (outcome : Except Json.Fault α) : Except ClientFault α :=
  match outcome with
  | .ok a => .ok a
  | .error _ => .error .exchange

def docs (c : Client) (exchange : Exchange σ) : Action σ Manifest := do
  let reply ← c.fetch exchange "/"
  if Status.isError reply.status then throw .exchange
  ExceptT.mk (pure (read (Manifest.parse reply.body)))

def health (c : Client) (exchange : Exchange σ) : Action σ Health := do
  let reply ← c.fetch exchange "/health"
  ExceptT.mk (pure (read (Health.parse reply.body)))

/-- The namespaces of a manifest. -/
def namespacesOf (base : String) (m : Manifest) : Except ClientFault NamespaceSet :=
  match m.descriptors base with
  | .ok routes => .ok (.ofDescriptors routes)
  | .error path => .error (.noTable path)

/-- The client with the namespaces of the server. -/
def discover (c : Client) (exchange : Exchange σ) : Action σ Client := do
  let manifest ← c.docs exchange
  let set ← ExceptT.mk (pure (namespacesOf c.apiBase manifest))
  pure { c with namespaces := some set }

/-- The operation of a name among those discovered. -/
def operation (c : Client) (space name : String) : Except DiscoveryFault Operation :=
  match c.namespaces with
  | none => .error (.namespaceNotFound space)
  | some set => set.operation space name

/-- The data of a reply, or the error that it reports. -/
def dataOf (reply : Reply) : Except ClientFault Json := do
  let e ← read (Envelope.parse reply.body)
  if e.success ∧ Status.isSuccess reply.status then pure (e.data.getD .null)
  else throw (.remote reply.status (e.error.getD (Status.text reply.status)))

/-- Calls an operation and returns its data. -/
def call (c : Client) (exchange : Exchange σ) (space name : String) (args : ParamSet) :
    Action σ Json := do
  let operation ← ExceptT.mk (pure ((c.operation space name).mapError .discovery))
  let target ← ExceptT.mk (pure (c.targetOf operation.path))
  let reply ← send exchange (callOf operation.method target args)
  ExceptT.mk (pure (dataOf reply))

end Client
end QueryTree
