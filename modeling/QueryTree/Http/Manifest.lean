import QueryTree.Http.Envelope
import QueryTree.Route.Naming
import QueryTree.Route.Table
/-!
# Manifest and health

The manifest lists the routes of a server, in the order of its table; clients rebuild descriptors from
it. The health report says whether the store answers.
-/

namespace QueryTree

/-- One route in the manifest. The file is only given away by a server that helps debugging. -/
structure Endpoint where
  method : Method
  path : String
  universal : Bool
  table : Option String
  sqlPath : Option String
  deriving DecidableEq, Repr

structure Manifest where
  message : String
  endpoints : List Endpoint
  deriving DecidableEq, Repr

namespace Endpoint

def ofDescriptor (debug : Bool) (d : Descriptor) : Endpoint where
  method := d.method
  path := d.path
  universal := d.isUniversal
  table := d.table
  sqlPath := if debug then some d.sqlPath else none

def toJson (e : Endpoint) : Json :=
  .object ([("method", .string e.method.name), ("path", .string e.path),
    ("universal", .bool e.universal)] ++ Envelope.member "table" (e.table.map .string) ++
    Envelope.member "sql_path" (e.sqlPath.map .string))

def shape : Json.Shape :=
  .record "EndpointInfo"
    [("method", false, .choice (Method.all.map Method.name)), ("path", false, .text),
      ("universal", false, .boolean), ("table", true, .optional .text),
      ("sql_path", true, .optional .text)]

def ofJson? : Json → Option Endpoint
  | .object [(_, .string method), (_, .string path), (_, .bool universal), (_, table),
      (_, sqlPath)] =>
    (Method.ofName? method).map fun method =>
      ⟨method, path, universal, table.string?, sqlPath.string?⟩
  | _ => none

/-- The descriptor of the route; the path gives the table of an entry that does not name it. None if
the path does not either. -/
def descriptor? (base : String) (e : Endpoint) : Option Descriptor :=
  let sqlPath := e.sqlPath.getD ""
  if e.universal then some ⟨e.method, e.path, sqlPath, none⟩
  else (e.table.orElse fun _ => Naming.tableOfPath? e.path base).map fun table =>
    ⟨e.method, e.path, sqlPath, some table⟩

end Endpoint

namespace Manifest

/-- What a server calls itself. -/
def greeting : String := "sqlroute 0.1.0"

def ofTable (debug : Bool) (routes : RouteTable) : Manifest :=
  ⟨greeting, routes.descriptors.map (Endpoint.ofDescriptor debug)⟩

def toJson (m : Manifest) : Json :=
  .object [("message", .string m.message), ("endpoints", .array (m.endpoints.map Endpoint.toJson))]

def shape : Json.Shape :=
  .record "Manifest" [("message", false, .text), ("endpoints", false, .list Endpoint.shape)]

def ofJson? : Json → Option Manifest
  | .object [(_, .string message), (_, .array endpoints)] =>
    some ⟨message, endpoints.filterMap Endpoint.ofJson?⟩
  | _ => none

def parse (text : List UInt8) : Except Json.Fault Manifest :=
  (shape.parse text).map fun v => (ofJson? v).getD ⟨"", []⟩

/-- The descriptors of all entries, or the path of the first one without a table. -/
def descriptors (base : String) (m : Manifest) : Except String (List Descriptor) :=
  m.endpoints.mapM fun e =>
    match e.descriptor? base with
    | some d => .ok d
    | none => .error e.path

end Manifest

structure Health where
  status : String
  endpoints : Nat
  port : Nat
  timestamp : String
  database : String
  deriving DecidableEq, Repr

namespace Health

def toJson (h : Health) : Json :=
  .object [("status", .string h.status), ("endpoints", .ofNat h.endpoints), ("port", .ofNat h.port),
    ("timestamp", .string h.timestamp), ("database", .string h.database)]

def shape : Json.Shape :=
  .record "HealthBody"
    [("status", false, .text), ("endpoints", false, .natural "usize" (1 <<< 64 - 1)),
      ("port", false, .natural "u16" (1 <<< 16 - 1)), ("timestamp", false, .text),
      ("database", false, .text)]

def ofJson? : Json → Option Health
  | .object [(_, .string status), (_, .int endpoints), (_, .int port), (_, .string timestamp),
      (_, .string database)] => some ⟨status, endpoints.toNat, port.toNat, timestamp, database⟩
  | _ => none

def parse (text : List UInt8) : Except Json.Fault Health :=
  (shape.parse text).map fun v => (ofJson? v).getD ⟨"", 0, 0, "", ""⟩

end Health
end QueryTree
