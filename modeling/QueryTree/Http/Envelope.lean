import QueryTree.Http.Failure
import QueryTree.Json.Shape
/-!
# Envelopes

The body of a response: whether the request succeeded, its data or its error, and diagnostics if the
server gives any. A member that is absent is not written.
-/

namespace QueryTree

/-- What a response says about the route that gave it. -/
structure Diagnostics where
  method : String
  sqlPath : String
  isUniversal : Bool
  table : Option String
  processedSql : String
  deriving DecidableEq, Repr

structure Envelope where
  success : Bool
  data : Option Json
  error : Option String
  debug : Option Diagnostics

namespace Diagnostics

def toJson (d : Diagnostics) : Json :=
  .object [("method", .string d.method), ("sql_path", .string d.sqlPath),
    ("is_universal", .bool d.isUniversal), ("table_name", .nullable d.table),
    ("processed_sql", .string d.processedSql)]

def shape : Json.Shape :=
  .record "DebugInfo"
    [("method", false, .text), ("sql_path", false, .text), ("is_universal", false, .boolean),
      ("table_name", false, .optional .text), ("processed_sql", false, .text)]

def ofJson? : Json → Option Diagnostics
  | .object [(_, .string method), (_, .string sqlPath), (_, .bool isUniversal), (_, table),
      (_, .string processedSql)] =>
    some ⟨method, sqlPath, isUniversal, table.string?, processedSql⟩
  | _ => none

end Diagnostics

namespace Envelope

def succeeded (data : Json) : Envelope := ⟨true, some data, none, none⟩

def failed (message : String) : Envelope := ⟨false, none, some message, none⟩

def withDebug (e : Envelope) (debug : Option Diagnostics) : Envelope := { e with debug }

/-- A member, if there is a value for it. -/
def member (name : String) (value : Option Json) : List (String × Json) :=
  (value.map fun v => (name, v)).toList

def toJson (e : Envelope) : Json :=
  .object (("success", .bool e.success) :: member "data" e.data ++
    member "error" (e.error.map .string) ++ member "debug" (e.debug.map Diagnostics.toJson))

def shape : Json.Shape :=
  .record "Envelope"
    [("success", false, .boolean), ("data", true, .optional .any), ("error", true, .optional .text),
      ("debug", true, .optional Diagnostics.shape)]

/-- The value, unless it is null. -/
def present? : Json → Option Json
  | .null => none
  | v => some v

def ofJson? : Json → Option Envelope
  | .object [(_, .bool success), (_, data), (_, error), (_, debug)] =>
    some ⟨success, present? data, error.string?, Diagnostics.ofJson? debug⟩
  | _ => none

/-- The envelope that a text holds. -/
def parse (text : List UInt8) : Except Json.Fault Envelope :=
  (shape.parse text).map fun v => (ofJson? v).getD (failed "")

end Envelope
end QueryTree
