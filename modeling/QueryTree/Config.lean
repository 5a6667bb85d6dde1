import QueryTree.Files.Path
import QueryTree.Text.Blank
import QueryTree.Text.Word
/-!
# Configuration

What a server is started with. `Config.load` reads the settings from a lookup of keys: a key that is
absent leaves the default, and the first setting that cannot be read is the fault reported.
-/

namespace QueryTree

structure Config where
  /-- The root of the tree of files. -/
  sqlRoot : String
  databasePath : String
  /-- What every path begins with. -/
  baseUrl : String
  host : String
  port : Nat
  cors : Bool
  /-- Responses carry the rendered statement. -/
  debug : Bool
  requestTimeout : Nat
  /-- Seconds that an idle connection is kept; zero for no bound. -/
  idleTimeout : Nat
  keepAlive : Bool
  /-- Missing folders and files are made at the start. -/
  scaffold : Bool
  deriving DecidableEq, Repr

inductive ConfigFault where
  | invalidPort (port : Nat)
  | emptySqlRoot
  | invalidValue (key value : String)
  deriving DecidableEq, Repr

namespace ConfigFault

def message : ConfigFault → String
  | invalidPort port => "invalid port: " ++ toString port ++ " (must be 1-65535)"
  | emptySqlRoot => "sql root directory cannot be empty"
  | invalidValue key value => "invalid value for " ++ key ++ ": '" ++ value ++ "'"

end ConfigFault

namespace Config

def schemaFile : String := "schema.sql"

/-- The settings of a lookup without keys. -/
def standard : Config where
  sqlRoot := "sqlroute_dir/db"
  databasePath := "sqlroute_dir/app.db"
  baseUrl := "/api/v1"
  host := "0.0.0.0"
  port := 8080
  cors := true
  debug := false
  requestTimeout := 15
  idleTimeout := 30
  keepAlive := true
  scaffold := true

def schemaPath (c : Config) : String := Path.join c.sqlRoot schemaFile

def socketAddress (c : Config) : String := c.host ++ ":" ++ toString c.port

/-- The bound on an idle connection, if there is one. -/
def idleLimit? (c : Config) : Option Nat := if 0 < c.idleTimeout then some c.idleTimeout else none

/-- The text without the slashes at its ends. -/
def trimSlashes (s : List Char) : List Char :=
  ((s.dropWhile (· == '/')).reverse.dropWhile (· == '/')).reverse

/-- A base is empty or begins with a slash and does not end in one. -/
def normalizeBase (base : String) : String :=
  match trimSlashes (Text.trim base.toList) with
  | [] => ""
  | c :: r => String.ofList ('/' :: c :: r)

def maxPort : Nat := 65535

def validate (port : Nat) (sqlRoot : String) : Except ConfigFault Unit :=
  if port = 0 then .error (.invalidPort 0)
  else if sqlRoot = "" then .error .emptySqlRoot
  else .ok ()

/-- A number below `2 ^ bits`: decimal digits, perhaps behind a plus sign. -/
def natural? (bits : Nat) (s : List Char) : Option Nat :=
  let digits := match s with
    | '+' :: r => r
    | _ => s
  if digits = [] ∨ !digits.all Char.isDigit then none
  else
    let n := digits.foldl (fun n c => n * 10 + (c.toNat - 48)) 0
    if n < 1 <<< bits then some n else none

def truthWords : List (String × Bool) :=
  [("1", true), ("true", true), ("yes", true), ("on", true),
    ("0", false), ("false", false), ("no", false), ("off", false)]

/-- A truth value, spelled in any case. -/
def truth? (s : List Char) : Option Bool :=
  (truthWords.find? fun (word, _) => s.map Char.toLower = word.toList).map Prod.snd

/-- The setting of `key` as `read` takes it, blanks at its ends apart, or `standard` if it is absent. -/
def setting {α : Type} (lookup : String → Option String) (key : String)
    (read : List Char → Option α) (standard : α) : Except ConfigFault α :=
  match lookup key with
  | none => .ok standard
  | some value =>
    match read (Text.trim value.toList) with
    | some a => .ok a
    | none => .error (.invalidValue key value)

/-- The port: a number of 32 bits that must then be in range. -/
def portSetting (lookup : String → Option String) : Except ConfigFault Nat := do
  let port ← setting lookup "PORT" (natural? 32) standard.port
  if port = 0 ∨ maxPort < port then throw (.invalidPort port) else pure port

def load (lookup : String → Option String) : Except ConfigFault Config := do
  let sqlRoot := (lookup "SQL_ROOT").getD standard.sqlRoot
  let port ← portSetting lookup
  let cors ← setting lookup "CORS" truth? standard.cors
  let debug ← setting lookup "DEBUG" truth? standard.debug
  let scaffold ← setting lookup "SCAFFOLD" truth? standard.scaffold
  let keepAlive ← setting lookup "KEEP_ALIVE" truth? standard.keepAlive
  let idleTimeout ← setting lookup "IDLE_TIMEOUT_SECS" (natural? 64) standard.idleTimeout
  let requestTimeout ← setting lookup "REQUEST_TIMEOUT_SECS" (natural? 64) standard.requestTimeout
  validate port sqlRoot
  pure {
    sqlRoot, port, cors, debug, scaffold, keepAlive, idleTimeout, requestTimeout
    databasePath := (lookup "DB_PATH").getD standard.databasePath
    baseUrl := normalizeBase ((lookup "BASE_URL").getD standard.baseUrl)
    host := (lookup "HOST").getD standard.host }

/-- What the keys of the process environment begin with. -/
def environmentMark : String := "SQLROUTE_"

def loadEnvironment (environment : String → Option String) : Except ConfigFault Config :=
  load fun key => environment (environmentMark ++ key)

end Config
end QueryTree
