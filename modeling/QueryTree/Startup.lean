import QueryTree.Files.Layout
import QueryTree.Http.App
import QueryTree.Route.Compile
import QueryTree.Store.Disk
/-!
# Starting a server

A server is an app and the disk that it works on. At the start the layout is completed if it has to
be, the schema is read, the store is opened with it, and the tree is compiled; the first fault ends
the start. What has been made on the disk by then stays there.
-/

namespace QueryTree

inductive StartupFault where
  | config (fault : ConfigFault)
  | scaffold (fault : FileFault)
  | schemaRead (path : String) (fault : FileFault)
  | store (fault : StoreFault)
  | compile (fault : WalkFault)
  /-- A route's path does not begin with a slash, so no router takes it. -/
  | unrooted (path : String)
  | serve (fault : FileFault)
  deriving DecidableEq, Repr

namespace StartupFault

def message : StartupFault → String
  | config fault => fault.message
  | scaffold fault => "scaffolding failed: " ++ fault.message
  | schemaRead path fault => "failed to read schema " ++ path ++ ": " ++ fault.message
  | store fault => fault.message
  | compile fault => fault.message
  | unrooted path => "no leading slash: " ++ path
  | serve fault => "server: " ++ fault.message

end StartupFault

/-- The schema script at a path; none if there is no file, or nothing but comments in it. -/
def readSchema (t : FileTree) (path : String) : Except StartupFault (Option String) :=
  match t.readText path with
  | .ok script => .ok (if Sql.normalizeSchema script = "" then none else some script)
  | .error .absent => .ok none
  | .error fault => .error (.schemaRead path fault)

namespace RouteTable

/-- A path that does not begin with a slash. -/
def unrooted? (t : RouteTable) : Option String :=
  t.paths.find? fun path => path.toList.head? != some '/'

end RouteTable

namespace App

/-- Completes the layout if the configuration asks for it or something is missing. -/
def layOut (config : Config) (disk : Disk) : Except StartupFault Unit × Disk :=
  if config.scaffold || !Layout.isComplete disk.files config.sqlRoot config.databasePath then
    match disk.act (Layout.mk config.sqlRoot).scaffold with
    | (.ok _, disk) => (.ok (), disk)
    | (.error fault, disk) => (.error (.scaffold fault), disk)
  else (.ok (), disk)

/-- The app over an open store. -/
def assemble (config : Config) (disk : Disk) (store : Store) : Except StartupFault App :=
  match RouteTable.compile disk.files config.sqlRoot config.baseUrl with
  | .error fault => .error (.compile fault)
  | .ok routes =>
    match routes.unrooted? with
    | some path => .error (.unrooted path)
    | none => .ok ⟨config, routes, store⟩

def prepare (config : Config) (disk : Disk) : Except StartupFault App × Disk :=
  match layOut config disk with
  | (.error fault, disk) => (.error fault, disk)
  | (.ok (), disk) =>
    match readSchema disk.files config.schemaPath with
    | .error fault => (.error fault, disk)
    | .ok schema =>
      match disk.openStore config.databasePath schema with
      | (.error fault, disk) => (.error (.store fault), disk)
      | (.ok store, disk) => (assemble config disk store, disk)

end App

structure Server where
  app : App
  disk : Disk

namespace Server

def start (config : Config) (disk : Disk) : Except StartupFault Server × Disk :=
  let (outcome, disk) := App.prepare config disk
  (outcome.map fun app => ⟨app, disk⟩, disk)

/-- The server with another app in place of its own; what that has written reaches the disk. -/
def put (s : Server) (app : App) : Server := ⟨app, s.disk.save app.store⟩

/-- Answers a request. -/
def handle (s : Server) (now : String) (request : Request) : Response × Server :=
  let (response, app) := s.app.handle now request
  (response, s.put app)

def close (s : Server) : Server := { s with app := { s.app with store := s.app.store.close } }

/-- Closes the store and starts again on the same disk. If that fails, the old app stays, closed. -/
def restart (s : Server) (config : Config) : Except StartupFault Unit × Server :=
  let closed := s.close
  match start config closed.disk with
  | (.ok server, _) => (.ok (), server)
  | (.error fault, disk) => (.error fault, { closed with disk })

end Server
end QueryTree
