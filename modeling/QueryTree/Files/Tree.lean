import QueryTree.Files.Path
import QueryTree.Keyed
import QueryTree.Text.Utf8
/-!
# File trees

A tree maps places to directories, files and symbolic links. A place is the list of the names that
lead to it from the top, where there is always a directory. Looking a path up follows links; `find`
says what a path leads to, and on it rest reading, writing and making directories.
-/

namespace QueryTree

inductive Entry where
  | directory
  | file (bytes : List UInt8)
  | link (target : String)
  deriving DecidableEq, Repr

/-- Why an action on a tree fails. -/
inductive FileFault where
  | absent
  | taken
  | notDirectory
  | isDirectory
  | tooManyLinks
  | nameTooLong
  /-- The path holds the character that ends a path. -/
  | nulByte
  | notText
  /-- A fault that the tree itself does not give rise to. -/
  | other (message : String)
  deriving DecidableEq, Repr

namespace FileFault

def message : FileFault → String
  | absent => "No such file or directory (os error 2)"
  | taken => "File exists (os error 17)"
  | notDirectory => "Not a directory (os error 20)"
  | isDirectory => "Is a directory (os error 21)"
  | tooManyLinks => "Too many levels of symbolic links (os error 40)"
  | nameTooLong => "File name too long (os error 36)"
  | nulByte => "file name contained an unexpected NUL byte"
  | notText => "stream did not contain valid UTF-8"
  | other message => message

end FileFault

/-- The names that lead from the top to an entry. -/
abbrev Place := List String

structure FileTree where
  entries : List (Place × Entry)
  deriving DecidableEq, Repr

namespace FileTree

def empty : FileTree := ⟨[]⟩

def entryOf? (t : FileTree) (place : Place) : Option Entry :=
  if place = [] then some .directory else Keyed.get? place t.entries

def set (t : FileTree) (place : Place) (entry : Entry) : FileTree :=
  ⟨Keyed.put place entry t.entries⟩

/-- What a path leads to. -/
inductive Found where
  | here (place : Place) (entry : Entry)
  /-- Nothing stands at the place, but the directory that would hold it exists. -/
  | free (place : Place)
  deriving DecidableEq, Repr

/-- The links that may be followed on one path. -/
def maxLinks : Nat := 40

/-- The bytes that one name may have. -/
def maxName : Nat := 255

/-- The bytes that a path must stay below. -/
def maxPath : Nat := 4096

/-- Goes on from the directory `start` along `steps`; a link at the end is followed if `follow` says
so. -/
def walk (t : FileTree) (follow : Bool) (links : Nat) (start : Place) (steps : List String) :
    Except FileFault Found :=
  match steps with
  | [] => .ok (.here start .directory)
  | "." :: rest => walk t follow links start rest
  | ".." :: rest => walk t follow links start.dropLast rest
  | name :: rest =>
    let place := start ++ [name]
    if maxName < name.utf8ByteSize then .error .nameTooLong
    else match t.entryOf? place with
    | none => if rest = [] then .ok (.free place) else .error .absent
    | some .directory => walk t follow links place rest
    | some (.file bytes) => if rest = [] then .ok (.here place (.file bytes)) else .error .notDirectory
    | some (.link target) =>
      if rest = [] ∧ ¬ follow then .ok (.here place (.link target))
      else match links with
        | 0 => .error .tooManyLinks
        | links + 1 =>
          walk t follow links (if Path.isAbsolute target then [] else start)
            (Path.steps target ++ rest)
termination_by (links, steps.length)

def find (t : FileTree) (follow : Bool) (path : String) : Except FileFault Found :=
  if path.toList.contains '\x00' then .error .nulByte
  else if path = "" then .error .absent
  else if maxPath ≤ path.utf8ByteSize then .error .nameTooLong
  else t.walk follow maxLinks [] (Path.steps path)

/-- The entry at the end of a path, links followed. -/
def entryAt? (t : FileTree) (path : String) : Option Entry :=
  match t.find true path with
  | .ok (.here _ entry) => some entry
  | _ => none

def has (t : FileTree) (path : String) : Bool := (t.entryAt? path).isSome

def isDirectory (t : FileTree) (path : String) : Bool := t.entryAt? path = some .directory

/-- The place of the directory at a path. -/
def directoryAt (t : FileTree) (path : String) : Except FileFault Place := do
  match ← t.find true path with
  | .here place .directory => pure place
  | .here _ _ => throw .notDirectory
  | .free _ => throw .absent

def read (t : FileTree) (path : String) : Except FileFault (List UInt8) := do
  match ← t.find true path with
  | .here _ (.file bytes) => pure bytes
  | .here _ _ => throw .isDirectory
  | .free _ => throw .absent

def readText (t : FileTree) (path : String) : Except FileFault String := do
  match Utf8.toString? (← t.read path) with
  | some text => pure text
  | none => throw .notText

/-- The tree with a file of the given bytes at `path`, in place of the file that may be there. -/
def write (t : FileTree) (path : String) (bytes : List UInt8) : Except FileFault FileTree := do
  match ← t.find true path with
  | .here place (.file _) | .free place => pure (t.set place (.file bytes))
  | .here _ _ => throw .isDirectory

/-- The tree with `entry` at a path where there is nothing yet. -/
def make (t : FileTree) (path : String) (entry : Entry) : Except FileFault FileTree := do
  match ← t.find false path with
  | .free place => pure (t.set place entry)
  | .here _ _ => throw .taken

/-- The entries below a directory, each with its path from there, in no particular order; links are
not followed. -/
def below (t : FileTree) (place : Place) : List (List String × Entry) :=
  t.entries.filterMap fun (p, entry) =>
    if place.isPrefixOf p && place.length < p.length then some (p.drop place.length, entry) else none

end FileTree

/-- An action on a tree. What it has done stays done when it fails. -/
abbrev FileAction := ExceptT FileFault (StateM FileTree)

namespace FileAction

/-- One step that is done as a whole or not at all. -/
def step (f : FileTree → Except FileFault FileTree) : FileAction Unit := do
  match f (← get) with
  | .ok t => set t
  | .error fault => throw fault

/-- What the tree answers to a question. -/
def ask {α : Type} (f : FileTree → Except FileFault α) : FileAction α := do
  match f (← get) with
  | .ok a => pure a
  | .error fault => throw fault

/-- Makes the directory at the path of the given parts and, before it, those that lead there. The
parts come in reverse. -/
def makeDirectories (absolute : Bool) : List String → FileAction Unit
  | [] => pure ()
  | part :: before => do
    let path := Path.ofParts absolute ((part :: before).reverse)
    match (← get).make path .directory with
    | .ok t => set t
    | .error .absent =>
      makeDirectories absolute before
      match (← get).make path .directory with
      | .ok t => set t
      | .error fault => if (← get).isDirectory path then pure () else throw fault
    | .error fault => if (← get).isDirectory path then pure () else throw fault

/-- Makes a directory and those that lead there; one that exists is left alone. -/
def makePath (path : String) : FileAction Unit :=
  makeDirectories (Path.isAbsolute path) (Path.parts path).reverse

/-- Writes a file unless something is there, and says whether it did. -/
def writeNew (path text : String) : FileAction Bool := do
  if (← get).has path then return false
  makePath ((Path.parent? path).getD "")
  step (·.write path (Utf8.ofString text))
  return true

end FileAction
end QueryTree
