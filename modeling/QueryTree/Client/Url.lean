import QueryTree.Http.Form
import QueryTree.Http.Target
/-!
# Addresses

The target of a request is made from the text of an address: the path ends at the first question mark
or hash, segments of dots are resolved, and characters that may not stand in a path are written as
percent signs with their bytes.
-/

namespace QueryTree.Url

def isControl (b : UInt8) : Bool := b < 32 || 126 < b

/-- The characters that may not stand in a path. -/
def escapedInPath (b : UInt8) : Bool :=
  isControl b || [32, 34, 35, 60, 62, 63, 96, 123, 125].contains b

/-- The characters that may not stand in a query. -/
def escapedInQuery (b : UInt8) : Bool := isControl b || [32, 34, 35, 39, 60, 62].contains b

def escape (escaped : UInt8 → Bool) (s : List Char) : List Char :=
  (Utf8.encode s).flatMap fun b => if escaped b then Form.percent b else [Char.ofNat b.toNat]

/-- The spellings of a segment that stays where it is, and of one that goes up. -/
def isDot (s : List Char) : Bool := [".", "%2e"].contains (String.ofList (s.map Char.toLower))

def isDoubleDot (s : List Char) : Bool :=
  ["..", ".%2e", "%2e.", "%2e%2e"].contains (String.ofList (s.map Char.toLower))

/-- The segments of a path without those of dots; `done` are the ones before, in reverse. A path that
ends in dots ends in a slash. -/
def resolve (done : List (List Char)) : List (List Char) → List (List Char)
  | [] => done.reverse
  | s :: rest =>
    let ends : List (List Char) := if rest.isEmpty then [[]] else []
    if isDoubleDot s then resolve (ends ++ done.drop 1) rest
    else if isDot s then resolve (ends ++ done) rest
    else resolve (s :: done) rest

/-- The path of an address behind its authority. -/
def path (s : List Char) : List Char :=
  let s := match s with
    | c :: r => if c == '/' || c == '\\' then r else c :: r
    | [] => []
  let segments := (Text.splitBy (fun c => c == '/' || c == '\\') s).map (escape escapedInPath)
  '/' :: Text.joinWith ['/'] (resolve [] segments)

/-- The text without what addresses leave out: blanks at the ends, tabs and line ends anywhere. -/
def clean (s : List Char) : List Char :=
  let outer (c : Char) := c.toNat ≤ 32
  (((s.dropWhile outer).reverse.dropWhile outer).reverse).filter fun c =>
    c != '\t' && c != '\n' && c != '\r'

/-- The schemes of addresses that requests can be sent to. -/
def schemes : List String := ["http://", "https://"]

/-- The target that an address asks for; none if it is not an address to send requests to. -/
def target? (address : String) : Option Target := do
  let s := clean address.toList
  let scheme ← schemes.find? fun scheme =>
    s.map Char.toLower |>.take scheme.length |> (· == scheme.toList)
  let rest := s.drop scheme.length
  let isEnd (c : Char) := c == '/' || c == '\\' || c == '?' || c == '#'
  if (rest.takeWhile fun c => !isEnd c).isEmpty then none
  let shown := (rest.dropWhile fun c => !isEnd c).takeWhile (· != '#')
  let query := (shown.dropWhile (· != '?')).drop 1
  pure ⟨String.ofList (path (shown.takeWhile (· != '?'))),
    String.ofList (escape escapedInQuery query)⟩

end QueryTree.Url
