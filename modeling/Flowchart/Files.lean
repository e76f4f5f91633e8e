import Flowchart.Error
/-! The files that a session sees: their texts by path, and the folders around them. Paths are
written with slashes and read from the working folder. -/
namespace Flowchart

/-- A path as the names on the way; a path from the root of all files starts with a slash. -/
abbrev Path := List String

/-- One step along a path: `.` stays, `..` goes back where that is possible. -/
def Path.step (before : Path) (name : String) : Path :=
  if name == "" || name == "." then before
  else if name == ".." && !before.isEmpty && before.getLast? != some ".." then before.dropLast
  else before ++ [name]

/-- The path that a text denotes. -/
def Path.ofText (s : String) : Path :=
  let names := s.splitOn "/"
  names.foldl step (if s.toList.head? == some '/' then ["/"] else [])

def Path.text (p : Path) : String :=
  "/".intercalate p

/-- The folders that a path goes through, the working folder first. -/
def Path.folders (p : Path) : List Path :=
  (List.range p.length).map p.take

/-- The name of a file without its last extension. A name that only starts or ends with a point has
no extension. -/
def Path.stem (p : Path) : String :=
  let name := p.getLast?.getD ""
  let extension := (name.toList.reverse.takeWhile (· != '.')).length
  let kept := name.length - extension - 1
  if kept = 0 || extension = 0 then name else String.ofList (name.toList.take kept)

/-- Texts by path, and the folders there are. -/
structure Files where
  texts : List (Path × String)
  folders : List Path

namespace Files

/-- Files listed by path; the folders are those that the paths go through. -/
def ofList (entries : List (String × String)) : Files :=
  let texts := entries.map fun (path, text) => (Path.ofText path, text)
  ⟨texts, [] :: texts.flatMap fun (path, _) => path.folders⟩

/-- Follows names from a folder on; each of them but the last has to lead to a folder. -/
def follow (f : Files) (start : Path) : List String → Except FileFault Path
  | [] => .ok start
  | [name] => .ok (start.step name)
  | name :: rest =>
    if f.folders.contains (start.step name) then follow f (start.step name) rest
    else if (f.texts.lookup (start.step name)).isSome then .error .notFolder
    else .error .missingFolder

/-- Whether a path ends in a slash, and so can only lead to a folder. -/
def endsInSlash (path : String) : Bool :=
  path.toList.getLast? == some '/'

/-- Where a path leads. Slashes at its end are passed over. -/
def locate (f : Files) (path : String) : Except FileFault Path :=
  let root : Path := if path.toList.head? == some '/' then ["/"] else []
  let names := path.splitOn "/"
  f.follow root (names.reverse.dropWhile (· == "")).reverse

def isFolder (f : Files) (path : String) : Bool :=
  match f.locate path with
  | .ok found => !path.isEmpty && f.folders.contains found
  | .error _ => false

/-- The text of a file. -/
def text? (f : Files) (path : String) : Option String :=
  match f.locate path with
  | .ok found => if path.isEmpty || endsInSlash path then none else f.texts.lookup found
  | .error _ => none

def has (f : Files) (path : String) : Bool :=
  f.isFolder path || (f.text? path).isSome

/-- The names in a folder, in order. -/
def names (f : Files) (path : String) : List String :=
  let folder := Path.ofText path
  let inside := (f.texts.map Prod.fst ++ f.folders).filterMap fun p =>
    if p.length = folder.length + 1 && p.dropLast == folder then p.getLast? else none
  inside.eraseDups.mergeSort fun a b => decide (a ≤ b)

/-- The texts with that of one path replaced or added. -/
def put (path : Path) (text : String) : List (Path × String) → List (Path × String)
  | [] => [(path, text)]
  | entry :: rest => if entry.1 == path then (path, text) :: rest else entry :: put path text rest

/-- Writes a file. Its folder has to be there. -/
def write (f : Files) (path text : String) : Except Error Files :=
  match f.locate path with
  | .error e => .error (.file e)
  | .ok target =>
    if f.folders.contains target || endsInSlash path then .error (.file .isFolder)
    else .ok { f with texts := put target text f.texts }

/-- The files that are new or changed since an earlier state, in the order of their paths. -/
def changes (before after : Files) : List (String × String) :=
  let changed := after.texts.filter fun (path, text) => before.texts.lookup path != some text
  (changed.map fun (path, text) => (path.text, text)).mergeSort fun a b => decide (a.1 ≤ b.1)

/-- Line ends of any convention as line feeds. -/
def withLineFeeds : List Char → List Char
  | [] => []
  | '\r' :: '\n' :: rest => '\n' :: withLineFeeds rest
  | '\r' :: rest => '\n' :: withLineFeeds rest
  | c :: rest => c :: withLineFeeds rest

end Files

end Flowchart
