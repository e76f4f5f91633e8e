import Flowchart.Command.Execute
/-! The command line program: it loads what the command is about, holds the session, and carries out
what came of it. -/
namespace Flowchart.Program

/-- Whether a path leads to a folder. -/
def isFolder (path : String) : IO Bool :=
  try
    let found ← IO.FS.realPath path
    found.isDir
  catch _ => return false

/-- The text of a file, if it can be read. -/
def text? (path : String) : IO (Option String) :=
  try
    return some (← IO.FS.readFile path)
  catch _ => return none

/-- The folders that a path goes through or leads to. -/
def foldersOn (path : String) : IO (List Path) :=
  let p := Path.ofText path
  (p.folders ++ [p]).filterM fun folder => isFolder (if folder.isEmpty then "." else folder.text)

/-- The diagram files that a path leads to, with the folders among them. -/
def filesAt (path : String) : IO Files := do
  let mut found : Files := ⟨[], []⟩
  let paths ←
    if ← isFolder path then
      pure ((← (← IO.FS.realPath path).readDir).toList.map fun entry => inFolder path entry.fileName)
    else pure [path]
  for path in paths do
    if ← isFolder path then
      found := { found with folders := .ofText path :: found.folders }
    else if let some text ← text? path then
      found := { found with texts := (.ofText path, text) :: found.texts }
  return found

/-- The files that a command is about. -/
def load (c : Command) : IO Files := do
  let around ← (c.path?.toList ++ c.out?.toList).mapM foldersOn
  let found ←
    match c.path? with
    | some path => filesAt path
    | none => pure ⟨[], []⟩
  return ⟨found.texts, [] :: around.flatten ++ found.folders⟩

end Flowchart.Program

open Flowchart in
def main (arguments : List String) : IO UInt32 := do
  let files ←
    match Arguments.read arguments with
    | .ok invocation => Program.load invocation.command
    | .error _ => pure ⟨[], []⟩
  let outcome := session arguments files
  IO.print outcome.shown
  for line in outcome.journal do
    IO.eprintln line
  for (path, text) in files.changes outcome.files do
    IO.FS.writeFile path text
  match outcome.exit with
  | .ok code => return code.toUInt32
  | .error e =>
    IO.eprintln e.message
    return 1
