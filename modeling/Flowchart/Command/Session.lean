import Flowchart.Files
import Flowchart.Journal
import Flowchart.Report
/-! A session of the command line: what the console showed, the files, the journal and the report.
A job changes the session and may end in a failure; what it did before stays done. -/
namespace Flowchart

/-- The state of a session. -/
structure Session where
  shown : String
  files : Files
  notes : List Note
  report : Report

/-- A piece of work in a session. -/
abbrev Job := ExceptT Error (StateM Session)

namespace Job

/-- Shows a text on the console. -/
def print (s : String) : Job Unit :=
  modify fun session => { session with shown := session.shown ++ s }

def printLine (s : String) : Job Unit :=
  print (s ++ "\n")

/-- Shows a message on the console; it must not close a style that is not open. -/
def announce (message : String) : Job Unit :=
  match Console.text? message with
  | some s => printLine s
  | none => throw .unopenedStyle

/-- Adds notes to the journal. -/
def note (notes : List Note) : Job Unit :=
  modify fun session => { session with notes := session.notes ++ notes }

/-- Makes the messages that follow be about a file. -/
def about (path : String) : Job Unit :=
  modify fun session => { session with report := session.report.about (some path) }

/-- Reports an error. -/
def fail (kind text : String) : Job Unit := do
  let (report, shown) := (← get).report.error ⟨kind, text, none⟩
  modify fun session => { session with report }
  print shown

/-- Reports a failure of the language; any other failure ends the job. -/
def failWith (e : Error) : Job Unit :=
  if e.family = .outside then throw e else fail e.family.label e.message

/-- Reports a warning. -/
def warn (text : String) : Job Unit := do
  let (report, shown) := (← get).report.warn ⟨"Advertencia", text, none⟩
  modify fun session => { session with report }
  print shown

/-- Writes a file. -/
def write (path text : String) : Job Unit := do
  match (← get).files.write path text with
  | .ok files => modify fun session => { session with files }
  | .error e => throw e

/-- Writes a file and announces it. -/
def save (path text : String) : Job Unit := do
  write path text
  announce (" [green]Guardado[/green] " ++ path)

end Job

end Flowchart
