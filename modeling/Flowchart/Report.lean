import Flowchart.Console.Basic
import Flowchart.Error
import Flowchart.Text.Lowercase
import Flowchart.Text.Search
/-! The report of a session: the messages so far, whether one of them was an error, and the diagram
file they are about. Every message is shown on the console when it is added. -/
namespace Flowchart

/-- A message, with the block it is about if there is one. -/
structure Message where
  kind : String
  text : String
  block : Option String

/-- The report of a session. -/
structure Report where
  source : Option String
  messages : List Message
  failed : Bool

/-- What a message of a failure is called. -/
def Error.Family.label : Error.Family → String
  | .reading => "Sintáctico"
  | .evaluation => "Evaluación"
  | _ => "Estructura"

namespace Message

/-- What a kind of message is shown as; the known kinds are recognised by a part of their name. -/
def label (kind : String) : String :=
  let small := Text.lower kind
  if Text.occurs "sint" small then "[bold yellow]Sintáctico[/]"
  else if Text.occurs "eval" small then "[bold red]Evaluación[/]"
  else if Text.occurs "estr" small then "[bold magenta]Estructura[/]"
  else "[bold]" ++ Styled.escape kind ++ "[/]"

/-- The line of a message in a summary. A bracket that stays open in the block and one that closes
in the text come to a tag, which may close a style that is not open. -/
def summary (m : Message) : Except Error String :=
  let block :=
    match m.block with
    | some id => if id.isEmpty then "" else " (" ++ Styled.escape id ++ ")"
    | none => ""
  match Console.text? ("  - " ++ label m.kind ++ block ++ ": " ++ Styled.escape m.text) with
  | some s => .ok (s ++ "\n")
  | none => .error .unopenedStyle

end Message

namespace Report

/-- A report without messages that is about no file. -/
def empty : Report := ⟨none, [], false⟩

/-- Makes the messages that follow be about a file. -/
def about (r : Report) (source : Option String) : Report :=
  { r with source }

/-- Forgets the messages. -/
def clear (r : Report) : Report :=
  { r with messages := [], failed := false }

/-- The file and the block that a message is about. -/
def place (r : Report) (block : Option String) : String :=
  match r.source, block with
  | some file, some id => file ++ ": bloque " ++ id
  | none, some id => "bloque " ++ id
  | some file, none => file
  | none, none => ""

/-- The line that tells what a message is about; none when it is about nothing. -/
def placeLine (r : Report) (block : Option String) : String :=
  if (r.place block).isEmpty then ""
  else Console.line ("  [dim]" ++ Styled.escape (r.place block) ++ "[/]")

/-- Adds a message. -/
def add (r : Report) (m : Message) : Report :=
  { r with messages := r.messages ++ [m] }

/-- Adds an error; gives the new report and what the console shows. -/
def error (r : Report) (m : Message) : Report × String :=
  ({ r.add m with failed := true },
    Console.line (Message.label m.kind ++ ": " ++ Styled.escape m.text) ++ r.placeLine m.block)

/-- Adds a warning; gives the new report and what the console shows. -/
def warn (r : Report) (m : Message) : Report × String :=
  (r.add m, Console.line ("[bold blue]Aviso[/]: " ++ Styled.escape m.text) ++ r.placeLine m.block)

/-- The summary of all messages. -/
def summary (r : Report) : Except Error String :=
  if r.messages.isEmpty then .ok (Console.line "[green]No se registraron errores[/]")
  else do
    let lines ← r.messages.mapM Message.summary
    return Console.line ("[bold]" ++ toString r.messages.length ++ " mensaje(s):[/]") ++ String.join lines

end Report

end Flowchart
