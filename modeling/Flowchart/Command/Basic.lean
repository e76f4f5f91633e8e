/-! The commands: what a session is asked to do. -/
namespace Flowchart

/-- A command on a diagram file, or on a folder of them, or on the text of an expression. -/
inductive Command where
  /-- Generates code, into a file if one is given. -/
  | compile (path : String) (out : Option String)
  /-- Shows the generated code as a tree. -/
  | outline (path : String)
  /-- Draws the generated code, or the flow of control. -/
  | draw (path : String) (flow : Bool) (out : Option String) (dotOnly : Bool)
  /-- Runs the diagram. -/
  | run (path : String) (inputs : List String) (limit : Int)
  /-- Lists the elements of an expression. -/
  | elements (text : String) (declarations : List String)

/-- A command with how much of the journal is shown. -/
structure Invocation where
  verbose : Bool
  command : Command

/-- The path that a command reads. -/
def Command.path? : Command → Option String
  | compile path _ => some path
  | outline path => some path
  | draw path .. => some path
  | run path .. => some path
  | elements .. => none

/-- The path that a command is told to write to. -/
def Command.out? : Command → Option String
  | compile _ out => out
  | draw _ _ out _ => out
  | _ => none

end Flowchart
