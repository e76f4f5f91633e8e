import Flowchart.Expression.Basic
import Flowchart.Json.Basic
/-! Diagrams as the editor keeps them: blocks and the arrows between them. -/
namespace Flowchart

/-- What a block does. A block may lack its variable or its expression; blocks of an unknown type
keep what stands for their type. -/
inductive Content where
  | start
  | finish
  | declare (target : Option Variable)
  | assign (expression : Option Expression)
  | input (target : Option Variable)
  | output (expression : Option Expression)
  | conditional (expression : Option Expression)
  | unknown (type : Json)

namespace Content

/-- The name of a block's type. -/
def kind : Content → String
  | start => "Start"
  | finish => "End"
  | declare _ => "DeclareVariable"
  | assign _ => "AssignVariable"
  | input _ => "Input"
  | output _ => "Output"
  | conditional _ => "Conditional"
  | unknown type => type.display

/-- Whether the block chooses between labelled arrows. -/
def isBranching : Content → Bool
  | conditional _ => true
  | _ => false

def isStart : Content → Bool
  | start => true
  | _ => false

def isFinish : Content → Bool
  | finish => true
  | _ => false

/-- Whether the block is at most one statement and goes straight on. -/
def isStraight : Content → Bool
  | declare _ => true
  | assign _ => true
  | input _ => true
  | output _ => true
  | _ => false

end Content

/-- A block, with what the editor shows for it, which need not be a text. -/
structure Block where
  id : String
  visualId : Option Json
  content : Content

namespace Block

def kind (b : Block) : String :=
  b.content.kind

/-- The name of a block for people: what the editor shows, else its id. -/
def label (b : Block) : Json :=
  (b.visualId.filter Json.isPresent).getD (.text b.id)

end Block

/-- An arrow between two blocks, given by their ids. Its own id need not be a text. -/
structure Arrow where
  source : String
  target : String
  label : Option String
  id : Option Json

/-- A diagram. -/
structure Diagram where
  blocks : List Block
  arrows : List Arrow

end Flowchart
