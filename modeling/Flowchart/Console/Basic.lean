import Flowchart.Console.Styled
import Flowchart.Outline
import Flowchart.Text.Columns
/-! What the console shows: messages, rules across its width, and outlines as trees. -/
namespace Flowchart.Console

/-- The number of columns. -/
def width : Nat := 200

/-- The distance of two tab stops. -/
def tabStop : Nat := 8

/-- Bell, backspace, vertical tab, form feed and carriage return do not reach the console. -/
def isControl (c : Char) : Bool :=
  [7, 8, 11, 12, 13].contains c.toNat

/-- Puts blanks up to the next stop in place of tabs; the text starts in the given column. -/
def expandTabs (column : Nat) : List Char → List Char
  | [] => []
  | '\t' :: rest =>
    let blanks := tabStop - column % tabStop
    List.replicate blanks ' ' ++ expandTabs (column + blanks) rest
  | '\n' :: rest => '\n' :: expandTabs 0 rest
  | c :: rest => c :: expandTabs (column + Text.columns c) rest

/-- The text that a message comes to on the console; nothing when it closes a style that is not
open. -/
def text? (message : String) : Option String :=
  (Styled.plain? message).map fun s =>
    String.ofList (expandTabs 0 (s.toList.filter fun c => !isControl c))

/-- The line of a message. One that is not well formed is shown with its tags. -/
def line (message : String) : String :=
  (text? message).getD message ++ "\n"

/-- A line across the console with a title in its middle. -/
def rule (title : String) : String :=
  let left := (width - title.length - 2) / 2
  let right := width - title.length - 2 - left
  "".pushn '─' left ++ " " ++ title ++ " " ++ "".pushn '─' right ++ "\n"

/-- Sets lines off: the first one by `first`, the others by `others`. -/
def guided (first others : String) : List String → List String
  | [] => []
  | line :: rest => (first ++ line) :: rest.map (others ++ ·)

mutual
/-- The lines of an outline drawn as a tree. -/
def treeLines : Outline → List String
  | .node label children => label :: branchLines children
/-- The lines of the parts under a label. -/
def branchLines : List Outline → List String
  | [] => []
  | [last] => guided "└── " "    " (treeLines last)
  | part :: rest => guided "├── " "│   " (treeLines part) ++ branchLines rest
end

mutual
/-- The outline with its labels as the console shows them. -/
def shown? : Outline → Option Outline
  | .node label children => do
    let label ← text? label
    let children ← shownParts? children
    return .node label children
/-- The parts under a label as the console shows them. -/
def shownParts? : List Outline → Option (List Outline)
  | [] => some []
  | part :: rest => do
    let part ← shown? part
    let rest ← shownParts? rest
    return part :: rest
end

/-- The tree of an outline, whose labels are messages. -/
def tree? (o : Outline) : Option String :=
  (shown? o).map fun o => String.join ((treeLines o).map (· ++ "\n"))

end Flowchart.Console
