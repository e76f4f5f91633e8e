import Flowchart.Diagram.Basic
import Flowchart.Expression.Stored
import Flowchart.Text.Lowercase
import Flowchart.Text.Search
/-! The stored form of diagrams. Arrow labels are kept in lower case; an arrow without an id gets
one from its ends when it is written. A diagram is read as a draft, whose blocks keep the drafts of
their variables and expressions. -/
namespace Flowchart

/-- A part that must be an object where it is present. -/
def Json.dataOf (j : Json) : Except Error Json :=
  match j.present? "data" with
  | none => .ok (.object [])
  | some data => if data.members?.isNone then .error .notObject else .ok data

/-- A member that is neither absent nor null. -/
def Json.given? (j : Json) (key : String) : Option Json :=
  match j.get? key with
  | some .null => none
  | member => member

/-- What stands for the type of a block: the empty text when it is missing. A list or an object
cannot. -/
def Json.blockType (j : Json) : Except Error Json :=
  match (j.get? "type").getD (.text "") with
  | .list _ => .error .notList
  | .object _ => .error .notList
  | type => .ok type

namespace Draft

/-- What a stored block does. -/
inductive Content where
  | start
  | finish
  | declare (target : Option Variable)
  | assign (expression : Option Expression)
  | input (target : Option Variable)
  | output (expression : Option Expression)
  | conditional (expression : Option Expression)
  | unknown (type : Json)

/-- A stored block, with what the editor shows for it. -/
structure Block where
  id : String
  visualId : Option Json
  content : Content

end Draft

/-- A stored diagram. -/
structure Draft where
  blocks : List Draft.Block
  arrows : List Arrow

/-- The content of a block of the given type. -/
def Draft.Content.ofJson (type data : Json) : Except Error Draft.Content :=
  let target : Except Error (Option Draft.Variable) :=
    match data.present? "variable" with
    | none => .ok none
    | some part => (Draft.Variable.ofJson part).map some
  let expression : Except Error (Option Draft.Expression) :=
    match data.present? "expression" with
    | none => .ok none
    | some part => (Draft.Expression.ofJson part).map some
  match type.text? with
  | some "Start" => .ok .start
  | some "End" => .ok .finish
  | some "DeclareVariable" => target.map .declare
  | some "AssignVariable" => expression.map .assign
  | some "Input" => target.map .input
  | some "Output" => expression.map .output
  | some "Conditional" => expression.map .conditional
  | _ => .ok (.unknown type)

/-- Whether a key occurs in a datum: as a key of an object, as an item of a list, as a part of a
text. Other data cannot be searched. -/
def Json.mentions (j : Json) (key : String) : Except Error Bool :=
  match j with
  | .object _ => .ok (j.get? key).isSome
  | .list items => .ok (items.any fun item => item.text? == some key)
  | .text s => .ok (Text.occurs key s)
  | _ => .error .notList

/-- What a datum is gone through by: a list by its items, an object by its keys, a text by its
characters. Other data have no parts. -/
def Json.parts? : Json → Option (List Json)
  | .list items => some items
  | .object members => some (members.map fun (key, _) => .text key)
  | .text s => some (s.toList.map fun c => .text (String.ofList [c]))
  | _ => none

/-- A datum as a key; lists and objects are none. -/
def Json.key? : Json → Option Value
  | .null => some .nothing
  | .bool b => some (.bool b)
  | .int n => some (.int n)
  | .real x => some (.float x)
  | .text s => some (.text s)
  | .list _ => none
  | .object _ => none

/-- A key with the datum that belongs to it. -/
structure Entry where
  key : Value
  datum : Json

/-- Enters a datum under a key; an entry with an equal key keeps its key and its place. -/
def Entry.put (entries : List Entry) (e : Entry) : List Entry :=
  if entries.any (·.key.equal e.key) then
    entries.map fun old => if old.key.equal e.key then { old with datum := e.datum } else old
  else entries ++ [e]

/-- Entries in a message. -/
def Entry.inspect (entries : List Entry) : String :=
  let texts := entries.map fun e => e.key.inspect ++ ": " ++ e.datum.inspect
  "\x7b" ++ ", ".intercalate texts ++ "\x7d"

/-- The entries that parts come to, from the given position on. Each part has to be a pair of a key
and a datum. -/
def Entry.ofParts (entries : List Entry) (position : Nat) : List Json → Except Error (List Entry)
  | [] => .ok entries
  | part :: rest =>
    match part.parts? with
    | none => .error .notList
    | some [key, datum] =>
      match key.key? with
      | none => .error .notList
      | some key => ofParts (put entries ⟨key, datum⟩) (position + 1) rest
    | some parts => .error (.notPair position parts.length)

/-- What is said of a part that lacks a key. It is shown as an object also when it is none. -/
def Json.lacking (j : Json) (complaint : String → DiagramError) : Error :=
  match j with
  | .object _ => .diagram (complaint j.inspect)
  | j =>
    match Entry.ofParts [] 0 (j.parts?.getD []) with
    | .ok entries => .diagram (complaint (Entry.inspect entries))
    | .error e => e

/-- Reads a block. -/
def Draft.Block.ofJson (j : Json) : Except Error Draft.Block := do
  if !(← j.mentions "id") then throw (j.lacking .blockWithoutId)
  match j.get? "id" with
  | none => .error .notObject
  | some id =>
    let data ← j.dataOf
    let content ← Draft.Content.ofJson (← j.blockType) data
    return ⟨id.display, data.given? "visualId", content⟩

/-- Reads an arrow. -/
def Arrow.ofJson (j : Json) : Except Error Arrow := do
  if !((← j.mentions "source") && (← j.mentions "target")) then throw (j.lacking .arrowWithoutEnds)
  match j.get? "source", j.get? "target" with
  | some source, some target =>
    j.dataOf.map fun data =>
      let label := (data.given? "conditionalLabel").map fun label => Text.lower label.display
      ⟨source.display, target.display, label, j.given? "id"⟩
  | _, _ => .error .notObject

/-- The parts of a stored list, none when it is missing. -/
def Json.listed (j : Json) (key : String) : Except Error (List Json) :=
  match j.present? key with
  | none => .ok []
  | some part =>
    match part.parts? with
    | some parts => .ok parts
    | none => .error .notList

/-- Reads a diagram, the blocks before the arrows. -/
def Draft.ofJson (j : Json) : Except Error Draft :=
  if (j.get? "nodes").isNone then .error (.diagram .notDiagram)
  else do
    let blocks ← (← j.listed "nodes").mapM Draft.Block.ofJson
    let arrows ← (← j.listed "edges").mapM Arrow.ofJson
    return ⟨blocks, arrows⟩

namespace Draft

namespace Content

/-- What stands for the type in the stored form. -/
def type : Content → Json
  | start => .text "Start"
  | finish => .text "End"
  | declare _ => .text "DeclareVariable"
  | assign _ => .text "AssignVariable"
  | input _ => .text "Input"
  | output _ => .text "Output"
  | conditional _ => .text "Conditional"
  | unknown type => type

/-- What the content of a block adds to its stored data. -/
def members : Content → List (String × Json)
  | declare (some v) => [("variable", v.toJson)]
  | input (some v) => [("variable", v.toJson)]
  | assign (some e) => [("expression", e.toJson)]
  | output (some e) => [("expression", e.toJson)]
  | conditional (some e) => [("expression", e.toJson)]
  | _ => []

end Content

/-- The stored form of a block. -/
def Block.toJson (b : Block) : Json :=
  let shown := ((b.visualId.filter Json.isPresent).map fun shown => ("visualId", shown)).toList
  .object [("id", .text b.id), ("type", b.content.type), ("data", .object (shown ++ b.content.members))]

end Draft

/-- The stored form of an arrow. -/
def Arrow.toJson (a : Arrow) : Json :=
  let id := (a.id.filter Json.isPresent).getD (.text ("e" ++ a.source ++ "-" ++ a.target))
  let label := (a.label.filter (· ≠ "")).map fun s => ("data", Json.object [("conditionalLabel", .text s)])
  .object ([("id", id), ("source", .text a.source), ("target", .text a.target)] ++ label.toList)

/-- The stored form of a diagram. -/
def Draft.toJson (g : Draft) : Json :=
  .object [("nodes", .list (g.blocks.map Draft.Block.toJson)), ("edges", .list (g.arrows.map Arrow.toJson))]

/-! What stored blocks and diagrams mean, where texts name everything in their variables and
expressions. -/

namespace Draft

/-- What a part means that may be missing. -/
def partMeant {α β : Type} (meant : α → Except Error β) : Option α → Except Error (Option β)
  | none => .ok none
  | some part => (meant part).map some

/-- The content that a draft means. -/
def Content.meant : Content → Except Error Flowchart.Content
  | start => .ok .start
  | finish => .ok .finish
  | declare target => (partMeant Variable.meant target).map .declare
  | assign expression => (partMeant Expression.meant expression).map .assign
  | input target => (partMeant Variable.meant target).map .input
  | output expression => (partMeant Expression.meant expression).map .output
  | conditional expression => (partMeant Expression.meant expression).map .conditional
  | unknown type => .ok (.unknown type)

/-- The block that a draft means. -/
def Block.meant (b : Block) : Except Error Flowchart.Block :=
  b.content.meant.map fun content => ⟨b.id, b.visualId, content⟩

/-- The diagram that a draft means. -/
def meant (g : Draft) : Except Error Diagram :=
  (g.blocks.mapM Block.meant).map fun blocks => ⟨blocks, g.arrows⟩

end Draft

/-- The draft that means the content of a block. -/
def Content.draft : Content → Draft.Content
  | start => .start
  | finish => .finish
  | declare target => .declare (target.map Variable.draft)
  | assign expression => .assign (expression.map Expression.draft)
  | input target => .input (target.map Variable.draft)
  | output expression => .output (expression.map Expression.draft)
  | conditional expression => .conditional (expression.map Expression.draft)
  | unknown type => .unknown type

/-- The draft that means a block. -/
def Block.draft (b : Block) : Draft.Block :=
  ⟨b.id, b.visualId, b.content.draft⟩

/-- The draft that means a diagram. -/
def Diagram.draft (d : Diagram) : Draft :=
  ⟨d.blocks.map Block.draft, d.arrows⟩

/-- Reads a block in which everything is named by texts. -/
def Block.ofJson (j : Json) : Except Error Block := do
  (← Draft.Block.ofJson j).meant

/-- Reads a diagram in which everything is named by texts. -/
def Diagram.ofJson (j : Json) : Except Error Diagram := do
  (← Draft.ofJson j).meant

/-- The stored form of a block. -/
def Block.toJson (b : Block) : Json :=
  b.draft.toJson

/-- The stored form of a diagram. -/
def Diagram.toJson (d : Diagram) : Json :=
  d.draft.toJson

end Flowchart
