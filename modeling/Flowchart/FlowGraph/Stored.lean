import Flowchart.Diagram.Stored
import Flowchart.FlowGraph.Basic
/-! Flow graphs straight from stored blocks and arrows. The parts are read one after the other; the
first that cannot be read ends the work, and the notes on the parts before it are kept. -/
namespace Flowchart

/-- Reads parts up to the first that fails. -/
def readParts {α β ε : Type} (read : α → Except ε β) : List α → List β × Option ε
  | [] => ([], none)
  | a :: rest =>
    match read a with
    | .error e => ([], some e)
    | .ok b => (b :: (readParts read rest).1, (readParts read rest).2)

/-- A flow graph or the reason why there is none, with the notes of the work. -/
structure Building where
  notes : List Note
  result : Except Error FlowGraph

/-- The flow graph of stored blocks and arrows. -/
def FlowGraph.ofJson (nodes edges : List Json) : Building :=
  let (blocks, failed) := readParts Block.ofJson nodes
  match failed with
  | some e => ⟨blockNotes blocks, .error e⟩
  | none =>
    let (arrows, failed) := readParts Arrow.ofJson edges
    match failed with
    | some e => ⟨blockNotes blocks ++ arrowNotes blocks arrows, .error e⟩
    | none => ⟨buildNotes blocks arrows, .ok (build blocks arrows)⟩

end Flowchart
