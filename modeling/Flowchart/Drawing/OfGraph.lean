import Flowchart.Drawing.Dot
import Flowchart.FlowGraph.Loop
/-! The drawing of a flow graph: loop headers are double octagons, and the arrows that close a loop
are dashed. -/
namespace Flowchart.FlowGraph
open Flowchart.Dot

/-- The shape of a block. -/
def shape (ls : Loops) (b : Block) : String :=
  if ls.has b.id then "doubleoctagon"
  else if b.content.isBranching then "diamond"
  else if b.content.isStart || b.content.isFinish then "oval"
  else "box"

/-- Whether an arrow goes back to the header of a loop from inside its body. -/
def isDashed (ls : Loops) (a : Arrow) : Bool :=
  ls.any fun l => l.header == a.target && l.body.contains a.source

def drawBlock (ls : Loops) (b : Block) : Statement :=
  .node b.id (b.kind ++ "\\n" ++ b.label.display) [("shape", shape ls b)]

def drawArrow (ls : Loops) (a : Arrow) : Statement :=
  .arrow a.source a.target (a.label.filter (· ≠ "")) (if isDashed ls a then [("style", "dashed")] else [])

/-- The drawing of a flow graph with its loops. -/
def drawing (g : FlowGraph) (ls : Loops) : Drawing :=
  { name := "CFG"
    statements :=
      .defaults "node" [("style", "filled"), ("color", "lightblue")] :: g.blocks.map (drawBlock ls)
        ++ g.ids.flatMap fun id => (g.outgoing id).map (drawArrow ls) }

end Flowchart.FlowGraph
