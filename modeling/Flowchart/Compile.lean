import Flowchart.Code.Text
import Flowchart.FlowGraph.Stored
import Flowchart.Structure
/-! From a diagram to code. Code always comes out: what goes wrong is written into it as a marker. -/
namespace Flowchart

/-- The statements of a program and the notes of the work. -/
structure Compiled where
  stmts : List Code.Stmt
  notes : List Note

namespace Compiled

/-- The program as one piece of code. -/
def program (c : Compiled) : Code.Stmt :=
  .program none c.stmts

/-- The text of the program. -/
def text (c : Compiled) : String :=
  c.program.write

/-- A program that is one marker. -/
def marker (id label reason : String) (notes : List Note) : Compiled :=
  ⟨[.unsupported (some ⟨some id, some (.text label)⟩) reason], notes⟩

end Compiled

/-- The flow graph with its natural loops. -/
def FlowGraph.plan (g : FlowGraph) : Plan :=
  ⟨g, g.loops (.ofGraph g)⟩

/-- The code of a flow graph. Structuring follows every way to its end, however deep the nesting gets. A bound on the
depth, at which a marker for the failure would take the place of the code, is left out. -/
def FlowGraph.compile (g : FlowGraph) : Compiled :=
  match g.start? with
  | none => .marker "" "N/A" "No Start node found" []
  | some start =>
    let lowered := g.plan.lower [] [] none start
    let notes := Dominators.notes g ++ FlowGraph.loopNotes g.plan.loops
      ++ .structuring start g.blocks.length g.plan.loops.length :: lowered.notes
    if lowered.stmts.isEmpty then
      ⟨[.unsupported (g.plan.origin start)
        "Empty diagram - only Start node with no meaningful connections"], notes⟩
    else ⟨lowered.stmts, notes⟩

/-- The code of a diagram without blocks. -/
def Compiled.empty : Compiled :=
  .marker "empty" "N/A" "No nodes in diagram" []

/-- The code of a diagram. -/
def Diagram.compile (d : Diagram) : Compiled :=
  if d.blocks.isEmpty then .empty
  else
    let c := d.flowGraph.compile
    ⟨c.stmts, FlowGraph.buildNotes d.blocks d.arrows ++ c.notes⟩

/-- The code of stored blocks and arrows. Faults of the diagram become a marker; only failures that
the language does not account for are failures here. -/
def compileStored (nodes edges : List Json) : Except Error Compiled :=
  if nodes.isEmpty then .ok .empty
  else
    let building := FlowGraph.ofJson nodes edges
    match building.result with
    | .ok g => .ok ⟨g.compile.stmts, building.notes ++ g.compile.notes⟩
    | .error e =>
      if e.family = .outside then .error e
      else
        .ok (.marker "error" "N/A" ("Error building AST: " ++ e.message)
          (building.notes ++ [.notStructured e.message]))

end Flowchart
