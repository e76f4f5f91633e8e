import Flowchart.FlowGraph.Closure
import Flowchart.FlowGraph.Dominator
/-! Natural loops. An arrow to a block that dominates its source closes a loop; the loop holds the
header and all that leads to the source without passing the header. -/
namespace Flowchart

/-- A loop: the block where it is entered, and all its blocks. -/
structure Loop where
  header : String
  body : List String
  deriving DecidableEq

/-- Loops with different headers. -/
abbrev Loops := List Loop

namespace Loops

/-- The body of the loop with the given header. -/
def body? (ls : Loops) (header : String) : Option (List String) :=
  (ls.find? (·.header == header)).map Loop.body

/-- Whether a block is the header of a loop. -/
def has (ls : Loops) (id : String) : Bool :=
  ls.any (·.header == id)

/-- Adds a loop; one with the same header is joined with it. -/
def join (new : Loop) : Loops → Loops
  | [] => [new]
  | old :: rest =>
    if old.header == new.header then
      ⟨old.header, old.body ++ new.body.filter fun id => !old.body.contains id⟩ :: rest
    else old :: join new rest

/-- Sets the body of a header, in its first place. -/
def set (new : Loop) : Loops → Loops
  | [] => [new]
  | old :: rest => if old.header == new.header then new :: rest else old :: set new rest

end Loops

/-- Texts in order, each once. -/
def sorted (texts : List String) : List String :=
  texts.eraseDups.mergeSort fun a b => decide (a ≤ b)

namespace FlowGraph

/-- The blocks that can be reached from the start. -/
def reachable (g : FlowGraph) : List String :=
  reach g.successors g.ids g.start?.toList

/-- The arrows from a reachable block to one that dominates it, by their targets in the order of the
blocks. -/
def backArrows (g : FlowGraph) (d : Dominators) : List Arrow :=
  let live := g.reachable
  g.ids.flatMap fun header =>
    (g.incoming header).filter fun a => live.contains a.source && d.dominates header a.source

/-- The loop that a back arrow closes. -/
def naturalLoop (g : FlowGraph) (back : Arrow) : Loop :=
  let domain := g.reachable.filter (· != back.target)
  ⟨back.target, back.target :: reach g.predecessors domain [back.source]⟩

/-- The natural loops, several back arrows to one header making one loop. -/
def loops (g : FlowGraph) (d : Dominators) : Loops :=
  (g.backArrows d).foldl (fun ls back => Loops.join (g.naturalLoop back) ls) []

/-- The notes on the loops found. -/
def loopNotes (ls : Loops) : List Note :=
  ls.map fun l => .loopFound l.header (sorted l.body)

end FlowGraph

end Flowchart
