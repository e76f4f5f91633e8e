import Flowchart.Diagram.Basic
import Flowchart.Journal
/-! A diagram seen as a graph: the first block of every id, and the arrows between blocks that are
there, in two tables, by the block that an arrow leaves and by the block that it enters. The start is
the first start block. -/
namespace Flowchart

/-- The blocks whose ids are neither in `seen` nor repeated before them. -/
def distinctBlocks : (seen : List String) → List Block → List Block
  | _, [] => []
  | seen, b :: rest =>
    if seen.contains b.id then distinctBlocks seen rest
    else b :: distinctBlocks (b.id :: seen) rest

/-- The ids of the blocks that are left out as repeated. -/
def repeatedIds : (seen : List String) → List Block → List String
  | _, [] => []
  | seen, b :: rest =>
    if seen.contains b.id then b.id :: repeatedIds seen rest else repeatedIds (b.id :: seen) rest

theorem not_seen_of_mem_distinctBlocks {seen : List String} {bs : List Block} {b : Block}
    (member : b ∈ distinctBlocks seen bs) : b.id ∉ seen := by
  induction bs generalizing seen with
  | nil => simp [distinctBlocks] at member
  | cons c rest ih =>
    unfold distinctBlocks at member
    split at member
    · exact ih member
    · rename_i unseen
      rcases List.mem_cons.1 member with rfl | later
      · simpa using unseen
      · exact fun old => ih later (List.mem_cons_of_mem _ old)

theorem nodup_distinctBlocks (seen : List String) (bs : List Block) :
    ((distinctBlocks seen bs).map Block.id).Nodup := by
  induction bs generalizing seen with
  | nil => simp [distinctBlocks]
  | cons b rest ih =>
    unfold distinctBlocks
    split
    · exact ih seen
    · refine List.nodup_cons.2 ⟨?_, ih _⟩
      intro again
      obtain ⟨c, member, same⟩ := List.mem_map.1 again
      exact not_seen_of_mem_distinctBlocks member (by simp [same])

/-- What is found in a table that holds a value for each of the ids. -/
theorem lookup_tagged {α : Type} (value : String → α) (ids : List String) (id : String) :
    (ids.map fun i => (i, value i)).lookup id = if id ∈ ids then some (value id) else none := by
  induction ids with
  | nil => rfl
  | cons i rest ih =>
    by_cases here : id = i
    · subst here
      simp
    · have other : (id == i) = false := by simpa using here
      simp [List.lookup_cons, other, ih, here]

/-- For every id, the arrows that have it at one of their ends. -/
abbrev Bundles := List (String × List Arrow)

namespace Bundles

/-- The arrows at the given id. -/
def of (bundles : Bundles) (id : String) : List Arrow :=
  (bundles.lookup id).getD []

/-- One arrow more at the given id, after those that are there. -/
def add (bundles : Bundles) (id : String) (a : Arrow) : Bundles :=
  bundles.map fun (i, arrows) => (i, if i == id then arrows ++ [a] else arrows)

end Bundles

/-- The arrows of a graph, found by the block they leave and by the block they enter. -/
structure Tables where
  leaving : Bundles
  entering : Bundles

namespace Tables

/-- The tables of a graph without arrows. -/
def empty (ids : List String) : Tables where
  leaving := ids.map (·, [])
  entering := ids.map (·, [])

/-- Takes one arrow into both tables; an arrow with an end that is not among the ids is left out. -/
def take (ids : List String) (t : Tables) (a : Arrow) : Tables :=
  if ids.contains a.source && ids.contains a.target then
    { leaving := t.leaving.add a.source a, entering := t.entering.add a.target a }
  else t

/-- Goes through the arrows and takes one after the other. -/
def fill (ids : List String) (arrows : List Arrow) : Tables :=
  arrows.foldl (take ids) (empty ids)

end Tables

/-- A flow graph. No two blocks share an id, and the tables were filled by going through some arrows. -/
structure FlowGraph where
  blocks : List Block
  tables : Tables
  distinct : (blocks.map Block.id).Nodup
  filled : ∃ arrows, tables = .fill (blocks.map Block.id) arrows

namespace FlowGraph

/-- The flow graph of blocks and arrows: repeated blocks and dangling arrows are left out. -/
def build (blocks : List Block) (arrows : List Arrow) : FlowGraph :=
  let kept := distinctBlocks [] blocks
  { blocks := kept
    tables := .fill (kept.map Block.id) arrows
    distinct := nodup_distinctBlocks [] blocks
    filled := ⟨arrows, rfl⟩ }

/-- The ids of the blocks, in order. -/
def ids (g : FlowGraph) : List String :=
  g.blocks.map Block.id

/-- The block with the given id. -/
def block? (g : FlowGraph) (id : String) : Option Block :=
  g.blocks.find? (·.id == id)

/-- The label of the block with the given id; an id without a block stands for itself. -/
def label (g : FlowGraph) (id : String) : Json :=
  ((g.block? id).map Block.label).getD (.text id)

/-- The arrows that leave a block. -/
def outgoing (g : FlowGraph) (id : String) : List Arrow :=
  g.tables.leaving.of id

/-- The arrows that enter a block. -/
def incoming (g : FlowGraph) (id : String) : List Arrow :=
  g.tables.entering.of id

def successors (g : FlowGraph) (id : String) : List String :=
  (g.outgoing id).map Arrow.target

def predecessors (g : FlowGraph) (id : String) : List String :=
  (g.incoming id).map Arrow.source

/-- The first arrow with the given label that leaves a block. -/
def branch? (g : FlowGraph) (id label : String) : Option Arrow :=
  (g.outgoing id).find? (·.label == some label)

/-- The ids of the start blocks. -/
def starts (g : FlowGraph) : List String :=
  (g.blocks.filter (·.content.isStart)).map Block.id

/-- The id of the block where a run starts. -/
def start? (g : FlowGraph) : Option String :=
  g.starts.head?

/-- The notes on several start blocks. -/
def startNotes (g : FlowGraph) : List Note :=
  match g.starts with
  | first :: second :: rest => [.severalStarts (first :: second :: rest).length first]
  | _ => []

/-- The notes on repeated blocks. -/
def blockNotes (blocks : List Block) : List Note :=
  (repeatedIds [] blocks).map .repeatedBlock

/-- The notes on arrows that join no two blocks of those given. -/
def arrowNotes (blocks : List Block) (arrows : List Arrow) : List Note :=
  let ids := blocks.map Block.id
  (arrows.filter fun a => !(ids.contains a.source && ids.contains a.target)).map fun a =>
    .danglingArrow a.source a.target

/-- The notes on building a flow graph. -/
def buildNotes (blocks : List Block) (arrows : List Arrow) : List Note :=
  blockNotes blocks ++ arrowNotes blocks arrows ++ (build blocks arrows).startNotes

end FlowGraph

/-- The flow graph of a diagram. -/
def Diagram.flowGraph (d : Diagram) : FlowGraph :=
  .build d.blocks d.arrows

end Flowchart
