import Flowchart.Compile
import Flowchart.Proofs.Lowering
import Flowchart.Proofs.Tables
import Flowchart.Run
/-! What a diagram shows beside its blocks and arrows does not matter. A tidied diagram has no visual ids and no
labels that count as missing, and every arrow has an id. Its flow graph is searched, structured and run as that
of the diagram is: each look at the one graph gives what the same look at the other gives, or its tidied form. -/
namespace Flowchart

/-- The block without a visual id that counts as missing. -/
def Block.tidied (b : Block) : Block :=
  { b with visualId := b.visualId.filter Json.isPresent }

/-- The arrow without an empty label, with an id made from its ends where it has none. -/
def Arrow.tidied (a : Arrow) : Arrow where
  source := a.source
  target := a.target
  label := a.label.filter (· ≠ "")
  id := some ((a.id.filter Json.isPresent).getD (.text ("e" ++ a.source ++ "-" ++ a.target)))

/-- The diagram with all its blocks and arrows tidied. -/
def Diagram.tidied (d : Diagram) : Diagram :=
  ⟨d.blocks.map Block.tidied, d.arrows.map Arrow.tidied⟩

namespace Block

@[simp] theorem id_tidied (b : Block) : b.tidied.id = b.id := rfl

@[simp] theorem content_tidied (b : Block) : b.tidied.content = b.content := rfl

@[simp] theorem kind_tidied (b : Block) : b.tidied.kind = b.kind := rfl

@[simp] theorem label_tidied (b : Block) : b.tidied.label = b.label := by
  simp [label, tidied, Option.filter_filter]

end Block

namespace Arrow

@[simp] theorem source_tidied (a : Arrow) : a.tidied.source = a.source := rfl

@[simp] theorem target_tidied (a : Arrow) : a.tidied.target = a.target := rfl

/-- A label that is not empty is kept, and none comes to be. -/
theorem label_tidied (a : Arrow) {label : String} (proper : label ≠ "") :
    (a.tidied.label == some label) = (a.label == some label) := by
  rw [Bool.eq_iff_iff]
  simp only [tidied, beq_iff_eq, Option.filter_eq_some_iff]
  exact ⟨And.left, fun is => ⟨is, by simpa using proper⟩⟩

end Arrow

/-- The same table of tidied arrows. -/
def Bundles.tidied (bundles : Bundles) : Bundles :=
  bundles.map fun (id, arrows) => (id, arrows.map Arrow.tidied)

theorem Bundles.of_tidied (bundles : Bundles) (id : String) :
    bundles.tidied.of id = (bundles.of id).map Arrow.tidied := by
  induction bundles with
  | nil => rfl
  | cons first rest ih =>
    obtain ⟨i, arrows⟩ := first
    by_cases here : id = i
    · simp [Bundles.tidied, Bundles.of, here]
    · have other : (id == i) = false := by simpa using here
      simpa [Bundles.tidied, Bundles.of, List.lookup_cons, other] using ih

namespace Tables

def tidied (t : Tables) : Tables where
  leaving := t.leaving.tidied
  entering := t.entering.tidied

theorem sorted_tidied {ends : Arrow → String} (kept : ∀ a : Arrow, ends a.tidied = ends a) (ids : List String)
    (arrows : List Arrow) : (sorted ends ids arrows).tidied = sorted ends ids (arrows.map Arrow.tidied) := by
  rw [sorted, sorted, Bundles.tidied, List.map_map]
  apply List.map_congr_left
  intro id _
  simp [List.filter_map, Function.comp_def, kept]

/-- Tidied arrows fill the tables with tidied arrows. -/
theorem fill_tidied (ids : List String) (arrows : List Arrow) :
    (fill ids arrows).tidied = fill ids (arrows.map Arrow.tidied) := by
  have joins : joins ids ∘ Arrow.tidied = joins ids := by
    funext a
    rw [Function.comp_apply, Tables.joins, Tables.joins, Arrow.source_tidied, Arrow.target_tidied]
  rw [fill_eq, fill_eq, tidied, sorted_tidied Arrow.source_tidied, sorted_tidied Arrow.target_tidied, List.filter_map,
    joins]

end Tables

namespace FlowGraph

/-- The graph with all its blocks and arrows tidied. -/
def tidied (g : FlowGraph) : FlowGraph where
  blocks := g.blocks.map Block.tidied
  tables := g.tables.tidied
  distinct := by simpa [Function.comp_def] using g.distinct
  filled := by
    obtain ⟨arrows, filled⟩ := g.filled
    refine ⟨arrows.map Arrow.tidied, ?_⟩
    rw [filled, Tables.fill_tidied, List.map_map]
    rfl

theorem ext_of_tables {g h : FlowGraph} (blocks : g.blocks = h.blocks) (tables : g.tables = h.tables) : g = h := by
  cases g
  cases h
  cases blocks
  cases tables
  rfl

variable (g : FlowGraph) (id : String)

@[simp] theorem ids_tidied : g.tidied.ids = g.ids := by
  simp [ids, tidied, Function.comp_def]

@[simp] theorem block?_tidied : g.tidied.block? id = (g.block? id).map Block.tidied := by
  simp [block?, tidied, List.find?_map, Function.comp_def]

@[simp] theorem outgoing_tidied : g.tidied.outgoing id = (g.outgoing id).map Arrow.tidied := by
  exact Bundles.of_tidied _ id

@[simp] theorem incoming_tidied : g.tidied.incoming id = (g.incoming id).map Arrow.tidied := by
  exact Bundles.of_tidied _ id

@[simp] theorem successors_tidied : g.tidied.successors id = g.successors id := by
  simp [successors, Function.comp_def]

@[simp] theorem predecessors_tidied : g.tidied.predecessors id = g.predecessors id := by
  simp [predecessors, Function.comp_def]

theorem branch?_tidied {label : String} (proper : label ≠ "") :
    g.tidied.branch? id label = (g.branch? id label).map Arrow.tidied := by
  have same : (fun a : Arrow => a.label == some label) ∘ Arrow.tidied = fun a => a.label == some label :=
    funext fun a => a.label_tidied proper
  rw [branch?, branch?, outgoing_tidied, List.find?_map, same]

@[simp] theorem label_tidied : g.tidied.label id = g.label id := by
  simp [label, Function.comp_def]

@[simp] theorem starts_tidied : g.tidied.starts = g.starts := by
  simp [starts, tidied, List.filter_map, Function.comp_def]

@[simp] theorem start?_tidied : g.tidied.start? = g.start? := by
  simp [start?]

@[simp] theorem startNotes_tidied : g.tidied.startNotes = g.startNotes := by
  simp [startNotes]

@[simp] theorem reachable_tidied : g.tidied.reachable = g.reachable := by
  have next : g.tidied.successors = g.successors := funext g.successors_tidied
  simp [reachable, next]

end FlowGraph

/-! Dominators and loops are the same. -/

namespace Dominators
variable (g : FlowGraph)

theorem update_tidied : update g.tidied = update g := by
  funext d id
  simp [update, isGiven, computed]

theorem round_tidied (d : Dominators) : round g.tidied d = round g d := by
  simp [round, update_tidied]

theorem stabilize_tidied (rounds : Nat) (d : Dominators) (shrinking : Shrinking g d)
    (tidied : Shrinking g.tidied d) : stabilize g.tidied rounds d tidied = stabilize g rounds d shrinking := by
  fun_induction stabilize g rounds d shrinking with
  | case1 rounds d shrinking same => rw [stabilize, dif_pos ((round_tidied g d).trans same)]
  | case2 rounds d shrinking changed ih =>
    rw [stabilize, dif_neg fun same => changed ((round_tidied g d).symm.trans same)]
    simp only [round_tidied]
    exact ih _

@[simp] theorem initial_tidied : initial g.tidied = initial g := by
  simp [initial]

@[simp] theorem ofGraph_tidied : ofGraph g.tidied = ofGraph g := by
  rw [ofGraph, ofGraph, FlowGraph.start?_tidied]
  split
  · exact initial_tidied g
  · simp only [initial_tidied]
    rw [stabilize_tidied]

@[simp] theorem notes_tidied : notes g.tidied = notes g := by
  rw [notes, notes, FlowGraph.start?_tidied]
  split
  · rfl
  · simp only [initial_tidied]
    rw [stabilize_tidied]

end Dominators

namespace FlowGraph
variable (g : FlowGraph)

theorem backArrows_tidied (d : Dominators) : g.tidied.backArrows d = (g.backArrows d).map Arrow.tidied := by
  simp only [backArrows, List.map_flatMap, ids_tidied, reachable_tidied, incoming_tidied, List.filter_map]
  rfl

theorem naturalLoop_tidied (back : Arrow) : g.tidied.naturalLoop back.tidied = g.naturalLoop back := by
  have before : g.tidied.predecessors = g.predecessors := funext g.predecessors_tidied
  simp [naturalLoop, before]

@[simp] theorem loops_tidied (d : Dominators) : g.tidied.loops d = g.loops d := by
  simp [loops, backArrows_tidied, List.foldl_map, naturalLoop_tidied]

end FlowGraph

/-! Structuring. -/

namespace Plan

/-- The plan on the tidied graph. -/
def tidied (p : Plan) : Plan :=
  ⟨p.graph.tidied, p.loops⟩

variable (p : Plan) (active visited : List String) (inLoop : Option String) (id : String)

@[simp] theorem graph_tidied : p.tidied.graph = p.graph.tidied := rfl

@[simp] theorem loops_tidied : p.tidied.loops = p.loops := rfl

@[simp] theorem origin_tidied : p.tidied.origin id = p.origin id := by
  simp [origin, Code.originOf]

@[simp] theorem blockStmts_tidied (b : Block) : p.tidied.blockStmts b.tidied = p.blockStmts b := by
  simp [blockStmts]

@[simp] theorem stmtsAt_tidied : p.tidied.stmtsAt id = p.stmtsAt id := by
  simp [stmtsAt, Function.comp_def]

@[simp] theorem notesAt_tidied : p.tidied.notesAt id = p.notesAt id := by
  simp [notesAt, Function.comp_def]

@[simp] theorem isInner_tidied : p.tidied.isInner id = p.isInner id := by
  simp [isInner]

@[simp] theorem isStraight_tidied : p.tidied.isStraight id = p.isStraight id := by
  simp [isStraight, Option.any_map]

@[simp] theorem merge?_tidied (yes no : Option Arrow) (body : Option (List String)) :
    p.tidied.merge? (yes.map Arrow.tidied) (no.map Arrow.tidied) body = p.merge? yes no body := by
  cases yes <;> cases no <;> simp [merge?]

@[simp] theorem leaves_tidied (body : List String) (last : Option String) :
    p.tidied.leaves body last = p.leaves body last := by
  cases last <;> simp [leaves]

theorem yes_tidied : p.graph.tidied.branch? id "yes" = (p.graph.branch? id "yes").map Arrow.tidied :=
  p.graph.branch?_tidied id (by decide)

theorem no_tidied : p.graph.tidied.branch? id "no" = (p.graph.branch? id "no").map Arrow.tidied :=
  p.graph.branch?_tidied id (by decide)

/-- Structuring the two plans gives the same from every block on. -/
def SameFrom (active visited : List String) : Prop :=
  ∀ inLoop id, p.tidied.lower active visited inLoop id = p.lower active visited inLoop id

variable {p active visited}

theorem lowerEach_tidied (goes : ∀ visited, p.SameFrom active visited) (visited : List String) (ids : List String) :
    p.tidied.lowerEach active visited inLoop ids = p.lowerEach active visited inLoop ids := by
  induction ids generalizing visited with
  | nil => rw [lowerEach, lowerEach]
  | cons id rest ih =>
    rw [lowerEach, lowerEach, goes visited inLoop id]
    simp only [ih]

theorem lowerBranch_tidied (goes : p.SameFrom active visited) (body : Option (List String)) (arrow : Option Arrow) :
    p.tidied.lowerBranch active visited inLoop body id (arrow.map Arrow.tidied) =
      p.lowerBranch active visited inLoop body id arrow := by
  cases arrow with
  | none => rw [Option.map_none, lowerBranch, lowerBranch]
  | some e =>
    cases inLoop <;> cases body <;> simp [lowerBranch, goes _ _, Option.any_map]

theorem lowerLoop_tidied (goes : ∀ visited, p.SameFrom active visited) :
    p.tidied.lowerLoop active visited inLoop id = p.lowerLoop active visited inLoop id := by
  have labelled (arrows : List Arrow) {label : String} (proper : label ≠ "") :
      ((arrows.map Arrow.tidied).filter (·.label == some label)).map Arrow.target =
        (arrows.filter (·.label == some label)).map Arrow.target := by
    simp [List.filter_map, Function.comp_def, Arrow.label_tidied _ proper]
  rw [lowerLoop, lowerLoop, graph_tidied, FlowGraph.block?_tidied]
  cases p.graph.block? id with
  | none => rfl
  | some b =>
    simp only [Option.map_some, Block.content_tidied, FlowGraph.outgoing_tidied, FlowGraph.predecessors_tidied,
      loops_tidied, origin_tidied, stmtsAt_tidied, notesAt_tidied, lowerEach_tidied _ goes,
      labelled _ (show "yes" ≠ "" by decide), labelled _ (show "no" ≠ "" by decide), List.map_map,
      Function.comp_def, Arrow.target_tidied]
    rfl

theorem lower_tidied (p : Plan) (active visited : List String) : p.SameFrom active visited := by
  intro inLoop id
  rw [lower, lower]
  simp only [graph_tidied, FlowGraph.ids_tidied, isInner_tidied, loops_tidied, origin_tidied]
  split
  · split
    · rfl
    split
    · next header =>
      split
      · next free =>
        have := p.idle_cons_lt header free.2
        exact lowerLoop_tidied inLoop id fun visited => lower_tidied p (id :: active) visited
      · rfl
    split
    · next new =>
      have := p.unseen_cons_lt (And.right ‹_›) new
      have goes := lower_tidied p active (id :: visited)
      rw [FlowGraph.block?_tidied]
      cases p.graph.block? id with
      | none => rfl
      | some b =>
        simp only [Option.map_some, Block.content_tidied]
        cases b.content with
        | finish => rfl
        | conditional e =>
          simp only [yes_tidied, no_tidied, merge?_tidied, lowerBranch_tidied _ _ goes]
          cases p.graph.branch? id "yes" with
          | none => simp [merge?]
          | some yes =>
            cases p.graph.branch? id "no" with
            | none => simp [merge?]
            | some no =>
              have := p.unseen_withBranches_le yes.target no.target (id :: visited)
              have meets := lower_tidied p active (withBranches yes.target no.target (id :: visited))
              simp only [Option.map_some, stmtsAt_tidied, notesAt_tidied]
              cases p.merge? (some yes) (some no) _ with
              | none => rfl
              | some next => simp only [Arrow.target_tidied, meets _ _]
        | _ => simp only [FlowGraph.successors_tidied, goes _ _]
    · rfl
  · rfl
termination_by (p.idle active, p.unseen visited)
decreasing_by
  · exact Prod.Lex.right _ (by omega)
  · exact Prod.Lex.right _ (by omega)
  · exact Prod.Lex.left _ _ ‹_›

end Plan

/-! Running. -/

namespace Run
variable (g : FlowGraph)

@[simp] theorem execute_tidied (s : State) (b : Block) : execute s b.tidied = execute s b := by
  simp [execute]

@[simp] theorem executeNotes_tidied (s : State) (b : Block) : executeNotes s b.tidied = executeNotes s b := by
  simp [executeNotes]

@[simp] theorem next?_tidied (b : Block) (choice : Option Bool) : next? g.tidied b.tidied choice = next? g b choice := by
  cases choice with
  | none => simp [next?]
  | some yes =>
    have proper : (if yes then "yes" else "no") ≠ "" := by cases yes <;> decide
    simp [next?, g.branch?_tidied _ proper, Function.comp_def]

theorem walk_tidied (limit count : Nat) (s : State) (current : Option String) :
    walk g.tidied limit count s current = walk g limit count s current := by
  induction limit generalizing count s current with
  | zero => cases current <;> rfl
  | succ limit ih =>
    cases current with
    | none => rfl
    | some id =>
      rw [walk, walk, FlowGraph.block?_tidied]
      cases g.block? id with
      | none => rfl
      | some b => simp only [Option.map_some, execute_tidied, executeNotes_tidied, next?_tidied, Block.kind_tidied, ih]

@[simp] theorem ofGraph_tidied (inputs : List String) (limit : Int) :
    ofGraph g.tidied inputs limit = ofGraph g inputs limit := by
  simp [ofGraph, walk_tidied]

end Run

/-! The diagram as a whole. -/

theorem distinctBlocks_tidied (seen : List String) (blocks : List Block) :
    distinctBlocks seen (blocks.map Block.tidied) = (distinctBlocks seen blocks).map Block.tidied := by
  induction blocks generalizing seen with
  | nil => rfl
  | cons b rest ih =>
    simp only [List.map_cons, distinctBlocks, Block.id_tidied, ih]
    split <;> rfl

theorem repeatedIds_tidied (seen : List String) (blocks : List Block) :
    repeatedIds seen (blocks.map Block.tidied) = repeatedIds seen blocks := by
  induction blocks generalizing seen with
  | nil => rfl
  | cons b rest ih => simp only [List.map_cons, repeatedIds, Block.id_tidied, ih]

namespace FlowGraph

theorem build_tidied (blocks : List Block) (arrows : List Arrow) :
    build (blocks.map Block.tidied) (arrows.map Arrow.tidied) = (build blocks arrows).tidied := by
  have ids : (distinctBlocks [] (blocks.map Block.tidied)).map Block.id = (distinctBlocks [] blocks).map Block.id := by
    rw [distinctBlocks_tidied, List.map_map]
    rfl
  apply ext_of_tables
  · exact distinctBlocks_tidied [] blocks
  · exact (congrArg (Tables.fill · (arrows.map Arrow.tidied)) ids).trans (Tables.fill_tidied _ arrows).symm

theorem arrowNotes_tidied (blocks : List Block) (arrows : List Arrow) :
    arrowNotes (blocks.map Block.tidied) (arrows.map Arrow.tidied) = arrowNotes blocks arrows := by
  simp only [arrowNotes, List.map_map, List.filter_map, Function.comp_def, Block.id_tidied,
    Arrow.source_tidied, Arrow.target_tidied]

theorem buildNotes_tidied (blocks : List Block) (arrows : List Arrow) :
    buildNotes (blocks.map Block.tidied) (arrows.map Arrow.tidied) = buildNotes blocks arrows := by
  simp [buildNotes, blockNotes, repeatedIds_tidied, arrowNotes_tidied, build_tidied]

theorem plan_tidied (g : FlowGraph) : g.tidied.plan = g.plan.tidied := by
  simp [plan, Plan.tidied]

theorem compile_tidied (g : FlowGraph) : g.tidied.compile = g.compile := by
  have size : g.tidied.blocks.length = g.blocks.length := by simp [tidied]
  simp only [compile, start?_tidied, plan_tidied, Plan.lower_tidied g.plan _ _ _ _, Plan.loops_tidied,
    Plan.origin_tidied, Dominators.notes_tidied, size]

end FlowGraph

namespace Diagram
variable (d : Diagram)

theorem flowGraph_tidied : d.tidied.flowGraph = d.flowGraph.tidied :=
  FlowGraph.build_tidied d.blocks d.arrows

/-- A tidied diagram compiles to the same program, with the same notes. -/
theorem compile_tidied : d.tidied.compile = d.compile := by
  have none : d.tidied.blocks.isEmpty = d.blocks.isEmpty := by simp [tidied]
  have notes : FlowGraph.buildNotes d.tidied.blocks d.tidied.arrows = FlowGraph.buildNotes d.blocks d.arrows :=
    FlowGraph.buildNotes_tidied d.blocks d.arrows
  simp only [compile, none, notes, flowGraph_tidied, FlowGraph.compile_tidied]

/-- A tidied diagram runs in the same way, with the same notes. -/
theorem run_tidied (inputs : List String) (limit : Int) : d.tidied.run inputs limit = d.run inputs limit := by
  have notes : FlowGraph.buildNotes d.tidied.blocks d.tidied.arrows = FlowGraph.buildNotes d.blocks d.arrows :=
    FlowGraph.buildNotes_tidied d.blocks d.arrows
  simp only [run, notes, flowGraph_tidied, Run.ofGraph_tidied]

end Diagram

end Flowchart
