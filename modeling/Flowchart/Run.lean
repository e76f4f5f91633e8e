import Flowchart.FlowGraph.Basic
import Flowchart.Input
import Flowchart.Trace
/-! Running a diagram step by step. Every step executes one block and shows the store after it; a
run ends at an end block, where no arrow leads on, at a failure, or when the steps are used up. -/
namespace Flowchart

/-- One executed block: the store after it, and what it printed. -/
structure Step where
  block : String
  kind : String
  store : Store
  output : Option String

/-- A run: its steps, the failure that stopped it if any, and the notes of the work. -/
structure Run where
  steps : List Step
  stopped : Option Error
  notes : List Note

/-- What a run has at hand: the store, and the inputs not read yet. -/
structure State where
  store : Store
  inputs : List String

/-- What executing a block comes to: the new state, what it printed, and for a conditional the truth
of its test. -/
structure Effect where
  state : State
  output : Option String
  choice : Option Bool

namespace Run

/-- The assignment that stores an input. -/
def reading (v : Variable) (value : Value) : Expression :=
  .assignment v [.literal "input" (Input.literal value)]

/-- The effect of storing a binding. -/
def bound (s : State) (b : Except Error Binding) : Except Error Effect :=
  b.map fun b => ⟨{ s with store := s.store.insert b }, none, none⟩

/-- Executes a block. -/
def execute (s : State) (b : Block) : Except Error Effect :=
  match b.content with
  | .start => .ok ⟨s, none, none⟩
  | .finish => .ok ⟨s, none, none⟩
  | .declare (some v) => bound s (Binding.ofVariable v none)
  | .assign (some (.assignment target right)) => bound s (Expression.assign s.store (.assignment target right))
  | .input (some v) =>
    match s.inputs with
    | [] => .error (.diagram (.noInput v.name))
    | text :: rest =>
      match Input.convert text v.elementType with
      | .error e => .error e
      | .ok value => bound { s with inputs := rest } ((reading v value).assign s.store)
  | .output (some e) =>
    if e.right.isEmpty then .ok ⟨s, some "", none⟩
    else (calculate s.store e.right none none).map fun v => ⟨s, some v.shown, none⟩
  | .output none => .ok ⟨s, some "", none⟩
  | .conditional (some e) => (e.holds s.store).map fun choice => ⟨s, none, some choice⟩
  | .conditional none => .error (.diagram (.noCondition b.label.display))
  | .unknown type => .error (.diagram (.unsupportedBlock type.display))
  | _ => .ok ⟨s, none, none⟩

/-- The notes on executing a block. -/
def executeNotes (s : State) (b : Block) : List Note :=
  match b.content with
  | .assign (some (.assignment target right)) => Expression.assignNotes s.store (.assignment target right)
  | .input (some v) =>
    match s.inputs with
    | [] => []
    | text :: _ =>
      match Input.convert text v.elementType with
      | .error _ => []
      | .ok value => (reading v value).assignNotes s.store
  | .output (some e) => calculateNotes s.store e.right
  | .conditional (some e) => e.holdsNotes s.store
  | _ => []

/-- The block that comes next: for a conditional the one behind the arrow with the label of the
choice, for others the first successor; none after an end block. -/
def next? (g : FlowGraph) (b : Block) (choice : Option Bool) : Option String :=
  match choice with
  | some yes => (g.branch? b.id (if yes then "yes" else "no")).map Arrow.target
  | none => if b.content.isFinish then none else (g.successors b.id).head?

/-- Runs from a block on for at most `limit` steps. -/
def walk (g : FlowGraph) : (limit : Nat) → (count : Nat) → State → (current : Option String) → Run
  | _, count, _, none => ⟨[], none, [.finished count]⟩
  | 0, _, _, some _ => ⟨[], some .stepLimit, []⟩
  | limit + 1, count, s, some id =>
    match g.block? id with
    | none => ⟨[], none, [.finished count]⟩
    | some b =>
      match execute s b with
      | .error e => ⟨[], some e, executeNotes s b⟩
      | .ok effect =>
        let rest := walk g limit (count + 1) effect.state (next? g b effect.choice)
        ⟨⟨id, b.kind, effect.state.store, effect.output⟩ :: rest.steps, rest.stopped,
          executeNotes s b ++ rest.notes⟩

/-- The number of steps a run may take when nothing else is said. -/
def defaultLimit : Int := 1000

/-- Runs a flow graph from its start. -/
def ofGraph (g : FlowGraph) (inputs : List String) (limit : Int) : Run :=
  match g.start? with
  | none => ⟨[], some (.diagram .noStart), []⟩
  | some start => walk g limit.toNat 0 ⟨.empty, inputs⟩ (some start)

/-- Puts the notes of earlier work in front. -/
def withNotes (notes : List Note) (r : Run) : Run :=
  { r with notes := notes ++ r.notes }

/-- What a run printed, line by line. -/
def outputs (r : Run) : List String :=
  r.steps.filterMap Step.output

/-- The store after the last step. -/
def store (r : Run) : Store :=
  (r.steps.getLast?.map Step.store).getD .empty

/-- A run that came to its end; otherwise the failure that stopped it. -/
def finished (r : Run) : Except Error Run :=
  match r.stopped with
  | some e => .error e
  | none => .ok r

end Run

/-- Runs a diagram. -/
def Diagram.run (d : Diagram) (inputs : List String) (limit : Int) : Run :=
  (Run.ofGraph d.flowGraph inputs limit).withNotes (FlowGraph.buildNotes d.blocks d.arrows)

end Flowchart
