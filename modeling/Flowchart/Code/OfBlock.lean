import Flowchart.Code.OfTerm
import Flowchart.FlowGraph.Basic
import Flowchart.Trace
/-! The code of a single block: the statement that an assignment, an input or an output stands for,
and the test of a conditional. What has no code leaves a marker in its place. -/
namespace Flowchart.Code

/-- The notes on turning a term into code: those on the indexes that its variables carry. -/
def termNotes (t : Term) : List Note :=
  match t with
  | .named _ v =>
    if v.isIndexed then
      Term.parseNotes v.index ++
        match read : Term.parse v.index with
        | .error _ => []
        | .ok index =>
          have := Term.weight_parse_index read
          termNotes index
    else []
  | .access name v index =>
    termNotes (.named name v) ++ if done (ofTerm none (.named name v)) then termNotes index else []
  | .call _ argument => termNotes argument
  | .unary _ operand => termNotes operand
  | .binary _ left right => termNotes left ++ if done (ofTerm none left) then termNotes right else []
  | _ => []
termination_by t.weight
decreasing_by all_goals simp only [Term.weight]; omega

/-- The notes on turning elements into code. -/
def elementsNotes (es : List Element) : List Note :=
  if es.isEmpty then []
  else
    Term.parseNotes es ++
      match Term.parse es with
      | .ok t => termNotes t
      | .error _ => []

/-- The origin of what a block becomes. -/
def originOf (g : FlowGraph) (id : String) : Option Origin :=
  some ⟨some id, some (g.label id)⟩

/-- The marker for elements that have no code. -/
def failure (origin : Option Origin) (e : NoCode) : Stmt :=
  .unsupported origin ("Failed to parse expression: " ++ e.message)

/-- The code of elements, or the marker that takes its place. -/
def exprOf (origin : Option Origin) (es : List Element) : Except Stmt Expr :=
  (ofElements origin es).mapError (failure origin)

/-- The code that an assignment writes to. -/
def targetOf (origin : Option Origin) (v : Variable) : Except Stmt Expr :=
  if v.isIndexed then
    (exprOf origin v.index).map fun index => .subscript origin (.ident ⟨origin, v.name⟩) index
  else .ok (.ident ⟨origin, v.name⟩)

/-- The notes on the code that an assignment writes to. -/
def targetNotes (v : Variable) : List Note :=
  if v.isIndexed then elementsNotes v.index else []

/-- The name of the call that converts an input, none for texts. -/
def inputCast? : DataType → Option String
  | .integer => some "int"
  | .float => some "float"
  | .boolean => some "bool"
  | _ => none

/-- The code that reads a variable from the keyboard. -/
def inputCall (origin : Option Origin) (v : Variable) : Expr :=
  let prompt := "Enter the value of '" ++ v.name ++ "' by keyboard"
  let read := Expr.call origin ⟨origin, "input"⟩ [.literal origin (.text prompt) (Text.quoted prompt)]
  match inputCast? (v.subtype?.getD v.type) with
  | some cast => .call origin ⟨origin, cast⟩ [read]
  | none => read

/-- A statement or the marker that takes its place. -/
def orMarker : Except Stmt Stmt → List Stmt
  | .ok s => [s]
  | .error marker => [marker]

/-- The statement of a block, none for blocks that only declare or steer. -/
def blockStmts (origin : Option Origin) : Content → List Stmt
  | .assign (some (.assignment target right)) =>
    orMarker do
      let target ← targetOf origin target
      let value ← exprOf origin right
      return .assign origin target value
  | .input (some v) =>
    orMarker ((targetOf origin v).map fun target => .assign origin target (inputCall origin v))
  | .output none => [.print origin []]
  | .output (some e) => orMarker ((exprOf origin e.right).map fun value => .print origin [value])
  | _ => []

/-- The notes on the statement of a block. -/
def blockNotes : Content → List Note
  | .assign (some (.assignment target right)) =>
    targetNotes target ++ if done (targetOf none target) then elementsNotes right else []
  | .input (some v) => targetNotes v
  | .output (some e) => elementsNotes e.right
  | _ => []

/-- The elements of a conditional's test. -/
def testElements : Content → List Element
  | .conditional (some e) => e.flat
  | _ => []

/-- The test of a conditional, after the marker for one that has no code. -/
def test (origin : Option Origin) (c : Content) : List Stmt × Expr :=
  match exprOf origin (testElements c) with
  | .ok e => ([], e)
  | .error marker => ([marker], .missing origin)

/-- The notes on the test of a conditional. -/
def testNotes (c : Content) : List Note :=
  elementsNotes (testElements c)

end Flowchart.Code
