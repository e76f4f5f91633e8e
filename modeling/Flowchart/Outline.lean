import Flowchart.Code.Basic
import Flowchart.Term.Basic
/-! Outlines: terms and code as trees of labels, one line for every part. -/
namespace Flowchart

/-- A label with what belongs under it. -/
inductive Outline where
  | node (label : String) (children : List Outline)
  deriving Inhabited

namespace Outline

def leaf (label : String) : Outline :=
  .node label []

/-- A part that is named by a text. -/
def field (name text : String) : Outline :=
  leaf (name ++ ": " ++ text)

/-- A part that holds a list. -/
def listing (name : String) (items : List Outline) : Outline :=
  .node (name ++ "[]") items

/-- A part that holds a value; the items of an array or a list are listed. -/
def value (v : Value) : Outline :=
  match v.items? with
  | some items => listing "value" (items.map fun item => leaf item.display)
  | none => field "value" v.inspect

end Outline

namespace Term
open Outline

/-- The outline of a variable under a name. -/
def namedParts (name : String) (v : Variable) : List Outline :=
  [field "name" (Text.inspect name), field "variable" v.declaration]

/-- The parts of a term. -/
def parts : Term → List Outline
  | literal v type => [value v, field "type" (Text.inspect type.name)]
  | named name v => namedParts name v
  | unary op operand =>
    [field "op" (Text.inspect op.symbol), .node ("operand: " ++ operand.form) operand.parts]
  | binary op left right =>
    [field "op" (Text.inspect op.symbol), .node ("left: " ++ left.form) left.parts,
      .node ("right: " ++ right.form) right.parts]
  | access name v index =>
    [.node "object: Identifier" (namedParts name v), .node ("index: " ++ index.form) index.parts]
  | call function argument =>
    [field "name" (Text.inspect function.name), .node ("argument: " ++ argument.form) argument.parts]
  | blank _ => []

/-- The outline of a term under its form. -/
def outline (t : Term) : Outline :=
  .node t.form t.parts

end Term

namespace Code
open Outline

/-- A part of an origin that may be missing. -/
def optionText (part : Option Json) : String :=
  (part.getD .null).inspect

/-- The outline of an origin. -/
def originPart : Option Origin → Outline
  | none => field "provenance" "None"
  | some o =>
    field "provenance"
      ("Provenance(node_id=" ++ optionText (o.id.map .text) ++ ", label=" ++ optionText o.label ++ ")")

def Ident.parts (i : Ident) : List Outline :=
  [originPart i.origin, field "name" (Text.inspect i.name)]

mutual
/-- The parts of an expression. -/
def Expr.parts : Expr → List Outline
  | .ident i => i.parts
  | .literal origin v raw => [originPart origin, value v, field "raw" (Text.inspect raw)]
  | .binary origin op left right =>
    [originPart origin, field "op" (Text.inspect op), .node ("left: " ++ left.form) left.parts,
      .node ("right: " ++ right.form) right.parts]
  | .call origin callee args =>
    [originPart origin, .node "callee: Identifier" callee.parts, listing "args" (Expr.outlines args)]
  | .subscript origin object index =>
    [originPart origin, .node ("object: " ++ object.form) object.parts,
      .node ("index: " ++ index.form) index.parts]
  | .blank origin _ => [originPart origin]
/-- The outlines of several expressions. -/
def Expr.outlines : List Expr → List Outline
  | [] => []
  | e :: rest => .node e.form e.parts :: Expr.outlines rest
end

mutual
/-- The parts of a statement. -/
def Stmt.parts : Stmt → List Outline
  | .program origin body => [originPart origin, listing "body" (Stmt.outlines body)]
  | .assign origin target value =>
    [originPart origin, .node ("target: " ++ target.form) target.parts,
      .node ("value: " ++ value.form) value.parts]
  | .branch origin test body orElse =>
    [originPart origin, .node ("test: " ++ test.form) test.parts, listing "then" (Stmt.outlines body),
      Stmt.elseOutline orElse]
  | .loop origin test body =>
    [originPart origin, .node ("test: " ++ test.form) test.parts, listing "body" (Stmt.outlines body)]
  | .print origin args => [originPart origin, listing "args" (Expr.outlines args)]
  | .leave origin => [originPart origin]
  | .unsupported origin reason => [originPart origin, field "reason" (Text.inspect reason)]
  | .expr e => e.parts
/-- The outlines of several statements. -/
def Stmt.outlines : List Stmt → List Outline
  | [] => []
  | s :: rest => .node s.form s.parts :: Stmt.outlines rest
/-- The outline of an else part. -/
def Stmt.elseOutline : Option (List Stmt) → Outline
  | none => field "orelse" "None"
  | some body => listing "orelse" (Stmt.outlines body)
end

/-- The outline of a statement under its form. -/
def Stmt.outline (s : Stmt) : Outline :=
  .node s.form s.parts

end Code

end Flowchart
