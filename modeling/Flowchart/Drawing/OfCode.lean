import Flowchart.Code.Basic
import Flowchart.Drawing.Dot
import Flowchart.Error
/-! The drawing of code: every node of the tree is a node of the drawing, numbered in the order in
which the tree is walked, with arrows to its parts. -/
namespace Flowchart.Code
open Flowchart.Dot

/-- A drawn part: the number of its own node, the numbers used up to its end, and the statements. -/
structure Drawn where
  node : Nat
  used : Nat
  statements : List Statement

/-- The name of the node with the given number, padded to five digits. -/
def nodeName (n : Nat) : String :=
  let digits := Nat.toDigits 10 n
  String.ofList ('n' :: List.replicate (5 - digits.length) '0' ++ digits)

def newNode (n : Nat) (label : String) (attributes : List (String × String)) : Statement :=
  .node (nodeName n) label attributes

def newArrow (a b : Nat) (label : Option String) : Statement :=
  .arrow (nodeName a) (nodeName b) label []

/-- The label of a statement, with the block it came from. -/
def stmtLabel (kind : String) (origin : Option Origin) : String :=
  match origin with
  | none => kind
  | some o => kind ++ "\\n[" ++ o.text ++ "]"

mutual
/-- Draws an expression after `used` nodes. -/
def Expr.draw (used : Nat) : Expr → Drawn
  | .ident i => ⟨used + 1, used + 1, [newNode (used + 1) ("Id(" ++ i.name ++ ")") []]⟩
  | .literal _ _ raw => ⟨used + 1, used + 1, [newNode (used + 1) raw []]⟩
  | .binary _ op left right =>
    let l := left.draw (used + 1)
    let r := right.draw l.used
    ⟨used + 1, r.used,
      newNode (used + 1) op [("shape", "circle")] :: l.statements ++ newArrow (used + 1) l.node none
        :: r.statements ++ [newArrow (used + 1) r.node none]⟩
  | .call _ callee args =>
    let (last, statements) := Expr.drawAll (used + 1) (used + 1) args
    ⟨used + 1, last, newNode (used + 1) ("Call\\n" ++ callee.name) [] :: statements⟩
  | .subscript _ object index =>
    let o := object.draw (used + 1)
    let i := index.draw o.used
    ⟨used + 1, i.used,
      newNode (used + 1) "[]" [("shape", "circle")] :: o.statements
        ++ newArrow (used + 1) o.node (some "object") :: i.statements
        ++ [newArrow (used + 1) i.node (some "index")]⟩
  | .blank .. => ⟨used, used, []⟩
/-- Draws several expressions under the node `parent`. -/
def Expr.drawAll (parent used : Nat) : List Expr → Nat × List Statement
  | [] => (used, [])
  | e :: rest =>
    let d := e.draw used
    let more := Expr.drawAll parent d.used rest
    (more.1, d.statements ++ newArrow parent d.node none :: more.2)
end

mutual
/-- Draws a statement after `used` nodes. -/
def Stmt.draw (used : Nat) : Stmt → Drawn
  | .program _ body =>
    let (last, statements) := Stmt.drawAll (used + 1) (used + 1) body
    ⟨used + 1, last, newNode (used + 1) "Program" [] :: statements⟩
  | .assign origin target value =>
    let t := target.draw (used + 1)
    let v := value.draw t.used
    ⟨used + 1, v.used,
      newNode (used + 1) (stmtLabel "=" origin) [("shape", "box")] :: t.statements
        ++ newArrow (used + 1) t.node (some "target") :: v.statements
        ++ [newArrow (used + 1) v.node (some "value")]⟩
  | .branch origin test body orElse =>
    let t := test.draw (used + 1)
    let b := Stmt.drawBlock (used + 1) t.used "then" body
    let e := Stmt.drawElse (used + 1) b.1 orElse
    ⟨used + 1, e.1,
      newNode (used + 1) (stmtLabel "If" origin) [("shape", "box")] :: t.statements
        ++ newArrow (used + 1) t.node (some "test") :: b.2 ++ e.2⟩
  | .loop origin test body =>
    let t := test.draw (used + 1)
    let b := Stmt.drawBlock (used + 1) t.used "body" body
    ⟨used + 1, b.1,
      newNode (used + 1) (stmtLabel "While" origin) [("shape", "box")] :: t.statements
        ++ newArrow (used + 1) t.node (some "test") :: b.2⟩
  | .print origin args =>
    let (last, statements) := Expr.drawAll (used + 1) (used + 1) args
    ⟨used + 1, last, newNode (used + 1) (stmtLabel "Print" origin) [("shape", "box")] :: statements⟩
  | .leave origin =>
    ⟨used + 1, used + 1, [newNode (used + 1) (stmtLabel "Break" origin) [("shape", "box")]]⟩
  | .unsupported _ reason =>
    ⟨used + 1, used + 1,
      [newNode (used + 1) ("Unsupported\\n" ++ reason) [("shape", "note"), ("color", "red")]]⟩
  | .expr e => e.draw used
/-- Draws several statements under the node `parent`. -/
def Stmt.drawAll (parent used : Nat) : List Stmt → Nat × List Statement
  | [] => (used, [])
  | s :: rest =>
    let d := s.draw used
    let more := Stmt.drawAll parent d.used rest
    (more.1, d.statements ++ newArrow parent d.node none :: more.2)
/-- Draws a block of statements under a node of its own. -/
def Stmt.drawBlock (parent used : Nat) (label : String) : List Stmt → Nat × List Statement
  | [] => (used + 1, [newNode (used + 1) label [("shape", "folder")], newArrow parent (used + 1) none])
  | s :: rest =>
    let d := s.draw (used + 1)
    let more := Stmt.drawAll (used + 1) d.used rest
    (more.1, newNode (used + 1) label [("shape", "folder")] :: newArrow parent (used + 1) none
      :: d.statements ++ newArrow (used + 1) d.node none :: more.2)
/-- Draws the else part of a branch, nothing when it is absent. -/
def Stmt.drawElse (parent used : Nat) : Option (List Stmt) → Nat × List Statement
  | none => (used, [])
  | some body => Stmt.drawBlock parent used "else" body
end

/-- The drawing of a statement. -/
def Stmt.drawing (s : Stmt) : Drawing :=
  { name := "AST"
    statements :=
      .defaults "node" [("shape", "ellipse"), ("color", "purple"), ("style", "filled")]
        :: .defaults "edge" [("arrowhead", "normal")] :: (s.draw 0).statements }

/-- The drawing of code in which no node is blank. -/
def Stmt.drawing? (s : Stmt) : Except Error Drawing :=
  match s.firstBlank? with
  | some label => .error (.blank .drawing label)
  | none => .ok s.drawing

end Flowchart.Code
