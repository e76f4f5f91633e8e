import Flowchart.Json.Basic
/-! The code that a diagram is turned into: expressions and nested statements, each with the block
it came from. A node may be blank, known only by a label; such code can be shown and not written
out. -/
namespace Flowchart.Code

/-- The block a piece of code came from: its id and the label it is shown with. -/
structure Origin where
  id : Option String
  label : Option Json

/-- The name of the block in comments: its label, else its id. -/
def Origin.text (o : Origin) : String :=
  ((o.label.filter Json.isPresent).map Json.display |>.or (o.id.filter (· ≠ ""))).getD "N/A"

/-- A name with its origin. -/
structure Ident where
  origin : Option Origin
  name : String
  deriving Inhabited

/-- An expression of the code. A literal keeps its value and the way it is written. -/
inductive Expr where
  | ident (i : Ident)
  | literal (origin : Option Origin) (value : Value) (raw : String)
  | binary (origin : Option Origin) (op : String) (left right : Expr)
  | call (origin : Option Origin) (callee : Ident) (args : List Expr)
  | subscript (origin : Option Origin) (object index : Expr)
  | blank (origin : Option Origin) (label : String)
  deriving Inhabited

/-- A statement of the code. An absent else part differs from an empty one. A whole program or a
bare expression may stand as a statement. -/
inductive Stmt where
  | program (origin : Option Origin) (body : List Stmt)
  | assign (origin : Option Origin) (target value : Expr)
  | branch (origin : Option Origin) (test : Expr) (body : List Stmt) (orElse : Option (List Stmt))
  | loop (origin : Option Origin) (test : Expr) (body : List Stmt)
  | print (origin : Option Origin) (args : List Expr)
  | leave (origin : Option Origin)
  | unsupported (origin : Option Origin) (reason : String)
  | expr (e : Expr)
  deriving Inhabited

namespace Expr

def origin : Expr → Option Origin
  | ident i => i.origin
  | literal origin .. => origin
  | binary origin .. => origin
  | call origin .. => origin
  | subscript origin .. => origin
  | blank origin _ => origin

/-- The name of an expression's form. -/
def form : Expr → String
  | ident _ => "Identifier"
  | literal .. => "Literal"
  | binary .. => "BinaryExpr"
  | call .. => "Call"
  | subscript .. => "Subscript"
  | blank _ label => label

/-- A truth value as code. -/
def truth (origin : Option Origin) (b : Bool) : Expr :=
  .literal origin (.bool b) (if b then "True" else "False")

/-- The code for a value that is missing. -/
def missing (origin : Option Origin) : Expr :=
  .literal origin .nothing "None"

end Expr

namespace Stmt

def origin : Stmt → Option Origin
  | program origin _ => origin
  | assign origin .. => origin
  | branch origin .. => origin
  | loop origin .. => origin
  | print origin _ => origin
  | leave origin => origin
  | unsupported origin _ => origin
  | expr e => e.origin

/-- The name of a statement's form. -/
def form : Stmt → String
  | program .. => "Program"
  | assign .. => "Assignment"
  | branch .. => "If"
  | loop .. => "While"
  | print .. => "Print"
  | leave _ => "Break"
  | unsupported .. => "Unsupported"
  | expr e => e.form

end Stmt

mutual
/-- The label of the first blank node of an expression. -/
def Expr.firstBlank? : Expr → Option String
  | .ident _ => none
  | .literal .. => none
  | .binary _ _ left right => left.firstBlank?.or right.firstBlank?
  | .call _ _ args => Expr.firstBlankIn? args
  | .subscript _ object index => object.firstBlank?.or index.firstBlank?
  | .blank _ label => some label
/-- The label of the first blank node of several expressions. -/
def Expr.firstBlankIn? : List Expr → Option String
  | [] => none
  | e :: rest => e.firstBlank?.or (Expr.firstBlankIn? rest)
end

mutual
/-- The label of the first blank node of a statement. -/
def Stmt.firstBlank? : Stmt → Option String
  | .program _ body => Stmt.firstBlankIn? body
  | .assign _ target value => target.firstBlank?.or value.firstBlank?
  | .branch _ test body orElse =>
    (test.firstBlank?.or (Stmt.firstBlankIn? body)).or (Stmt.firstBlankElse? orElse)
  | .loop _ test body => test.firstBlank?.or (Stmt.firstBlankIn? body)
  | .print _ args => Expr.firstBlankIn? args
  | .leave _ => none
  | .unsupported .. => none
  | .expr e => e.firstBlank?
/-- The label of the first blank node of several statements. -/
def Stmt.firstBlankIn? : List Stmt → Option String
  | [] => none
  | s :: rest => s.firstBlank?.or (Stmt.firstBlankIn? rest)
/-- The label of the first blank node of an else part. -/
def Stmt.firstBlankElse? : Option (List Stmt) → Option String
  | none => none
  | some body => Stmt.firstBlankIn? body
end

mutual
/-- How many statements of a statement stand for something that could not be turned into code. -/
def Stmt.unsupportedCount : Stmt → Nat
  | .program _ body => Stmt.unsupportedCounts body
  | .branch _ _ body orElse => Stmt.unsupportedCounts body + Stmt.unsupportedElse orElse
  | .loop _ _ body => Stmt.unsupportedCounts body
  | .unsupported .. => 1
  | _ => 0
/-- The count for several statements. -/
def Stmt.unsupportedCounts : List Stmt → Nat
  | [] => 0
  | s :: rest => s.unsupportedCount + Stmt.unsupportedCounts rest
/-- The count for an else part. -/
def Stmt.unsupportedElse : Option (List Stmt) → Nat
  | none => 0
  | some body => Stmt.unsupportedCounts body
end

end Flowchart.Code
