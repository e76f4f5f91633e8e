import Flowchart.Code.Basic
import Flowchart.Error
import Flowchart.Text.Blank
/-! Code as text. Blocks are indented by two spaces, a comment before a statement names the block it
came from, and an empty block is written as `pass`. -/
namespace Flowchart.Code

/-- The spaces before a statement at a nesting level. -/
def indent (level : Nat) : String :=
  String.ofList (List.replicate (2 * level) ' ')

/-- The comment line before a statement, nothing where the origin is unknown. -/
def header (origin : Option Origin) (level : Nat) : String :=
  match origin with
  | none => ""
  | some o => indent level ++ "# Block ID: " ++ o.text ++ "\n"

/-- Lines one below the other, those without anything visible left out. -/
def stack (lines : List String) : String :=
  "\n".intercalate (lines.filter fun line => !Text.isBlankText line)

/-- An operator as it is written. -/
def operatorText (op : String) : String :=
  if op == "&&" then "and" else if op == "||" then "or" else op

mutual
/-- An expression as text, fully parenthesised. -/
def Expr.text : Expr → String
  | .ident i => i.name
  | .literal _ _ raw => raw
  | .binary _ op left right => "(" ++ left.text ++ " " ++ operatorText op ++ " " ++ right.text ++ ")"
  | .call _ callee args => callee.name ++ "(" ++ ", ".intercalate (Expr.texts args) ++ ")"
  | .subscript _ object index => object.text ++ "[" ++ index.text ++ "]"
  | .blank .. => ""
/-- The texts of several expressions. -/
def Expr.texts : List Expr → List String
  | [] => []
  | e :: rest => e.text :: Expr.texts rest
end

mutual
/-- A statement as text at a nesting level. -/
def Stmt.text (level : Nat) : Stmt → String
  | .program _ body => stack (Stmt.texts level body)
  | .assign origin target value =>
    header origin level ++ indent level ++ target.text ++ " = " ++ value.text
  | .branch origin test body orElse =>
    header origin level ++ indent level ++ "if " ++ test.text ++ ":\n" ++ Stmt.blockText (level + 1) body
      ++ Stmt.elseText level orElse
  | .loop origin test body =>
    header origin level ++ indent level ++ "while " ++ test.text ++ ":\n"
      ++ Stmt.blockText (level + 1) body
  | .print origin args =>
    header origin level ++ indent level ++ "print(" ++ ", ".intercalate (Expr.texts args) ++ ")"
  | .leave _ => indent level ++ "break"
  | .unsupported origin reason =>
    indent level ++ "# Unsupported Block ID: " ++ ((origin.map Origin.text).getD "N/A") ++ " - " ++ reason
  | .expr e => e.text
/-- The texts of several statements. -/
def Stmt.texts (level : Nat) : List Stmt → List String
  | [] => []
  | s :: rest => Stmt.text level s :: Stmt.texts level rest
/-- A block of statements. -/
def Stmt.blockText (level : Nat) : List Stmt → String
  | [] => indent level ++ "pass"
  | s :: rest => stack (Stmt.text level s :: Stmt.texts level rest)
/-- The else part of a branch; an empty one is not written. -/
def Stmt.elseText (level : Nat) : Option (List Stmt) → String
  | none => ""
  | some [] => ""
  | some (s :: rest) =>
    "\n" ++ indent level ++ "else:\n" ++ stack (Stmt.text (level + 1) s :: Stmt.texts (level + 1) rest)
end

/-- The whole text of a statement, without blanks around it. -/
def Stmt.write (s : Stmt) : String :=
  Text.trim (Stmt.text 0 s)

/-- The text of code in which no node is blank. -/
def Stmt.write? (s : Stmt) : Except Error String :=
  match s.firstBlank? with
  | some label => .error (.blank .writing label)
  | none => .ok s.write

end Flowchart.Code
