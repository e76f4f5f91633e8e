import Flowchart.Literal
import Flowchart.Term.Basic
/-! Tokens: the elements of an expression with their literals read, their functions applied to read
arguments and their operators recognised. The grammar works on tokens; brackets are matched before
it starts. -/
namespace Flowchart

/-- The symbols of the grammar. -/
inductive Operator where
  | relation (r : Relation)
  | or
  | and
  | plus
  | minus
  | times
  | divide
  | modulo
  | not
  | openParen
  | closeParen
  | openBracket
  | closeBracket
  deriving DecidableEq

namespace Operator

def symbol : Operator → String
  | relation r => r.symbol
  | or => "||"
  | and => "&&"
  | plus => "+"
  | minus => "-"
  | times => "*"
  | divide => "/"
  | modulo => "%"
  | not => "!"
  | openParen => "("
  | closeParen => ")"
  | openBracket => "["
  | closeBracket => "]"

/-- The operator written in the given way. -/
def ofSymbol? (s : String) : Option Operator :=
  match Relation.ofSymbol? s with
  | some r => some (.relation r)
  | none =>
    [or, and, plus, minus, times, divide, modulo, not, openParen, closeParen, openBracket,
      closeBracket].find? (·.symbol == s)

/-- The operator as one with two operands. -/
def binary? : Operator → Option BinaryOp
  | relation r => some (.compare (.relation r))
  | or => some .or
  | and => some .and
  | plus => some .add
  | minus => some .subtract
  | times => some .multiply
  | divide => some .divide
  | modulo => some .modulo
  | _ => none

/-- The operator as one with one operand. -/
def unary? : Operator → Option UnaryOp
  | not => some .not
  | minus => some .minus
  | plus => some .plus
  | _ => none

end Operator

/-- The level at which an operator binds: the higher, the tighter. -/
def BinaryOp.level : BinaryOp → Nat
  | compare _ => 0
  | or => 1
  | and => 2
  | add => 3
  | subtract => 3
  | multiply => 4
  | divide => 4
  | modulo => 4

/-- A token of the grammar. -/
inductive Token where
  | literal (value : Value) (type : DataType)
  | named (target : Variable)
  | call (function : Function) (argument : Term)
  | op (operator : Operator)

namespace Token

/-- A token in a message. -/
def shown : Token → String
  | literal value _ => value.display
  | named v => v.name
  | call function _ => function.name ++ "(...)"
  | op operator => operator.symbol

/-- The weight of a token: at least one, and that of what it carries. -/
def weight : Token → Nat
  | literal .. => 1
  | named v => v.weight
  | call _ argument => 1 + argument.weight
  | op _ => 1

/-- The weight of several tokens. -/
def weights : List Token → Nat
  | [] => 0
  | t :: rest => t.weight + weights rest

/-- Matches brackets and parentheses. `pending` holds the closing symbols still awaited, the
innermost first. -/
def matchDelimiters : (pending : List Operator) → List Token → Except SyntaxError Unit
  | [], [] => .ok ()
  | .closeBracket :: _, [] => .error .unclosedIndex
  | _ :: _, [] => .error .unclosedGroup
  | pending, .op .openParen :: rest => matchDelimiters (.closeParen :: pending) rest
  | pending, .op .openBracket :: rest => matchDelimiters (.closeBracket :: pending) rest
  | [], .op .closeParen :: _ => .error (.unexpectedToken ")")
  | [], .op .closeBracket :: _ => .error (.unexpectedToken "]")
  | expected :: pending, .op .closeParen :: rest =>
    if expected = .closeParen then matchDelimiters pending rest
    else .error (.mismatched expected.symbol ")")
  | expected :: pending, .op .closeBracket :: rest =>
    if expected = .closeBracket then matchDelimiters pending rest
    else .error (.mismatched expected.symbol "]")
  | pending, _ :: rest => matchDelimiters pending rest

end Token

end Flowchart
