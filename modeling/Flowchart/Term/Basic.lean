import Flowchart.Expression.Basic
/-! Terms: expressions as trees. The operators and functions of a term may be ones that the language
does not know; such a term can be held and shown, and fails when it is evaluated. -/
namespace Flowchart

/-- The operators with one operand. -/
inductive UnaryOp where
  | not
  | minus
  | plus
  | other (symbol : String)
  deriving DecidableEq

namespace UnaryOp

def symbol : UnaryOp → String
  | not => "!"
  | minus => "-"
  | plus => "+"
  | other symbol => symbol

def ofSymbol (s : String) : UnaryOp :=
  if s == "!" then .not else if s == "-" then .minus else if s == "+" then .plus else .other s

end UnaryOp

/-- A comparison: one of the relations, or a symbol that is none. -/
inductive Comparison where
  | relation (r : Relation)
  | other (symbol : String)
  deriving DecidableEq

namespace Comparison

def symbol : Comparison → String
  | relation r => r.symbol
  | other symbol => symbol

def ofSymbol (s : String) : Comparison :=
  match Relation.ofSymbol? s with
  | some r => .relation r
  | none => .other s

end Comparison

/-- The operators with two operands. Every symbol that is no other operator is a comparison. -/
inductive BinaryOp where
  | add
  | subtract
  | multiply
  | divide
  | modulo
  | and
  | or
  | compare (c : Comparison)
  deriving DecidableEq

namespace BinaryOp

def symbol : BinaryOp → String
  | add => "+"
  | subtract => "-"
  | multiply => "*"
  | divide => "/"
  | modulo => "%"
  | and => "&&"
  | or => "||"
  | compare c => c.symbol

def ofSymbol (s : String) : BinaryOp :=
  match [add, subtract, multiply, divide, modulo, and, or].find? (·.symbol == s) with
  | some op => op
  | none => .compare (.ofSymbol s)

end BinaryOp

/-- The conversion functions. -/
inductive Function where
  | integer
  | float
  | string
  | boolean
  | other (name : String)
  deriving DecidableEq

namespace Function

def name : Function → String
  | integer => "integer"
  | float => "float"
  | string => "string"
  | boolean => "boolean"
  | other name => name

def ofName (s : String) : Function :=
  if s == "integer" then .integer
  else if s == "float" then .float
  else if s == "string" then .string
  else if s == "boolean" then .boolean
  else .other s

end Function

/-- An expression tree. `access` selects an item of the array variable by an index of its own; a
variable of `variable` may carry its index with it. A `blank` is a place that holds no expression,
known only by its label. -/
inductive Term where
  | literal (value : Value) (type : DataType)
  | named (name : String) (target : Variable)
  | unary (op : UnaryOp) (operand : Term)
  | binary (op : BinaryOp) (left right : Term)
  | access (name : String) (target : Variable) (index : Term)
  | call (function : Function) (argument : Term)
  | blank (label : String)
  deriving Inhabited

/-- The name of a term's form. -/
def Term.form : Term → String
  | literal .. => "Literal"
  | named .. => "Identifier"
  | unary .. => "UnaryOp"
  | binary .. => "BinaryOp"
  | access .. => "MemberAccess"
  | call .. => "FunctionCall"
  | blank label => label

/-! The weight of a term counts its nodes and the elements that its variables carry. It bounds how
far evaluation can go, since the index of a variable is read when the variable is reached. -/

mutual
/-- The weight of a variable: one, and its index elements. -/
def Variable.weight : Variable → Nat
  | ⟨_, _, _, .scalar ..⟩ => 1
  | ⟨_, _, _, .array _ _ _ _ index⟩ => 1 + Element.weights index
/-- The weight of an element: at least one, with its variable or its argument. -/
def Element.weight : Element → Nat
  | .literal .. => 1
  | .operator .. => 1
  | .function _ _ argument => 1 + argument.weight
  | .attached _ v => v.weight
  | .unattached .. => 1
/-- The weight of several elements. -/
def Element.weights : List Element → Nat
  | [] => 0
  | e :: rest => e.weight + Element.weights rest
/-- The weight of the right side of an expression. -/
def Expression.weight : Expression → Nat
  | .value right => Element.weights right
  | .assignment _ right => Element.weights right
  | .condition _ _ right => Element.weights right
  | .halfCondition _ right => Element.weights right
end

/-- The weight of a term. -/
def Term.weight : Term → Nat
  | literal .. => 1
  | named _ v => v.weight
  | unary _ operand => 1 + operand.weight
  | binary _ left right => 1 + left.weight + right.weight
  | access _ v index => 1 + v.weight + index.weight
  | call _ argument => 1 + argument.weight
  | blank _ => 1

theorem Variable.weight_eq (v : Variable) : v.weight = 1 + Element.weights v.index := by
  cases v with
  | mk id name nodeId shape => cases shape <;> simp [Variable.weight, Variable.index, Element.weights]

theorem Variable.weight_base (v : Variable) : v.base.weight = 1 := by
  rw [Variable.weight_eq, Variable.index_base]
  simp [Element.weights]

theorem Expression.weight_eq (e : Expression) : e.weight = Element.weights e.right := by
  cases e <;> simp [Expression.weight, Expression.right]

theorem Term.weight_pos (t : Term) : 0 < t.weight := by
  cases t with
  | named _ v => rw [Term.weight, Variable.weight_eq]; omega
  | _ => simp only [Term.weight]; omega

end Flowchart
