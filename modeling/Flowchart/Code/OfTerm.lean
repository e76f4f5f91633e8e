import Flowchart.Code.Basic
import Flowchart.Term.Parse
/-! Terms as expressions of the code. Conversions become calls, an item of an array a subscript,
and the operators with one operand are expressed by those with two. -/
namespace Flowchart.Code

/-- Why a term has no code. -/
inductive NoCode where
  | malformed (e : SyntaxError)
  | unary (symbol : String)
  | blank (label : String)
  deriving DecidableEq

def NoCode.message : NoCode → String
  | malformed e => e.message
  | unary symbol => "Unsupported unary operator: " ++ symbol
  | blank label => "Unknown diagram AST node type: " ++ label

/-- How the code writes a value of the given type. -/
def literalText (value : Value) (type : DataType) : String :=
  match type with
  | .boolean => if value.isTrue then "True" else "False"
  | .string => value.quoted
  | _ => value.display

/-- The name of the call that converts. -/
def castName : Function → String
  | .integer => "int"
  | .string => "str"
  | .float => "float"
  | .boolean => "bool"
  | .other name => name

/-- The name of an operator in the code. -/
def operatorName : BinaryOp → String
  | .and => "and"
  | .or => "or"
  | op => op.symbol

/-- The code of an operator with one operand: negations are comparisons with false, a minus is a
difference from zero, a plus is nothing. -/
def applyUnary (origin : Option Origin) (op : UnaryOp) (operand : Expr) : Except NoCode Expr :=
  match op with
  | .not => .ok (.binary origin "==" operand (.truth origin false))
  | .minus => .ok (.binary origin "-" (.literal origin (.int 0) "0") operand)
  | .plus => .ok operand
  | .other symbol => .error (.unary symbol)

/-- The code of a term. -/
def ofTerm (origin : Option Origin) (t : Term) : Except NoCode Expr :=
  match t with
  | .literal value type => .ok (.literal origin value (literalText value type))
  | .named name v =>
    if v.isIndexed then
      match read : Term.parse v.index with
      | .error e => .error (.malformed e)
      | .ok index =>
        have := Term.weight_parse_index read
        (ofTerm origin index).map fun i => .subscript origin (.ident ⟨origin, name⟩) i
    else .ok (.ident ⟨origin, name⟩)
  | .access name v index =>
    match ofTerm origin (.named name v) with
    | .error e => .error e
    | .ok object => (ofTerm origin index).map fun i => .subscript origin object i
  | .call f argument =>
    (ofTerm origin argument).map fun a => .call origin ⟨origin, castName f⟩ [a]
  | .unary op operand => (ofTerm origin operand).bind (applyUnary origin op)
  | .binary op left right =>
    match ofTerm origin left with
    | .error e => .error e
    | .ok l => (ofTerm origin right).map fun r => .binary origin (operatorName op) l r
  | .blank label => .error (.blank label)
termination_by t.weight
decreasing_by all_goals simp only [Term.weight]; omega

/-- The code of elements. No elements stand for a missing value. -/
def ofElements (origin : Option Origin) (es : List Element) : Except NoCode Expr :=
  if es.isEmpty then .ok (.missing origin)
  else
    match Term.parse es with
    | .error e => .error (.malformed e)
    | .ok t => ofTerm origin t

end Flowchart.Code
