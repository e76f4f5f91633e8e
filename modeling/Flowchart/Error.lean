import Flowchart.Arith
import Flowchart.DataType
/-! Why reading, evaluating or running a diagram fails. Each failure is recorded as its cause; the
wording is in the `message` functions alone. -/
namespace Flowchart

/-- Why a sequence of characters or elements is not an expression. -/
inductive SyntaxError where
  | illegalCharacter (c : Char) (position : Nat)
  | unclosed (symbol : String)
  | unknownVariable (name : String)
  | unattached (name : String)
  | unknownOperator (symbol : String)
  | unexpectedEnd
  | unexpectedToken (token : String)
  | mismatched (expected found : String)
  | unclosedIndex
  | unclosedGroup
  | notArray (name : String)
  | notAccess
  deriving DecidableEq

def SyntaxError.message : SyntaxError → String
  | illegalCharacter c position =>
    "Illegal character '" ++ String.ofList [c] ++ "' at position " ++ toString position
  | unclosed symbol => "Expected '" ++ symbol ++ "'"
  | unknownVariable name => "Unknown variable \"" ++ name ++ "\""
  | unattached name => "Variable element \"" ++ name ++ "\" has no variable attached."
  | unknownOperator symbol => "Unknown operator '" ++ symbol ++ "'"
  | unexpectedEnd => "Unexpected end of expression"
  | unexpectedToken token => "Unexpected token '" ++ token ++ "'"
  | mismatched expected found => "Expected '" ++ expected ++ "' but found '" ++ found ++ "'"
  | unclosedIndex => "Expected ']' after index expression"
  | unclosedGroup => "Expected ')' after expression"
  | notArray name => "Variable \"" ++ name ++ "\" is not an array and cannot be indexed."
  | notAccess =>
    "Left side of array assignment must be an array access expression (e.g., arr[index])"

/-- Operands or results whose types do not fit. A missing type is that of an item of something
that was not declared as an array. -/
inductive Mismatch where
  | index (name : String) (got : Option DataType)
  | notOperand (got : Option DataType)
  | minusOperand (got : Option DataType)
  | plusOperand (got : Option DataType)
  | operands (operator : String) (left right : Option DataType)
  | logical (operator : String) (left right : Option DataType)
  | orderedBooleans (operator : String)
  | incomparable (left right : Option DataType)
  | unknownSource
  | assignment (got : DataType) (expected : Option DataType)
  | condition (got : Option DataType)
  | invalidArray (name : String)
  deriving DecidableEq

open DataType in
def Mismatch.message : Mismatch → String
  | index name got =>
    "Array index for \"" ++ name ++ "\" must be an integer, but got " ++ text got ++ "."
  | notOperand got =>
    "Logical NOT operator \"!\" can only be applied to booleans, not " ++ text got ++ "."
  | minusOperand got =>
    "Unary minus operator \"-\" can only be applied to numbers, not " ++ text got ++ "."
  | plusOperand got =>
    "Unary plus operator \"+\" can only be applied to numbers, not " ++ text got ++ "."
  | operands operator left right =>
    "Cannot apply operator \"" ++ operator ++ "\" to types " ++ text left ++ " and " ++ text right ++ "."
  | logical operator left right =>
    "Logical operator \"" ++ operator ++ "\" can only be applied to booleans, not " ++ text left
      ++ " and " ++ text right ++ "."
  | orderedBooleans operator =>
    "Cannot apply ordering operator \"" ++ operator ++ "\" to booleans."
  | incomparable left right =>
    "Cannot compare values of different types: " ++ text left ++ " and " ++ text right ++ "."
  | unknownSource => "Cannot assign value from an expression with unknown type."
  | assignment got expected =>
    "Type mismatch: Cannot assign a value of type '" ++ got.name ++ "' to a variable of type '"
      ++ text expected ++ "'."
  | condition got => "Condition must evaluate to a boolean, not " ++ text got ++ "."
  | invalidArray name => "Variable \"" ++ name ++ "\" is not a valid array."

/-- What is wrong with a diagram or with one of its stored parts. Stored parts are named by their
text in messages. -/
inductive DiagramError where
  | elementType (type : String)
  | equality (symbol : String)
  | leftNotSequence
  | leftNotVariable
  | notVariableElement
  | blockWithoutId (part : String)
  | arrowWithoutEnds (part : String)
  | notDiagram
  | noStart
  | noInput (name : String)
  | noCondition (label : String)
  | unsupportedBlock (kind : String)
  deriving DecidableEq

def DiagramError.message : DiagramError → String
  | elementType type => "Invalid element type: " ++ type
  | equality symbol => "Invalid equality: " ++ symbol
  | leftNotSequence => "leftSide must be a sequence of expression elements"
  | leftNotVariable => "leftSide must be a Variable"
  | notVariableElement => "Cannot set variable on non-variable element"
  | blockWithoutId part => "Node without id: " ++ part
  | arrowWithoutEnds part => "Edge without source or target: " ++ part
  | notDiagram => "Diagram must be an object with 'nodes' and 'edges'"
  | noStart => "No Start node found"
  | noInput name => "No input available for \"" ++ name ++ "\""
  | noCondition label => "Conditional block " ++ label ++ " has no expression"
  | unsupportedBlock kind => "Node '" ++ kind ++ "' not supported."

/-- The works that meet every node of a tree and fail at one they cannot use. -/
inductive Work where
  | evaluating
  | writing
  | drawing
  deriving DecidableEq

def Work.name : Work → String
  | evaluating => "Evaluator"
  | writing => "Emitter"
  | drawing => "ASTPrinter"

/-- Why a file cannot be written or read. -/
inductive FileFault where
  | missingFolder
  | isFolder
  | notFolder
  deriving DecidableEq

/-- Why an operation of the language fails. -/
inductive Error where
  /-- The elements do not form an expression. -/
  | malformed (e : SyntaxError)
  | mismatch (e : Mismatch)
  | divisionByZero
  | moduloByZero
  | outOfBounds (index : Value) (name : String) (size : Nat)
  | unassigned (name : String)
  | unconvertible (value target : String)
  | noTruthValue (value : String) (type : Option DataType)
  | unknownFunction (name : String)
  | unknownUnary (operator : String)
  | unsupportedRelation (operator : String)
  | emptyExpression
  | emptySide
  | wholeArray (name : String)
  | arrayLength (name : String) (expected : Option Nat) (got : Nat)
  | diagram (e : DiagramError)
  | stepLimit
  /-- A stored part lacks a key, or a type has no default value. -/
  | missingKey (key : String)
  /-- Arithmetic without a result. -/
  | fault (f : Fault)
  /-- A tree with a place that holds nothing the work can use. -/
  | blank (work : Work) (label : String)
  /-- The side of a condition that is searched is absent. -/
  | absentSide
  /-- A stored part is not an object. -/
  | notObject
  /-- A stored part is not a list. -/
  | notList
  /-- A stored part is not a text, and nothing but a text can be looked at there. -/
  | notText (key : String)
  /-- A stored part stands where an object is needed, and the part of it at the given position is
  no pair. -/
  | notPair (position length : Nat)
  /-- A stored size is not a number. -/
  | notSize
  /-- A stored size is infinite. -/
  | infiniteSize
  /-- A declaration names an unknown type. -/
  | unknownType (name : String)
  /-- A declared size is not an integer. -/
  | badInteger (text : String)
  /-- A table has rules in place of all its rows. -/
  | onlyRules
  /-- A message for the console closes a style that is not open. -/
  | unopenedStyle
  | file (f : FileFault)
  deriving Inhabited

namespace Error

/-- The number of characters of a text that a message quotes at most. -/
def quoteLimit : Nat := 200

def message : Error → String
  | malformed e => e.message
  | mismatch e => e.message
  | divisionByZero => "Division by zero."
  | moduloByZero => "Modulo by zero."
  | outOfBounds index name size =>
    "Array index " ++ index.display ++ " is out of bounds for \"" ++ name ++ "\" (size "
      ++ toString size ++ ")."
  | unassigned name => "Variable \"" ++ name ++ "\" does not have a value assigned."
  | unconvertible value target => "Cannot convert '" ++ value ++ "' to " ++ target ++ "."
  | noTruthValue value type =>
    "Cannot convert '" ++ value ++ "' of type " ++ DataType.text type ++ " to boolean."
  | unknownFunction name => "Unknown function: " ++ name
  | unknownUnary operator => "Unknown unary operator: " ++ operator
  | unsupportedRelation operator => "Unsupported equality operator: " ++ operator
  | emptyExpression => "Expression is empty and cannot be evaluated."
  | emptySide => "Conditional expression sides cannot be empty."
  | wholeArray name =>
    "Cannot assign directly to array variable \"" ++ name
      ++ "\". Use array index access instead (e.g., " ++ name ++ "[index] = value)."
  | arrayLength name expected got =>
    "Array \"" ++ name ++ "\" has incorrect length: expected "
      ++ ((expected.map toString).getD "None") ++ ", but got " ++ toString got ++ "."
  | diagram e => e.message
  | stepLimit => "Execution exceeded maximum steps (possible infinite loop)."
  | missingKey key => key
  | fault f => f.message
  | blank work label => work.name ++ " no sabe visitar " ++ label
  | absentSide => ""
  | notObject => ""
  | notList => ""
  | notText _ => ""
  | notPair position length =>
    "dictionary update sequence element #" ++ toString position ++ " has length " ++ toString length
      ++ "; 2 is required"
  | notSize => ""
  | infiniteSize => "cannot convert float infinity to integer"
  | unknownType name => "tipo desconocido: " ++ name
  | badInteger text =>
    "invalid literal for int() with base 10: " ++ String.ofList ((Text.inspect text).toList.take quoteLimit)
  | onlyRules => ""
  | unopenedStyle => ""
  | file _ => ""

/-- The families of failures that a report tells apart. `outside` holds the failures that the
language does not account for. -/
inductive Family where
  | reading
  | evaluation
  | building
  | outside
  deriving DecidableEq

/-- The family of a failure. -/
def family : Error → Family
  | malformed _ => .reading
  | diagram _ => .building
  | stepLimit => .building
  | missingKey _ => .outside
  | fault _ => .outside
  | blank .. => .outside
  | absentSide => .outside
  | notObject => .outside
  | notList => .outside
  | notText _ => .outside
  | notPair .. => .outside
  | notSize => .outside
  | infiniteSize => .outside
  | unknownType _ => .outside
  | badInteger _ => .outside
  | onlyRules => .outside
  | unopenedStyle => .outside
  | file _ => .outside
  | _ => .evaluation

end Error

/-- Reports a fault of the arithmetic as a failure. -/
def Error.ofFault {α : Type} : Except Fault α → Except Error α
  | .ok a => .ok a
  | .error f => .error (.fault f)

/-- Reports a reading error as a failure. -/
def Error.ofSyntax {α : Type} : Except SyntaxError α → Except Error α
  | .ok a => .ok a
  | .error e => .error (.malformed e)

end Flowchart
