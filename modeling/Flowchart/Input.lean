import Flowchart.Eval
/-! Values from the keyboard. A text is read as the type of the variable asks; the value is then
handed on as a literal, which is read again in the assignment. -/
namespace Flowchart.Input

/-- The number that a text starts with, which the type with the given name needs. -/
def number (text typeName : String) : Except Error Float :=
  match Eval.leadingNumber text with
  | .error e => .error e
  | .ok none => .error (.unconvertible text typeName)
  | .ok (some x) => .ok x

/-- The value that a text stands for as an input of the given type. -/
def convert (text : String) (type : DataType) : Except Error Value :=
  match type with
  | .string => .ok (.text text)
  | .boolean =>
    let word := String.ofList ((Text.trimChars text.toList).map Char.toLower)
    if word == "true" then .ok (.bool true)
    else if word == "false" then .ok (.bool false)
    else (number text "boolean").map fun x => .bool (x != 0.0)
  | .integer => do
    let x ← number text "integer"
    let n ← Eval.toInteger (.real x) text
    return .int n
  | type => (number text type.name).map Value.float

/-- A value as the text of a literal. -/
def literal : Value → String
  | .bool b => if b then "true" else "false"
  | .text s => "\"" ++ s ++ "\""
  | v => v.inspect

end Flowchart.Input
