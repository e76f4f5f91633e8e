import Flowchart.DataType
import Flowchart.Number.Decimal
import Flowchart.Value
/-! What a literal's text denotes: a truth value, a quoted text, a number, or else the text itself.
Numbers are read as doubles, and one without a fraction counts as an integer. -/
namespace Flowchart.Literal
open Flowchart.Text

/-- A value together with its type. -/
structure Typed where
  value : Value
  type : DataType

/-- The value of a number's text: an integer when the double has no fraction. -/
def ofDouble (x : Float) : Typed :=
  match Double.toInt? x with
  | some n => ⟨.int n, .integer⟩
  | none => ⟨.float x, .float⟩

/-- The text between two equal quotes, if that is what the characters are. -/
def unquoted? : List Char → Option (List Char)
  | quote :: rest =>
    if (quote == '"' || quote == '\'') && rest.getLast? == some quote then some rest.dropLast else none
  | [] => none

/-- The value and the type of a literal by its form. Blanks around it do not matter, except that a
text without a form of its own stands for itself as it is. -/
def infer (s : String) : Typed :=
  let cs := trimChars s.toList
  let small := String.ofList (cs.map Char.toLower)
  if small == "true" then ⟨.bool true, .boolean⟩
  else if small == "false" then ⟨.bool false, .boolean⟩
  else
    match unquoted? cs with
    | some inside => ⟨.text (String.ofList inside), .string⟩
    | none =>
      match Decimal.ofChars? cs with
      | some x => ofDouble x
      | none => ⟨.text s, .string⟩

end Flowchart.Literal
