/-! Searching texts. -/
namespace Flowchart.Text

/-- Whether characters occur in a row among others. -/
def occursIn (part : List Char) : List Char → Bool
  | [] => part.isEmpty
  | c :: rest => part.isPrefixOf (c :: rest) || occursIn part rest

/-- Whether a text occurs in another. -/
def occurs (part s : String) : Bool :=
  occursIn part.toList s.toList

end Flowchart.Text
