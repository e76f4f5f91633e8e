import Flowchart.Text.Blank
/-! The language of drawings: a directed graph as a list of statements, one to a line. Names and
values that are not plain words or numbers are quoted. -/
namespace Flowchart.Dot

/-- The words with a meaning of their own, in any case. -/
def keywords : List String :=
  ["node", "edge", "graph", "digraph", "subgraph", "strict"]

def isLetter (c : Char) : Bool :=
  c.isAlpha || c == '_'

def isDigit (c : Char) : Bool :=
  '0' ≤ c && c ≤ '9'

/-- A word: a letter, then letters and digits. -/
def isWord : List Char → Bool
  | c :: rest => isLetter c && rest.all fun c => isLetter c || isDigit c
  | [] => false

/-- A number: digits with an optional point and further digits, or a point and digits, with an
optional minus sign. -/
def isNumeral (cs : List Char) : Bool :=
  let unsigned := if cs.head? == some '-' then cs.tail else cs
  let whole := unsigned.takeWhile isDigit
  match unsigned.dropWhile isDigit with
  | [] => !whole.isEmpty
  | c :: fraction =>
    c == '.' && fraction.all isDigit && (!whole.isEmpty || !fraction.isEmpty)

/-- Markup in angle brackets is written as it is. -/
def isMarkup (cs : List Char) : Bool :=
  2 ≤ cs.length && cs.head? == some '<' && cs.getLast? == some '>'

/-- Escapes quotes that no backslash escapes yet; `odd` says that an odd number of backslashes comes
before. -/
def escapeQuotes : (odd : Bool) → List Char → List Char
  | _, [] => []
  | odd, c :: rest =>
    if c == '"' then (if odd then ['"'] else ['\\', '"']) ++ escapeQuotes false rest
    else c :: escapeQuotes (c == '\\' && !odd) rest

/-- Whether a text can stand without quotes: markup, or a word or a number that is no keyword. One
line feed at its end does not count, except that it makes a keyword an ordinary word. -/
def isPlain (cs : List Char) : Bool :=
  let line := Text.withoutLineFeed cs
  let isKeyword := keywords.contains (String.ofList (cs.map Char.toLower))
  isMarkup line || ((isWord line || isNumeral line) && !isKeyword)

/-- A name or a value as it is written. -/
def quote (s : String) : String :=
  let cs := s.toList
  if isPlain cs then s
  else String.ofList ('"' :: escapeQuotes false cs ++ ['"'])

/-- Cuts a text at its first colon. -/
def splitColon (cs : List Char) : List Char × List Char :=
  (cs.takeWhile (· != ':'), (cs.dropWhile (· != ':')).drop 1)

/-- The end of an arrow: a node, with a place on it and a side behind colons. -/
def quoteEnd (s : String) : String :=
  let (node, rest) := splitColon s.toList
  let (place, side) := splitColon rest
  let parts := [quote (String.ofList node)]
    ++ (if rest.isEmpty then [] else [quote (String.ofList place)])
    ++ (if side.isEmpty then [] else [String.ofList side])
  ":".intercalate parts

/-- A statement of a drawing. -/
inductive Statement where
  /-- Attributes for all nodes or all arrows that follow. -/
  | defaults (kind : String) (attributes : List (String × String))
  | node (id label : String) (attributes : List (String × String))
  | arrow (source target : String) (label : Option String) (attributes : List (String × String))

/-- Attributes in square brackets, sorted by name behind the label; nothing when there are none. -/
def attributeText (label : Option String) (attributes : List (String × String)) : String :=
  let sorted := attributes.mergeSort fun a b => decide (a.1 ≤ b.1)
  let parts := (label.map fun s => "label=" ++ quote s).toList
    ++ sorted.map fun (name, value) => name ++ "=" ++ quote value
  if parts.isEmpty then "" else " [" ++ " ".intercalate parts ++ "]"

namespace Statement

def text : Statement → String
  | defaults kind attributes => kind ++ attributeText none attributes
  | node id label attributes => quote id ++ attributeText (some label) attributes
  | arrow source target label attributes =>
    quoteEnd source ++ " -> " ++ quoteEnd target ++ attributeText label attributes

end Statement

/-- A drawing. -/
structure Drawing where
  name : String
  statements : List Statement

/-- The text of a drawing. -/
def Drawing.text (d : Drawing) : String :=
  "digraph " ++ d.name ++ " \x7b\n"
    ++ String.join (d.statements.map fun s => "\t" ++ s.text ++ "\n") ++ "\x7d\n"

end Flowchart.Dot
