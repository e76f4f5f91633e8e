import Flowchart.Console.Codes
import Flowchart.Error
import Flowchart.Number.Decimal
import Flowchart.Number.Shortest
import Flowchart.Text.Lowercase
/-! Tables drawn as a grid. Columns of numbers stand to the right, decimals with their points below
each other; other columns stand to the left without blanks around their cells. Control sequences in
cells take no room. Cells may have several lines, and a row may be a rule. -/
namespace Flowchart

/-- A table of texts. -/
structure Table where
  headers : List String
  rows : List (List String)

namespace Table

/-- What the cells of a column are, the more general last. -/
inductive Kind where
  | blank
  | truth
  | whole
  | decimal
  | words
  deriving DecidableEq

namespace Kind

def rank : Kind → Nat
  | blank => 0
  | truth => 1
  | whole => 2
  | decimal => 3
  | words => 4

/-- The more general of two kinds. -/
def join (a b : Kind) : Kind :=
  if a.rank < b.rank then b else a

/-- Whether a column of this kind holds numbers. -/
def isNumeric (k : Kind) : Bool :=
  k == whole || k == decimal

end Kind

/-- Whether a cell is a number; an infinite one has to be spelled out. -/
def isNumber (cell : String) : Bool :=
  match Decimal.real? cell with
  | none => false
  | some x => Double.isFinite x || ["inf", "-inf", "nan"].contains (Text.lower cell)

/-- A digit of the basic alphabet. -/
def isDigit (c : Char) : Bool :=
  '0' ≤ c && c ≤ '9'

/-- Groups of three digits, each behind a comma. -/
def isGroups : List Char → Bool
  | [] => true
  | ',' :: a :: b :: c :: rest => isDigit a && isDigit b && isDigit c && isGroups rest
  | _ => false

/-- Whether a cell is a number with its digits in groups of three. The whole part may be absent when
there are digits behind the point, and both may be absent; a line feed may stand at the end. -/
def isGrouped (cell : String) : Bool :=
  let cs := cell.toList
  let cs := if cs.getLast? == some '\n' then cs.dropLast else cs
  let whole := cs.takeWhile (· != '.')
  let fraction := (cs.dropWhile (· != '.')).drop 1
  if whole.isEmpty then fraction.all isDigit && (cs.isEmpty || !fraction.isEmpty)
  else
    let unsigned := if whole.head? == some '+' || whole.head? == some '-' then whole.tail else whole
    let first := (unsigned.takeWhile isDigit).length
    1 ≤ first && first ≤ 3 && isGroups (unsigned.dropWhile isDigit) && fraction.all isDigit

/-- What a cell is. -/
def kindOf (cell : String) : Kind :=
  let cell := Codes.strip cell
  if cell.isEmpty then .blank
  else if cell == "True" || cell == "False" then .truth
  else if (Decimal.integer? cell).isSome || (isGrouped cell && !cell.toList.contains '.') then .whole
  else if isNumber cell || isGrouped cell then .decimal
  else .words

/-- The room a number takes from its point on, or from its exponent mark when it has no point. -/
def tail (cell : String) : Nat :=
  let behind (isMark : Char → Bool) : Nat :=
    if cell.toList.any isMark then (cell.toList.reverse.takeWhile (!isMark ·)).length + 1 else 0
  if (Decimal.integer? cell).isSome || !(isNumber cell || isGrouped cell) then 0
  else if cell.toList.contains '.' then behind (· == '.')
  else behind fun c => c == 'e' || c == 'E'

/-- Whether lines end at a character; a carriage return and a line feed in a row are one end. -/
def isLineEnd (c : Char) : Bool :=
  [10, 11, 12, 13, 28, 29, 30, 0x85, 0x2028, 0x2029].contains c.toNat

/-- The lines of a text; `line` holds what was read of the current one, backwards. -/
def linesFrom (line : List Char) : List Char → List String
  | [] => if line.isEmpty then [] else [String.ofList line.reverse]
  | '\r' :: '\n' :: rest => String.ofList line.reverse :: linesFrom [] rest
  | c :: rest =>
    if isLineEnd c then String.ofList line.reverse :: linesFrom [] rest
    else linesFrom (c :: line) rest

/-- The pieces between carriage returns and line feeds, by which the room of a cell is measured;
`piece` holds what was read of the current one, backwards. -/
def piecesFrom (piece : List Char) : List Char → List String
  | [] => [String.ofList piece.reverse]
  | c :: rest =>
    if c == '\n' || c == '\r' then String.ofList piece.reverse :: piecesFrom [] rest
    else piecesFrom (c :: piece) rest

/-- Puts one text in place of another wherever that occurs; `skip` characters of an occurrence are
still to be left out. -/
def replaceFrom (old new : List Char) : (skip : Nat) → List Char → List Char
  | _, [] => []
  | skip + 1, _ :: rest => replaceFrom old new skip rest
  | 0, c :: rest =>
    if old.isPrefixOf (c :: rest) then new ++ replaceFrom old new (old.length - 1) rest
    else c :: replaceFrom old new 0 rest

/-- How the cells of a table are set: whether control sequences occur in it, and whether some cell
has several lines. -/
structure Setting where
  coded : Bool
  broken : Bool

/-- The decimal that a cell is written as. What is no decimal after all stays as it is. -/
def decimalText (coded : Bool) (cell : String) : String :=
  if coded then
    let shown := Codes.strip cell
    match Decimal.real? shown with
    | some x =>
      String.ofList (replaceFrom shown.toList (Shortest.compactText x).toList 0 cell.toList)
    | none => cell
  else
    match Decimal.real? (String.ofList (cell.toList.filter (· != ','))) with
    | some x => Shortest.compactText x
    | none => cell

/-- A colour code with the number behind it, cut off the start. Something other than a printable
character of the basic alphabet has to follow. -/
def coloured? : List Char → Option (List Char × List Char × List Char)
  | '\x1b' :: '[' :: rest =>
    let colour := rest.takeWhile isDigit
    let rest := rest.dropWhile isDigit
    let mark := rest.takeWhile fun c => c == 'm' || c == 'M'
    let rest := rest.dropWhile fun c => c == 'm' || c == 'M'
    let number := rest.takeWhile fun c => isDigit c || c == '.'
    match rest.dropWhile fun c => isDigit c || c == '.' with
    | c :: after =>
      if !colour.isEmpty && !mark.isEmpty && !number.isEmpty && (!Codes.within 0x20 0x7e c || c == '\\') then
        some ('\x1b' :: '[' :: colour ++ mark, number, c :: after)
      else none
    | [] => none
  | _ => none

/-- The first coloured number in a text with its colour code and what follows it. -/
def firstColoured? : List Char → Option (List Char × List Char × List Char)
  | [] => none
  | c :: rest => (coloured? (c :: rest)).or (firstColoured? rest)

/-- The whole number that a cell is written as: a coloured one loses leading zeros, and what stands
before its colour code. -/
def wholeText (cell : String) : String :=
  match firstColoured? cell.toList with
  | some (code, number, rest) =>
    if number.all isDigit then
      String.ofList (code ++ (toString (Text.digitsValue number)).toList ++ rest)
    else cell
  | none => cell

/-- The greatest of some numbers. -/
def greatest (ns : List Nat) : Nat :=
  ns.foldl max 0

namespace Setting

/-- The part of a text that is shown. -/
def shown (s : Setting) (text : String) : String :=
  if s.coded then Codes.strip text else text

/-- The room that a line takes. -/
def room (s : Setting) (line : String) : Nat :=
  (s.shown line).length

/-- The pieces by which the room of a cell is measured. -/
def pieces (s : Setting) (cell : String) : List String :=
  if s.broken then piecesFrom [] cell.toList else [cell]

/-- The cells of a column of the given kind as they are written, points below each other. -/
def written (s : Setting) (kind : Kind) (cells : List String) : List String :=
  if kind.isNumeric then
    let texts := cells.map (if kind = .decimal then decimalText s.coded else wholeText)
    let widest := greatest (texts.map fun text => tail (s.shown text))
    texts.map fun text => text.pushn ' ' (widest - tail (s.shown text))
  else cells.map Text.trim

end Setting

/-- A text filled up with blanks to a length, on the left if it stands to the right. -/
def fill (toRight : Bool) (length : Nat) (s : String) : String :=
  if toRight then "".pushn ' ' (length - s.length) ++ s else s.pushn ' ' (length - s.length)

/-- The lines of a cell, filled up to a width. Where control sequences occur, the room that they do
not take is measured piece by piece and added to the lines in their order. -/
def Setting.filled (s : Setting) (toRight : Bool) (width : Nat) (cell : String) : List String :=
  let length (piece : String) : Nat := width + (piece.length - s.room piece)
  if !s.broken then [fill toRight (length cell) cell]
  else if !s.coded then (linesFrom [] cell.toList).map (fill toRight width)
  else List.zipWith (fun line piece => fill toRight (length piece) line)
    (linesFrom [] cell.toList) (s.pieces cell)

/-- A column: its header, the lines of its cells, its width, and whether it stands to the right. -/
structure Column where
  header : String
  cells : List (List String)
  width : Nat
  toRight : Bool

/-- The column under a header. -/
def column (s : Setting) (header : String) (cells : List String) : Column :=
  let kind := (cells.map kindOf).foldl Kind.join .truth
  let texts := s.written kind cells
  let least := header.length + 2
  let width := max least (greatest ((texts.map s.pieces).flatten.map s.room))
  let lines := texts.map (s.filled kind.isNumeric width)
  ⟨header, lines, max least (greatest (lines.flatten.map s.room)), kind.isNumeric⟩

/-- A line between two rows. -/
def border (mark : Char) (columns : List Column) : String :=
  "+" ++ String.join (columns.map fun c => "".pushn mark (c.width + 2) ++ "+") ++ "\n"

/-- A line of a row. -/
def rowLine (cells : List String) : String :=
  "|" ++ String.join (cells.map fun s => " " ++ s ++ " |") ++ "\n"

/-- The row with the given number; it has as many lines as its tallest cell. -/
def row (columns : List Column) (i : Nat) : String :=
  let cells := columns.map fun c => (c, c.cells.getD i [])
  let tallest := greatest (cells.map fun (_, lines) => lines.length)
  String.join ((List.range tallest).map fun k =>
    rowLine (cells.map fun (c, lines) => lines.getD k ("".pushn ' ' c.width)))

/-- The mark of a rule in place of a row. -/
def ruleMark : String := "\x01"

/-- Whether a row is a rule: one of its first two cells holds nothing but the mark. -/
def isRule (cells : List String) : Bool :=
  (cells.take 2).any fun cell => Text.trim cell == ruleMark

/-- The rows before the last, each with the line below it. A rule is nothing but that line; `i` rows
that are no rules came before. -/
def upperRows (columns : List Column) (i : Nat) : List (List String) → String
  | [] => ""
  | cells :: rest =>
    if isRule cells then border '-' columns ++ upperRows columns i rest
    else row columns i ++ border '-' columns ++ upperRows columns (i + 1) rest

/-- The last row. A rule in its place shows its mark. -/
def lastRow (s : Setting) (columns : List Column) (i : Nat) (cells : List String) : String :=
  if !isRule cells then row columns i
  else if s.broken then rowLine [ruleMark]
  else "|" ++ ruleMark ++ "|\n"

/-- The rows of a table with the lines below them. There are no more rows above the last than rows
that are no rules, and a table of rules alone cannot be drawn. -/
def body (s : Setting) (columns : List Column) (rows : List (List String)) : Except Error String :=
  match rows.getLast? with
  | none => .ok (border '-' columns)
  | some last =>
    let count := (rows.filter (!isRule ·)).length
    if count = 0 then .error .onlyRules
    else
      .ok (upperRows columns 0 (rows.dropLast.take count) ++ lastRow s columns (count - 1) last
        ++ border '-' columns)

/-- The table as a grid. -/
def grid (t : Table) : Except Error String :=
  let rows := t.rows.filter (!isRule ·)
  let all := ("\t".intercalate (t.headers ++ rows.flatten)).toList
  let s : Setting := ⟨Codes.anyIn all, all.any fun c => c == '\n' || c == '\r'⟩
  let columns := t.headers.zipIdx.map fun (header, i) => column s header (rows.map (·.getD i ""))
  let header := rowLine (columns.map fun c => fill c.toRight c.width c.header)
  (body s columns t.rows).map fun body =>
    border '-' columns ++ header ++ border '=' columns ++ body

end Table

end Flowchart
