import Flowchart.Number.Shortest
import Flowchart.Text.Quoted
/-! Values of the flowchart language and their three texts: `shown` is what a diagram prints,
`display` is how a message names a value, and `inspect` is a message's form of a value inside an
array or a tree, where texts are quoted. -/
namespace Flowchart

/-- A value at run time. Integers are unbounded; `nothing` is the value of what was never set. A
`nan` is a float that is no number and that a store keeps: it has no value to be compared by, but
inside arrays two of them are the same when they have the same mark. An `array` is what a variable
holds, a `list` is a sequence inside an array or in a tree. -/
inductive Value where
  | int (n : Int)
  | float (x : Float)
  | nan (mark : Nat)
  | bool (b : Bool)
  | text (s : String)
  | nothing
  | array (items : List Value)
  | list (items : List Value)
  deriving Inhabited

namespace Value

/-- The items of an array in a message: round brackets, and a comma also after a single item. -/
def tuple : List String → String
  | [item] => "(" ++ item ++ ",)"
  | items => "(" ++ ", ".intercalate items ++ ")"

mutual
/-- The form of a value that keeps kinds apart: texts are quoted, floats have a point. -/
def inspect : Value → String
  | int n => toString n
  | float x => Shortest.text x
  | bool b => if b then "True" else "False"
  | text s => Text.inspect s
  | nothing => "None"
  | nan _ => Shortest.text Double.nan
  | array items => tuple (inspectItems items)
  | list items => "[" ++ ", ".intercalate (inspectItems items) ++ "]"
/-- The inspected items of an array or a list. -/
def inspectItems : List Value → List String
  | [] => []
  | v :: rest => v.inspect :: inspectItems rest
end

/-- A value in a message: a text stands for itself. -/
def display : Value → String
  | text s => s
  | v => v.inspect

mutual
/-- What a diagram prints for a value: whole floats lose their point. Integers are written with all their digits; a
bound on how many digits are converted, beyond which printing would fail, is left out. -/
def shown : Value → String
  | bool b => if b then "true" else "false"
  | float x =>
    match Double.toInt? x with
    | some n => toString n
    | none => Shortest.text x
  | nan _ => Shortest.text Double.nan
  | array items => "[" ++ ", ".intercalate (shownItems items) ++ "]"
  | list items => "[" ++ ", ".intercalate (shownItems items) ++ "]"
  | int n => toString n
  | text s => s
  | nothing => "None"
/-- The shown items of an array or a list. -/
def shownItems : List Value → List String
  | [] => []
  | v :: rest => v.shown :: shownItems rest
end

mutual
/-- A value as quoted data. -/
def quoted : Value → String
  | bool b => if b then "true" else "false"
  | nothing => "null"
  | int n => toString n
  | float x =>
    match Double.parts x with
    | .nan => "NaN"
    | .infinite negative => if negative then "-Infinity" else "Infinity"
    | .finite .. => Shortest.text x
  | nan _ => "NaN"
  | text s => Text.quoted s
  | array items => "[" ++ ", ".intercalate (quotedItems items) ++ "]"
  | list items => "[" ++ ", ".intercalate (quotedItems items) ++ "]"
/-- The quoted items of an array or a list. -/
def quotedItems : List Value → List String
  | [] => []
  | v :: rest => v.quoted :: quotedItems rest
end

/-- Whether a value counts as true where a truth value is asked for. -/
def isTrue : Value → Bool
  | bool b => b
  | int n => n != 0
  | float x => x != 0.0
  | nan _ => true
  | text s => s != ""
  | nothing => false
  | array items => !items.isEmpty
  | list items => !items.isEmpty

/-- The items of an array or a list, none for other values. -/
def items? : Value → Option (List Value)
  | array items => some items
  | list items => some items
  | _ => none

/-- A value as a variable holds it: a list becomes an array. -/
def held : Value → Value
  | list items => array items
  | v => v

/-- A value as data gives it: an array becomes a list. -/
def loose : Value → Value
  | array items => list items
  | v => v

mutual
/-- The least number above all marks in a value. -/
def nextMark : Value → Nat
  | nan mark => mark + 1
  | array items => nextMarkOf items
  | list items => nextMarkOf items
  | _ => 0
/-- The least number above all marks in several values. -/
def nextMarkOf : List Value → Nat
  | [] => 0
  | v :: rest => max v.nextMark (nextMarkOf rest)
end

mutual
/-- Gives every float in a value that is no number a mark of its own, from `next` on; the other
result is the mark that comes next. -/
def marked (next : Nat) : Value → Value × Nat
  | float x => if Double.isNan x then (nan next, next + 1) else (float x, next)
  | array items =>
    let (items, next) := markedItems next items
    (array items, next)
  | list items =>
    let (items, next) := markedItems next items
    (list items, next)
  | v => (v, next)
/-- Gives the floats in several values that are no numbers marks of their own. -/
def markedItems (next : Nat) : List Value → List Value × Nat
  | [] => ([], next)
  | v :: rest =>
    let (v, next) := v.marked next
    let (rest, next) := markedItems next rest
    (v :: rest, next)
end

end Value

end Flowchart
