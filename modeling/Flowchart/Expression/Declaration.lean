import Flowchart.Expression.Basic
import Flowchart.Number.Decimal
/-! Declarations written as text: `name:type`, or `name:subtype[size]` for an array. Without a type
an integer is declared. -/
namespace Flowchart.Variable

/-- What stands before the first `mark` and what stands behind it; all of it and nothing when there
is no mark. -/
def splitAt (mark : Char) (cs : List Char) : List Char × List Char :=
  (cs.takeWhile (· != mark), (cs.dropWhile (· != mark)).drop 1)

/-- The variable that a text declares, with the id `v` and the given number. -/
def ofDeclaration (text : String) (number : Int) : Except Error Variable :=
  let (name, written) := splitAt ':' text.toList
  let type := if written.isEmpty then "integer".toList else written
  let id := "v" ++ toString number
  if type.getLast? == some ']' && type.contains '[' then
    let (subtype, size) := splitAt '[' type.dropLast
    match Decimal.integer? (String.ofList size) with
    | none => .error (.badInteger (String.ofList size))
    | some n =>
      .ok (make id .array (String.ofList name) (some "") (some (String.ofList subtype)) (some n) [])
  else if knownTypeNames.contains (String.ofList type) then
    .ok (make id (.ofName (String.ofList type)) (String.ofList name) (some "") none none [])
  else .error (.unknownType (String.ofList type))

/-- The variables that several texts declare, numbered from `first`. -/
def ofDeclarations (first : Int) : List String → Except Error (List Variable)
  | [] => .ok []
  | text :: rest => do
    let v ← ofDeclaration text first
    let vs ← ofDeclarations (first + 1) rest
    return v :: vs

end Flowchart.Variable
