import Flowchart.Assign
import Flowchart.Journal
/-! The notes that reading and evaluating expressions leave: one for every sequence of elements that
was read, in the order of reading, and one for every array that was given default items. Work that
fails leaves the notes of what was done before. -/
namespace Flowchart

/-- Whether work came to its end. -/
def done {ε α : Type} : Except ε α → Bool
  | .ok _ => true
  | .error _ => false

/-- The note on a sequence of elements that was read. -/
def readingNote (es : List Element) : List Note :=
  match Term.parse es with
  | .ok t => [.parsed (es.map Element.label) t.form]
  | .error _ => []

mutual
/-- The notes on the arguments inside an element. -/
def Element.tokenNotes : Element → List Note
  | .function _ _ argument => argument.parseNotes
  | _ => []
/-- The notes on the arguments inside several elements. -/
def Element.tokensNotes : List Element → List Note
  | [] => []
  | e :: rest => e.tokenNotes ++ if done e.token then Element.tokensNotes rest else []
/-- The notes on reading the right side of an expression. -/
def Expression.parseNotes : Expression → List Note
  | .value right => Element.tokensNotes right ++ readingNote right
  | .assignment _ right => Element.tokensNotes right ++ readingNote right
  | .condition _ _ right => Element.tokensNotes right ++ readingNote right
  | .halfCondition _ right => Element.tokensNotes right ++ readingNote right
end

/-- The notes on reading elements: those on the arguments, then the one on the whole. -/
def Term.parseNotes (es : List Element) : List Note :=
  Element.tokensNotes es ++ readingNote es

/-- The notes on evaluating a term: those on the indexes that its variables carry. -/
def Eval.notes (s : Store) (t : Term) : List Note :=
  match t with
  | .named _ v =>
    if v.isIndexed && (s.get? v.id).isSome then
      Term.parseNotes v.index ++
        match read : Term.parse v.index with
        | .error _ => []
        | .ok index =>
          have := Term.weight_parse_index read
          Eval.notes s index
    else []
  | .access _ v index => if (s.get? v.id).isSome then Eval.notes s index else []
  | .call _ argument => Eval.notes s argument
  | .unary _ operand => Eval.notes s operand
  | .binary _ left right =>
    Eval.notes s left ++ if done (evaluate s left) then Eval.notes s right else []
  | _ => []
termination_by t.weight
decreasing_by all_goals simp only [Term.weight]; omega

/-- The notes on reading and evaluating elements. -/
def elementsNotes (s : Store) (es : List Element) : List Note :=
  Term.parseNotes es ++
    match Term.parse es with
    | .ok t => Eval.notes s t
    | .error _ => []

/-- The notes on the value of elements. -/
def calculateNotes (s : Store) (es : List Element) : List Note :=
  if es.isEmpty then [] else elementsNotes s es

namespace Expression

/-- The notes on the truth of a condition. -/
def holdsNotes (s : Store) (e : Expression) : List Note :=
  match e with
  | .condition _ left right =>
    if left.isEmpty || right.isEmpty then []
    else
      elementsNotes s left ++
        if done (evaluateElements s left) then elementsNotes s right else []
  | .halfCondition .. => []
  | _ => elementsNotes s e.right

/-- The notes on writing an item of an array. -/
def assignItemNotes (s : Store) (target : Variable) (right : List Element) : List Note :=
  Term.parseNotes (accessElements target) ++
    match Term.parse (accessElements target) with
    | .ok (.access _ _ index) =>
      (if (s.get? target.id).isNone then [.arrayDefaulted target.name] else []) ++
        match currentArray s target.base with
        | .error _ => []
        | .ok (current, s) =>
          match arrayItems current target.name with
          | .error _ => []
          | .ok items =>
            Eval.notes s index ++
              if done ((Eval.evaluate s index).bind (position target.name items.length)) then
                calculateNotes s right
              else []
    | _ => []

/-- The notes on an assignment. -/
def assignNotes (s : Store) (e : Expression) : List Note :=
  match e with
  | .assignment target right =>
    if target.isArray then if target.isIndexed then assignItemNotes s target right else []
    else calculateNotes s right
  | _ => []

end Expression

end Flowchart
