import Flowchart.Eval
/-! Expressions at work: the value of one, the truth of a condition, and the binding that an
assignment makes. Results are fitted to the type that is expected: integers and floats are turned
into each other, everything else has to have the type already. -/
namespace Flowchart

/-- Fits a value to an expected type. Where an array is expected the value is fitted to an item of
the given subtype. -/
def coerce (v : TypedValue) (expected : DataType) (subtype : Option DataType) : Except Error Value :=
  match v.type with
  | none => .error (.mismatch .unknownSource)
  | some type =>
    if !type.isKnown then .error (.mismatch .unknownSource)
    else if expected = type then .ok v.value
    else if expected = .float ∧ type = .integer then Error.ofFault v.value.toFloat
    else if expected = .integer ∧ type = .float then
      match v.value.number? with
      | none => .error (.fault .unsuited)
      | some n => (Eval.toInteger n v.value.display).map Value.int
    else if expected = .array then
      if subtype = some type then .ok v.value else .error (.mismatch (.assignment type subtype))
    else .error (.mismatch (.assignment type (some expected)))

/-- Reads and evaluates elements. -/
def evaluateElements (s : Store) (es : List Element) : Except Error TypedValue :=
  match Term.parse es with
  | .error e => .error (.malformed e)
  | .ok t => Eval.evaluate s t

/-- The value of elements, fitted to a type where one is expected, as the store can keep it. -/
def calculate (s : Store) (es : List Element) (expected subtype : Option DataType) :
    Except Error Value :=
  if es.isEmpty then .error .emptyExpression
  else
    match evaluateElements s es with
    | .error e => .error e
    | .ok v =>
      match expected with
      | none => .ok (s.keep v.value)
      | some expected => (coerce v expected subtype).map s.keep

namespace Expression

/-- The value of the right side, fitted to a type where one is expected. -/
def calculate (s : Store) (e : Expression) (expected subtype : Option DataType) : Except Error Value :=
  Flowchart.calculate s e.right expected subtype

/-- The verdict of a condition. An expression without a relation has to be of the type of truth
values itself; what it holds is the verdict. -/
def verdict (s : Store) (e : Expression) : Except Error Value :=
  match e with
  | .condition relation left right =>
    if left.isEmpty || right.isEmpty then .error .emptySide
    else
      match evaluateElements s left with
      | .error e => .error e
      | .ok l =>
        match evaluateElements s right with
        | .error e => .error e
        | .ok r => (Eval.compare (.relation relation) l r).map Value.bool
  | .halfCondition .. => .error .emptySide
  | _ =>
    match evaluateElements s e.right with
    | .error e => .error e
    | .ok v =>
      if v.type = some .boolean then .ok v.value
      else .error (.mismatch (.condition v.type))

/-- The truth of a condition. -/
def holds (s : Store) (e : Expression) : Except Error Bool :=
  (e.verdict s).map Value.isTrue

/-- The elements of an array access: the array, its index in brackets. -/
def accessElements (target : Variable) : List Element :=
  .attached "lhs" target.base :: .operator "lhs-open" "[" :: target.index
    ++ [.operator "lhs-close" "]"]

/-- The binding of an array before one of its items is written, and the store that holds it. An
array that was never written starts with default items. -/
def currentArray (s : Store) (array : Variable) : Except Error (Binding × Store) :=
  match s.get? array.id with
  | some b => .ok (b, s)
  | none => (Binding.ofVariable array none).map fun b => (b, s.insert b)

/-- The items of a bound array, which have to be as many as declared. -/
def arrayItems (b : Binding) (name : String) : Except Error (List Value) :=
  match b.value.items? with
  | none => .error (.mismatch (.invalidArray name))
  | some items =>
    if b.target.size? = some items.length then .ok items
    else .error (.arrayLength name b.target.size? items.length)

/-- The position that an evaluated index selects among `size` items. A double without a position
stands for itself and fails when it is used. -/
def position (name : String) (size : Nat) (index : TypedValue) : Except Error (Option Nat) :=
  if index.type = some .integer then
    match index.value.number? with
    | none => .error (.fault .unsuited)
    | some (.int n) =>
      if n < 0 ∨ n ≥ size then .error (.outOfBounds index.value name size) else .ok (some n.toNat)
    | some (.real x) =>
      if Eval.isOutside x size then .error (.outOfBounds index.value name size) else .ok none
  else .error (.mismatch (.index name index.type))

/-- The binding that an assignment to an item of an array makes: the array with one item
replaced. -/
def assignItem (s : Store) (target : Variable) (right : List Element) : Except Error Binding :=
  match Term.parse (accessElements target) with
  | .error e => .error (.malformed e)
  | .ok (.access _ _ index) => do
    let (current, s) ← currentArray s target.base
    let items ← arrayItems current target.name
    let place ← (Eval.evaluate s index).bind (position target.name items.length)
    let value ← Flowchart.calculate s right current.target.subtype? none
    match place with
    | none => throw (.fault .unsuited)
    | some n => return .of current.target (.array (items.set n value))
  | .ok _ => .error (.malformed .notAccess)

/-- The binding that an assignment makes. -/
def assign (s : Store) (e : Expression) : Except Error Binding :=
  match e with
  | .assignment target right =>
    if target.isArray then
      if target.isIndexed then assignItem s target right else .error (.wholeArray target.name)
    else (Flowchart.calculate s right (some target.type) none).map (Binding.of target)
  | _ => .error (.diagram .leftNotVariable)

end Expression

end Flowchart
