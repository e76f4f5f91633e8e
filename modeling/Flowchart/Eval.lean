import Flowchart.Store
import Flowchart.Term.Parse
/-! Evaluation of terms. A result always carries its type, and the rules of the language look at the
types; the operands of `&&` and `||` are both evaluated. -/
namespace Flowchart

/-- A value with its type. The type is missing for an item of something that was not declared as
an array. -/
structure TypedValue where
  value : Value
  type : Option DataType

namespace Eval

/-- Whether a type is that of numbers. -/
def isNumeric (t : Option DataType) : Bool :=
  t.any DataType.isNumeric

/-- The double of the number that a text starts with. -/
def leadingNumber (s : String) : Except Error (Option Float) :=
  match Decimal.leading s.toList with
  | .ok x => .ok x
  | .error found => .error (.fault (.notNumber (String.ofList found)))

/-- The number that a value stands for in a conversion: a number itself, or the number that a text
starts with. -/
def parseNumber : Value → Except Error (Option Number)
  | .int n => .ok (some (.int n))
  | .float x => .ok (some (.real x))
  | .nan _ => .ok (some (.real Double.nan))
  | .text s => (leadingNumber s).map fun x => x.map .real
  | _ => .ok none

/-- The greatest integer not above a number. An integer has to be within the range of doubles, and
a double has to be finite; `source` names it in the message. -/
def toInteger (n : Number) (source : String) : Except Error Int :=
  match n with
  | .int n =>
    match Double.ofInt? n with
    | some _ => .ok n
    | none => .error (.fault .integerTooLarge)
  | .real x =>
    match Double.floor? x with
    | some n => .ok n
    | none => .error (.unconvertible source "integer")

/-- The float that a conversion makes of a value. A kept nan stays the one it is. -/
def toFloat : Value → Except Error Value
  | .nan mark => .ok (.nan mark)
  | v =>
    match parseNumber v with
    | .error e => .error e
    | .ok none => .error (.unconvertible v.display "float")
    | .ok (some n) => (Error.ofFault n.toFloat).map Value.float

/-- Applies a conversion function to a value. -/
def convert (f : Function) (arg : TypedValue) : Except Error TypedValue :=
  match f with
  | .integer =>
    if arg.type = some .integer then .ok ⟨arg.value, some .integer⟩
    else
      match parseNumber arg.value with
      | .error e => .error e
      | .ok none => .error (.unconvertible arg.value.display "integer")
      | .ok (some n) => (toInteger n arg.value.display).map fun n => ⟨.int n, some .integer⟩
  | .float =>
    if arg.type = some .float then .ok ⟨arg.value, some .float⟩
    else (toFloat arg.value).map fun v => ⟨v, some .float⟩
  | .string => .ok ⟨.text arg.value.shown, some .string⟩
  | .boolean =>
    if arg.type = some .boolean then .ok ⟨arg.value, some .boolean⟩
    else if arg.type = some .string then .ok ⟨.bool (!arg.value.equal (.text "")), some .boolean⟩
    else if isNumeric arg.type then .ok ⟨.bool (!arg.value.isZero), some .boolean⟩
    else .error (.noTruthValue arg.value.display arg.type)
  | .other name => .error (.unknownFunction name)

/-- Compares two values. Truth values are only equal or not, and values of different types can only
be compared when both are numbers. -/
def compare (c : Comparison) (left right : TypedValue) : Except Error Bool :=
  let ordering := c ≠ .relation .eq ∧ c ≠ .relation .ne
  if left.type = some .boolean ∧ right.type = some .boolean ∧ ordering then
    .error (.mismatch (.orderedBooleans c.symbol))
  else if left.type ≠ right.type ∧ !(isNumeric left.type && isNumeric right.type) then
    .error (.mismatch (.incomparable left.type right.type))
  else
    match c with
    | .relation r => Error.ofFault (Value.relate r left.value right.value)
    | .other symbol => .error (.unsupportedRelation symbol)

/-- Applies an operator to one value. -/
def applyUnary (op : UnaryOp) (arg : TypedValue) : Except Error TypedValue :=
  match op with
  | .not =>
    if arg.type = some .boolean then .ok ⟨.bool (!arg.value.isTrue), some .boolean⟩
    else .error (.mismatch (.notOperand arg.type))
  | .minus =>
    if isNumeric arg.type then (Error.ofFault arg.value.negate).map fun v => ⟨v, arg.type⟩
    else .error (.mismatch (.minusOperand arg.type))
  | .plus =>
    if isNumeric arg.type then .ok arg
    else .error (.mismatch (.plusOperand arg.type))
  | .other symbol => .error (.unknownUnary symbol)

/-- The type of arithmetic on two numbers. -/
def joined (left right : Option DataType) : DataType :=
  if left = some .float ∨ right = some .float then .float else .integer

/-- Arithmetic on two numbers: the operands have to be numbers, and divisors must not be zero. -/
def arithmetic (op : BinaryOp) (left right : TypedValue) (zero : Option Error)
    (compute : Value → Value → Except Fault Value) (type : DataType) : Except Error TypedValue :=
  if isNumeric left.type && isNumeric right.type then
    match zero with
    | some e =>
      if right.value.isZero then .error e
      else (Error.ofFault (compute left.value right.value)).map fun v => ⟨v, some type⟩
    | none => (Error.ofFault (compute left.value right.value)).map fun v => ⟨v, some type⟩
  else .error (.mismatch (.operands op.symbol left.type right.type))

/-- Applies an operator to two values. -/
def applyBinary (op : BinaryOp) (left right : TypedValue) : Except Error TypedValue :=
  let both := joined left.type right.type
  match op with
  | .add =>
    if left.type = some .string ∧ right.type = some .string then
      (Error.ofFault (left.value.add right.value)).map fun v => ⟨v, some .string⟩
    else arithmetic op left right none Value.add both
  | .subtract => arithmetic op left right none Value.subtract both
  | .multiply => arithmetic op left right none Value.multiply both
  | .divide => arithmetic op left right (some .divisionByZero) Value.divide .float
  | .modulo => arithmetic op left right (some .moduloByZero) Value.remainder both
  | .and =>
    if left.type = some .boolean ∧ right.type = some .boolean then
      .ok ⟨if left.value.isTrue then right.value else left.value, some .boolean⟩
    else .error (.mismatch (.logical op.symbol left.type right.type))
  | .or =>
    if left.type = some .boolean ∧ right.type = some .boolean then
      .ok ⟨if left.value.isTrue then left.value else right.value, some .boolean⟩
    else .error (.mismatch (.logical op.symbol left.type right.type))
  | .compare c => (compare c left right).map fun b => ⟨.bool b, some .boolean⟩

/-- Whether a double lies outside the positions of `size` items. -/
def isOutside (x : Float) (size : Nat) : Bool :=
  let n := Number.real x
  n.compare? (.int 0) == some .lt || (n.compare? (.int size)).any (· != .lt)

/-- The item of a bound array at an index. The declared size and the items themselves both bound
the index. -/
def item (b : Binding) (name : String) (index : Value) : Except Error TypedValue :=
  let items := b.value.items?.getD []
  let size := b.target.size?.getD items.length
  match index.number? with
  | none => .error (.fault .unsuited)
  | some (.int n) =>
    if n < 0 ∨ n ≥ size then .error (.outOfBounds index name size)
    else
      match items[n.toNat]? with
      | some v => .ok ⟨v, b.target.subtype?⟩
      | none => .error (.outOfBounds index name size)
  | some (.real x) =>
    if isOutside x (min size items.length) then .error (.outOfBounds index name size)
    else .error (.fault .unsuited)

/-- The item at an evaluated index, which has to be an integer. -/
def itemAt (b : Binding) (name : String) (index : TypedValue) : Except Error TypedValue :=
  if index.type = some .integer then item b name index.value
  else .error (.mismatch (.index name index.type))

/-- The value of a term in a store. The index that a variable carries is read here, as a term of
its own. -/
def evaluate (s : Store) (t : Term) : Except Error TypedValue :=
  match t with
  | .literal value type => .ok ⟨value, some type⟩
  | .named name v =>
    match s.get? v.id with
    | none => .error (.unassigned name)
    | some b =>
      if v.isIndexed then
        match read : Term.parse v.index with
        | .error e => .error (.malformed e)
        | .ok index =>
          have := Term.weight_parse_index read
          (evaluate s index).bind (itemAt b name)
      else .ok ⟨b.value, some b.target.type⟩
  | .access name v index =>
    match s.get? v.id with
    | none => .error (.unassigned name)
    | some b => (evaluate s index).bind (itemAt b name)
  | .call f argument => (evaluate s argument).bind (convert f)
  | .unary op operand => (evaluate s operand).bind (applyUnary op)
  | .binary op left right =>
    match evaluate s left with
    | .error e => .error e
    | .ok l =>
      match evaluate s right with
      | .error e => .error e
      | .ok r => applyBinary op l r
  | .blank label => .error (.blank .evaluating label)
termination_by t.weight
decreasing_by all_goals simp only [Term.weight]; omega

end Eval

end Flowchart
