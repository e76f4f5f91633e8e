import Flowchart.Number.Decimal
import Flowchart.Value
/-! Arithmetic and order on values. Integers and doubles are compared exactly, never by rounding
the integer; a truth value counts as zero or one. Operations that have no result say why. -/
namespace Flowchart

/-- Why an operation on values has no result. -/
inductive Fault where
  /-- An integer beyond the largest double was needed as a double. -/
  | integerTooLarge
  /-- The quotient of two integers is beyond the largest double. -/
  | quotientTooLarge
  /-- A remainder with an infinite dividend or a zero divisor. -/
  | domain
  /-- An integer remainder with divisor zero. -/
  | moduloByZero
  /-- A text that is no number was needed as one. -/
  | notNumber (text : String)
  /-- A text or an array was to be repeated more often than can be counted. -/
  | countTooLarge
  /-- The operation is not defined on operands of these kinds. -/
  | unsuited
  deriving DecidableEq

/-- The text of a fault, empty when the operands are at fault. -/
def Fault.message : Fault → String
  | integerTooLarge => "int too large to convert to float"
  | quotientTooLarge => "integer division result too large for a float"
  | domain => "math domain error"
  | moduloByZero => "integer modulo by zero"
  | notNumber text => "could not convert string to float: " ++ Text.inspect text
  | countTooLarge => "cannot fit 'int' into an index-sized integer"
  | unsuited => ""

/-- A number as the operators see it. -/
inductive Number where
  | int (n : Int)
  | real (x : Float)

namespace Number

/-- The value of a number on the extended line, a finite one as a quotient. -/
inductive Extent where
  | least
  | finite (n : Int) (d : Nat)
  | greatest

/-- Where a number lies; a nan lies nowhere. -/
def extent? : Number → Option Extent
  | int n => some (.finite n 1)
  | real x =>
    match Double.parts x with
    | .nan => none
    | .infinite negative => some (if negative then .least else .greatest)
    | .finite negative mantissa exponent =>
      let (n, d) := Double.scale mantissa 1 exponent
      some (.finite (if negative then -n else n) d)

/-- The order of the extended line. -/
def Extent.compare : Extent → Extent → Ordering
  | .least, .least => .eq
  | .least, _ => .lt
  | _, .least => .gt
  | .greatest, .greatest => .eq
  | .greatest, _ => .gt
  | _, .greatest => .lt
  | .finite n d, .finite n' d' => Ord.compare (n * d') (n' * d)

/-- The exact order of two numbers, none when one of them is a nan. -/
def compare? (a b : Number) : Option Ordering :=
  match a.extent?, b.extent? with
  | some x, some y => some (x.compare y)
  | _, _ => none

/-- A number as a double. -/
def toFloat : Number → Except Fault Float
  | int n =>
    match Double.ofInt? n with
    | some x => .ok x
    | none => .error .integerTooLarge
  | real x => .ok x

/-- Applies the operation on integers to two integers, the one on doubles to everything else. -/
def apply (onInts : Int → Int → Int) (onFloats : Float → Float → Float) :
    Number → Number → Except Fault Value
  | int a, int b => .ok (.int (onInts a b))
  | a, b => do
    let x ← a.toFloat
    let y ← b.toFloat
    return .float (onFloats x y)

/-- Division with a double as its result; the quotient of integers is rounded once. -/
def divide : Number → Number → Except Fault Value
  | int a, int b =>
    match Double.ofQuotient? a b with
    | some x => .ok (.float x)
    | none => .error .quotientTooLarge
  | a, b => do
    let x ← a.toFloat
    let y ← b.toFloat
    return .float (x / y)

/-- The remainder of the division truncated toward zero: it takes the sign of the dividend. -/
def remainder : Number → Number → Except Fault Value
  | int a, int b => if b = 0 then .error .moduloByZero else .ok (.int (a.tmod b))
  | a, b => do
    let x ← a.toFloat
    let y ← b.toFloat
    match Double.remainder? x y with
    | some r => return .float r
    | none => throw .domain

end Number

/-- The relational operators. -/
inductive Relation where
  | eq
  | ne
  | lt
  | gt
  | le
  | ge
  deriving DecidableEq

namespace Relation

/-- How a relation is written. -/
def symbol : Relation → String
  | eq => "=="
  | ne => "!="
  | lt => "<"
  | gt => ">"
  | le => "<="
  | ge => ">="

/-- The relation written in the given way. -/
def ofSymbol? (s : String) : Option Relation :=
  [eq, ne, gt, lt, ge, le].find? (·.symbol == s)

/-- Whether a relation holds between two things in the given order. -/
def holds : Relation → Ordering → Bool
  | eq, o => o == .eq
  | ne, o => o != .eq
  | lt, o => o == .lt
  | gt, o => o == .gt
  | le, o => o != .gt
  | ge, o => o != .lt

end Relation

namespace Value

/-- The number that a value stands for in arithmetic. -/
def number? : Value → Option Number
  | int n => some (.int n)
  | float x => some (.real x)
  | nan _ => some (.real Double.nan)
  | bool b => some (.int (if b then 1 else 0))
  | _ => none

mutual
/-- Equality of values: numbers by their exact value, arrays and lists item by item. -/
def equal : Value → Value → Bool
  | text s, text t => s == t
  | nothing, nothing => true
  | array xs, array ys => equalItems xs ys
  | list xs, list ys => equalItems xs ys
  | v, w =>
    match v.number?, w.number? with
    | some a, some b => a.compare? b == some .eq
    | _, _ => false
/-- Equality of the items of two arrays. Here a nan is equal to itself. -/
def equalItems : List Value → List Value → Bool
  | [], [] => true
  | nan m :: xs, nan n :: ys => m == n && equalItems xs ys
  | v :: xs, w :: ys => v.equal w && equalItems xs ys
  | _, _ => false
end

/-- The order of two texts by code points. -/
def compareTexts (s t : String) : Ordering :=
  if s < t then .lt else if s == t then .eq else .gt

mutual
/-- An order relation between two values: numbers by exact value (no relation holds of a nan),
texts by code points, arrays and lists by the first place where they differ. -/
def ordered (r : Relation) : Value → Value → Except Fault Bool
  | text s, text t => .ok (r.holds (compareTexts s t))
  | array xs, array ys => orderedItems r xs ys
  | list xs, list ys => orderedItems r xs ys
  | v, w =>
    match v.number?, w.number? with
    | some a, some b => .ok ((a.compare? b).any r.holds)
    | _, _ => .error .unsuited
/-- An order relation between the items of two arrays. Here a nan is equal to itself. -/
def orderedItems (r : Relation) : List Value → List Value → Except Fault Bool
  | nan m :: xs, nan n :: ys => if m == n then orderedItems r xs ys else .ok false
  | v :: xs, w :: ys => if v.equal w then orderedItems r xs ys else ordered r v w
  | xs, ys => .ok (r.holds (Ord.compare xs.length ys.length))
end

/-- Whether a relation holds between two values. -/
def relate : Relation → Value → Value → Except Fault Bool
  | .eq, v, w => .ok (v.equal w)
  | .ne, v, w => .ok (!v.equal w)
  | r, v, w => ordered r v w

/-- Applies an operation on numbers to two values. -/
def arithmetic (op : Number → Number → Except Fault Value) (v w : Value) : Except Fault Value :=
  match v.number?, w.number? with
  | some a, some b => op a b
  | _, _ => .error .unsuited

/-- The sum of numbers; texts, arrays and lists are joined. -/
def add : Value → Value → Except Fault Value
  | text s, text t => .ok (.text (s ++ t))
  | array xs, array ys => .ok (.array (xs ++ ys))
  | list xs, list ys => .ok (.list (xs ++ ys))
  | v, w => arithmetic (Number.apply (· + ·) (· + ·)) v w

/-- The difference of numbers. -/
def subtract : Value → Value → Except Fault Value :=
  arithmetic (Number.apply (· - ·) (· - ·))

/-- Whether repetitions can be counted: the count fits a word of 64 bits. -/
def isCountable (n : Int) : Bool :=
  -(Nat.pow 2 63 : Nat) ≤ n && n < (Nat.pow 2 63 : Nat)

/-- Items a number of times over. -/
def repeatedItems {α : Type} (xs : List α) (n : Int) : List α :=
  if xs.isEmpty then [] else (List.replicate n.toNat xs).flatten

/-- A text, an array or a list a number of times over, none for other values. -/
def repeated? (v : Value) (n : Int) : Option Value :=
  match v with
  | text s => some (.text (String.ofList (repeatedItems s.toList n)))
  | array xs => some (.array (repeatedItems xs n))
  | list xs => some (.list (repeatedItems xs n))
  | _ => none

/-- A text, an array or a list times a whole number. -/
def repeatedBy (v w : Value) : Option (Except Fault Value) :=
  match w.number? with
  | some (.int n) =>
    if isCountable n then (v.repeated? n).map .ok
    else (v.repeated? 0).map fun _ => .error .countTooLarge
  | _ => none

/-- The product of numbers; a text, an array or a list is repeated by a whole number. -/
def multiply (v w : Value) : Except Fault Value :=
  match (v.repeatedBy w).or (w.repeatedBy v) with
  | some repetition => repetition
  | none => arithmetic (Number.apply (· * ·) (· * ·)) v w

/-- The quotient of numbers, a double. -/
def divide : Value → Value → Except Fault Value :=
  arithmetic Number.divide

/-- The truncated remainder of numbers. -/
def remainder : Value → Value → Except Fault Value :=
  arithmetic Number.remainder

/-- The number with the other sign. -/
def negate (v : Value) : Except Fault Value :=
  match v.number? with
  | some (.int n) => .ok (.int (-n))
  | some (.real x) => .ok (.float (-x))
  | none => .error .unsuited

/-- The value as a float. A kept nan stays the one it is, and a text is read. -/
def toFloat (v : Value) : Except Fault Value :=
  match v with
  | nan mark => .ok (nan mark)
  | text s =>
    match Decimal.real? s with
    | some x => .ok (float x)
    | none => .error (.notNumber s)
  | v =>
    match v.number? with
    | some a => a.toFloat.map Value.float
    | none => .error .unsuited

/-- Whether the value is the number zero. -/
def isZero (v : Value) : Bool :=
  v.equal (.int 0)

end Value

end Flowchart
