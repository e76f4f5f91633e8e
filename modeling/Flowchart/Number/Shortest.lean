import Flowchart.Number.Double
/-! The shortest decimal that reads back as a given double, and the texts built on it. For one
digit, two digits and so on, the two neighbours of the double on that decimal grid are tested
against the interval of reals that round to the double; the first grid with a hit wins, and of two
hits the nearer. -/
namespace Flowchart.Shortest

/-- A positive decimal: `0.d₁d₂… * 10 ^ point`, the digits as one number. -/
structure Digits where
  digits : Nat
  point : Int

/-- Reals as quotients of natural numbers, compared by cross multiplication. -/
def less (a b : Nat × Nat) : Bool :=
  a.1 * b.2 < b.1 * a.2

/-- The interval of the reals that round to `mantissa * 2 ^ exponent`, and whether its ends
belong to it. Below a power of two the next double is half as far away. -/
structure Interval where
  low : Nat × Nat
  high : Nat × Nat
  closed : Bool

def interval (mantissa : Nat) (exponent : Int) : Interval where
  low :=
    if mantissa = Nat.pow 2 52 && exponent > -1074 then Double.scale (4 * mantissa - 1) 1 (exponent - 2)
    else Double.scale (2 * mantissa - 1) 1 (exponent - 1)
  high := Double.scale (2 * mantissa + 1) 1 (exponent - 1)
  closed := mantissa % 2 == 0

/-- Whether a real rounds to the double of the interval. -/
def Interval.holds (i : Interval) (a : Nat × Nat) : Bool :=
  if i.closed then !less a i.low && !less i.high a else less i.low a && less a i.high

/-- `n * 10 ^ e` as a quotient. -/
def tens (n : Nat) (e : Int) : Nat × Nat :=
  if e < 0 then (n, Nat.pow 10 (-e).toNat) else (n * Nat.pow 10 e.toNat, 1)

/-- The position of the decimal point: the least `point` from a first guess on with
`value < 10 ^ point`, in at most `steps` steps. -/
def pointFrom (value : Nat × Nat) : (steps : Nat) → (point : Int) → Int
  | 0, point => point
  | steps + 1, point => if less value (tens 1 point) then point else pointFrom value steps (point + 1)

/-- The position of the decimal point of a positive value with `bits` as its binary exponent. -/
def pointOf (value : Nat × Nat) (bits : Int) : Int :=
  pointFrom value 5 (bits * 30103 / 100000 - 1)

/-- The best decimal with at most `count` digits that the interval holds, if there is one. -/
def onGrid? (value : Nat × Nat) (i : Interval) (point : Int) (count : Nat) : Option Nat :=
  let unit := tens 1 (point - count)
  let below := value.1 * unit.2 / (value.2 * unit.1)
  let real (n : Nat) : Nat × Nat := (n * unit.1, unit.2)
  let lowHit := i.holds (real below)
  let highHit := i.holds (real (below + 1))
  let twice := 2 * (value.1 * unit.2 % (value.2 * unit.1))
  if lowHit && highHit then
    if twice < value.2 * unit.1 || (twice == value.2 * unit.1 && below % 2 == 0) then some below
    else some (below + 1)
  else if lowHit then some below
  else if highHit then some (below + 1)
  else none

/-- The first grid from `count` digits on that has a hit. Seventeen digits always suffice. -/
def search (value : Nat × Nat) (i : Interval) (point : Int) : (rest : Nat) → (count : Nat) → Digits
  | 0, count => ⟨value.1 * (tens 1 (point - count)).2 / (value.2 * (tens 1 (point - count)).1), point⟩
  | rest + 1, count =>
    match onGrid? value i point count with
    | some digits => if digits = Nat.pow 10 count then ⟨1, point + 1⟩ else ⟨digits, point⟩
    | none => search value i point rest (count + 1)

/-- The shortest decimal of a positive double given by its parts. -/
def digitsOf (mantissa : Nat) (exponent : Int) : Digits :=
  let value := Double.scale mantissa 1 exponent
  search value (interval mantissa exponent) (pointOf value (mantissa.log2 + exponent)) 17 1

/-- How a decimal is laid out: positional while the exponent of its first digit is at least
`least` and below `limit`, with a power of ten of at least two digits otherwise. A whole number
written positionally ends in `wholeMark`. -/
structure Layout where
  least : Int
  limit : Int
  wholeMark : String

/-- The digits of a natural number. -/
def chars (n : Nat) : List Char :=
  Nat.toDigits 10 n

/-- The exponent part: sign and at least two digits. -/
def exponentText (e : Int) : String :=
  let digits := chars e.natAbs
  String.ofList ('e' :: (if e < 0 then '-' else '+') :: (if digits.length < 2 then '0' :: digits else digits))

/-- A decimal in the given layout. -/
def Layout.render (layout : Layout) (d : Digits) : String :=
  let digits := chars d.digits
  let exponent := d.point - 1
  if exponent < layout.least || exponent ≥ layout.limit then
    match digits with
    | [] => ""
    | [c] => String.ofList [c] ++ exponentText exponent
    | c :: rest => String.ofList (c :: '.' :: rest) ++ exponentText exponent
  else if d.point ≤ 0 then
    "0." ++ String.ofList (List.replicate (-d.point).toNat '0' ++ digits)
  else
    let whole := d.point.toNat
    if digits.length ≤ whole then
      String.ofList (digits ++ List.replicate (whole - digits.length) '0') ++ layout.wholeMark
    else String.ofList (digits.take whole ++ '.' :: digits.drop whole)

/-- Numbers are positional from `0.0001` up to sixteen digits, and a whole one ends in `.0`. -/
def plain : Layout := ⟨-4, 16, ".0"⟩

/-- The text of a double: the shortest digits that read back. -/
def text (x : Float) : String :=
  match Double.parts x with
  | .nan => "nan"
  | .infinite negative => if negative then "-inf" else "inf"
  | .finite negative mantissa exponent =>
    let magnitude := if mantissa = 0 then "0.0" else plain.render (digitsOf mantissa exponent)
    if negative then "-" ++ magnitude else magnitude

/-- Numbers in tables have at most six digits, no trailing zeros, and are positional from
`0.0001` up to six digits. -/
def compact : Layout := ⟨-4, 6, ""⟩

/-- Drops the zeros at the end of a digit string, given as a number of at most `count` digits. -/
def dropZeros : (count : Nat) → Nat → Nat
  | 0, n => n
  | count + 1, n => if n != 0 && n % 10 == 0 then dropZeros count (n / 10) else n

/-- The text of a double rounded to six significant digits. -/
def compactText (x : Float) : String :=
  match Double.parts x with
  | .nan => "nan"
  | .infinite negative => if negative then "-inf" else "inf"
  | .finite negative mantissa exponent =>
    let magnitude :=
      if mantissa = 0 then "0"
      else
        let value := Double.scale mantissa 1 exponent
        let point := pointOf value (mantissa.log2 + exponent)
        let unit := tens 1 (point - 6)
        let rounded := Double.roundDiv (value.1 * unit.2) (value.2 * unit.1)
        let point := if rounded = Nat.pow 10 6 then point + 1 else point
        compact.render ⟨dropZeros 6 rounded, point⟩
    if negative then "-" ++ magnitude else magnitude

end Flowchart.Shortest
