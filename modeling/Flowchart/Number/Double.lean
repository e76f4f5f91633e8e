/-! Doubles taken apart into exact numbers, and the way back: the double nearest to a quotient.
Every finite double is a whole number of halvings or doublings of a mantissa, so all questions of
value (order, whole part, remainder) are asked of the parts, in exact arithmetic. -/
namespace Flowchart

/-- A double taken apart. A finite one is `mantissa * 2 ^ exponent` with its sign. -/
inductive Parts where
  | nan
  | infinite (negative : Bool)
  | finite (negative : Bool) (mantissa : Nat) (exponent : Int)
  deriving DecidableEq

namespace Double

/-- The parts of a double, read off its bits. -/
def parts (x : Float) : Parts :=
  let bits := x.toBits.toNat
  let negative := bits ≥ Nat.pow 2 63
  let biased : Nat := bits / Nat.pow 2 52 % Nat.pow 2 11
  let fraction : Nat := bits % Nat.pow 2 52
  if biased = 2047 then
    if fraction = 0 then .infinite negative else .nan
  else if biased = 0 then .finite negative fraction (-1074)
  else .finite negative (Nat.pow 2 52 + fraction) ((biased : Int) - 1075)

/-- The double with the given sign, mantissa below `2 ^ 53` and exponent from -1074 to 971. A
mantissa below `2 ^ 52` is only used with the least exponent. -/
def assemble (negative : Bool) (mantissa : Nat) (exponent : Int) : Float :=
  let bits :=
    if mantissa < Nat.pow 2 52 then mantissa
    else (exponent + 1075).toNat * Nat.pow 2 52 + (mantissa - Nat.pow 2 52)
  Float.ofBits (UInt64.ofNat (if negative then Nat.pow 2 63 + bits else bits))

/-- The double that is no number. -/
def nan : Float :=
  Float.ofBits (UInt64.ofNat (2047 * Nat.pow 2 52 + Nat.pow 2 51))

/-- Whether a double is no number. -/
def isNan (x : Float) : Bool :=
  parts x == .nan

/-- Positive or negative infinity. -/
def infinity (negative : Bool) : Float :=
  Float.ofBits (UInt64.ofNat ((if negative then Nat.pow 2 63 else 0) + 2047 * Nat.pow 2 52))

/-- `(n * 2 ^ shift) / d` as a pair of natural numbers that form the same quotient. -/
def scale (n d : Nat) (shift : Int) : Nat × Nat :=
  if shift < 0 then (n, d * Nat.pow 2 (-shift).toNat) else (n * Nat.pow 2 shift.toNat, d)

/-- The natural number nearest to `n / d`; a half goes to the even neighbour. -/
def roundDiv (n d : Nat) : Nat :=
  let q := n / d
  let twice := 2 * (n % d)
  if twice > d || (twice == d && q % 2 == 1) then q + 1 else q

/-- The exponent at which `n / d` has a mantissa of 53 bits, or the least exponent when the
quotient is too small for that. -/
def exponentFor (n d : Nat) : Int :=
  let estimate := (n.log2 : Int) - d.log2 - 52
  let (sn, sd) := scale n d (-estimate)
  let exponent := if sn < sd * Nat.pow 2 52 then estimate - 1 else estimate
  max exponent (-1074)

/-- The double nearest to `n / d` with the given sign; a tie goes to the even mantissa. None when
the quotient is beyond the largest double. -/
def nearest? (negative : Bool) (n d : Nat) : Option Float :=
  if n = 0 then some (assemble negative 0 (-1074))
  else
    let exponent := exponentFor n d
    let (sn, sd) := scale n d (-exponent)
    let mantissa := roundDiv sn sd
    let (mantissa, exponent) :=
      if mantissa = Nat.pow 2 53 then (Nat.pow 2 52, exponent + 1) else (mantissa, exponent)
    if exponent > 971 then none else some (assemble negative mantissa exponent)

/-- The double nearest to an integer, none when the integer is beyond the largest double. -/
def ofInt? (n : Int) : Option Float :=
  nearest? (n < 0) n.natAbs 1

/-- The double nearest to the quotient of two integers, the divisor not being zero. The sign is
that of the quotient of the signs, also when the quotient is zero. -/
def ofQuotient? (n d : Int) : Option Float :=
  nearest? ((decide (n < 0)) != (decide (d < 0))) n.natAbs d.natAbs

/-- Whether a double is finite. -/
def isFinite (x : Float) : Bool :=
  match parts x with
  | .finite .. => true
  | _ => false

/-- The greatest integer not above a finite double, none for the others. -/
def floor? (x : Float) : Option Int :=
  match parts x with
  | .finite negative mantissa exponent =>
    let (n, d) := scale mantissa 1 exponent
    some (if negative then -((n + d - 1) / d : Nat) else (n / d : Nat))
  | _ => none

/-- The integer a double is equal to, none when it has a fraction or is not finite. -/
def toInt? (x : Float) : Option Int :=
  match parts x with
  | .finite negative mantissa exponent =>
    let (n, d) := scale mantissa 1 exponent
    if n % d = 0 then some (if negative then -(n / d : Nat) else (n / d : Nat)) else none
  | _ => none

/-- The remainder of the division truncated toward zero. It is exact and has the sign of the
dividend, also when it is zero. None when it has no value: an infinite dividend, or a zero
divisor, of numbers. -/
def remainder? (x y : Float) : Option Float :=
  match parts x, parts y with
  | .nan, _ => some x
  | _, .nan => some y
  | .infinite _, _ => none
  | .finite .., .infinite _ => some x
  | .finite negative m e, .finite _ m' e' =>
    if m' = 0 then none
    else
      let least := min e e'
      let rest := (m * Nat.pow 2 (e - least).toNat) % (m' * Nat.pow 2 (e' - least).toNat)
      let (n, d) := scale rest 1 least
      nearest? negative n d

end Double

end Flowchart
