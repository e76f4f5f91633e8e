import Flowchart.Number.Double
import Flowchart.Text.Blank
import Flowchart.Text.Digit
/-! Decimal numbers in text: digits of any script with an optional point and an optional power of
ten. `split?` finds such a number at the start of a text, `value` is the double it denotes. -/
namespace Flowchart.Decimal
open Flowchart.Text

/-- An optional sign at the start, and what follows it. -/
def splitMark : List Char → List Char × List Char
  | c :: rest => if c == '+' || c == '-' then ([c], rest) else ([], c :: rest)
  | [] => ([], [])

/-- The longest exponent part at the start: `e` or `E`, an optional sign, digits. Nothing when a
part is missing. -/
def splitExponent : List Char → List Char × List Char
  | c :: rest =>
    let after := (splitMark rest).2
    if (c == 'e' || c == 'E') && !(after.takeWhile isDigit).isEmpty then
      (c :: (splitMark rest).1 ++ after.takeWhile isDigit, after.dropWhile isDigit)
    else ([], c :: rest)
  | [] => ([], [])

/-- The longest mantissa at the start: digits with an optional point and further digits, or a point
with digits behind it. -/
def splitMantissa? (cs : List Char) : Option (List Char × List Char) :=
  let whole := cs.takeWhile isDigit
  match cs.dropWhile isDigit with
  | '.' :: rest =>
    let fraction := rest.takeWhile isDigit
    if whole.isEmpty && fraction.isEmpty then none
    else some (whole ++ '.' :: fraction, rest.dropWhile isDigit)
  | rest => if whole.isEmpty then none else some (whole, rest)

/-- The longest unsigned decimal at the start of a text, and what follows it. -/
def split? (cs : List Char) : Option (List Char × List Char) :=
  (splitMantissa? cs).map fun (mantissa, rest) =>
    (mantissa ++ (splitExponent rest).1, (splitExponent rest).2)

theorem append_splitMark (cs : List Char) : (splitMark cs).1 ++ (splitMark cs).2 = cs := by
  unfold splitMark
  split
  · split <;> simp
  · rfl

theorem append_splitExponent (cs : List Char) :
    (splitExponent cs).1 ++ (splitExponent cs).2 = cs := by
  unfold splitExponent
  split
  · rename_i c rest
    have marked := append_splitMark rest
    simp only
    split
    · simp [List.takeWhile_append_dropWhile, marked]
    · simp
  · rfl

theorem append_splitMantissa? {cs word rest : List Char}
    (found : splitMantissa? cs = some (word, rest)) : word ++ rest = cs ∧ word ≠ [] := by
  have whole := List.takeWhile_append_dropWhile (p := isDigit) (l := cs)
  unfold splitMantissa? at found
  simp only at found
  split at found
  · rename_i after same
    split at found
    · simp at found
    · simp only [Option.some.injEq, Prod.mk.injEq] at found
      rw [same] at whole
      rw [← found.1, ← found.2]
      constructor
      · simpa [List.takeWhile_append_dropWhile] using whole
      · simp
  · split at found
    · simp at found
    · rename_i nonempty
      simp only [Option.some.injEq, Prod.mk.injEq] at found
      rw [← found.1, ← found.2]
      exact ⟨whole, by simpa using nonempty⟩

/-- A decimal is cut off the start without losing a character, and it is never empty. -/
theorem append_split? {cs word rest : List Char} (found : split? cs = some (word, rest)) :
    word ++ rest = cs ∧ word ≠ [] := by
  unfold split? at found
  obtain ⟨⟨mantissa, after⟩, cut, same⟩ := Option.map_eq_some_iff.1 found
  obtain ⟨joined, nonempty⟩ := append_splitMantissa? cut
  simp only [Prod.mk.injEq] at same
  rw [← same.1, ← same.2, List.append_assoc, append_splitExponent]
  exact ⟨joined, by simp [nonempty]⟩

/-- A sign at the start, and what follows it. -/
def splitSign (cs : List Char) : Bool × List Char :=
  match cs with
  | '-' :: rest => (true, rest)
  | '+' :: rest => (false, rest)
  | _ => (false, cs)

/-- The exponent an exponent part denotes; zero for an empty one. -/
def exponentValue (cs : List Char) : Int :=
  match cs with
  | [] => 0
  | _ :: rest =>
    let (negative, digits) := splitSign rest
    if negative then -(digitsValue digits : Int) else digitsValue digits

/-- The double nearest to `digits * 10 ^ exponent`, infinite beyond the largest one. Far outside
the range of doubles the power of ten is not computed. -/
def nearest (negative : Bool) (digits : Nat) (exponent : Int) : Float :=
  let size : Int := (Nat.toDigits 10 digits).length + exponent
  if digits = 0 || size < -400 then Double.assemble negative 0 (-1074)
  else if size > 400 then Double.infinity negative
  else
    let (n, d) :=
      if exponent < 0 then (digits, Nat.pow 10 (-exponent).toNat)
      else (digits * Nat.pow 10 exponent.toNat, 1)
    (Double.nearest? negative n d).getD (Double.infinity negative)

/-- The double that an unsigned decimal denotes, with the given sign. -/
def value (negative : Bool) (cs : List Char) : Float :=
  let mantissa := cs.takeWhile fun c => c != 'e' && c != 'E'
  let exponent := cs.dropWhile fun c => c != 'e' && c != 'E'
  let whole := mantissa.takeWhile (· != '.')
  let fraction := (mantissa.dropWhile (· != '.')).drop 1
  nearest negative (digitsValue (whole ++ fraction)) (exponentValue exponent - fraction.length)

/-- The double that a text denotes when the whole of it is a decimal with an optional sign. -/
def ofChars? (cs : List Char) : Option Float :=
  let (negative, rest) := splitSign cs
  match split? rest with
  | some (number, []) => some (value negative number)
  | _ => none

/-- Blanks that a number may have around it: all but the information separators. -/
def isPadding (c : Char) : Bool :=
  isBlank c && !isSeparator c

/-- Drops what a number may have around it. -/
def unpadded (cs : List Char) : List Char :=
  ((cs.dropWhile isPadding).reverse.dropWhile isPadding).reverse

/-- The double of the decimal that a text starts with, blanks before it and anything behind it being
ignored. With an information separator among the blanks there is a decimal but no double; the failure
tells what was found, blanks included. -/
def leading (cs : List Char) : Except (List Char) (Option Float) :=
  let blanks := cs.takeWhile isBlank
  let found := cs.dropWhile isBlank
  let (negative, rest) := splitSign found
  match split? rest with
  | none => .ok none
  | some (number, _) =>
    if blanks.all isPadding then .ok (some (value negative number))
    else .error (blanks ++ (splitMark found).1 ++ number)

/-- Digits with single underscores between them; `first` says that a digit must come next. -/
def groupedDigits? : (first : Bool) → List Char → Option (List Char)
  | true, [] => none
  | false, [] => some []
  | first, c :: rest =>
    if isDigit c then (groupedDigits? false rest).map (c :: ·)
    else if c == '_' && !first then groupedDigits? true rest
    else none

/-- The integer that a text denotes: digits of any script, single underscores between them, an
optional sign, padding around. -/
def integer? (s : String) : Option Int :=
  let (negative, rest) := splitSign (unpadded s.toList)
  (groupedDigits? true rest).map fun digits =>
    if negative then -(digitsValue digits : Int) else digitsValue digits

/-- The characters without the underscores, each of which has to stand between two digits;
`between` says that a digit came just before. -/
def ungrouped? : (between : Bool) → List Char → Option (List Char)
  | _, [] => some []
  | between, c :: rest =>
    if c == '_' then
      if between && (rest.head?.map isDigit).getD false then ungrouped? false rest else none
    else (ungrouped? (isDigit c) rest).map (c :: ·)

/-- The special value that a word names in any case. -/
def special? (cs : List Char) : Option Float :=
  let (negative, rest) := splitSign cs
  let word := String.ofList (rest.map Char.toLower)
  if word == "inf" || word == "infinity" then some (Double.infinity negative)
  else if word == "nan" then some (0.0 / 0.0)
  else none

/-- The double that a text denotes: a decimal with single underscores between its digits, or a
special value, with padding around. -/
def real? (s : String) : Option Float :=
  let cs := unpadded s.toList
  ((ungrouped? false cs).bind ofChars?).or (special? cs)

end Flowchart.Decimal
