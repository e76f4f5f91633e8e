import Flowchart.Code.OfTerm
import Flowchart.Proofs.ExpressionTexts
import Mathlib.Data.String.Basic
/-! What expressions of the code mean, said apart from the evaluation of terms. The code knows variables by
their names, reads literals from how they are written, and has the operators, calls and subscripts of its own
language: `and` and `or` look at their right side only if they have to, a remainder has the sign of the divisor,
and a negative subscript counts from the end. Only whole numbers, truth values, texts and arrays are described;
what the code does with anything else is left open. -/
namespace Flowchart.Code

/-! ### Literals -/

/-- The number written with the given decimal digits. -/
def natural? (cs : List Char) : Option Nat :=
  if !cs.isEmpty && cs.all Char.isDigit then some (Nat.ofDigitChars 10 cs 0) else none

/-- The number written in decimal, with a sign if it is negative. -/
def integer? : List Char → Option Int
  | '-' :: cs => (natural? cs).map fun n => -Int.ofNat n
  | cs => (natural? cs).map Int.ofNat

/-- The character that a letter after a backslash stands for. -/
def escape? (c : Char) : Option Char :=
  [('"', '"'), ('\\', '\\'), ('n', '\n'), ('r', '\r'), ('t', '\t'), ('b', Char.ofNat 8), ('f', Char.ofNat 12)].lookup c

def hexValue? (c : Char) : Option Nat :=
  if c.isDigit then some (c.toNat - 48) else if 'a' ≤ c && c ≤ 'f' then some (c.toNat - 87) else none

/-- The character with the given hexadecimal digits. -/
def ofHex? (digits : List Char) : Option Char :=
  (digits.mapM hexValue?).map fun values => Char.ofNat (values.foldl (16 * · + ·) 0)

/-- The characters of a text up to its closing quote, which has to be the last. -/
def unescaped? : List Char → Option (List Char)
  | '"' :: rest => if rest.isEmpty then some [] else none
  | '\\' :: 'u' :: a :: b :: c :: d :: rest =>
    (ofHex? [a, b, c, d]).bind fun found => (unescaped? rest).map (found :: ·)
  | '\\' :: c :: rest => (escape? c).bind fun found => (unescaped? rest).map (found :: ·)
  | c :: rest => (unescaped? rest).map (c :: ·)
  | [] => none

/-- The value that a literal is written for. -/
def written? (raw : String) : Option Value :=
  match integer? raw.toList with
  | some n => some (.int n)
  | none =>
    match raw.toList with
    | '"' :: cs => (unescaped? cs).map fun cs => .text (String.ofList cs)
    | _ => [("True", .bool true), ("False", .bool false), ("None", .nothing)].lookup raw

/-! ### Operators, calls and subscripts -/

/-- The whole number that a value counts as. -/
def whole? : Value → Option Int
  | .int n => some n
  | .bool b => some (if b then 1 else 0)
  | _ => none

/-- An operation on whole numbers. -/
def onWhole (compute : Int → Int → Option Int) (v w : Value) : Option Value := do
  let a ← whole? v
  let b ← whole? w
  return .int (← compute a b)

/-- The sum of whole numbers; texts and arrays are joined. -/
def sum? : Value → Value → Option Value
  | .text s, .text t => some (.text (s ++ t))
  | .array xs, .array ys => some (.array (xs ++ ys))
  | v, w => onWhole (fun a b => some (a + b)) v w

/-- The remainder of the division rounded down: it takes the sign of the divisor. -/
def floored? (a b : Int) : Option Int :=
  if b = 0 then none else some (a.fmod b)

/-- A relation in a linear order. -/
def between {α : Type} [LinearOrder α] : Relation → α → α → Bool
  | .eq, a, b => a = b
  | .ne, a, b => a ≠ b
  | .lt, a, b => a < b
  | .gt, a, b => b < a
  | .le, a, b => a ≤ b
  | .ge, a, b => b ≤ a

/-- A comparison of whole numbers, or of texts by their characters. -/
def compared? (r : Relation) : Value → Value → Option Bool
  | .text s, .text t => some (between r s t)
  | v, w => do
    let a ← whole? v
    let b ← whole? w
    return between r a b

/-- An operator that needs the values of both operands. -/
def operated? (op : String) (v w : Value) : Option Value :=
  if op = "+" then sum? v w
  else if op = "-" then onWhole (fun a b => some (a - b)) v w
  else if op = "*" then onWhole (fun a b => some (a * b)) v w
  else if op = "%" then onWhole floored? v w
  else (Relation.ofSymbol? op).bind fun r => (compared? r v w).map .bool

/-- A conversion by its name. -/
def called? (name : String) (v : Value) : Option Value :=
  if name = "int" then (whole? v).map .int
  else if name = "bool" then some (.bool v.isTrue)
  else if name = "str" then
    match v with
    | .int n => some (.text (toString n))
    | .bool b => some (.text (if b then "True" else "False"))
    | .text s => some (.text s)
    | _ => none
  else none

/-- The item of an array at a place, from the end where it is negative. -/
def selected? (v w : Value) : Option Value :=
  match v with
  | .array items =>
    (whole? w).bind fun n =>
      if 0 ≤ n then items[n.toNat]?
      else if 0 ≤ items.length + n then items[(items.length + n).toNat]?
      else none
  | _ => none

/-- The value of an expression where the names have the given values. -/
def Expr.value? (env : String → Option Value) : Expr → Option Value
  | .ident i => env i.name
  | .literal _ _ raw => written? raw
  | .binary _ op left right =>
    if op = "and" then (left.value? env).bind fun v => if v.isTrue then right.value? env else some v
    else if op = "or" then (left.value? env).bind fun v => if v.isTrue then some v else right.value? env
    else (left.value? env).bind fun v => (right.value? env).bind (operated? op v)
  | .call _ callee [argument] => (argument.value? env).bind (called? callee.name)
  | .call .. => none
  | .subscript _ object index => (object.value? env).bind fun v => (index.value? env).bind (selected? v)
  | .blank .. => none

/-! ### Literals are read as they are written -/

open Text

theorem natural?_toDigits (n : Nat) : natural? (Nat.toDigits 10 n) = some n := by
  have digits : (Nat.toDigits 10 n).all Char.isDigit = true := by
    simpa using fun c => Nat.isDigit_of_mem_toDigits (by decide) (by decide)
  rw [natural?, if_pos (by simp [digits]), Nat.ofDigitChars_ten_toDigits]

theorem written?_int (n : Int) : written? (toString n) = some (.int n) := by
  have read : integer? (toString n).toList = some n := by
    cases n with
    | ofNat n =>
      have chars : (toString (Int.ofNat n)).toList = Nat.toDigits 10 n := Nat.toList_repr
      rw [chars, integer?, natural?_toDigits]
      · rfl
      · -- no digit is a sign
        intro cs signed
        have digit : Char.isDigit '-' = true :=
          Nat.isDigit_of_mem_toDigits (n := n) (by decide) (by decide) (signed ▸ List.mem_cons_self)
        cases digit
    | negSucc n =>
      have chars : (toString (Int.negSucc n)).toList = '-' :: Nat.toDigits 10 (n + 1) := by
        rw [← Nat.toList_repr]
        exact String.toList_append
      rw [chars, integer?, natural?_toDigits]
      rfl
  rw [written?, read]

theorem ofHex?_hex : ∀ n < 32, ofHex? (hex 4 n) = some (Char.ofNat n) := by
  decide

theorem unescaped?_control {c : Char} (control : c.toNat < 32) (rest : List Char) :
    unescaped? ('\\' :: 'u' :: hex 4 c.toNat ++ rest) = (unescaped? rest).map (c :: ·) := by
  have found := ofHex?_hex c.toNat control
  rw [Char.ofNat_toNat] at found
  simp only [hex, List.nil_append, List.cons_append] at found ⊢
  rw [unescaped?, found]
  rfl

theorem unescaped?_plain {c : Char} (noQuote : c ≠ '"') (noSlash : c ≠ '\\') (rest : List Char) :
    unescaped? (c :: rest) = (unescaped? rest).map (c :: ·) := by
  rw [unescaped?]
  · exact noQuote
  · rintro _ _ _ _ _ rfl
    exact absurd rfl noSlash
  · rintro _ _ rfl
    exact absurd rfl noSlash

/-- Each way of escaping a character is undone. -/
theorem unescaped?_quotedChar (c : Char) (rest : List Char) :
    unescaped? (quotedChar c ++ rest) = (unescaped? rest).map (c :: ·) := by
  have known (n : Nat) (code : c.toNat = n) : c = Char.ofNat n := by rw [← code, Char.ofNat_toNat]
  unfold quotedChar
  split
  · next special =>
    have either : c = '"' ∨ c = '\\' := by simpa using special
    rcases either with rfl | rfl <;> rfl
  split
  · next is => rw [eq_of_beq is]; rfl
  split
  · next is => rw [eq_of_beq is]; rfl
  split
  · next is => rw [eq_of_beq is]; rfl
  split
  · next code => rw [known 8 (eq_of_beq code)]; rfl
  split
  · next code => rw [known 12 (eq_of_beq code)]; rfl
  split
  · next control => exact unescaped?_control control rest
  · next plain _ _ _ _ _ _ =>
    simp only [Bool.or_eq_true, beq_iff_eq, not_or] at plain
    exact unescaped?_plain plain.1 plain.2 rest

theorem written?_quoted (s : String) : written? (quoted s) = some (.text s) := by
  have read (cs : List Char) : unescaped? (cs.flatMap quotedChar ++ ['"']) = some cs := by
    induction cs with
    | nil => rfl
    | cons c cs ih =>
      rw [List.flatMap_cons, List.append_assoc, unescaped?_quotedChar, ih]
      rfl
  have noNumber (cs : List Char) : integer? ('"' :: cs) = none := rfl
  rw [written?, toList_quoted, noNumber]
  simp only [read, Option.map_some, String.ofList_toList]

theorem written?_truth (b : Bool) : written? (if b then "True" else "False") = some (.bool b) := by
  cases b <;> rfl

end Flowchart.Code
