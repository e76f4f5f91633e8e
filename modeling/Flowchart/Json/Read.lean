import Flowchart.Json.Basic
import Flowchart.Number.Decimal
/-! Reading stored text. A text that cannot be read is refused with the cause and the place of the
first fault. Places are counted from the end while reading, since what is left is always at hand. -/
namespace Flowchart.Json

/-- What is wrong with a stored text. -/
inductive Cause where
  | value
  | key
  | colon
  | comma
  | extra
  | unterminated
  | control
  | escape
  | codeEscape
  | orderMark
  deriving DecidableEq

def Cause.message : Cause → String
  | value => "Expecting value"
  | key => "Expecting property name enclosed in double quotes"
  | colon => "Expecting ':' delimiter"
  | comma => "Expecting ',' delimiter"
  | extra => "Extra data"
  | unterminated => "Unterminated string starting at"
  | control => "Invalid control character at"
  | escape => "Invalid \\escape"
  | codeEscape => "Invalid \\uXXXX escape"
  | orderMark => "Unexpected UTF-8 BOM (decode using utf-8-sig)"

/-- A fault with the number of characters from it to the end of the text. -/
structure Stop where
  cause : Cause
  left : Nat

/-- What was read off the start of characters, and a rest that is shorter. -/
abbrev Cut (α : Type) (cs : List Char) :=
  { r : α × List Char // r.2.length < cs.length }

/-- The characters that may stand between the parts of a text. -/
def isGap (c : Char) : Bool :=
  c == ' ' || c == '\t' || c == '\n' || c == '\r'

def skipGap (cs : List Char) : List Char :=
  cs.dropWhile isGap

theorem length_skipGap (cs : List Char) : (skipGap cs).length ≤ cs.length :=
  (List.dropWhile_sublist _).length_le

/-- The value of a hexadecimal digit. -/
def hexValue? (c : Char) : Option Nat :=
  if '0' ≤ c ∧ c ≤ '9' then some (c.toNat - 48)
  else if 'a' ≤ c ∧ c ≤ 'f' then some (c.toNat - 87)
  else if 'A' ≤ c ∧ c ≤ 'F' then some (c.toNat - 55)
  else none

/-- The value of four hexadecimal digits. -/
def unit? (cs : List Char) : Option Nat :=
  (cs.take 4).foldl (fun sum c => do return (← sum) * 16 + (← hexValue? c)) (some 0)

/-- The character that a plain escape stands for. -/
def plainEscape? (c : Char) : Option Char :=
  if c == '"' || c == '\\' || c == '/' then some c
  else if c == 'b' then some (Char.ofNat 8)
  else if c == 'f' then some (Char.ofNat 12)
  else if c == 'n' then some '\n'
  else if c == 'r' then some '\r'
  else if c == 't' then some '\t'
  else none

/-- The character with a code of its own; half of a pair has none. -/
def ofCode (n : Nat) : Char :=
  if 0xd800 ≤ n ∧ n < 0xe000 then Char.ofNat 0xfffd else Char.ofNat n

/-- Reads what follows a code: the second half of a pair, where a first half was read. -/
def pairWith (first : Nat) (cs : List Char) : Except Stop (Char × Nat) :=
  if 0xd800 ≤ first ∧ first < 0xdc00 ∧ 7 ≤ cs.length ∧ cs.take 2 = ['\\', 'u'] then
    match unit? (cs.drop 2) with
    | none => .error ⟨.codeEscape, cs.length - 1⟩
    | some second =>
      if 0xdc00 ≤ second ∧ second < 0xe000 then
        .ok (Char.ofNat (0x10000 + (first - 0xd800) * 0x400 + (second - 0xdc00)), 6)
      else .ok (ofCode first, 0)
  else .ok (ofCode first, 0)

/-- Reads what follows a backslash. `opening` is the place of the quote before the text. -/
def readEscape (opening : Nat) (cs : List Char) : Except Stop (Cut Char cs) :=
  match cs with
  | [] => .error ⟨.unterminated, opening⟩
  | c :: rest =>
    if c == 'u' then
      if rest.length < 5 then .error ⟨.codeEscape, rest.length + 1⟩
      else
        match unit? rest with
        | none => .error ⟨.codeEscape, rest.length + 1⟩
        | some first =>
          match pairWith first (rest.drop 4) with
          | .error stop => .error stop
          | .ok (c, more) => .ok ⟨(c, rest.drop (4 + more)),
            by simp only [List.length_drop, List.length_cons]; omega⟩
    else
      match plainEscape? c with
      | none => .error ⟨.escape, rest.length + 2⟩
      | some c => .ok ⟨(c, rest), by simp⟩

/-- Reads a text up to its closing quote. -/
def readText (opening : Nat) (cs : List Char) : Except Stop (Cut (List Char) cs) :=
  match cs with
  | [] => .error ⟨.unterminated, opening⟩
  | c :: rest =>
    if c == '"' then .ok ⟨([], rest), by simp⟩
    else if c == '\\' then
      match readEscape opening rest with
      | .error stop => .error stop
      | .ok ⟨(c, after), shorter⟩ =>
        have : after.length < rest.length := shorter
        match readText opening after with
        | .error stop => .error stop
        | .ok ⟨(more, tail), less⟩ =>
          .ok ⟨(c :: more, tail), by simp only [List.length_cons] at less ⊢; omega⟩
    else if c.toNat < 0x20 then .error ⟨.control, rest.length + 1⟩
    else
      match readText opening rest with
      | .error stop => .error stop
      | .ok ⟨(more, tail), less⟩ =>
        .ok ⟨(c :: more, tail), by simp only [List.length_cons] at less ⊢; omega⟩
termination_by cs.length

/-- The digits of stored numbers. -/
def isDigit (c : Char) : Bool :=
  '0' ≤ c && c ≤ '9'

/-- The whole part of a number: a zero, or digits that start with none. -/
def wholePart (cs : List Char) : List Char :=
  if cs.head? == some '0' then ['0'] else cs.takeWhile isDigit

/-- The fraction of a number with its point, empty when there are no digits behind the point. -/
def fractionPart : List Char → List Char
  | c :: rest =>
    if c == '.' && !(rest.takeWhile isDigit).isEmpty then c :: rest.takeWhile isDigit else []
  | [] => []

/-- The exponent of a number with its mark, empty when it has no digits. -/
def exponentPart : List Char → List Char
  | c :: rest =>
    let sign := (Decimal.splitMark rest).1
    let digits := (Decimal.splitMark rest).2.takeWhile isDigit
    if (c == 'e' || c == 'E') && !digits.isEmpty then c :: sign ++ digits else []
  | [] => []

/-- The number at the start of characters and how many of them it takes. It is whole when it has
neither fraction nor exponent. -/
def number? (cs : List Char) : Option (Json × Nat) :=
  let negative := cs.head? == some '-'
  let digits := if negative then cs.drop 1 else cs
  let whole := wholePart digits
  let fraction := fractionPart (digits.drop whole.length)
  let exponent := exponentPart (digits.drop (whole.length + fraction.length))
  let count := whole.length + fraction.length + exponent.length
  if whole.isEmpty then none
  else
    let number :=
      if fraction.isEmpty && exponent.isEmpty then
        Json.int (if negative then -(Text.digitsValue whole : Int) else Text.digitsValue whole)
      else .real (Decimal.value negative (whole ++ fraction ++ exponent))
    some (number, count + if negative then 1 else 0)

/-- The words that stand for a datum of their own. -/
def words : List (String × Json) :=
  [("null", .null), ("true", .bool true), ("false", .bool false), ("NaN", .real (0.0 / 0.0)),
    ("Infinity", .real (Double.infinity false)), ("-Infinity", .real (Double.infinity true))]

/-- The word or number at the start of characters and how many of them it takes. -/
def atom? (cs : List Char) : Option (Json × Nat) :=
  match words.find? fun (word, _) => cs.take word.length == word.toList with
  | some (word, j) => some (j, word.length)
  | none => number? cs

/-- Adds a member to an object; a key that occurs again keeps its first place and its last
datum. -/
def insertMember (key : String) (j : Json) : List (String × Json) → List (String × Json)
  | [] => [(key, j)]
  | (k, old) :: rest => if k == key then (k, j) :: rest else (k, old) :: insertMember key j rest

mutual
/-- Reads the datum at the start of characters. -/
def readValue (cs : List Char) : Except Stop (Cut Json cs) :=
  match cs with
  | [] => .error ⟨.value, 0⟩
  | c :: rest =>
    if c == '"' then
      match readText (rest.length + 1) rest with
      | .error stop => .error stop
      | .ok ⟨(s, after), shorter⟩ =>
        .ok ⟨(.text (String.ofList s), after), by simp only [List.length_cons] at shorter ⊢; omega⟩
    else if c == '[' then
      have := length_skipGap rest
      if (skipGap rest).head? == some ']' then
        .ok ⟨(.list [], (skipGap rest).tail), by simp only [List.length_tail, List.length_cons]; omega⟩
      else
        match readItems (skipGap rest) with
        | .error stop => .error stop
        | .ok ⟨(items, after), shorter⟩ =>
          .ok ⟨(.list items, after), by simp only [List.length_cons] at shorter ⊢; omega⟩
    else if c == '\x7b' then
      have := length_skipGap rest
      if (skipGap rest).head? == some '\x7d' then
        .ok ⟨(.object [], (skipGap rest).tail), by simp only [List.length_tail, List.length_cons]; omega⟩
      else
        match readMembers [] (skipGap rest) with
        | .error stop => .error stop
        | .ok ⟨(members, after), shorter⟩ =>
          .ok ⟨(.object members, after), by simp only [List.length_cons] at shorter ⊢; omega⟩
    else
      match atom? (c :: rest) with
      | none => .error ⟨.value, rest.length + 1⟩
      | some (j, count) =>
        .ok ⟨(j, rest.drop (count - 1)), by simp only [List.length_drop, List.length_cons]; omega⟩
termination_by (cs.length, 0)
decreasing_by
  all_goals simp_wf
  all_goals left; omega
/-- Reads the items of a list up to its closing bracket. -/
def readItems (cs : List Char) : Except Stop (Cut (List Json) cs) :=
  match readValue cs with
  | .error stop => .error stop
  | .ok ⟨(j, after), shorter⟩ =>
    have := length_skipGap after
    match tail : skipGap after with
    | [] => .error ⟨.comma, 0⟩
    | c :: rest =>
      have : rest.length + 1 ≤ after.length := by simp only [tail, List.length_cons] at this; omega
      if c == ']' then .ok ⟨([j], rest), by simp only at shorter ⊢; omega⟩
      else if c == ',' then
        have := length_skipGap rest
        match readItems (skipGap rest) with
        | .error stop => .error stop
        | .ok ⟨(items, after'), less⟩ =>
          .ok ⟨(j :: items, after'), by simp only at shorter less ⊢; omega⟩
      else .error ⟨.comma, rest.length + 1⟩
termination_by (cs.length, 1)
decreasing_by
  · exact Prod.Lex.right _ Nat.one_pos
  · left; simp only at shorter; omega
/-- Reads the members of an object up to its closing brace, `before` being those read already. -/
def readMembers (before : List (String × Json)) (cs : List Char) :
    Except Stop (Cut (List (String × Json)) cs) :=
  match cs with
  | [] => .error ⟨.key, 0⟩
  | c :: start =>
    if c == '"' then
      match readText (start.length + 1) start with
      | .error stop => .error stop
      | .ok ⟨(key, afterKey), keyShorter⟩ =>
        have := length_skipGap afterKey
        match colon : skipGap afterKey with
        | [] => .error ⟨.colon, 0⟩
        | mark :: afterMark =>
          have : afterMark.length + 1 ≤ afterKey.length := by
            simp only [colon, List.length_cons] at this; omega
          if mark == ':' then
            have := length_skipGap afterMark
            match readValue (skipGap afterMark) with
            | .error stop => .error stop
            | .ok ⟨(j, after), shorter⟩ =>
              have := length_skipGap after
              match tail : skipGap after with
              | [] => .error ⟨.comma, 0⟩
              | mark' :: rest =>
                have : rest.length + 1 ≤ after.length := by
                  simp only [tail, List.length_cons] at this; omega
                let members := insertMember (String.ofList key) j before
                if mark' == '\x7d' then
                  .ok ⟨(members, rest), by simp only [List.length_cons] at keyShorter shorter ⊢; omega⟩
                else if mark' == ',' then
                  have := length_skipGap rest
                  match readMembers members (skipGap rest) with
                  | .error stop => .error stop
                  | .ok ⟨(all, after'), less⟩ =>
                    .ok ⟨(all, after'), by simp only [List.length_cons] at keyShorter shorter less ⊢; omega⟩
                else .error ⟨.comma, rest.length + 1⟩
          else .error ⟨.colon, afterMark.length + 1⟩
    else .error ⟨.key, start.length + 1⟩
termination_by (cs.length, 1)
decreasing_by
  all_goals simp_wf
  · left; simp only at keyShorter; omega
  · left; simp only at keyShorter shorter; omega
end

/-- Why a text cannot be read, and where: line and column count from one, the position from
zero. -/
structure ReadError where
  cause : Cause
  line : Nat
  column : Nat
  position : Nat
  deriving DecidableEq

def ReadError.message (e : ReadError) : String :=
  e.cause.message ++ ": line " ++ toString e.line ++ " column " ++ toString e.column ++ " (char "
    ++ toString e.position ++ ")"

/-- The place of a fault in the whole text. -/
def Stop.locate (stop : Stop) (cs : List Char) : ReadError :=
  let before := cs.take (cs.length - stop.left)
  { cause := stop.cause
    line := before.count '\n' + 1
    column := (before.reverse.takeWhile (· != '\n')).length + 1
    position := before.length }

/-- Reads a datum and refuses anything behind it. -/
def readChars (cs : List Char) : Except Stop Json :=
  if cs.head? == some (Char.ofNat 0xfeff) then .error ⟨.orderMark, cs.length⟩
  else
    match readValue (skipGap cs) with
    | .error stop => .error stop
    | .ok ⟨(j, after), _⟩ =>
      if (skipGap after).isEmpty then .ok j else .error ⟨.extra, (skipGap after).length⟩

/-- Reads a stored text. -/
def read (s : String) : Except ReadError Json :=
  match readChars s.toList with
  | .ok j => .ok j
  | .error stop => .error (stop.locate s.toList)

end Flowchart.Json
