import Flowchart.Error
import Flowchart.Number.Decimal
/-! Lexemes: the words that an expression's text is cut into. At each place the operators are tried
first, then quoted texts, numbers and names; the first rule that applies takes as much as it can.
Spaces, tabs and line ends only separate. -/
namespace Flowchart

/-- A word of an expression with its kind. -/
inductive Lexeme where
  | op (text : String)
  | quoted (text : String)
  | number (text : String)
  | name (text : String)
  deriving DecidableEq

namespace Lexeme

def text : Lexeme → String
  | op text => text
  | quoted text => text
  | number text => text
  | name text => text

/-- The characters that separate words and belong to none. -/
def isGap (c : Char) : Bool :=
  c == ' ' || c == '\t' || c == '\r' || c == '\n'

/-- The operators of two characters. -/
def pairs : List (Char × Char) :=
  [('=', '='), ('!', '='), ('<', '='), ('>', '='), ('&', '&'), ('|', '|')]

/-- The operators of one character. -/
def singles : List Char :=
  ['-', '+', '*', '/', '%', '!', '<', '>', '(', ')', '[', ']']

/-- A start of names: a letter of the basic alphabet or an underscore. -/
def startsName (c : Char) : Bool :=
  c.isAlpha || c == '_'

/-- What names go on with. -/
def continuesName (c : Char) : Bool :=
  c.isAlphanum || c == '_'

/-- Cuts an operator off the start. -/
def splitOp? : List Char → Option (List Char × List Char)
  | a :: b :: rest =>
    if pairs.contains (a, b) then some ([a, b], rest)
    else if singles.contains a then some ([a], b :: rest)
    else none
  | [a] => if singles.contains a then some ([a], []) else none
  | [] => none

/-- Cuts a text between two equal quotes on one line off the start. -/
def splitQuoted? : List Char → Option (List Char × List Char)
  | quote :: rest =>
    let inside := rest.takeWhile fun c => c != quote && c != '\n'
    match rest.dropWhile fun c => c != quote && c != '\n' with
    | close :: after =>
      if (quote == '"' || quote == '\'') && close == quote then some (quote :: inside ++ [close], after)
      else none
    | [] => none
  | [] => none

/-- Cuts a name off the start. -/
def splitName? : List Char → Option (List Char × List Char)
  | c :: rest =>
    if startsName c then some (c :: rest.takeWhile continuesName, rest.dropWhile continuesName)
    else none
  | [] => none

/-- The rules in the order in which they are tried. -/
def rules : List ((String → Lexeme) × (List Char → Option (List Char × List Char))) :=
  [(.op, splitOp?), (.quoted, splitQuoted?), (.number, Decimal.split?), (.name, splitName?)]

/-- Cuts the first lexeme off a text that starts with no gap. -/
def split? (cs : List Char) : Option (Lexeme × List Char) :=
  rules.findSome? fun (kind, rule) => (rule cs).map fun (word, rest) => (kind (String.ofList word), rest)

theorem append_splitOp? {cs word rest : List Char} (found : splitOp? cs = some (word, rest)) :
    word ++ rest = cs ∧ word ≠ [] := by
  unfold splitOp? at found
  split at found
  · split at found
    · simp only [Option.some.injEq, Prod.mk.injEq] at found
      simp [← found.1, ← found.2]
    · split at found
      · simp only [Option.some.injEq, Prod.mk.injEq] at found
        simp [← found.1, ← found.2]
      · simp at found
  · split at found
    · simp only [Option.some.injEq, Prod.mk.injEq] at found
      simp [← found.1, ← found.2]
    · simp at found
  · simp at found

theorem append_splitQuoted? {cs word rest : List Char}
    (found : splitQuoted? cs = some (word, rest)) : word ++ rest = cs ∧ word ≠ [] := by
  unfold splitQuoted? at found
  split at found
  · rename_i quote tail
    have whole := List.takeWhile_append_dropWhile (p := fun c => c != quote && c != '\n') (l := tail)
    simp only at found
    split at found
    · rename_i close after same
      split at found
      · simp only [Option.some.injEq, Prod.mk.injEq] at found
        rw [same] at whole
        rw [← found.1, ← found.2]
        simpa using whole
      · simp at found
    · simp at found
  · simp at found

theorem append_splitName? {cs word rest : List Char} (found : splitName? cs = some (word, rest)) :
    word ++ rest = cs ∧ word ≠ [] := by
  unfold splitName? at found
  split at found
  · split at found
    · simp only [Option.some.injEq, Prod.mk.injEq] at found
      simp [← found.1, ← found.2, List.takeWhile_append_dropWhile]
    · simp at found
  · simp at found

/-- A lexeme is cut off the start without losing a character, and its text is never empty. -/
theorem append_split? {cs rest : List Char} {l : Lexeme} (found : split? cs = some (l, rest)) :
    l.text.toList ++ rest = cs ∧ l.text.toList ≠ [] := by
  unfold split? rules at found
  obtain ⟨⟨kind, rule⟩, member, cut⟩ := List.exists_of_findSome?_eq_some found
  obtain ⟨⟨word, after⟩, applied, same⟩ := Option.map_eq_some_iff.1 cut
  simp only [Prod.mk.injEq] at same
  rw [← same.1, ← same.2]
  simp only [List.mem_cons, Prod.mk.injEq, List.not_mem_nil, or_false] at member
  rcases member with ⟨rfl, rfl⟩ | ⟨rfl, rfl⟩ | ⟨rfl, rfl⟩ | ⟨rfl, rfl⟩
  · simpa [text] using append_splitOp? applied
  · simpa [text] using append_splitQuoted? applied
  · simpa [text] using Decimal.append_split? applied
  · simpa [text] using append_splitName? applied

/-- What follows the first lexeme is shorter than the text. -/
theorem length_lt_of_split? {cs rest : List Char} {l : Lexeme} (found : split? cs = some (l, rest)) :
    rest.length < cs.length := by
  obtain ⟨joined, nonempty⟩ := append_split? found
  have := List.length_pos_iff.2 nonempty
  rw [← joined, List.length_append]
  omega

/-- Cuts a text into lexemes, `position` being the number of characters before it. -/
def scanFrom (position : Nat) (cs : List Char) : Except SyntaxError (List Lexeme) :=
  match cs with
  | [] => .ok []
  | c :: rest =>
    if isGap c then scanFrom (position + 1) rest
    else
      match found : split? (c :: rest) with
      | none => .error (.illegalCharacter c position)
      | some (l, after) =>
        have := length_lt_of_split? found
        match scanFrom (position + l.text.length) after with
        | .error e => .error e
        | .ok more => .ok (l :: more)
termination_by cs.length
decreasing_by all_goals simp only [List.length_cons] at *; omega

/-- Cuts a text into lexemes, or names the first character that starts none. -/
def scan (s : String) : Except SyntaxError (List Lexeme) :=
  scanFrom 0 s.toList

end Lexeme

end Flowchart
