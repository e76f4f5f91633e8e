/-! Styled text. A message names its styles by tags in brackets, as in `[bold]text[/bold]`, and
backslashes in front of a tag take its meaning away. Shown without colours, a message is its text
without the tags. -/
namespace Flowchart.Styled

/-- The characters that the inside of a tag starts with. -/
def startsTag (c : Char) : Bool :=
  ('a' ≤ c && c ≤ 'z') || c == '#' || c == '/' || c == '@'

/-- The inside of the tag whose opening bracket was just read, and what follows the tag. -/
def splitTag? : List Char → Option (List Char × List Char)
  | [] => none
  | c :: rest =>
    if startsTag c then
      match rest.dropWhile fun c => c != '[' && c != ']' with
      | ']' :: after => some (c :: rest.takeWhile (fun c => c != '[' && c != ']'), after)
      | _ => none
    else none

theorem length_splitTag? {cs inside after : List Char} (found : splitTag? cs = some (inside, after)) :
    after.length < cs.length := by
  cases cs with
  | nil => simp [splitTag?] at found
  | cons c rest =>
    simp only [splitTag?] at found
    split at found
    · split at found
      · next closed =>
        have shorter : (rest.dropWhile fun c => c != '[' && c != ']').length ≤ rest.length :=
          (List.dropWhile_suffix _).length_le
        rw [closed] at shorter
        simp only [Option.some.injEq, Prod.mk.injEq] at found
        rw [← found.2]
        simp at shorter ⊢
        omega
      · simp at found
    · simp at found

/-- A piece of a message. -/
inductive Piece where
  | text (cs : List Char)
  | tag (inside : List Char)

/-- Backslashes. -/
def slashes (n : Nat) : List Char :=
  List.replicate n '\\'

/-- The pieces of a message; `pending` backslashes were just read. In front of a tag two backslashes
stand for one, and one that is left over makes the tag a text. A backslash in front of any other
opening bracket is not shown. -/
def pieces (pending : Nat) (cs : List Char) : List Piece :=
  match cs with
  | [] => [.text (slashes pending)]
  | '\\' :: rest => pieces (pending + 1) rest
  | '[' :: rest =>
    match _found : splitTag? rest with
    | some (inside, after) =>
      let piece := if pending % 2 = 1 then Piece.text ('[' :: inside ++ [']']) else .tag inside
      .text (slashes (pending / 2)) :: piece :: pieces 0 after
    | none => .text (slashes (pending - 1) ++ ['[']) :: pieces 0 rest
  | c :: rest => .text (slashes pending ++ [c]) :: pieces 0 rest
termination_by cs.length
decreasing_by
  · simp
  · have := length_splitTag? _found
    simp
    omega
  · simp
  · simp

/-- The style that a tag names, in its full spelling. -/
def styleName (cs : List Char) : String :=
  match (String.ofList (cs.map Char.toLower)).trimAscii.toString with
  | "b" => "bold"
  | "d" => "dim"
  | "i" => "italic"
  | "u" => "underline"
  | "uu" => "underline2"
  | "r" => "reverse"
  | "c" => "conceal"
  | "s" => "strike"
  | "o" => "overline"
  | name => name

/-- The text of pieces within the given open styles, innermost first. A tag that closes a style has
to find it open. -/
def textOf (styles : List String) : List Piece → Option (List Char)
  | [] => some []
  | .text cs :: rest => (textOf styles rest).map (cs ++ ·)
  | .tag inside :: rest =>
    match inside.takeWhile (· != '=') with
    | '/' :: name =>
      if (styleName name).isEmpty then
        if styles.isEmpty then none else textOf styles.tail rest
      else if styles.contains (styleName name) then textOf (styles.erase (styleName name)) rest
      else none
    | name => textOf (styleName name :: styles) rest

/-- The text of a message without its tags; nothing when a style is closed that is not open. -/
def plain? (s : String) : Option String :=
  (textOf [] (pieces 0 s.toList)).map String.ofList

/-- Puts backslashes in front of the tags; `pending` backslashes were just read. -/
def escapeFrom (pending : Nat) (cs : List Char) : List Char :=
  match cs with
  | [] => slashes pending
  | '\\' :: rest => escapeFrom (pending + 1) rest
  | '[' :: rest =>
    match _found : splitTag? rest with
    | some (inside, after) =>
      slashes (2 * pending + 1) ++ '[' :: inside ++ ']' :: escapeFrom 0 after
    | none => slashes pending ++ '[' :: escapeFrom 0 rest
  | c :: rest => slashes pending ++ c :: escapeFrom 0 rest
termination_by cs.length
decreasing_by
  · simp
  · have := length_splitTag? _found
    simp
    omega
  · simp
  · simp

/-- The message that shows a text as it is. A single backslash at the end is doubled, since a tag
may follow. -/
def escape (s : String) : String :=
  let cs := escapeFrom 0 s.toList
  String.ofList (if (cs.reverse.takeWhile (· == '\\')).length = 1 then cs ++ ['\\'] else cs)

end Flowchart.Styled
