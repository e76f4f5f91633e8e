import Flowchart.Expression.Basic
import Flowchart.Lexeme
/-! Elements from the text of an expression. Names are looked up among the declared variables; a
conversion name before a parenthesis applies it, and an array name before a bracket takes what is
inside as its index. Elements are numbered in the order in which they are completed. -/
namespace Flowchart.Element

/-- The names of the conversion functions. -/
def functionNames : List String :=
  ["integer", "float", "string", "boolean"]

/-- Splits what follows an opening symbol at the symbol that closes it, `depth` being the number of
further openings that are still to be closed. -/
def splitClosing? (opening closing : String) : (depth : Nat) → List Lexeme →
    Option (List Lexeme × List Lexeme)
  | _, [] => none
  | depth, l :: rest =>
    if l.text == opening then
      (splitClosing? opening closing (depth + 1) rest).map fun (inside, after) => (l :: inside, after)
    else if l.text == closing then
      match depth with
      | 0 => some ([], rest)
      | depth + 1 =>
        (splitClosing? opening closing depth rest).map fun (inside, after) => (l :: inside, after)
    else (splitClosing? opening closing depth rest).map fun (inside, after) => (l :: inside, after)

/-- The inside and what follows are together shorter than the whole. -/
theorem length_splitClosing? {opening closing : String} {depth : Nat}
    {ls inside after : List Lexeme} (found : splitClosing? opening closing depth ls = some (inside, after)) :
    inside.length + after.length < ls.length := by
  induction ls generalizing depth inside after with
  | nil => simp [splitClosing?] at found
  | cons l rest ih =>
    have step {d : Nat}
        (more : (splitClosing? opening closing d rest).map (fun (i, a) => (l :: i, a)) = some (inside, after)) :
        inside.length + after.length < (l :: rest).length := by
      obtain ⟨⟨i, a⟩, cut, same⟩ := Option.map_eq_some_iff.1 more
      simp only [Prod.mk.injEq] at same
      have := ih cut
      rw [← same.1, ← same.2]
      simp only [List.length_cons]
      omega
    unfold splitClosing? at found
    split at found
    · exact step found
    · split at found
      · cases depth with
        | zero =>
          simp only [Option.some.injEq, Prod.mk.injEq] at found
          simp [← found.1, ← found.2]
        | succ d => exact step found
      · exact step found

/-- The element id with the given number. -/
def numbered (stem : String) (n : Nat) : String :=
  stem ++ "-" ++ toString n

/-- The variable with the given name; the last declaration counts. -/
def lookup? (declared : List Variable) (name : String) : Option Variable :=
  declared.reverse.find? (·.name == name)

/-- What a name at the start of lexemes stands for, with the lexemes inside its brackets and those
after them where it has some. -/
inductive Naming where
  | truth
  | whole (v : Variable)
  | call (inside after : List Lexeme)
  | item (v : Variable) (inside after : List Lexeme)

/-- Whether a name is one of the two truth values, in any case. -/
def isTruth (name : String) : Bool :=
  let small := String.ofList (name.toList.map Char.toLower)
  small == "true" || small == "false"

/-- Whether the next lexeme reads as given. -/
def isNext (text : String) (ls : List Lexeme) : Bool :=
  ls.head?.any (·.text == text)

/-- What a name before the given lexemes stands for: a conversion with its argument, a truth value,
or a declared variable, an array with its index where a bracket follows. -/
def naming (declared : List Variable) (name : String) (rest : List Lexeme) :
    Except SyntaxError Naming :=
  if functionNames.contains name && isNext "(" rest then
    match splitClosing? "(" ")" 0 rest.tail with
    | none => .error (.unclosed ")")
    | some (inside, after) => .ok (.call inside after)
  else if isTruth name then .ok .truth
  else
    match lookup? declared name with
    | none => .error (.unknownVariable name)
    | some v =>
      if v.isArray && isNext "[" rest then
        match splitClosing? "[" "]" 0 rest.tail with
        | none => .error (.unclosed "]")
        | some (inside, after) => .ok (.item v inside after)
      else .ok (.whole v)

/-- The lexemes that a name takes with it, if any. -/
def Naming.taken : Naming → Option (List Lexeme × List Lexeme)
  | truth => none
  | whole _ => none
  | call inside after => some (inside, after)
  | item _ inside after => some (inside, after)

theorem length_naming {declared : List Variable} {name : String} {rest inside after : List Lexeme}
    {n : Naming} (named : naming declared name rest = .ok n) (taken : n.taken = some (inside, after)) :
    inside.length + after.length < rest.length := by
  have bounded {opening closing : String}
      (cut : splitClosing? opening closing 0 rest.tail = some (inside, after)) :
      inside.length + after.length < rest.length := by
    have := length_splitClosing? cut
    simp only [List.length_tail] at this
    omega
  unfold naming at named
  split at named
  · split at named
    · cases named
    · cases named
      cases taken
      exact bounded ‹_›
  · split at named
    · cases named
      cases taken
    · split at named
      · cases named
      · split at named
        · split at named
          · cases named
          · cases named
            cases taken
            exact bounded ‹_›
        · cases named
          cases taken

/-- Makes elements of lexemes. `count` elements have been numbered before; the result has the
number of elements numbered after. -/
def ofLexemes (declared : List Variable) (count : Nat) (ls : List Lexeme) :
    Except SyntaxError (List Element × Nat) :=
  match ls with
  | [] => .ok ([], count)
  | .number text :: rest => do
    let (es, total) ← ofLexemes declared (count + 1) rest
    return (.literal (numbered "lit" (count + 1)) text :: es, total)
  | .quoted text :: rest => do
    let (es, total) ← ofLexemes declared (count + 1) rest
    return (.literal (numbered "lit" (count + 1)) text :: es, total)
  | .op text :: rest => do
    let (es, total) ← ofLexemes declared (count + 1) rest
    return (.operator (numbered "op" (count + 1)) text :: es, total)
  | .name name :: rest =>
    match named : naming declared name rest with
    | .error e => .error e
    | .ok .truth => do
      let (es, total) ← ofLexemes declared (count + 1) rest
      return (.literal (numbered "lit" (count + 1)) name :: es, total)
    | .ok (.whole v) => do
      let (es, total) ← ofLexemes declared (count + 1) rest
      return (.attached (numbered "var" (count + 1)) v :: es, total)
    | .ok (.call inside after) => do
      have := length_naming named rfl
      let (argument, count) ← ofLexemes declared count inside
      let (es, total) ← ofLexemes declared (count + 1) after
      return (.function (numbered "fn" (count + 1)) name (.value argument) :: es, total)
    | .ok (.item v inside after) => do
      have := length_naming named rfl
      let (index, count) ← ofLexemes declared count inside
      let (es, total) ← ofLexemes declared (count + 1) after
      return (.attached (numbered "var" (count + 1)) (v.indexed index) :: es, total)
termination_by ls.length
decreasing_by all_goals simp only [List.length_cons]; omega

/-- The elements of an expression's text, given the declared variables. -/
def ofText (declared : List Variable) (s : String) : Except SyntaxError (List Element) := do
  let ls ← Lexeme.scan s
  let (es, _) ← ofLexemes declared 0 ls
  return es

end Flowchart.Element
