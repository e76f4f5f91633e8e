import Flowchart.Code.OfTerm
import Flowchart.Code.Text
import Flowchart.Lexeme
/-! The text of an expression can be read in one way only, also when more text follows it. Words end where no word
goes on, quoted texts at the first quote that is not escaped, and everything else stands in brackets. -/
namespace Flowchart

/-! Runs of characters of one sort. -/

theorem takeWhile_append_of_stops {p : Char → Bool} {run rest : List Char} (all : ∀ c ∈ run, p c = true)
    (stops : ∀ c, rest.head? = some c → p c = false) : (run ++ rest).takeWhile p = run := by
  rw [List.takeWhile_append_of_pos all]
  cases rest with
  | nil => simp
  | cons c rest => simp [stops c rfl]

/-- Runs that end at a character of another sort are the same where the texts are. -/
theorem append_cancel_of_stops {p : Char → Bool} {run run' rest rest' : List Char} (all : ∀ c ∈ run, p c = true)
    (all' : ∀ c ∈ run', p c = true) (stops : ∀ c, rest.head? = some c → p c = false)
    (stops' : ∀ c, rest'.head? = some c → p c = false) (same : run ++ rest = run' ++ rest') :
    run = run' ∧ rest = rest' := by
  have first : run = run' := by
    rw [← takeWhile_append_of_stops all stops, same, takeWhile_append_of_stops all' stops']
  rw [first] at same
  exact ⟨first, List.append_cancel_left same⟩

namespace Text

/-- Whether the last character is no blank. -/
def endsVisibly (cs : List Char) : Bool :=
  cs.getLast?.any fun c => !isBlank c

theorem endsVisibly_append (before : List Char) (c : Char) (rest : List Char) :
    endsVisibly (before ++ c :: rest) = endsVisibly (c :: rest) := by
  simp [endsVisibly, List.getLast?_append, List.getLast?_cons]

/-! Quoted texts. -/

/-- Whether a character is escaped between quotes. -/
def isEscaped (c : Char) : Bool :=
  c == '"' || c == '\\' || c.toNat < 0x20

/-- The characters that are escaped. -/
def escapes : List Char :=
  '"' :: '\\' :: (List.range 0x20).map Char.ofNat

theorem mem_escapes {c : Char} (escaped : isEscaped c = true) : c ∈ escapes := by
  simp only [isEscaped, Bool.or_eq_true, beq_iff_eq, decide_eq_true_eq] at escaped
  rcases escaped with (rfl | rfl) | control
  · simp [escapes]
  · simp [escapes]
  · refine List.mem_cons_of_mem _ (List.mem_cons_of_mem _ (List.mem_map.2 ⟨c.toNat, List.mem_range.2 control, ?_⟩))
    exact Char.ofNat_toNat c

theorem quotedChar_of_not_isEscaped {c : Char} (plain : isEscaped c = false) : quotedChar c = [c] := by
  simp only [isEscaped, Bool.or_eq_false_iff, beq_eq_false_iff_ne, decide_eq_false_iff_not] at plain
  obtain ⟨⟨noQuote, noSlash⟩, noControl⟩ := plain
  have other (d : Char) (control : d.toNat < 0x20) : c ≠ d := by
    rintro rfl
    exact noControl control
  have code (n : Nat) (control : n < 0x20) : c.toNat ≠ n := by
    rintro rfl
    exact noControl control
  simp [quotedChar, noQuote, noSlash, noControl, other '\n' (by decide), other '\r' (by decide),
    other '\t' (by decide), code 8 (by decide), code 12 (by decide)]

/-- An escape begins with a backslash and holds no line feed. -/
theorem quotedChar_escape {c : Char} (escaped : isEscaped c = true) :
    (quotedChar c).head? = some '\\' ∧ '\n' ∉ quotedChar c := by
  have each : (escapes.all fun c => (quotedChar c).head? == some '\\' && !(quotedChar c).contains '\n') = true := by
    decide +kernel
  simpa using List.all_eq_true.1 each c (mem_escapes escaped)

/-- No escape is the beginning of another. -/
theorem eq_of_quotedChar_begins {c d : Char} (escaped : isEscaped c = true) (escaped' : isEscaped d = true)
    (begins : quotedChar c <+: quotedChar d) : c = d := by
  have pairs : (escapes.all fun c => escapes.all fun d => !(quotedChar c).isPrefixOf (quotedChar d) || c == d) = true := by
    decide +kernel
  have pair := List.all_eq_true.1 (List.all_eq_true.1 pairs c (mem_escapes escaped)) d (mem_escapes escaped')
  rw [List.isPrefixOf_iff_prefix.2 begins] at pair
  simpa using pair

theorem quotedChar_cancel {c d : Char} {rest rest' : List Char}
    (same : quotedChar c ++ rest = quotedChar d ++ rest') : c = d ∧ rest = rest' := by
  -- an escape is no single character, since these are no backslashes
  have apart {c d : Char} {rest rest' : List Char} (escaped : isEscaped c = true) (plain : isEscaped d = false) :
      quotedChar c ++ rest ≠ quotedChar d ++ rest' := by
    intro same
    obtain ⟨begins, -⟩ := quotedChar_escape escaped
    have slash := congrArg List.head? same
    rw [List.head?_append, begins, quotedChar_of_not_isEscaped plain] at slash
    cases slash
    cases plain
  cases left : isEscaped c with
  | false =>
    cases right : isEscaped d with
    | false =>
      rw [quotedChar_of_not_isEscaped left, quotedChar_of_not_isEscaped right] at same
      exact List.cons.inj same
    | true => exact absurd same.symm (apart right left)
  | true =>
    cases right : isEscaped d with
    | false => exact absurd same (apart left right)
    | true =>
      have equal : c = d := by
        have begun : quotedChar c <+: quotedChar d ++ rest' := ⟨rest, same⟩
        rcases List.prefix_or_prefix_of_prefix begun (List.prefix_append _ _) with one | other
        · exact eq_of_quotedChar_begins left right one
        · exact (eq_of_quotedChar_begins right left other).symm
      rw [equal] at same
      exact ⟨equal, List.append_cancel_left same⟩

theorem head?_quotedChar_ne (c : Char) (rest : List Char) : (quotedChar c ++ rest).head? ≠ some '"' := by
  cases escaped : isEscaped c with
  | true =>
    rw [List.head?_append, (quotedChar_escape escaped).1, Option.some_or]
    decide
  | false =>
    rw [quotedChar_of_not_isEscaped escaped]
    rintro ⟨⟩
    cases escaped

theorem not_mem_quotedChar (c : Char) : '\n' ∉ quotedChar c := by
  cases escaped : isEscaped c with
  | true => exact (quotedChar_escape escaped).2
  | false =>
    rw [quotedChar_of_not_isEscaped escaped, List.mem_singleton]
    rintro rfl
    cases escaped

/-- What stands between quotes ends at the first quote that is not escaped. -/
theorem flatMap_quotedChar_cancel {cs ds rest rest' : List Char}
    (same : cs.flatMap quotedChar ++ '"' :: rest = ds.flatMap quotedChar ++ '"' :: rest') : cs = ds ∧ rest = rest' := by
  induction cs generalizing ds with
  | nil =>
    cases ds with
    | nil => exact ⟨rfl, (List.cons.inj same).2⟩
    | cons d ds =>
      rw [List.flatMap_cons, List.append_assoc] at same
      exact absurd (congrArg List.head? same).symm (head?_quotedChar_ne d _)
  | cons c cs ih =>
    rw [List.flatMap_cons, List.append_assoc] at same
    cases ds with
    | nil => exact absurd (congrArg List.head? same) (head?_quotedChar_ne c _)
    | cons d ds =>
      rw [List.flatMap_cons, List.append_assoc] at same
      obtain ⟨rfl, later⟩ := quotedChar_cancel same
      obtain ⟨rfl, rest⟩ := ih later
      exact ⟨rfl, rest⟩

theorem toList_quoted (s : String) : (quoted s).toList = '"' :: (s.toList.flatMap quotedChar ++ ['"']) := by
  simp [quoted]

/-- A quoted text shows where it ends and what it holds. -/
theorem quoted_cancel {s t : String} {rest rest' : List Char}
    (same : (quoted s).toList ++ rest = (quoted t).toList ++ rest') : s = t ∧ rest = rest' := by
  simp only [toList_quoted, List.cons_append, List.append_assoc, List.nil_append, List.cons.injEq, true_and] at same
  obtain ⟨chars, rest⟩ := flatMap_quotedChar_cancel same
  exact ⟨String.toList_injective chars, rest⟩

end Text

namespace Code

/-! What expressions are made of. -/

/-- Whether a text is a name of the basic alphabet. -/
def isName (s : String) : Bool :=
  match s.toList with
  | [] => false
  | c :: rest => Lexeme.startsName c && rest.all Lexeme.continuesName

/-- The characters of words, by which names and numerals are written. -/
def isWordChar (c : Char) : Bool :=
  Lexeme.continuesName c || c == '+' || c == '-' || c == '.'

/-- The characters that expressions begin with: those of words, a quote and a parenthesis. -/
def isOpening (c : Char) : Bool :=
  isWordChar c || c == '"' || c == '('

/-- Whether a text is written like a number: it begins with a digit, a sign or a point. -/
def isNumeral (s : String) : Bool :=
  match s.toList with
  | [] => false
  | c :: rest => !Lexeme.startsName c && isWordChar c && rest.all isWordChar

/-- The words that statements begin with. -/
def keywords : List String :=
  ["if", "else", "while", "print", "break", "pass"]

/-- What the code writes for an operator of the grammar. -/
def IsOperator (op : String) : Prop :=
  ∃ symbol operation, Operator.binary? symbol = some operation ∧ op = operatorName operation

/-- The words that stand for values, such as truth values or infinities. They are names, and no statement begins with
them. -/
structure Vocabulary where
  words : List String
  named : ∀ word ∈ words, isName word = true
  apart : ∀ word ∈ words, word ∉ keywords

namespace Vocabulary

/-- The truth values and the missing value. -/
def common : Vocabulary where
  words := ["True", "False", "None"]
  named := by decide
  apart := by decide

variable (V : Vocabulary)

/-- A name that stands for no value. -/
def IsIdent (name : String) : Prop :=
  isName name = true ∧ name ∉ V.words

instance (name : String) : Decidable (V.IsIdent name) :=
  inferInstanceAs (Decidable (_ ∧ _))

/-- The ways to write a value: a word for it, a numeral, or a quoted text. -/
def IsLiteral (raw : String) : Prop :=
  raw ∈ V.words ∨ isNumeral raw = true ∨ ∃ s, raw = Text.quoted s

end Vocabulary

mutual
/-- An expression whose words, values and operators are written in the common way. -/
def Expr.IsPlain (V : Vocabulary) : Expr → Prop
  | .ident i => V.IsIdent i.name
  | .literal _ _ raw => V.IsLiteral raw
  | .binary _ op left right => IsOperator op ∧ left.IsPlain V ∧ right.IsPlain V
  | .call _ callee args => V.IsIdent callee.name ∧ Expr.ArePlain V args
  | .subscript _ object index => object.IsPlain V ∧ index.IsPlain V
  | .blank .. => False
/-- The same of several expressions. -/
def Expr.ArePlain (V : Vocabulary) : List Expr → Prop
  | [] => True
  | e :: rest => e.IsPlain V ∧ Expr.ArePlain V rest
end

mutual
/-- An expression without origins and without the values of its literals. -/
def Expr.erase : Expr → Expr
  | .ident i => .ident ⟨none, i.name⟩
  | .literal _ _ raw => .literal none .nothing raw
  | .binary _ op left right => .binary none op left.erase right.erase
  | .call _ callee args => .call none ⟨none, callee.name⟩ (Expr.eraseAll args)
  | .subscript _ object index => .subscript none object.erase index.erase
  | .blank _ label => .blank none label
/-- The same of several expressions. -/
def Expr.eraseAll : List Expr → List Expr
  | [] => []
  | e :: rest => e.erase :: Expr.eraseAll rest
end

variable {V : Vocabulary}

theorem Expr.arePlain_iff {es : List Expr} : Expr.ArePlain V es ↔ ∀ e ∈ es, e.IsPlain V := by
  induction es with
  | nil => simp [ArePlain]
  | cons e rest ih => simp [ArePlain, ih]

theorem Expr.eraseAll_eq (es : List Expr) : Expr.eraseAll es = es.map Expr.erase := by
  induction es with
  | nil => rfl
  | cons e rest ih => rw [eraseAll, ih, List.map_cons]

/-! Words. -/

/-- A text of word characters only. -/
structure IsWord (s : String) : Prop where
  nonempty : s.toList ≠ []
  all : ∀ c ∈ s.toList, isWordChar c = true

theorem IsWord.begins {s : String} (word : IsWord s) : ∃ c rest, s.toList = c :: rest ∧ isWordChar c = true := by
  obtain ⟨c, rest, chars⟩ := List.exists_cons_of_ne_nil word.nonempty
  exact ⟨c, rest, chars, word.all c (by simp [chars])⟩

theorem IsWord.append_ne_cons {s : String} (word : IsWord s) {c : Char} (other : isWordChar c = false)
    (rest rest' : List Char) : s.toList ++ rest ≠ c :: rest' := by
  intro same
  obtain ⟨first, tail, chars, isWordChar⟩ := word.begins
  rw [chars, List.cons_append] at same
  rw [(List.cons.inj same).1, other] at isWordChar
  cases isWordChar

theorem IsWord.append_ne_quote {s : String} (word : IsWord s) (rest rest' : List Char) :
    s.toList ++ rest ≠ '"' :: rest' :=
  word.append_ne_cons (by decide) rest rest'

theorem IsWord.append_ne_paren {s : String} (word : IsWord s) (rest rest' : List Char) :
    s.toList ++ rest ≠ '(' :: rest' :=
  word.append_ne_cons (by decide) rest rest'

theorem isWordChar_of_continuesName {c : Char} (goesOn : Lexeme.continuesName c = true) : isWordChar c = true := by
  simp [isWordChar, goesOn]

theorem continuesName_of_startsName {c : Char} (starts : Lexeme.startsName c = true) :
    Lexeme.continuesName c = true := by
  simp only [Lexeme.startsName, Bool.or_eq_true] at starts
  rcases starts with letter | underscore
  · simp [Lexeme.continuesName, Char.isAlphanum, letter]
  · simp [Lexeme.continuesName, underscore]

/-- The codes of the blank characters. -/
def blankCodes : List Nat :=
  List.range' 9 5 ++ List.range' 28 5 ++ [0x85, 0xa0, 0x1680] ++ List.range' 0x2000 11 ++
    [0x2028, 0x2029, 0x202f, 0x205f, 0x3000]

theorem isBlank_eq_false_of_isOpening {c : Char} (opening : isOpening c = true) : Text.isBlank c = false := by
  have codes : (blankCodes.all fun n => !isOpening (Char.ofNat n)) = true := by decide
  cases blank : Text.isBlank c with
  | false => rfl
  | true =>
    have code : c.toNat ∈ blankCodes := by
      simp only [Text.isBlank, Bool.or_eq_true, Bool.and_eq_true, decide_eq_true_eq, beq_iff_eq] at blank
      simp only [blankCodes, List.mem_append, List.mem_range'_1, List.mem_cons, List.not_mem_nil]
      omega
    have other := List.all_eq_true.1 codes c.toNat code
    rw [Char.ofNat_toNat, opening] at other
    cases other

theorem isOpening_of_isWordChar {c : Char} (word : isWordChar c = true) : isOpening c = true := by
  simp [isOpening, word]

theorem IsWord.not_mem {s : String} (word : IsWord s) : '\n' ∉ s.toList := by
  intro member
  cases word.all _ member

theorem IsWord.endsVisibly {s : String} (word : IsWord s) : Text.endsVisibly s.toList = true := by
  have last := List.getLast_mem word.nonempty
  rw [Text.endsVisibly, List.getLast?_eq_some_getLast word.nonempty]
  simp [isBlank_eq_false_of_isOpening (isOpening_of_isWordChar (word.all _ last))]

theorem isWord_of_isName {s : String} (named : isName s = true) : IsWord s := by
  unfold isName at named
  split at named
  · cases named
  · rename_i c rest chars
    rw [Bool.and_eq_true, List.all_eq_true] at named
    constructor
    · simp [chars]
    · intro d member
      rw [chars] at member
      rcases List.mem_cons.1 member with rfl | later
      · exact isWordChar_of_continuesName (continuesName_of_startsName named.1)
      · exact isWordChar_of_continuesName (named.2 d later)

theorem isWord_of_isNumeral {s : String} (numeral : isNumeral s = true) : IsWord s := by
  unfold isNumeral at numeral
  split at numeral
  · cases numeral
  · rename_i c rest chars
    simp only [Bool.and_eq_true, List.all_eq_true] at numeral
    constructor
    · simp [chars]
    · intro d member
      rw [chars] at member
      rcases List.mem_cons.1 member with rfl | later
      · exact numeral.1.2
      · exact numeral.2 d later

theorem isName_eq_false_of_isNumeral {s : String} (numeral : isNumeral s = true) : isName s = false := by
  unfold isNumeral at numeral
  unfold isName
  split
  · rfl
  · rename_i c rest chars
    simp only [chars, Bool.and_eq_true, Bool.not_eq_true'] at numeral
    simp [numeral.1.1]

/-- What a word stands for by itself: a variable, or else a value. -/
def Vocabulary.atom (V : Vocabulary) (word : String) : Expr :=
  if V.IsIdent word then .ident ⟨none, word⟩ else .literal none .nothing word

/-- An operator is written as it is named, with no blank in it. -/
theorem IsOperator.written {op : String} (known : IsOperator op) :
    operatorText op = op ∧ ' ' ∉ op.toList ∧ '\n' ∉ op.toList := by
  obtain ⟨symbol, operation, binary, rfl⟩ := known
  cases symbol with
  | relation r =>
    cases binary
    cases r <;> decide
  | or | and | plus | minus | times | divide | modulo =>
    cases binary
    decide
  | not | openParen | closeParen | openBracket | closeBracket => cases binary

/-! The characters of expressions. -/

namespace Expr

/-- The characters that an expression is written with. -/
def chars (e : Expr) : List Char :=
  e.text.toList

/-- The characters of several expressions, each between the same marks. -/
def charsBetween (opening closing : List Char) (es : List Expr) : List Char :=
  es.flatMap fun e => opening ++ (e.chars ++ closing)

/-- The characters of arguments. -/
def argChars : List Expr → List Char
  | [] => []
  | e :: rest => e.chars ++ charsBetween [',', ' '] [] rest

theorem charsBetween_cons (opening closing : List Char) (e : Expr) (rest : List Expr) :
    charsBetween opening closing (e :: rest) = opening ++ (e.chars ++ (closing ++ charsBetween opening closing rest)) := by
  simp [charsBetween]

theorem toList_intercalate_texts (es : List Expr) : (", ".intercalate (texts es)).toList = argChars es := by
  induction es with
  | nil => rfl
  | cons e rest ih =>
    cases rest with
    | nil => simp [texts, argChars, charsBetween, chars]
    | cons f rest =>
      simp only [String.toList_intercalate, texts, List.map_cons, argChars] at ih ⊢
      rw [List.intercalate_cons_cons, ih, charsBetween_cons]
      simp [chars]

theorem not_mem_argChars {es : List Expr} (each : ∀ e ∈ es, '\n' ∉ e.chars) : '\n' ∉ argChars es := by
  cases es with
  | nil => nofun
  | cons e es =>
    obtain ⟨first, later⟩ := List.forall_mem_cons.1 each
    simp only [argChars, charsBetween, List.mem_append, List.mem_flatMap, not_or, not_exists, not_and]
    refine ⟨first, fun f member => ?_⟩
    simp [later f member]

theorem chars_quoted (origin : Option Origin) (value : Value) (s : String) :
    (literal origin value (Text.quoted s)).chars = '"' :: (s.toList.flatMap Text.quotedChar ++ ['"']) := by
  rw [chars, text, Text.toList_quoted]

theorem chars_binary {origin : Option Origin} {op : String} (known : IsOperator op) (left right : Expr) :
    (binary origin op left right).chars =
      '(' :: (left.chars ++ ' ' :: (op.toList ++ ' ' :: (right.chars ++ [')']))) := by
  simp [chars, text, known.written.1]

theorem chars_call (origin : Option Origin) (callee : Ident) (args : List Expr) :
    (call origin callee args).chars = callee.name.toList ++ '(' :: (argChars args ++ [')']) := by
  simp [chars, text, ← toList_intercalate_texts]

theorem chars_subscript (origin : Option Origin) (object index : Expr) :
    (subscript origin object index).chars = object.chars ++ '[' :: (index.chars ++ [']']) := by
  simp [chars, text]

/-! The head of an expression is what its indexes select from. -/

def head : Expr → Expr
  | subscript _ object _ => object.head
  | e => e

def indices : Expr → List Expr
  | subscript _ object index => object.indices ++ [index]
  | _ => []

theorem chars_eq (e : Expr) : e.chars = e.head.chars ++ charsBetween ['['] [']'] e.indices := by
  cases e with
  | subscript origin object index =>
    rw [chars_subscript, chars_eq object]
    simp [head, indices, charsBetween]
  | _ => simp [head, indices, charsBetween]

theorem erase_eq (e : Expr) :
    e.erase = (eraseAll e.indices).foldl (fun object index => .subscript none object index) e.head.erase := by
  cases e with
  | subscript origin object index =>
    rw [erase, erase_eq object]
    simp [head, indices, eraseAll_eq]
  | _ => rfl

theorem arePlain_indices {e : Expr} (plain : e.IsPlain V) : ArePlain V e.indices := by
  cases e with
  | subscript origin object index =>
    rw [IsPlain] at plain
    have before := arePlain_indices plain.1
    rw [arePlain_iff] at before ⊢
    simp only [indices, List.mem_append, List.mem_singleton]
    rintro i (early | rfl)
    · exact before i early
    · exact plain.2
  | _ => trivial

/-- The heads: a word, a quoted text, an operator with its operands in parentheses, or a call. -/
inductive Head (V : Vocabulary) : Expr → Prop
  | word {e : Expr} (isWord : IsWord e.text) (atom : e.erase = V.atom e.text) : Head V e
  | quoted {origin : Option Origin} {value : Value} (s : String) : Head V (literal origin value (Text.quoted s))
  | binary {origin : Option Origin} {op : String} {left right : Expr} (known : IsOperator op)
    (plainLeft : left.IsPlain V) (plainRight : right.IsPlain V) : Head V (binary origin op left right)
  | call {origin : Option Origin} {callee : Ident} {args : List Expr} (named : V.IsIdent callee.name)
    (plain : ArePlain V args) : Head V (call origin callee args)

theorem head_of_isPlain {e : Expr} (plain : e.IsPlain V) : Head V e.head := by
  cases e with
  | ident i =>
    rw [IsPlain] at plain
    refine .word (isWord_of_isName plain.1) ?_
    simp only [head, text, erase, Vocabulary.atom]
    rw [if_pos plain]
  | literal origin value raw =>
    rw [IsPlain] at plain
    rcases plain with word | numeral | ⟨s, rfl⟩
    · refine .word (isWord_of_isName (V.named raw word)) ?_
      simp [head, text, erase, Vocabulary.atom, Vocabulary.IsIdent, word]
    · refine .word (isWord_of_isNumeral numeral) ?_
      simp [head, text, erase, Vocabulary.atom, Vocabulary.IsIdent, isName_eq_false_of_isNumeral numeral]
    · exact .quoted s
  | binary origin op left right =>
    rw [IsPlain] at plain
    exact .binary plain.1 plain.2.1 plain.2.2
  | call origin callee args =>
    rw [IsPlain] at plain
    exact .call plain.1 plain.2
  | subscript origin object index =>
    rw [IsPlain] at plain
    rw [head]
    exact head_of_isPlain plain.1
  | blank => exact plain.elim

/-! What follows an expression. -/

/-- The characters that follow whole expressions. -/
def marks : List Char :=
  [' ', ')', ',', ']', ':']

/-- A text that is empty or begins with one of the marks. -/
def EndsAt (marks rest : List Char) : Prop :=
  ∀ c, rest.head? = some c → c ∈ marks

theorem endsAt_cons {marks rest : List Char} {c : Char} (mark : c ∈ marks) : EndsAt marks (c :: rest) := by
  rintro d ⟨⟩
  exact mark

theorem endsAt_blank (rest : List Char) : EndsAt marks (' ' :: rest) :=
  endsAt_cons (by decide)

theorem endsAt_paren (rest : List Char) : EndsAt marks (')' :: rest) :=
  endsAt_cons (by decide)

/-- No word goes on at a mark, nor at an opening bracket. -/
theorem EndsAt.isWordChar_eq_false {rest : List Char} (ends : EndsAt ('(' :: '[' :: marks) rest) :
    ∀ c, rest.head? = some c → isWordChar c = false := by
  have apart : (('(' :: '[' :: marks).all fun c => !isWordChar c) = true := by decide
  intro c first
  simpa using List.all_eq_true.1 apart c (ends c first)

theorem EndsAt.mono {marks marks' rest : List Char} (ends : EndsAt marks rest) (more : marks ⊆ marks') :
    EndsAt marks' rest := by
  intro c first
  exact more (ends c first)

/-- Whatever expression is written like this one before a mark is the same expression. -/
def Cancels (V : Vocabulary) (e : Expr) : Prop :=
  ∀ (f : Expr) (rest rest' : List Char), f.IsPlain V → EndsAt marks rest → EndsAt marks rest' →
    e.chars ++ rest = f.chars ++ rest' → e.erase = f.erase ∧ rest = rest'

/-- The same of heads, which indexes may follow. -/
def HeadCancels (V : Vocabulary) (e : Expr) : Prop :=
  ∀ (f : Expr) (rest rest' : List Char), Head V f → EndsAt ('[' :: marks) rest → EndsAt ('[' :: marks) rest' →
    e.chars ++ rest = f.chars ++ rest' → e.erase = f.erase ∧ rest = rest'

/-- Expressions between marks, up to something that begins otherwise. -/
theorem charsBetween_cancel {c : Char} {opening closing : List Char} {After : List Char → Prop}
    (apart : ∀ rest, After rest → rest.head? ≠ some c)
    (closes : ∀ rest, rest.head? = some c ∨ After rest → EndsAt marks (closing ++ rest))
    {es fs : List Expr} {rest rest' : List Char} (each : ∀ e ∈ es, Cancels V e) (plain : ArePlain V fs)
    (after : After rest) (after' : After rest')
    (same : charsBetween (c :: opening) closing es ++ rest = charsBetween (c :: opening) closing fs ++ rest') :
    eraseAll es = eraseAll fs ∧ rest = rest' := by
  have begins {rest : List Char} (after : After rest) (es : List Expr) :
      (charsBetween (c :: opening) closing es ++ rest).head? = some c ∨
        After (charsBetween (c :: opening) closing es ++ rest) := by
    cases es with
    | nil => exact .inr after
    | cons e es => exact .inl (by simp [charsBetween_cons])
  induction es generalizing fs with
  | nil =>
    cases fs with
    | nil => exact ⟨rfl, same⟩
    | cons f fs =>
      refine absurd (congrArg List.head? same) ?_
      rw [charsBetween_cons]
      exact apart rest after
  | cons e es ih =>
    cases fs with
    | nil =>
      refine absurd (congrArg List.head? same).symm ?_
      rw [charsBetween_cons]
      exact apart rest' after'
    | cons f fs =>
      rw [ArePlain] at plain
      simp only [charsBetween_cons, List.append_assoc] at same
      have items := List.append_cancel_left same
      obtain ⟨first, later⟩ := each e List.mem_cons_self f _ _ plain.1 (closes _ (begins after es))
        (closes _ (begins after' fs)) items
      obtain ⟨others, ends⟩ := ih (fun e member => each e (List.mem_cons_of_mem _ member)) plain.2
        (List.append_cancel_left later)
      exact ⟨by rw [eraseAll, eraseAll, first, others], ends⟩

theorem indices_cancel {es fs : List Expr} {rest rest' : List Char} (each : ∀ e ∈ es, Cancels V e)
    (plain : ArePlain V fs) (ends : EndsAt marks rest) (ends' : EndsAt marks rest')
    (same : charsBetween ['['] [']'] es ++ rest = charsBetween ['['] [']'] fs ++ rest') :
    eraseAll es = eraseAll fs ∧ rest = rest' := by
  refine charsBetween_cancel ?_ ?_ each plain ends ends' same
  · intro rest ends bracket
    exact absurd (ends _ bracket) (by decide)
  · intro rest _
    exact endsAt_cons (by decide)

theorem Head.begins {e : Expr} (head : Head V e) : ∃ c rest, e.chars = c :: rest ∧ isOpening c = true := by
  cases head with
  | word isWord _ =>
    obtain ⟨c, rest, chars, first⟩ := isWord.begins
    exact ⟨c, rest, chars, isOpening_of_isWordChar first⟩
  | quoted s => exact ⟨'"', _, chars_quoted _ _ s, rfl⟩
  | binary known => exact ⟨'(', _, chars_binary known _ _, rfl⟩
  | call named =>
    obtain ⟨c, rest, chars, first⟩ := (isWord_of_isName named.1).begins
    exact ⟨c, _, by rw [chars_call, chars, List.cons_append], isOpening_of_isWordChar first⟩

theorem begins {e : Expr} (plain : e.IsPlain V) : ∃ c rest, e.chars = c :: rest ∧ isOpening c = true := by
  obtain ⟨c, rest, chars, first⟩ := (head_of_isPlain plain).begins
  exact ⟨c, _, by rw [chars_eq, chars, List.cons_append], first⟩

theorem chars_append_ne_cons {e : Expr} (plain : e.IsPlain V) {c : Char} (other : isOpening c = false)
    (rest rest' : List Char) : e.chars ++ rest ≠ c :: rest' := by
  intro same
  obtain ⟨first, tail, chars, opening⟩ := begins plain
  rw [chars, List.cons_append] at same
  rw [(List.cons.inj same).1, other] at opening
  cases opening

/-- The arguments behind the first one, up to the closing parenthesis. -/
theorem laterArgs_cancel {es fs : List Expr} {rest rest' : List Char} (each : ∀ e ∈ es, Cancels V e)
    (plain : ArePlain V fs)
    (same : charsBetween [',', ' '] [] es ++ ')' :: rest = charsBetween [',', ' '] [] fs ++ ')' :: rest') :
    eraseAll es = eraseAll fs ∧ rest = rest' := by
  have apart : ∀ rest : List Char, rest.head? = some ')' → rest.head? ≠ some ',' := by
    intro rest closing comma
    rw [closing] at comma
    cases comma
  have stops : ∀ rest : List Char, rest.head? = some ',' ∨ rest.head? = some ')' → EndsAt marks ([] ++ rest) := by
    rintro rest (comma | closing) c first
    · rw [List.nil_append, comma] at first
      cases first
      decide
    · rw [List.nil_append, closing] at first
      cases first
      decide
  obtain ⟨erased, ends⟩ := charsBetween_cancel apart stops each plain rfl rfl same
  exact ⟨erased, (List.cons.inj ends).2⟩

theorem endsAt_laterArgs (es : List Expr) (rest : List Char) :
    EndsAt marks (charsBetween [',', ' '] [] es ++ ')' :: rest) := by
  cases es with
  | nil => exact endsAt_paren rest
  | cons e es =>
    rw [charsBetween_cons]
    exact endsAt_cons (by decide)

theorem args_cancel {es fs : List Expr} {rest rest' : List Char} (each : ∀ e ∈ es, Cancels V e)
    (plainEach : ArePlain V es) (plain : ArePlain V fs)
    (same : argChars es ++ ')' :: rest = argChars fs ++ ')' :: rest') :
    eraseAll es = eraseAll fs ∧ rest = rest' := by
  have notEmpty {e : Expr} {es : List Expr} {rest rest' : List Char} (plain : e.IsPlain V) :
      argChars (e :: es) ++ ')' :: rest ≠ argChars [] ++ ')' :: rest' := by
    simp only [argChars, List.append_assoc, List.nil_append]
    exact chars_append_ne_cons plain (by decide) _ _
  cases es with
  | nil =>
    cases fs with
    | nil => exact ⟨rfl, (List.cons.inj same).2⟩
    | cons f fs => exact absurd same.symm (notEmpty plain.1)
  | cons e es =>
    cases fs with
    | nil => exact absurd same (notEmpty plainEach.1)
    | cons f fs =>
      rw [ArePlain] at plain
      obtain ⟨cancels, later⟩ := List.forall_mem_cons.1 each
      simp only [argChars, List.append_assoc] at same
      obtain ⟨first, same⟩ := cancels f _ _ plain.1 (endsAt_laterArgs es rest) (endsAt_laterArgs fs rest') same
      obtain ⟨others, after⟩ := laterArgs_cancel later plain.2 same
      exact ⟨by rw [eraseAll, eraseAll, first, others], after⟩

theorem words_cancel {w w' : String} {rest rest' : List Char} (word : IsWord w) (word' : IsWord w')
    (ends : EndsAt ('(' :: '[' :: marks) rest) (ends' : EndsAt ('(' :: '[' :: marks) rest')
    (same : w.toList ++ rest = w'.toList ++ rest') : w = w' ∧ rest = rest' := by
  obtain ⟨chars, after⟩ := append_cancel_of_stops word.all word'.all ends.isWordChar_eq_false
    ends'.isWordChar_eq_false same
  exact ⟨String.toList_injective chars, after⟩

theorem headCancels_word {e : Expr} (isWord : IsWord e.text) (atom : e.erase = V.atom e.text) : HeadCancels V e := by
  intro f rest rest' head ends ends' same
  have later := ends.mono (List.subset_cons_self '(' _)
  have later' := ends'.mono (List.subset_cons_self '(' _)
  cases head with
  | word isWord' atom' =>
    obtain ⟨text, after⟩ := words_cancel isWord isWord' later later' same
    exact ⟨by rw [atom, atom', text], after⟩
  | quoted s =>
    rw [chars_quoted] at same
    exact absurd same (isWord.append_ne_quote _ _)
  | binary known =>
    rw [chars_binary known] at same
    exact absurd same (isWord.append_ne_paren _ _)
  | call named =>
    rw [chars_call, List.append_assoc] at same
    obtain ⟨-, after⟩ := words_cancel isWord (isWord_of_isName named.1) later (endsAt_cons List.mem_cons_self) same
    rw [after] at ends
    exact absurd (ends '(' rfl) (by decide)

theorem headCancels_quoted {origin : Option Origin} {value : Value} (s : String) :
    HeadCancels V (literal origin value (Text.quoted s)) := by
  intro f rest rest' head _ _ same
  cases head with
  | word isWord =>
    rw [chars_quoted] at same
    exact absurd same.symm (isWord.append_ne_quote _ _)
  | quoted t =>
    obtain ⟨rfl, after⟩ := Text.quoted_cancel same
    exact ⟨rfl, after⟩
  | binary known =>
    rw [chars_quoted, chars_binary known] at same
    cases (List.cons.inj same).1
  | call named =>
    rw [chars_quoted, chars_call, List.append_assoc] at same
    exact absurd same.symm ((isWord_of_isName named.1).append_ne_quote _ _)

theorem headCancels_binary {origin : Option Origin} {op : String} {left right : Expr} (known : IsOperator op)
    (cancelsLeft : Cancels V left) (cancelsRight : Cancels V right) : HeadCancels V (binary origin op left right) := by
  intro f rest rest' head _ _ same
  rw [chars_binary known] at same
  cases head with
  | word isWord => exact absurd same.symm (isWord.append_ne_paren _ _)
  | quoted s =>
    rw [chars_quoted] at same
    cases (List.cons.inj same).1
  | binary known' plainLeft plainRight =>
    rename_i origin' op' left' right'
    rw [chars_binary known'] at same
    simp only [List.cons_append, List.append_assoc, List.cons.injEq, true_and] at same
    obtain ⟨lefts, same⟩ := cancelsLeft left' _ _ plainLeft (endsAt_blank _) (endsAt_blank _) same
    -- the operator ends at the blank after it
    have ends {rest : List Char} : ∀ c, (' ' :: rest).head? = some c → (c != ' ') = false := by
      rintro c ⟨⟩
      rfl
    have noBlank {op : String} (known : IsOperator op) : ∀ c ∈ op.toList, (c != ' ') = true := by
      intro c member
      rw [bne_iff_ne]
      rintro rfl
      exact known.written.2.1 member
    obtain ⟨ops, same⟩ := append_cancel_of_stops (noBlank known) (noBlank known') ends ends (List.cons.inj same).2
    obtain ⟨rights, same⟩ := cancelsRight right' _ _ plainRight (endsAt_paren _) (endsAt_paren _)
      (List.cons.inj same).2
    refine ⟨?_, (List.cons.inj same).2⟩
    rw [erase, erase, String.toList_injective ops, lefts, rights]
  | call named =>
    rw [chars_call, List.append_assoc] at same
    exact absurd same.symm ((isWord_of_isName named.1).append_ne_paren _ _)

theorem headCancels_call {origin : Option Origin} {callee : Ident} {args : List Expr} (named : V.IsIdent callee.name)
    (plainArgs : ArePlain V args) (each : ∀ e ∈ args, Cancels V e) : HeadCancels V (call origin callee args) := by
  intro f rest rest' head _ stops same
  rw [chars_call, List.append_assoc] at same
  have isWord := isWord_of_isName named.1
  have opens {rest : List Char} : EndsAt ('(' :: '[' :: marks) ('(' :: rest) := endsAt_cons List.mem_cons_self
  cases head with
  | word isWord' =>
    obtain ⟨-, after⟩ := words_cancel isWord isWord' opens (stops.mono (List.subset_cons_self '(' _)) same
    rw [← after] at stops
    exact absurd (stops '(' rfl) (by decide)
  | quoted s =>
    rw [chars_quoted] at same
    exact absurd same (isWord.append_ne_quote _ _)
  | binary known =>
    rw [chars_binary known] at same
    exact absurd same (isWord.append_ne_paren _ _)
  | call named' plain =>
    rename_i origin' callee' args'
    rw [chars_call, List.append_assoc] at same
    obtain ⟨names, same⟩ := words_cancel isWord (isWord_of_isName named'.1) opens opens same
    have inside := (List.cons.inj same).2
    rw [List.append_eq, List.append_eq, List.append_assoc, List.append_assoc] at inside
    obtain ⟨items, after⟩ := args_cancel each plainArgs plain inside
    exact ⟨by rw [erase, erase, names, items], after⟩

/-- A head and its indexes are told apart where each of them is. -/
theorem cancels_of_head {e : Expr} (head : HeadCancels V e.head) (each : ∀ i ∈ e.indices, Cancels V i) :
    Cancels V e := by
  intro f rest rest' plain ends ends' same
  rw [chars_eq e, chars_eq f, List.append_assoc, List.append_assoc] at same
  have begins {rest : List Char} (ends : EndsAt marks rest) (es : List Expr) :
      EndsAt ('[' :: marks) (charsBetween ['['] [']'] es ++ rest) := by
    cases es with
    | nil => exact ends.mono (List.subset_cons_self _ _)
    | cons i es =>
      rw [charsBetween_cons]
      exact endsAt_cons List.mem_cons_self
  obtain ⟨heads, same⟩ := head f.head _ _ (head_of_isPlain plain) (begins ends _) (begins ends' _) same
  obtain ⟨items, after⟩ := indices_cancel each (arePlain_indices plain) ends ends' same
  exact ⟨by rw [erase_eq e, erase_eq f, heads, items], after⟩

mutual
theorem head_indices_cancel {e : Expr} (plain : e.IsPlain V) :
    HeadCancels V e.head ∧ ∀ i ∈ e.indices, Cancels V i := by
  have head := head_of_isPlain plain
  cases e with
  | ident i =>
    cases head with
    | word isWord atom => exact ⟨headCancels_word isWord atom, nofun⟩
  | literal origin value raw =>
    cases head with
    | word isWord atom => exact ⟨headCancels_word isWord atom, nofun⟩
    | quoted s => exact ⟨headCancels_quoted s, nofun⟩
  | binary origin op left right =>
    rw [IsPlain] at plain
    exact ⟨headCancels_binary plain.1 (cancels plain.2.1) (cancels plain.2.2), nofun⟩
  | call origin callee args =>
    rw [IsPlain] at plain
    exact ⟨headCancels_call plain.1 plain.2 (cancels_each plain.2), nofun⟩
  | subscript origin object index =>
    rw [IsPlain] at plain
    obtain ⟨head, each⟩ := head_indices_cancel plain.1
    refine ⟨by rwa [Expr.head], ?_⟩
    simp only [indices, List.mem_append, List.mem_singleton]
    rintro i (early | rfl)
    · exact each i early
    · exact cancels plain.2
  | blank => exact plain.elim

/-- An expression can be read off the beginning of a text in one way only. -/
theorem cancels {e : Expr} (plain : e.IsPlain V) : Cancels V e := by
  obtain ⟨head, each⟩ := head_indices_cancel plain
  exact cancels_of_head head each

theorem cancels_each {es : List Expr} (plain : ArePlain V es) : ∀ e ∈ es, Cancels V e := by
  cases es with
  | nil => nofun
  | cons e es =>
    rw [ArePlain] at plain
    exact List.forall_mem_cons.2 ⟨cancels plain.1, cancels_each plain.2⟩
end

/-! An expression is written on one line, its last character is visible, and nothing in it is blank. -/

mutual
theorem not_mem_chars {e : Expr} (plain : e.IsPlain V) : '\n' ∉ e.chars := by
  cases e with
  | ident i =>
    rw [IsPlain] at plain
    exact (isWord_of_isName plain.1).not_mem
  | literal origin value raw =>
    rw [IsPlain] at plain
    rcases plain with known | numeral | ⟨s, rfl⟩
    · exact (isWord_of_isName (V.named raw known)).not_mem
    · exact (isWord_of_isNumeral numeral).not_mem
    · simp [chars_quoted, Text.not_mem_quotedChar]
  | binary origin op left right =>
    rw [IsPlain] at plain
    simp [chars_binary plain.1, not_mem_chars plain.2.1, not_mem_chars plain.2.2, plain.1.written.2.2]
  | call origin callee args =>
    rw [IsPlain] at plain
    have inName : '\n' ∉ callee.name.toList := (isWord_of_isName plain.1.1).not_mem
    have inArgs : '\n' ∉ argChars args := not_mem_argChars (not_mem_each plain.2)
    simp [chars_call, inName, inArgs]
  | subscript origin object index =>
    rw [IsPlain] at plain
    simp [chars_subscript, not_mem_chars plain.1, not_mem_chars plain.2]
  | blank => exact plain.elim

theorem not_mem_each {es : List Expr} (plain : ArePlain V es) : ∀ e ∈ es, '\n' ∉ e.chars := by
  cases es with
  | nil => nofun
  | cons e es =>
    rw [ArePlain] at plain
    exact List.forall_mem_cons.2 ⟨not_mem_chars plain.1, not_mem_each plain.2⟩
end

theorem endsVisibly_chars {e : Expr} (plain : e.IsPlain V) : Text.endsVisibly e.chars = true := by
  cases e with
  | ident i =>
    rw [IsPlain] at plain
    exact (isWord_of_isName plain.1).endsVisibly
  | literal origin value raw =>
    rw [IsPlain] at plain
    rcases plain with known | numeral | ⟨s, rfl⟩
    · exact (isWord_of_isName (V.named raw known)).endsVisibly
    · exact (isWord_of_isNumeral numeral).endsVisibly
    · rw [chars_quoted, ← List.cons_append, Text.endsVisibly_append]
      rfl
  | binary origin op left right =>
    rw [IsPlain] at plain
    rw [chars_binary plain.1, ← List.cons_append, Text.endsVisibly_append, ← List.cons_append,
      Text.endsVisibly_append, ← List.cons_append, Text.endsVisibly_append]
    rfl
  | call origin callee args =>
    rw [chars_call, ← List.cons_append, ← List.append_assoc, Text.endsVisibly_append]
    rfl
  | subscript origin object index =>
    rw [chars_subscript, ← List.cons_append, ← List.append_assoc, Text.endsVisibly_append]
    rfl
  | blank => exact plain.elim

mutual
theorem firstBlank?_eq_none {e : Expr} (plain : e.IsPlain V) : e.firstBlank? = none := by
  cases e with
  | ident i => rfl
  | literal origin value raw => rfl
  | binary origin op left right =>
    rw [IsPlain] at plain
    rw [firstBlank?, firstBlank?_eq_none plain.2.1, firstBlank?_eq_none plain.2.2, Option.none_or]
  | call origin callee args =>
    rw [IsPlain] at plain
    rw [firstBlank?, firstBlankIn?_eq_none plain.2]
  | subscript origin object index =>
    rw [IsPlain] at plain
    rw [firstBlank?, firstBlank?_eq_none plain.1, firstBlank?_eq_none plain.2, Option.none_or]
  | blank => exact plain.elim

theorem firstBlankIn?_eq_none {es : List Expr} (plain : ArePlain V es) : firstBlankIn? es = none := by
  cases es with
  | nil => rfl
  | cons e es =>
    rw [ArePlain] at plain
    rw [firstBlankIn?, firstBlank?_eq_none plain.1, firstBlankIn?_eq_none plain.2, Option.none_or]
end

end Expr

end Code

end Flowchart
