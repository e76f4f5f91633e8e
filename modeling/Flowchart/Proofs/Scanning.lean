import Mathlib.Computability.Language
import Flowchart.Proofs.Cutting
/-! Scanning partitions a text. The four sorts of words are regular languages, tried in a fixed order. A text is scanned
exactly if it falls into gaps and words, each word the longest of the first language that has one at its place.
Otherwise such a partition reaches up to a character at which no word starts, and the error names that character and
the number of characters before it. -/
namespace Flowchart

open Computability

/-! ### The languages of the words -/

namespace Pattern
variable {p : Char → Bool} {w : List Char}

/-- One character of a class. -/
def oneOf (p : Char → Bool) : Language Char :=
  {w : List Char | ∃ c, w = [c] ∧ p c = true}

def literal (s : String) : Language Char :=
  {s.toList}

/-- At least one word of a language after another. -/
def repeated (l : Language Char) : Language Char :=
  l * l∗

def optional (l : Language Char) : Language Char :=
  1 + l

def between (first last c : Char) : Bool :=
  decide (first ≤ c) && decide (c ≤ last)

/-- The pattern `==|!=|<=|>=|&&|\|\||[-+*/%!<>()\[\]]`. -/
def operator : Language Char :=
  literal "==" + literal "!=" + literal "<=" + literal ">=" + literal "&&" + literal "||" +
    oneOf "-+*/%!<>()[]".toList.contains

/-- What stands between two quotes on one line. -/
def within (quote : Char) : Language Char :=
  oneOf (· == quote) * (oneOf fun c => c != quote && c != '\n')∗ * oneOf (· == quote)

/-- The pattern `"[^"\n]*"|'[^'\n]*'`. -/
def quoted : Language Char :=
  within '"' + within '\''

def digit : Language Char :=
  oneOf Text.isDigit

/-- The pattern `\d+\.\d*|\.\d+|\d+`, with the digits of all scripts. -/
def mantissa : Language Char :=
  repeated digit * literal "." * digit∗ + literal "." * repeated digit + repeated digit

/-- The pattern `[eE][+-]?\d+`. -/
def exponent : Language Char :=
  oneOf "eE".toList.contains * optional (oneOf "+-".toList.contains) * repeated digit

/-- The pattern `(\d+\.\d*|\.\d+|\d+)([eE][+-]?\d+)?`. -/
def number : Language Char :=
  mantissa * optional exponent

/-- The pattern `[A-Za-z_][A-Za-z0-9_]*`. -/
def name : Language Char :=
  oneOf (fun c => between 'A' 'Z' c || between 'a' 'z' c || c == '_') *
    (oneOf fun c => between 'A' 'Z' c || between 'a' 'z' c || between '0' '9' c || c == '_')∗

theorem mem_oneOf : w ∈ oneOf p ↔ ∃ c, w = [c] ∧ p c = true :=
  Iff.rfl

theorem mem_literal {s : String} : w ∈ literal s ↔ w = s.toList :=
  Iff.rfl

theorem mem_kstar_oneOf : w ∈ (oneOf p)∗ ↔ ∀ c ∈ w, p c = true := by
  constructor
  · rw [Language.mem_kstar]
    rintro ⟨parts, rfl, each⟩ c member
    obtain ⟨part, inParts, inPart⟩ := List.mem_flatten.1 member
    obtain ⟨d, rfl, holds⟩ := each part inParts
    rwa [List.mem_singleton.1 inPart]
  · intro all
    refine Language.mem_kstar.2 ⟨w.map fun c => [c], (List.flatMap_singleton' w).symm, ?_⟩
    rintro part member
    obtain ⟨c, inWord, rfl⟩ := List.mem_map.1 member
    exact ⟨c, rfl, all c inWord⟩

theorem mem_repeated_oneOf : w ∈ repeated (oneOf p) ↔ w ≠ [] ∧ ∀ c ∈ w, p c = true := by
  rw [repeated, Language.mem_mul]
  constructor
  · rintro ⟨-, ⟨c, rfl, first⟩, more, later, rfl⟩
    simpa [first] using mem_kstar_oneOf.1 later
  · rintro ⟨nonempty, all⟩
    obtain ⟨c, more, rfl⟩ := List.exists_cons_of_ne_nil nonempty
    obtain ⟨first, later⟩ := List.forall_mem_cons.1 all
    exact ⟨[c], ⟨c, rfl, first⟩, more, mem_kstar_oneOf.2 later, rfl⟩

theorem mem_optional {l : Language Char} : w ∈ optional l ↔ w = [] ∨ w ∈ l := by
  rw [optional, Language.mem_add, Language.mem_one]

/-! Membership in the four languages, in the terms of the rules. -/

theorem mem_operator : w ∈ operator ↔
    (∃ a b, w = [a, b] ∧ Lexeme.pairs.contains (a, b) = true) ∨ ∃ a, w = [a] ∧ Lexeme.singles.contains a = true := by
  have chars : "-+*/%!<>()[]".toList = Lexeme.singles := by decide
  simp only [operator, Language.mem_add, mem_literal, mem_oneOf, chars]
  refine or_congr_left ⟨?_, ?_⟩
  · rintro (((((rfl | rfl) | rfl) | rfl) | rfl) | rfl) <;> exact ⟨_, _, rfl, by decide⟩
  · rintro ⟨a, b, rfl, known⟩
    simp only [Lexeme.pairs, List.contains_eq_mem, decide_eq_true_eq, List.mem_cons, Prod.mk.injEq, List.not_mem_nil,
      or_false] at known
    rcases known with ⟨rfl, rfl⟩ | ⟨rfl, rfl⟩ | ⟨rfl, rfl⟩ | ⟨rfl, rfl⟩ | ⟨rfl, rfl⟩ | ⟨rfl, rfl⟩ <;> decide

theorem mem_within {quote : Char} : w ∈ within quote ↔
    ∃ inside, w = quote :: (inside ++ [quote]) ∧ ∀ c ∈ inside, (c != quote && c != '\n') = true := by
  simp only [within, Language.mem_mul]
  constructor
  · rintro ⟨-, ⟨-, ⟨c, rfl, opens⟩, inside, between, rfl⟩, -, ⟨d, rfl, closes⟩, rfl⟩
    rw [eq_of_beq opens, eq_of_beq closes]
    exact ⟨inside, rfl, mem_kstar_oneOf.1 between⟩
  · rintro ⟨inside, rfl, all⟩
    exact ⟨_, ⟨[quote], ⟨quote, rfl, beq_self_eq_true quote⟩, inside, mem_kstar_oneOf.2 all, rfl⟩, [quote],
      ⟨quote, rfl, beq_self_eq_true quote⟩, rfl⟩

theorem mem_quoted : w ∈ quoted ↔ ∃ quote inside, w = quote :: (inside ++ [quote]) ∧ quote ∈ Lexeme.quotes ∧
    ∀ c ∈ inside, (c != quote && c != '\n') = true := by
  simp only [quoted, Language.mem_add, mem_within]
  constructor
  · rintro (⟨inside, rfl, all⟩ | ⟨inside, rfl, all⟩)
    · exact ⟨_, inside, rfl, by decide, all⟩
    · exact ⟨_, inside, rfl, by decide, all⟩
  · rintro ⟨quote, inside, rfl, opens, all⟩
    simp only [Lexeme.quotes, List.mem_cons, List.not_mem_nil, or_false] at opens
    rcases opens with rfl | rfl
    · exact .inl ⟨inside, rfl, all⟩
    · exact .inr ⟨inside, rfl, all⟩

theorem mem_mantissa : w ∈ mantissa ↔ Decimal.IsMantissa w := by
  simp only [mantissa, digit, Language.mem_add, Language.mem_mul, mem_literal]
  constructor
  · rintro ((⟨-, ⟨ds, whole, -, rfl, rfl⟩, fs, fraction, rfl⟩ | ⟨-, rfl, fs, fraction, rfl⟩) | whole)
    · obtain ⟨nonempty, digits⟩ := mem_repeated_oneOf.1 whole
      rw [List.append_assoc]
      exact .point digits (mem_kstar_oneOf.1 fraction) (.inl nonempty)
    · obtain ⟨nonempty, digits⟩ := mem_repeated_oneOf.1 fraction
      exact .point (List.forall_mem_nil _) digits (.inr nonempty)
    · obtain ⟨nonempty, digits⟩ := mem_repeated_oneOf.1 whole
      exact .whole digits nonempty
  · rintro (⟨digits, nonempty⟩ | @⟨ds, fs, digits, fraction, nonempty⟩)
    · exact .inr (mem_repeated_oneOf.2 ⟨nonempty, digits⟩)
    · by_cases bare : ds = []
      · subst bare
        have some : fs ≠ [] := nonempty.resolve_left (by simp)
        exact .inl (.inr ⟨['.'], rfl, fs, mem_repeated_oneOf.2 ⟨some, fraction⟩, rfl⟩)
      · exact .inl (.inl ⟨ds ++ ['.'], ⟨ds, mem_repeated_oneOf.2 ⟨bare, digits⟩, ['.'], rfl, rfl⟩, fs,
          mem_kstar_oneOf.2 fraction, by simp⟩)

theorem mem_optional_exponent : w ∈ optional exponent ↔ Decimal.IsExponent w := by
  have mark {m : List Char} :
      m ∈ optional (oneOf "+-".toList.contains) ↔ m = [] ∨ m = ['+'] ∨ m = ['-'] := by
    simp only [mem_optional, mem_oneOf]
    refine or_congr_right ⟨?_, ?_⟩
    · rintro ⟨c, rfl, known⟩
      simpa using known
    · rintro (rfl | rfl) <;> exact ⟨_, rfl, by decide⟩
  simp only [mem_optional, exponent, digit, Language.mem_mul]
  constructor
  · rintro (rfl | ⟨-, ⟨-, ⟨c, rfl, letter⟩, m, sign, rfl⟩, ds, power, rfl⟩)
    · exact .none
    · obtain ⟨nonempty, digits⟩ := mem_repeated_oneOf.1 power
      exact .some (by simpa using letter) (mark.1 sign) digits nonempty
  · rintro (_ | @⟨c, letter, m, ds, sign, digits, nonempty⟩)
    · exact .inl rfl
    · exact .inr ⟨_, ⟨[c], ⟨c, rfl, by simpa using letter⟩, m, mark.2 sign, rfl⟩, ds,
        mem_repeated_oneOf.2 ⟨nonempty, digits⟩, rfl⟩

theorem mem_number : w ∈ number ↔ ∃ m e, w = m ++ e ∧ Decimal.IsMantissa m ∧ Decimal.IsExponent e := by
  simp only [number, Language.mem_mul, mem_mantissa, mem_optional_exponent]
  constructor
  · rintro ⟨m, first, e, second, rfl⟩
    exact ⟨m, e, rfl, first, second⟩
  · rintro ⟨m, e, rfl, first, second⟩
    exact ⟨m, first, e, second, rfl⟩

theorem isUpper_eq (c : Char) : c.isUpper = between 'A' 'Z' c :=
  Bool.decide_and ('A' ≤ c) (c ≤ 'Z')

theorem isLower_eq (c : Char) : c.isLower = between 'a' 'z' c :=
  rfl

theorem isAlpha_eq (c : Char) : c.isAlpha = (between 'A' 'Z' c || between 'a' 'z' c) :=
  congrArg₂ or (isUpper_eq c) (isLower_eq c)

theorem isAlphanum_eq (c : Char) :
    c.isAlphanum = (between 'A' 'Z' c || between 'a' 'z' c || between '0' '9' c) :=
  congrArg₂ or (isAlpha_eq c) rfl

theorem mem_name : w ∈ name ↔
    ∃ c run, w = c :: run ∧ Lexeme.startsName c = true ∧ ∀ d ∈ run, Lexeme.continuesName d = true := by
  simp only [name, Language.mem_mul, Lexeme.startsName, Lexeme.continuesName, isAlpha_eq, isAlphanum_eq]
  constructor
  · rintro ⟨-, ⟨c, rfl, starts⟩, run, all, rfl⟩
    exact ⟨c, run, rfl, starts, mem_kstar_oneOf.1 all⟩
  · rintro ⟨c, run, rfl, starts, all⟩
    exact ⟨[c], ⟨c, rfl, starts⟩, run, mem_kstar_oneOf.2 all, rfl⟩

/-- Some start of the text is in the language. -/
def Begins (l : Language Char) (cs : List Char) : Prop :=
  ∃ word, word <+: cs ∧ word ∈ l

/-- The word is the longest start of the text that is in the language. -/
structure IsLongest (l : Language Char) (cs word : List Char) : Prop where
  starts : word <+: cs
  member : word ∈ l
  longest : ∀ other, other <+: cs → other ∈ l → other.length ≤ word.length

theorem IsLongest.eq {l : Language Char} {cs word word' : List Char} (first : IsLongest l cs word)
    (second : IsLongest l cs word') : word = word' := by
  have same : word.length = word'.length :=
    Nat.le_antisymm (second.longest _ first.starts first.member) (first.longest _ second.starts second.member)
  exact (List.prefix_of_prefix_length_le first.starts second.starts same.le).eq_of_length same

/-- A rule cuts off a word of its language, and where the text starts with one, a word at least as long. -/
structure Cuts (rule : List Char → Option (List Char × List Char)) (l : Language Char) : Prop where
  append : ∀ {cs word rest}, rule cs = some (word, rest) → word ++ rest = cs ∧ word ≠ []
  member : ∀ {cs word rest}, rule cs = some (word, rest) → word ∈ l
  covers : ∀ {word}, word ∈ l → ∀ rest, ∃ longer after, rule (word ++ rest) = some (longer, after) ∧
    word.length ≤ longer.length

namespace Cuts
variable {rule : List Char → Option (List Char × List Char)} {l : Language Char} {cs word rest : List Char}

theorem isLongest (cuts : Cuts rule l) (found : rule cs = some (word, rest)) : IsLongest l cs word := by
  refine ⟨⟨rest, (cuts.append found).1⟩, cuts.member found, ?_⟩
  rintro other ⟨after, rfl⟩ member
  obtain ⟨longer, left, again, le⟩ := cuts.covers member after
  rw [again] at found
  cases found
  exact le

theorem eq_none_iff (cuts : Cuts rule l) : rule cs = none ↔ ¬Begins l cs := by
  constructor
  · rintro missed ⟨word, ⟨rest, rfl⟩, member⟩
    obtain ⟨longer, after, found, -⟩ := cuts.covers member rest
    rw [missed] at found
    cases found
  · intro never
    cases found : rule cs with
    | none => rfl
    | some cut =>
      obtain ⟨word, rest⟩ := cut
      exact absurd ⟨word, (cuts.isLongest found).starts, cuts.member found⟩ never

theorem eq_some_of_isLongest (cuts : Cuts rule l) (longest : IsLongest l (word ++ rest) word) :
    rule (word ++ rest) = some (word, rest) := by
  obtain ⟨longer, after, found, -⟩ := cuts.covers longest.member rest
  have same := longest.eq (cuts.isLongest found)
  subst same
  rw [found, List.append_cancel_left (cuts.append found).1]

end Cuts

theorem length_le_takeWhile {run : List Char} (all : ∀ c ∈ run, p c = true) (rest : List Char) :
    run.length ≤ ((run ++ rest).takeWhile p).length := by
  rw [List.takeWhile_append_of_pos all, List.length_append]
  exact Nat.le_add_right _ _

theorem cuts_operator : Cuts Lexeme.splitOp? operator where
  append := Lexeme.append_splitOp?
  member found := mem_operator.2 (Lexeme.eq_of_splitOp? found)
  covers {word} member rest := by
    rcases mem_operator.1 member with ⟨a, b, rfl, pair⟩ | ⟨a, rfl, single⟩
    · exact ⟨[a, b], rest, by simp only [List.cons_append, List.nil_append, Lexeme.splitOp?, pair, if_true], le_rfl⟩
    · -- whatever follows, an operator is found, and none is empty
      have some : Lexeme.splitOp? (a :: rest) ≠ none := by
        cases rest with
        | nil => simp only [Lexeme.splitOp?, single, if_true, ne_eq, reduceCtorEq, not_false_eq_true]
        | cons b rest =>
          simp only [Lexeme.splitOp?, single, if_true]
          split <;> simp
      obtain ⟨⟨longer, after⟩, found⟩ := Option.ne_none_iff_exists'.1 some
      exact ⟨longer, after, found, List.length_pos_iff.2 (Lexeme.append_splitOp? found).2⟩

theorem cuts_quoted : Cuts Lexeme.splitQuoted? quoted where
  append := Lexeme.append_splitQuoted?
  member found := mem_quoted.2 (Lexeme.eq_of_splitQuoted? found)
  covers {word} member rest := by
    obtain ⟨quote, inside, rfl, opens, all⟩ := mem_quoted.1 member
    exact ⟨_, rest, Lexeme.splitQuoted?_of_closed opens all rest, le_rfl⟩

theorem cuts_name : Cuts Lexeme.splitName? name where
  append := Lexeme.append_splitName?
  member found := mem_name.2 (Lexeme.eq_of_splitName? found)
  covers {word} member rest := by
    obtain ⟨c, run, rfl, starts, all⟩ := mem_name.1 member
    rw [List.cons_append, Lexeme.splitName?, if_pos starts]
    exact ⟨_, _, rfl, Nat.succ_le_succ (length_le_takeWhile all rest)⟩

end Pattern

namespace Decimal
open Text Pattern

theorem splitMantissa?_covers {mantissa : List Char} (well : IsMantissa mantissa) (rest : List Char) :
    ∃ longer after, splitMantissa? (mantissa ++ rest) = some (longer, after) ∧ mantissa.length ≤ longer.length := by
  unfold splitMantissa?
  cases well with
  | whole digits nonempty =>
    have longer := length_le_takeWhile digits rest
    have some : ((mantissa ++ rest).takeWhile isDigit).isEmpty = false := by
      rw [List.isEmpty_eq_false_iff, ← List.length_pos_iff]
      exact Nat.lt_of_lt_of_le (List.length_pos_iff.2 nonempty) longer
    simp only [some, Bool.false_and, Bool.false_eq_true, if_false]
    split
    · refine ⟨_, _, rfl, ?_⟩
      rw [List.length_append]
      exact Nat.le_add_right_of_le longer
    · exact ⟨_, _, rfl, longer⟩
  | @point ds fs digits fraction nonempty =>
    have point : ∀ c, ('.' :: (fs ++ rest)).head? = some c → isDigit c = false := by
      rintro c ⟨⟩
      decide
    have longer := length_le_takeWhile fraction rest
    rw [List.append_assoc, List.cons_append, takeWhile_append_of_stops digits point,
      dropWhile_append_of_stops digits point]
    simp only
    rw [if_neg]
    · refine ⟨_, _, rfl, ?_⟩
      simp only [List.length_append, List.length_cons]
      omega
    · simp only [Bool.and_eq_true, List.isEmpty_iff, ← List.length_eq_zero_iff]
      simp only [ne_eq, ← List.length_eq_zero_iff] at nonempty
      omega

theorem length_le_splitExponent {exponent : List Char} (well : IsExponent exponent) (rest : List Char) :
    exponent.length ≤ (splitExponent (exponent ++ rest)).1.length := by
  cases well with
  | none => exact Nat.zero_le _
  | @some c letter mark ds sign digits nonempty =>
    have marked := splitMark_append sign digits nonempty rest
    have longer := length_le_takeWhile digits rest
    have some : ((ds ++ rest).takeWhile isDigit).isEmpty = false := by
      rw [List.isEmpty_eq_false_iff, ← List.length_pos_iff]
      exact Nat.lt_of_lt_of_le (List.length_pos_iff.2 nonempty) longer
    simp only [List.cons_append, List.append_assoc, splitExponent, marked, letter, some, Bool.not_false, Bool.and_self,
      if_true, List.length_cons, List.length_append]
    omega

/-- A mantissa with an exponent behind it goes no further, so the exponent is found. Without one the mantissa may be
only the start of a longer one. -/
theorem split?_covers {mantissa exponent : List Char} (well : IsMantissa mantissa) (power : IsExponent exponent)
    (rest : List Char) : ∃ longer after, split? (mantissa ++ exponent ++ rest) = some (longer, after) ∧
      (mantissa ++ exponent).length ≤ longer.length := by
  cases power with
  | none =>
    obtain ⟨longer, after, found, le⟩ := splitMantissa?_covers well rest
    rw [List.append_nil, split?, found]
    refine ⟨_, _, rfl, ?_⟩
    rw [List.length_append]
    exact Nat.le_add_right_of_le le
  | @some c letter mark ds sign digits nonempty =>
    have stops : ∀ d, (c :: mark ++ ds ++ rest).head? = Option.some d → startsNumber d = false := by
      rintro d ⟨⟩
      rcases Bool.or_eq_true_iff.1 letter with same | same <;>
        · rw [eq_of_beq same]
          decide
    have first := splitMantissa?_append well (fun d next => (Bool.or_eq_false_iff.1 (stops d next)).1)
      fun point => absurd (stops _ point) (by decide)
    rw [List.append_assoc, split?, first]
    have longer := length_le_splitExponent (.some letter sign digits nonempty) rest
    refine ⟨_, _, rfl, ?_⟩
    simpa only [List.length_append] using Nat.add_le_add_left longer mantissa.length

theorem cuts_number : Cuts split? number where
  append := append_split?
  member {cs word rest} found := by
    obtain ⟨⟨mantissa, more⟩, cut, same⟩ := Option.map_eq_some_iff.1 found
    obtain ⟨rfl, -⟩ := Prod.mk.inj same
    exact mem_number.2 ⟨_, _, rfl, isMantissa_of_splitMantissa? cut, isExponent_splitExponent more⟩
  covers {word} member rest := by
    obtain ⟨mantissa, exponent, rfl, well, power⟩ := mem_number.1 member
    exact split?_covers well power rest

end Decimal

/-! ### The partition -/

namespace Lexeme

/-- The languages in the order in which they are tried. -/
def patterns : List (Language Char) :=
  [Pattern.operator, Pattern.quoted, Pattern.number, Pattern.name]

def pattern : Lexeme → Language Char
  | op _ => Pattern.operator
  | quoted _ => Pattern.quoted
  | number _ => Pattern.number
  | name _ => Pattern.name

/-- The languages that are tried before the one of the lexeme. -/
def earlier : Lexeme → List (Language Char)
  | op _ => []
  | quoted _ => [Pattern.operator]
  | number _ => [Pattern.operator, Pattern.quoted]
  | name _ => [Pattern.operator, Pattern.quoted, Pattern.number]

/-- The lexeme is the word at the start of a text, with the given rest behind it. -/
structure IsNext (l : Lexeme) (rest : List Char) : Prop where
  nonempty : l.text ≠ ""
  longest : Pattern.IsLongest l.pattern (l.text.toList ++ rest) l.text.toList
  first : ∀ p ∈ l.earlier, ¬Pattern.Begins p (l.text.toList ++ rest)

def gaps : List Char :=
  [' ', '\t', '\r', '\n']

/-- A text in front of another falls into gaps and words, beginning and ending with a gap. -/
inductive Partition (after : List Char) : List Char → List Lexeme → Prop
  | gap {gap : List Char} (blank : ∀ c ∈ gap, c ∈ gaps) : Partition after gap []
  | word {gap before : List Char} {l : Lexeme} {ls : List Lexeme} (blank : ∀ c ∈ gap, c ∈ gaps)
    (next : l.IsNext (before ++ after)) (later : Partition after before ls) :
    Partition after (gap ++ l.text.toList ++ before) (l :: ls)

variable {cs rest after before : List Char} {l : Lexeme} {ls : List Lexeme} {c : Char}

theorem IsNext.of_cut {rule : List Char → Option (List Char × List Char)} (cuts : Pattern.Cuts rule l.pattern)
    (cut : rule cs = some (l.text.toList, rest)) (first : ∀ p ∈ l.earlier, ¬Pattern.Begins p cs) : l.IsNext rest := by
  obtain ⟨rfl, nonempty⟩ := cuts.append cut
  refine ⟨?_, cuts.isLongest cut, first⟩
  intro none
  exact nonempty (by rw [none]; rfl)

/-- The rules that were tried before failed, so their languages have no word here. -/
theorem isNext_of_split? (found : split? cs = some (l, rest)) : l.IsNext rest := by
  cases atOp : splitOp? cs with
  | some cut =>
    rw [split?_of_op atOp] at found
    cases found
    exact .of_cut Pattern.cuts_operator (by rw [atOp, text, String.toList_ofList]) (List.forall_mem_nil _)
  | none =>
    have noOp := Pattern.cuts_operator.eq_none_iff.1 atOp
    cases atQuote : splitQuoted? cs with
    | some cut =>
      rw [split?_of_quoted atOp atQuote] at found
      cases found
      exact .of_cut Pattern.cuts_quoted (by rw [atQuote, text, String.toList_ofList]) (by simp [earlier, noOp])
    | none =>
      have noQuote := Pattern.cuts_quoted.eq_none_iff.1 atQuote
      cases atNumber : Decimal.split? cs with
      | some cut =>
        rw [split?_of_number atOp atQuote atNumber] at found
        cases found
        exact .of_cut Decimal.cuts_number (by rw [atNumber, text, String.toList_ofList])
          (by simp [earlier, noOp, noQuote])
      | none =>
        have noNumber := Decimal.cuts_number.eq_none_iff.1 atNumber
        cases atName : splitName? cs with
        | some cut =>
          rw [split?_of_name atOp atQuote atNumber atName] at found
          cases found
          exact .of_cut Pattern.cuts_name (by rw [atName, text, String.toList_ofList])
            (by simp [earlier, noOp, noQuote, noNumber])
        | none =>
          simp [split?, rules, atOp, atQuote, atNumber, atName] at found

theorem IsNext.split?_eq (next : l.IsNext rest) : split? (l.text.toList ++ rest) = some (l, rest) := by
  have first := next.first
  cases l with
  | op word =>
    have cut := Pattern.cuts_operator.eq_some_of_isLongest next.longest
    rw [split?_of_op cut, text, String.ofList_toList]
  | quoted word =>
    have cut := Pattern.cuts_quoted.eq_some_of_isLongest next.longest
    simp only [earlier, List.forall_mem_cons, ← Pattern.cuts_operator.eq_none_iff] at first
    rw [split?_of_quoted first.1 cut, text, String.ofList_toList]
  | number word =>
    have cut := Decimal.cuts_number.eq_some_of_isLongest next.longest
    simp only [earlier, List.forall_mem_cons, ← Pattern.cuts_operator.eq_none_iff,
      ← Pattern.cuts_quoted.eq_none_iff] at first
    rw [split?_of_number first.1 first.2.1 cut, text, String.ofList_toList]
  | name word =>
    have cut := Pattern.cuts_name.eq_some_of_isLongest next.longest
    simp only [earlier, List.forall_mem_cons, ← Pattern.cuts_operator.eq_none_iff, ← Pattern.cuts_quoted.eq_none_iff,
      ← Decimal.cuts_number.eq_none_iff] at first
    rw [split?_of_name first.1 first.2.1 first.2.2.1 cut, text, String.ofList_toList]

theorem split?_eq_none_iff : split? cs = none ↔ ∀ p ∈ patterns, ¬Pattern.Begins p cs := by
  simp [split?, rules, patterns, Pattern.cuts_operator.eq_none_iff, Pattern.cuts_quoted.eq_none_iff,
    Decimal.cuts_number.eq_none_iff, Pattern.cuts_name.eq_none_iff]

theorem isGap_iff : isGap c = true ↔ c ∈ gaps := by
  simp [isGap, gaps, or_assoc]

theorem scanFrom_gap {gap : List Char} (blank : ∀ c ∈ gap, c ∈ gaps) (position : Nat) (cs : List Char) :
    scanFrom position (gap ++ cs) = scanFrom (position + gap.length) cs := by
  induction gap generalizing position with
  | nil => rfl
  | cons c gap ih =>
    obtain ⟨first, later⟩ := List.forall_mem_cons.1 blank
    rw [List.cons_append, scanFrom, if_pos (isGap_iff.2 first), ih later, List.length_cons, Nat.add_right_comm,
      Nat.add_assoc]

theorem IsNext.scanFrom_eq (next : l.IsNext rest) (position : Nat) :
    scanFrom position (l.text.toList ++ rest) = (scanFrom (position + l.text.length) rest).map (l :: ·) := by
  have cut := next.split?_eq
  obtain ⟨c, more, chars⟩ := List.exists_cons_of_ne_nil (append_split? cut).2
  rw [chars, List.cons_append] at cut ⊢
  have noGap : ¬isGap c = true := by
    intro gap
    rw [split?_eq_none_of_isGap gap] at cut
    cases cut
  rw [scanFrom, if_neg noGap]
  split
  · next none =>
    rw [cut] at none
    cases none
  · next found =>
    rw [cut] at found
    cases found
    cases scanFrom (position + l.text.length) rest <;> rfl

/-- What follows a partition is scanned as it is, at its place. -/
theorem Partition.scanFrom_append (partition : Partition after before ls) (position : Nat) :
    scanFrom position (before ++ after) = (scanFrom (position + before.length) after).map (ls ++ ·) := by
  induction partition generalizing position with
  | gap blank =>
    rw [scanFrom_gap blank]
    cases scanFrom _ after <;> rfl
  | @word gap before l ls blank next later ih =>
    rw [List.append_assoc, List.append_assoc, scanFrom_gap blank, next.scanFrom_eq, ih]
    simp only [List.length_append, String.length_toList, ← Nat.add_assoc]
    cases scanFrom _ after <;> rfl

theorem Partition.cons (partition : Partition after before ls) (blank : c ∈ gaps) :
    Partition after (c :: before) ls := by
  cases partition with
  | gap others => exact .gap (List.forall_mem_cons.2 ⟨blank, others⟩)
  | word others next later => exact @word _ (c :: _) _ _ _ (List.forall_mem_cons.2 ⟨blank, others⟩) next later

/-- The text is at its end, or no gap and no word starts here. -/
def IsStuck (cs : List Char) : Prop :=
  ∀ c, cs.head? = some c → c ∉ gaps ∧ ∀ p ∈ patterns, ¬Pattern.Begins p cs

/-- Every text has a partition up to its end or to a place at which no word starts. -/
theorem exists_partition (cs : List Char) :
    ∃ before after ls, cs = before ++ after ∧ Partition after before ls ∧ IsStuck after := by
  induction size : cs.length using Nat.strongRecOn generalizing cs with
  | ind k ih =>
    cases cs with
    | nil => exact ⟨[], [], [], rfl, .gap (List.forall_mem_nil _), by simp [IsStuck]⟩
    | cons c rest =>
      by_cases blank : c ∈ gaps
      · obtain ⟨before, after, ls, rfl, partition, stuck⟩ := ih rest.length (by simp [← size]) rest rfl
        exact ⟨c :: before, after, ls, rfl, partition.cons blank, stuck⟩
      · cases found : split? (c :: rest) with
        | none =>
          refine ⟨[], c :: rest, [], rfl, .gap (List.forall_mem_nil _), ?_⟩
          rintro d ⟨⟩
          exact ⟨blank, split?_eq_none_iff.1 found⟩
        | some cut =>
          obtain ⟨l, more⟩ := cut
          obtain ⟨before, after, ls, rfl, partition, stuck⟩ :=
            ih more.length (by rw [← size]; exact length_lt_of_split? found) more rfl
          refine ⟨l.text.toList ++ before, after, l :: ls, ?_, ?_, stuck⟩
          · rw [List.append_assoc, (append_split? found).1]
          · exact @Partition.word _ [] _ _ _ (List.forall_mem_nil _) (isNext_of_split? found) partition

theorem scanFrom_of_stuck (noGap : c ∉ gaps) (never : ∀ p ∈ patterns, ¬Pattern.Begins p (c :: rest)) (position : Nat) :
    scanFrom position (c :: rest) = .error (.illegalCharacter c position) := by
  rw [scanFrom, if_neg fun gap => noGap (isGap_iff.1 gap)]
  split
  · rfl
  · next found =>
    rw [split?_eq_none_iff.2 never] at found
    cases found

theorem scan_of_partition {s : String} (joined : s.toList = before ++ after) (partition : Partition after before ls) :
    scan s = (scanFrom before.length after).map (ls ++ ·) := by
  rw [scan, joined, partition.scanFrom_append, Nat.zero_add]

/-- Either the whole text has a partition, or a part of it does before a character that starts nothing. -/
theorem scan_cases (s : String) :
    (∃ ls, Partition [] s.toList ls ∧ scan s = .ok ls) ∨
    ∃ before c rest ls, s.toList = before ++ c :: rest ∧ Partition (c :: rest) before ls ∧ c ∉ gaps ∧
      (∀ p ∈ patterns, ¬Pattern.Begins p (c :: rest)) ∧ scan s = .error (.illegalCharacter c before.length) := by
  obtain ⟨before, after, ls, joined, partition, stuck⟩ := exists_partition s.toList
  have scanned := scan_of_partition joined partition
  cases after with
  | nil =>
    refine .inl ⟨ls, by rwa [joined, List.append_nil], ?_⟩
    rw [scanned, scanFrom, Except.map, List.append_nil]
  | cons c rest =>
    obtain ⟨noGap, never⟩ := stuck c rfl
    refine .inr ⟨before, c, rest, ls, joined, partition, noGap, never, ?_⟩
    rw [scanned, scanFrom_of_stuck noGap never, Except.map]

/-- A text is scanned into words exactly if it falls into gaps and these words, each the longest of the first language
that has one there. It is refused exactly if it does so up to a character that is in no gap and starts no word, and the
error names this character and the number of characters before it. -/
theorem scan_partitions (s : String) :
    (∀ ls, scan s = .ok ls ↔ Partition [] s.toList ls) ∧
    ∀ e, scan s = .error e ↔ ∃ before c rest ls, s.toList = before ++ c :: rest ∧ Partition (c :: rest) before ls ∧
      c ∉ gaps ∧ (∀ p ∈ patterns, ¬Pattern.Begins p (c :: rest)) ∧ e = .illegalCharacter c before.length ∧
      e.message = "Illegal character '" ++ String.ofList [c] ++ "' at position " ++ toString before.length := by
  refine ⟨fun ls => ⟨fun scanned => ?_, fun partition => ?_⟩, fun e => ⟨fun refused => ?_, ?_⟩⟩
  · rcases scan_cases s with ⟨found, partition, same⟩ | ⟨before, c, rest, found, -, -, -, -, same⟩
    · rw [scanned] at same
      cases same
      exact partition
    · rw [scanned] at same
      cases same
  · rw [scan_of_partition (List.append_nil _).symm partition, scanFrom, Except.map, List.append_nil]
  · rcases scan_cases s with ⟨found, -, same⟩ | ⟨before, c, rest, found, joined, partition, noGap, never, same⟩
    · rw [refused] at same
      cases same
    · rw [refused] at same
      cases same
      exact ⟨before, c, rest, found, joined, partition, noGap, never, rfl, rfl⟩
  · rintro ⟨before, c, rest, found, joined, partition, noGap, never, rfl, -⟩
    rw [scan_of_partition joined partition, scanFrom_of_stuck noGap never, Except.map]

end Lexeme

end Flowchart
