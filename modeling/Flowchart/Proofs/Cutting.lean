import Flowchart.Proofs.ExpressionTexts
/-! Words are cut off in the same way again. A word that was cut off a text once is cut off every text in which a
separator follows it, whatever followed it before. So it does not matter how far apart words stand, as long as none of
them can go on into the next. -/
namespace Flowchart

open Code.Expr (EndsAt endsAt_cons)

/-- The characters that may follow any word: a space, or a bracket. -/
def Lexeme.separators : List Char :=
  [' ', '(', ')', '[', ']']

theorem endsAt_nil {marks : List Char} : EndsAt marks [] := by
  intro c first
  cases first

theorem eq_false_of_apart {p : Char → Bool} {marks : List Char} {c : Char} (member : c ∈ marks)
    (apart : (marks.all fun c => !p c) = true) : p c = false := by
  simpa using List.all_eq_true.1 apart c member

theorem not_mem_of_apart {p : Char → Bool} {marks : List Char} {c : Char} (begins : p c = true)
    (apart : (marks.all fun c => !p c) = true) : c ∉ marks := by
  intro member
  rw [eq_false_of_apart member apart] at begins
  cases begins

/-- A text that ends at marks does not begin with what is no mark. -/
theorem stops_of_endsAt {p : Char → Bool} {marks rest : List Char} (ends : EndsAt marks rest)
    (apart : (marks.all fun c => !p c) = true) : ∀ c, rest.head? = some c → p c = false := by
  intro c first
  exact eq_false_of_apart (ends c first) apart

theorem dropWhile_append_of_stops {p : Char → Bool} {run rest : List Char} (all : ∀ c ∈ run, p c = true)
    (stops : ∀ c, rest.head? = some c → p c = false) : (run ++ rest).dropWhile p = rest := by
  rw [List.dropWhile_append_of_pos all]
  cases rest with
  | nil => rfl
  | cons c rest => simp [stops c rfl]

/-! ### Numbers -/

namespace Text

/-- The digits of all scripts but the first lie beyond the basic alphabet. -/
theorem toNat_of_isDigit {c : Char} (digit : isDigit c = true) : c.toNat < 65 ∨ 128 ≤ c.toNat := by
  have beyond : (zeros.all fun first => decide (first + 10 ≤ 65) || decide (128 ≤ first)) = true := by decide
  obtain ⟨n, found⟩ := Option.isSome_iff_exists.1 digit
  obtain ⟨first, found, -⟩ := Option.map_eq_some_iff.1 found
  have within := List.find?_some found
  have apart := List.all_eq_true.1 beyond first (List.mem_of_find?_eq_some found)
  simp only [Bool.and_eq_true, Bool.or_eq_true, decide_eq_true_eq] at within apart
  omega

theorem toNat_of_startsName {c : Char} (starts : Lexeme.startsName c = true) : 65 ≤ c.toNat ∧ c.toNat < 128 := by
  rcases Bool.or_eq_true_iff.1 starts with letter | underscore
  · have cased : (c.isUpper || c.isLower) = true := letter
    rcases Bool.or_eq_true_iff.1 cased with upper | lower
    · have range : 'A'.val ≤ c.val ∧ c.val ≤ 'Z'.val := of_decide_eq_true upper
      simp only [UInt32.le_iff_toNat_le] at range
      exact ⟨range.1, Nat.lt_of_le_of_lt range.2 (by decide)⟩
    · have range : (decide ('a'.val ≤ c.val) && decide (c.val ≤ 'z'.val)) = true := lower
      simp only [Bool.and_eq_true, decide_eq_true_eq, UInt32.le_iff_toNat_le] at range
      exact ⟨Nat.le_trans (by decide) range.1, Nat.lt_of_le_of_lt range.2 (by decide)⟩
  · rw [eq_of_beq underscore]
    decide

theorem isDigit_of_startsName {c : Char} (starts : Lexeme.startsName c = true) : isDigit c = false := by
  cases digit : isDigit c with
  | false => rfl
  | true =>
    have letter := toNat_of_startsName starts
    have apart := toNat_of_isDigit digit
    omega

end Text

namespace Decimal
open Text

/-- What numbers begin with. -/
def startsNumber (c : Char) : Bool :=
  isDigit c || c == '.'

/-- Digits with an optional point, at least one digit. -/
inductive IsMantissa : List Char → Prop
  | whole {ds : List Char} (digits : ∀ c ∈ ds, isDigit c = true) (nonempty : ds ≠ []) : IsMantissa ds
  | point {ds fs : List Char} (digits : ∀ c ∈ ds, isDigit c = true) (fraction : ∀ c ∈ fs, isDigit c = true)
    (nonempty : ds ≠ [] ∨ fs ≠ []) : IsMantissa (ds ++ '.' :: fs)

/-- Nothing, or a power of ten with at least one digit. -/
inductive IsExponent : List Char → Prop
  | none : IsExponent []
  | some {c : Char} (letter : (c == 'e' || c == 'E') = true) {mark ds : List Char}
    (sign : mark = [] ∨ mark = ['+'] ∨ mark = ['-']) (digits : ∀ c ∈ ds, isDigit c = true)
    (nonempty : ds ≠ []) : IsExponent (c :: mark ++ ds)

theorem isMantissa_of_splitMantissa? {cs mantissa rest : List Char}
    (found : splitMantissa? cs = some (mantissa, rest)) : IsMantissa mantissa := by
  have digits : ∀ c ∈ cs.takeWhile isDigit, isDigit c = true := List.all_eq_true.1 List.all_takeWhile
  unfold splitMantissa? at found
  simp only at found
  split at found
  · rename_i after same
    split at found
    · cases found
    · rename_i nonempty
      cases found
      refine .point digits (List.all_eq_true.1 List.all_takeWhile) ?_
      simp only [Bool.and_eq_true, List.isEmpty_iff] at nonempty
      exact Decidable.not_and_iff_or_not.1 nonempty
  · split at found
    · cases found
    · rename_i nonempty
      cases found
      exact .whole digits (by simpa [List.isEmpty_iff] using nonempty)

theorem splitMark_cases (cs : List Char) :
    (splitMark cs).1 = [] ∨ (splitMark cs).1 = ['+'] ∨ (splitMark cs).1 = ['-'] := by
  unfold splitMark
  split
  · split
    · rename_i c rest sign
      simp only [Bool.or_eq_true, beq_iff_eq] at sign
      rcases sign with rfl | rfl
      · exact .inr (.inl rfl)
      · exact .inr (.inr rfl)
    · exact .inl rfl
  · exact .inl rfl

theorem isExponent_splitExponent (cs : List Char) : IsExponent (splitExponent cs).1 := by
  unfold splitExponent
  split
  · rename_i c rest
    simp only
    split
    · rename_i part
      simp only [Bool.and_eq_true, Bool.not_eq_true', List.isEmpty_eq_false_iff] at part
      exact .some part.1 (splitMark_cases rest) (List.all_eq_true.1 List.all_takeWhile) part.2
    · exact .none
  · exact .none

theorem splitMantissa?_append {mantissa rest : List Char} (well : IsMantissa mantissa)
    (stops : ∀ c, rest.head? = some c → isDigit c = false) (noPoint : rest.head? ≠ some '.') :
    splitMantissa? (mantissa ++ rest) = some (mantissa, rest) := by
  unfold splitMantissa?
  cases well with
  | whole digits nonempty =>
    rw [takeWhile_append_of_stops digits stops, dropWhile_append_of_stops digits stops]
    simp only
    split
    · exact absurd rfl noPoint
    · simp [nonempty]
  | @point ds fs digits fraction nonempty =>
    have point : ∀ c, ('.' :: (fs ++ rest)).head? = some c → isDigit c = false := by
      rintro c ⟨⟩
      decide
    rw [List.append_assoc, List.cons_append, takeWhile_append_of_stops digits point,
      dropWhile_append_of_stops digits point]
    simp only
    rw [takeWhile_append_of_stops fraction stops, dropWhile_append_of_stops fraction stops, if_neg]
    simp only [Bool.and_eq_true, List.isEmpty_iff]
    exact Decidable.not_and_iff_or_not.2 nonempty

theorem splitMark_append {mark ds : List Char} (sign : mark = [] ∨ mark = ['+'] ∨ mark = ['-'])
    (digits : ∀ c ∈ ds, isDigit c = true) (nonempty : ds ≠ []) (rest : List Char) :
    splitMark (mark ++ (ds ++ rest)) = (mark, ds ++ rest) := by
  rcases sign with rfl | rfl | rfl
  · cases ds with
    | nil => exact absurd rfl nonempty
    | cons d ds =>
      have digit := digits d (by simp)
      have unsigned : (d == '+' || d == '-') = false := by
        cases signed : (d == '+' || d == '-') with
        | false => rfl
        | true =>
          rcases Bool.or_eq_true_iff.1 signed with same | same <;>
            · rw [eq_of_beq same] at digit
              exact absurd digit (by decide)
      simp [splitMark, unsigned]
  · rfl
  · rfl

theorem splitExponent_append {exponent rest : List Char} (well : IsExponent exponent)
    (stops : ∀ c, rest.head? = some c → (isDigit c || c == 'e' || c == 'E') = false) :
    splitExponent (exponent ++ rest) = (exponent, rest) := by
  cases well with
  | none =>
    cases rest with
    | nil => rfl
    | cons c rest =>
      have other := stops c rfl
      simp only [Bool.or_eq_false_iff] at other
      simp [splitExponent, other]
  | @some c letter mark ds sign digits nonempty =>
    have ends : ∀ c, rest.head? = Option.some c → isDigit c = false := by
      intro c first
      have other := stops c first
      simp only [Bool.or_eq_false_iff] at other
      exact other.1.1
    have marked := splitMark_append sign digits nonempty rest
    simp only [List.cons_append, List.append_assoc, splitExponent, marked]
    rw [takeWhile_append_of_stops digits ends, dropWhile_append_of_stops digits ends, if_pos]
    simp [letter, nonempty]

/-- A mantissa does not go on at an exponent, nor at a separator. -/
theorem IsExponent.stops {exponent after : List Char} (well : IsExponent exponent)
    (ends : EndsAt Lexeme.separators after) :
    ∀ c, (exponent ++ after).head? = Option.some c → startsNumber c = false := by
  cases well with
  | none => exact stops_of_endsAt ends (by decide)
  | @some c letter =>
    rintro d ⟨⟩
    rcases Bool.or_eq_true_iff.1 letter with same | same <;>
      · rw [eq_of_beq same]
        decide

/-- A number that was cut off is cut off again before a separator. -/
theorem split?_append {word rest after : List Char} (cut : split? (word ++ rest) = some (word, rest))
    (ends : EndsAt Lexeme.separators after) : split? (word ++ after) = some (word, after) := by
  obtain ⟨⟨mantissa, more⟩, found, same⟩ := Option.map_eq_some_iff.1 cut
  obtain ⟨rfl, -⟩ := Prod.mk.inj same
  have power := isExponent_splitExponent more
  have stops := power.stops ends
  have first := splitMantissa?_append (isMantissa_of_splitMantissa? found)
    (fun c first => (Bool.or_eq_false_iff.1 (stops c first)).1) fun point => absurd (stops _ point) (by decide)
  have second := splitExponent_append power (stops_of_endsAt ends (by decide))
  rw [split?, List.append_assoc, first]
  simp only [Option.map_some, second]

theorem split?_eq_none {c : Char} (other : startsNumber c = false) (rest : List Char) :
    split? (c :: rest) = none := by
  obtain ⟨undigital, noPoint⟩ := Bool.or_eq_false_iff.1 other
  have mantissa : splitMantissa? (c :: rest) = none := by
    unfold splitMantissa?
    simp only [List.takeWhile_cons, List.dropWhile_cons, undigital]
    split
    · rename_i same
      cases same
      cases noPoint
    · rfl
  rw [split?, mantissa]
  rfl

end Decimal

/-! ### Words -/

namespace Lexeme
variable {word rest after : List Char} {c : Char} {l : Lexeme}

/-- What operators begin with. -/
def operatorStarts : List Char :=
  singles ++ pairs.map Prod.fst

theorem splitOp?_eq_none (other : c ∉ operatorStarts) (rest : List Char) : splitOp? (c :: rest) = none := by
  have noSingle : singles.contains c = false := by
    simpa using fun single => other (List.mem_append_left _ single)
  cases rest with
  | nil => simp only [splitOp?, noSingle]; rfl
  | cons d rest =>
    have noPair : pairs.contains (c, d) = false := by
      simpa using fun pair => other (List.mem_append_right _ (List.mem_map.2 ⟨_, pair, rfl⟩))
    simp only [splitOp?, noSingle, noPair]
    rfl

/-- What quoted texts begin with. -/
def quotes : List Char :=
  ['"', '\'']

theorem splitQuoted?_eq_none (other : c ∉ quotes) (rest : List Char) : splitQuoted? (c :: rest) = none := by
  have noQuote : (c == '"' || c == '\'') = false := by simpa [quotes] using other
  unfold splitQuoted?
  simp only [noQuote, Bool.false_and]
  split <;> rfl

theorem splitName?_eq_none (other : startsName c = false) (rest : List Char) : splitName? (c :: rest) = none := by
  simp [splitName?, other]

theorem eq_of_splitOp? {cs : List Char} (cut : splitOp? cs = some (word, rest)) :
    (∃ a b, word = [a, b] ∧ pairs.contains (a, b) = true) ∨ ∃ a, word = [a] ∧ singles.contains a = true := by
  unfold splitOp? at cut
  split at cut
  · split at cut
    · next pair =>
      cases cut
      exact .inl ⟨_, _, rfl, pair⟩
    · split at cut
      · next single =>
        cases cut
        exact .inr ⟨_, rfl, single⟩
      · cases cut
  · split at cut
    · next single =>
      cases cut
      exact .inr ⟨_, rfl, single⟩
    · cases cut
  · cases cut

/-- No operator of two characters ends with a separator, so one of a single character stays alone before it. -/
theorem splitOp?_append (cut : splitOp? (word ++ rest) = some (word, rest)) (ends : EndsAt separators after) :
    splitOp? (word ++ after) = some (word, after) := by
  rcases eq_of_splitOp? cut with ⟨a, b, rfl, pair⟩ | ⟨a, rfl, single⟩
  · simp only [List.cons_append, List.nil_append, splitOp?, pair, if_true]
  · cases after with
    | nil => simp only [List.append_nil, splitOp?, single, if_true]
    | cons c after =>
      have apart : (pairs.all fun p => !separators.contains p.2) = true := by decide
      have noPair : pairs.contains (a, c) = false := by
        cases pair : pairs.contains (a, c) with
        | false => rfl
        | true =>
          have other := List.all_eq_true.1 apart (a, c) (by simpa using pair)
          simp [ends c rfl] at other
      simp only [List.cons_append, List.nil_append, splitOp?, noPair, single, if_true]
      rfl

theorem eq_of_splitQuoted? {cs : List Char} (cut : splitQuoted? cs = some (word, rest)) :
    ∃ quote inside, word = quote :: (inside ++ [quote]) ∧ quote ∈ quotes ∧
      ∀ c ∈ inside, (c != quote && c != '\n') = true := by
  unfold splitQuoted? at cut
  split at cut
  · next quote tail =>
    simp only at cut
    split at cut
    · next close later found =>
      split at cut
      · next closes =>
        cases cut
        obtain ⟨opens, same⟩ := Bool.and_eq_true_iff.1 closes
        refine ⟨quote, _, ?_, by simpa [quotes] using opens, List.all_eq_true.1 (List.all_takeWhile (l := tail))⟩
        rw [eq_of_beq same]
        rfl
      · cases cut
    · cases cut
  · cases cut

theorem splitQuoted?_of_closed {quote : Char} {inside : List Char} (opens : quote ∈ quotes)
    (all : ∀ c ∈ inside, (c != quote && c != '\n') = true) (after : List Char) :
    splitQuoted? (quote :: (inside ++ [quote]) ++ after) = some (quote :: (inside ++ [quote]), after) := by
  have isQuote : (quote == '"' || quote == '\'') = true := by simpa [quotes] using opens
  have stops : ∀ c, (quote :: after).head? = some c → (c != quote && c != '\n') = false := by
    rintro c ⟨⟩
    simp
  simp only [List.cons_append, List.append_assoc, List.nil_append, splitQuoted?]
  rw [takeWhile_append_of_stops all stops, dropWhile_append_of_stops all stops]
  simp [isQuote]

theorem splitQuoted?_append (cut : splitQuoted? (word ++ rest) = some (word, rest)) (after : List Char) :
    splitQuoted? (word ++ after) = some (word, after) := by
  obtain ⟨quote, inside, rfl, opens, all⟩ := eq_of_splitQuoted? cut
  exact splitQuoted?_of_closed opens all after

theorem eq_of_splitName? {cs : List Char} (cut : splitName? cs = some (word, rest)) :
    ∃ c run, word = c :: run ∧ startsName c = true ∧ ∀ d ∈ run, continuesName d = true := by
  unfold splitName? at cut
  split at cut
  · next tail =>
    split at cut
    · next starts =>
      cases cut
      exact ⟨_, _, rfl, starts, List.all_eq_true.1 (List.all_takeWhile (l := tail))⟩
    · cases cut
  · cases cut

theorem splitName?_append (cut : splitName? (word ++ rest) = some (word, rest)) (ends : EndsAt separators after) :
    splitName? (word ++ after) = some (word, after) := by
  obtain ⟨c, run, rfl, starts, all⟩ := eq_of_splitName? cut
  have stops := stops_of_endsAt (p := continuesName) ends (by decide)
  simp only [List.cons_append, splitName?, starts, if_true]
  rw [takeWhile_append_of_stops all stops, dropWhile_append_of_stops all stops]

/-! The rules are tried in turn. -/

theorem split?_cases {cs : List Char} (found : split? cs = some (l, rest)) :
    (∃ word, splitOp? cs = some (word, rest) ∧ l = .op (.ofList word)) ∨
    (∃ word, splitQuoted? cs = some (word, rest) ∧ l = .quoted (.ofList word)) ∨
    (∃ word, Decimal.split? cs = some (word, rest) ∧ l = .number (.ofList word)) ∨
    ∃ word, splitName? cs = some (word, rest) ∧ l = .name (.ofList word) := by
  obtain ⟨⟨kind, rule⟩, member, cut⟩ := List.exists_of_findSome?_eq_some found
  obtain ⟨⟨word, more⟩, applied, same⟩ := Option.map_eq_some_iff.1 cut
  obtain ⟨rfl, rfl⟩ := Prod.mk.inj same
  simp only [rules, List.mem_cons, Prod.mk.injEq, List.not_mem_nil, or_false] at member
  rcases member with ⟨rfl, rfl⟩ | ⟨rfl, rfl⟩ | ⟨rfl, rfl⟩ | ⟨rfl, rfl⟩
  · exact .inl ⟨word, applied, rfl⟩
  · exact .inr (.inl ⟨word, applied, rfl⟩)
  · exact .inr (.inr (.inl ⟨word, applied, rfl⟩))
  · exact .inr (.inr (.inr ⟨word, applied, rfl⟩))

section Rules
variable {cs : List Char}

theorem split?_of_op (cut : splitOp? cs = some (word, rest)) : split? cs = some (.op (.ofList word), rest) := by
  simp [split?, rules, cut]

theorem split?_of_quoted (noOp : splitOp? cs = none) (cut : splitQuoted? cs = some (word, rest)) :
    split? cs = some (.quoted (.ofList word), rest) := by
  simp [split?, rules, noOp, cut]

theorem split?_of_number (noOp : splitOp? cs = none) (noQuote : splitQuoted? cs = none)
    (cut : Decimal.split? cs = some (word, rest)) : split? cs = some (.number (.ofList word), rest) := by
  simp [split?, rules, noOp, noQuote, cut]

theorem split?_of_name (noOp : splitOp? cs = none) (noQuote : splitQuoted? cs = none)
    (noNumber : Decimal.split? cs = none) (cut : splitName? cs = some (word, rest)) :
    split? cs = some (.name (.ofList word), rest) := by
  simp [split?, rules, noOp, noQuote, noNumber, cut]

end Rules

/-- The lexeme is what is cut off first if the right text follows. -/
def IsCut (l : Lexeme) : Prop :=
  ∃ rest, split? (l.text.toList ++ rest) = some (l, rest)

theorem startsNumber_eq_false (starts : startsName c = true) : Decimal.startsNumber c = false := by
  have noPoint : c ∉ ['.'] := not_mem_of_apart starts (by decide)
  rw [Decimal.startsNumber, Text.isDigit_of_startsName starts, Bool.false_or]
  simpa using noPoint

/-- A word that was cut off is cut off again before a separator. The rules before its own still do not apply, since
they depend on the first character only. -/
theorem IsCut.split?_append (cut : l.IsCut) (ends : EndsAt separators after) :
    split? (l.text.toList ++ after) = some (l, after) := by
  obtain ⟨rest, found⟩ := cut
  rcases split?_cases found with ⟨word, applied, rfl⟩ | ⟨word, applied, rfl⟩ | ⟨word, applied, rfl⟩ |
      ⟨word, applied, rfl⟩ <;> simp only [text, String.toList_ofList] at applied ⊢
  · exact split?_of_op (splitOp?_append applied ends)
  · have again := splitQuoted?_append applied after
    obtain ⟨quote, inside, rfl, opens, -⟩ := eq_of_splitQuoted? applied
    have noOp : quote ∉ operatorStarts := not_mem_of_apart (p := quotes.contains) (by simpa using opens) (by decide)
    exact split?_of_quoted (splitOp?_eq_none noOp _) again
  · have again := Decimal.split?_append applied ends
    obtain ⟨c, more, rfl⟩ := List.exists_cons_of_ne_nil (Decimal.append_split? applied).2
    have begins : Decimal.startsNumber c = true := by
      cases other : Decimal.startsNumber c with
      | true => rfl
      | false =>
        rw [List.cons_append, Decimal.split?_eq_none other] at again
        cases again
    exact split?_of_number (splitOp?_eq_none (not_mem_of_apart begins (by decide)) _)
      (splitQuoted?_eq_none (not_mem_of_apart begins (by decide)) _) again
  · have again := splitName?_append applied ends
    obtain ⟨c, run, rfl, starts, -⟩ := eq_of_splitName? applied
    exact split?_of_name (splitOp?_eq_none (not_mem_of_apart starts (by decide)) _)
      (splitQuoted?_eq_none (not_mem_of_apart starts (by decide)) _)
      (Decimal.split?_eq_none (startsNumber_eq_false starts) _) again

/-- A character that is an operator and starts no other is a word, whatever follows it. -/
theorem split?_of_single (single : singles.contains c = true) (alone : c ∉ pairs.map Prod.fst) (rest : List Char) :
    split? (c :: rest) = some (.op (.ofList [c]), rest) := by
  refine split?_of_op ?_
  cases rest with
  | nil => simp only [splitOp?, single, if_true]
  | cons d rest =>
    have noPair : pairs.contains (c, d) = false := by
      simpa using fun pair => alone (List.mem_map.2 ⟨_, pair, rfl⟩)
    simp only [splitOp?, noPair, single, if_true]
    rfl

theorem IsCut.eq_op (cut : l.IsCut) (word : l.text.toList = [c]) (single : singles.contains c = true)
    (alone : c ∉ pairs.map Prod.fst) : l = .op (.ofList [c]) := by
  obtain ⟨rest, found⟩ := cut
  rw [word, List.singleton_append, split?_of_single single alone] at found
  cases found
  rfl

theorem IsCut.split?_single (cut : l.IsCut) (word : l.text.toList = [c]) (single : singles.contains c = true)
    (alone : c ∉ pairs.map Prod.fst) (rest : List Char) : split? (l.text.toList ++ rest) = some (l, rest) := by
  rw [word, List.singleton_append, split?_of_single single alone, cut.eq_op word single alone]

theorem split?_eq_none_of_isGap (gap : isGap c = true) (rest : List Char) : split? (c :: rest) = none := by
  have member : c ∈ [' ', '\t', '\r', '\n'] := by simpa [isGap, or_assoc] using gap
  have noOp := splitOp?_eq_none (not_mem_of_apart gap (by decide)) rest
  have noQuote := splitQuoted?_eq_none (not_mem_of_apart gap (by decide)) rest
  have noNumber := Decimal.split?_eq_none (eq_false_of_apart member (by decide)) rest
  have noName := splitName?_eq_none (eq_false_of_apart member (by decide)) rest
  simp [split?, rules, noOp, noQuote, noNumber, noName]

/-- A text in which the words follow each other, with spaces before some of them, and are cut off in their order. -/
inductive Spaced : List Lexeme → List Char → Prop
  | nil : Spaced [] []
  | space {ls : List Lexeme} {cs : List Char} (later : Spaced ls cs) : Spaced ls (' ' :: cs)
  | word {l : Lexeme} {ls : List Lexeme} {cs : List Char} (cut : split? (l.text.toList ++ cs) = some (l, cs))
    (later : Spaced ls cs) : Spaced (l :: ls) (l.text.toList ++ cs)

theorem Spaced.scanFrom_eq {ls : List Lexeme} {cs : List Char} (spaced : Spaced ls cs) (position : Nat) :
    scanFrom position cs = .ok ls := by
  induction spaced generalizing position with
  | nil => rw [scanFrom]
  | space later ih =>
    rw [scanFrom, if_pos (by decide)]
    exact ih _
  | @word l ls cs cut later ih =>
    obtain ⟨c, more, chars⟩ := List.exists_cons_of_ne_nil (append_split? cut).2
    rw [chars, List.cons_append] at cut ⊢
    have noGap : ¬isGap c = true := by
      intro gap
      rw [split?_eq_none_of_isGap gap] at cut
      cases cut
    rw [scanFrom, if_neg noGap]
    split
    · next none =>
      rw [cut] at none
      cases none
    · next found =>
      rw [cut] at found
      cases found
      simp only [ih]

/-- All words of a text have been cut off. -/
theorem isCut_of_scanFrom {position : Nat} {cs : List Char} {ls : List Lexeme}
    (scanned : scanFrom position cs = .ok ls) : ∀ l ∈ ls, l.IsCut := by
  induction size : cs.length using Nat.strongRecOn generalizing position cs ls with
  | ind k ih =>
    cases cs with
    | nil =>
      rw [scanFrom] at scanned
      cases scanned
      simp
    | cons c rest =>
      rw [scanFrom] at scanned
      split at scanned
      · exact ih rest.length (by rw [← size]; simp) scanned rfl
      · split at scanned
        · cases scanned
        · next l after found =>
          split at scanned
          · cases scanned
          · next more later =>
            cases scanned
            intro m member
            rcases List.mem_cons.1 member with rfl | member
            · exact ⟨after, by rw [(append_split? found).1, found]⟩
            · exact ih after.length (by rw [← size]; exact length_lt_of_split? found) later rfl m member

end Lexeme

end Flowchart
