import Flowchart.Proofs.CodeLines
import Flowchart.Proofs.Cutting
import Flowchart.Proofs.Doubles
import Flowchart.Input
/-! Integers written as text. Their digits are read as a double, whichever way they are read, so an integer comes
back as the double nearest to it. -/
namespace Flowchart

namespace Text

/-- Trimming changes nothing between two visible characters. -/
theorem trimChars_of_visible {c : Char} {rest : List Char} (visible : isBlank c = false)
    (ends : endsVisibly (c :: rest) = true) : trimChars (c :: rest) = c :: rest := by
  rw [trimChars_cons visible, rdropWhile_of_endsVisibly ends]

theorem toNat_of_digit {c : Char} (digit : c.isDigit = true) : 48 ≤ c.toNat ∧ c.toNat ≤ 57 := by
  obtain ⟨low, high⟩ := Bool.and_eq_true_iff.1 (show (decide (c.val ≥ '0'.val) && decide (c.val ≤ '9'.val)) = true
    from digit)
  exact ⟨UInt32.le_iff_toNat_le.1 (of_decide_eq_true low), UInt32.le_iff_toNat_le.1 (of_decide_eq_true high)⟩

theorem digit?_of_digit {c : Char} (digit : c.isDigit = true) : digit? c = some (c.toNat - '0'.toNat) := by
  obtain ⟨low, high⟩ := toNat_of_digit digit
  have within : (decide (0x30 ≤ c.toNat) && decide (c.toNat < 0x30 + 10)) = true := by
    simp only [Bool.and_eq_true, decide_eq_true_eq]
    omega
  have first : (zeros.find? fun first => first ≤ c.toNat && c.toNat < first + 10) = some 0x30 :=
    List.find?_cons_of_pos within
  rw [digit?, first]
  rfl

theorem isDigit_of_digit {c : Char} (digit : c.isDigit = true) : isDigit c = true := by
  rw [isDigit, digit?_of_digit digit]
  rfl

theorem isBlank_of_digit {c : Char} (digit : c.isDigit = true) : isBlank c = false := by
  obtain ⟨low, high⟩ := toNat_of_digit digit
  simp only [isBlank, Bool.or_eq_false_iff, Bool.and_eq_false_iff, decide_eq_false_iff_not, beq_eq_false_iff_ne]
  omega

theorem digitsValue_toDigits (n : Nat) : digitsValue (Nat.toDigits 10 n) = n := by
  have same (cs : List Char) (digits : ∀ c ∈ cs, c.isDigit = true) (start : Nat) :
      cs.foldl (fun n c => 10 * n + (digit? c).getD 0) start = Nat.ofDigitChars 10 cs start := by
    induction cs generalizing start with
    | nil => rfl
    | cons c rest ih =>
      rw [List.foldl_cons, digit?_of_digit (digits c (by simp)), Nat.ofDigitChars_cons]
      exact ih (fun c later => digits c (by simp [later])) _
  rw [digitsValue, same _ (fun c => Nat.isDigit_of_mem_toDigits (by decide) (by decide)),
    Nat.ofDigitChars_ten_toDigits]

end Text

theorem toList_toString (n : Int) :
    (toString n).toList = if n < 0 then '-' :: Nat.toDigits 10 n.natAbs else Nat.toDigits 10 n.natAbs := by
  cases n with
  | ofNat n =>
    exact Nat.toList_repr.trans (if_neg (Int.not_lt.2 (Int.natCast_nonneg n))).symm
  | negSucc n =>
    rw [if_pos (Int.negSucc_lt_zero n)]
    have chars : (toString (Int.negSucc n)).toList = '-' :: Nat.toDigits 10 (n + 1) := by
      rw [← Nat.toList_repr]
      exact String.toList_append
    exact chars

namespace Decimal
open Text

/-- The double that the digits of a natural number denote. -/
def ofNatural (negative : Bool) (n : Nat) : Float :=
  (Double.nearest? negative n 1).getD (Double.infinity negative)

/-- Numbers of more digits than doubles have are beyond doubles. -/
theorem nearest_natural (negative : Bool) (n : Nat) : nearest negative n 0 = ofNatural negative n := by
  unfold nearest ofNatural
  by_cases zero : n = 0
  · subst zero
    rfl
  have short : ¬((Nat.toDigits 10 n).length : Int) + 0 < -400 := by omega
  simp only [zero, decide_false, short, Bool.or_self, Bool.false_eq_true, ↓reduceIte]
  split
  · next long =>
    have many : ¬n < 10 ^ 400 := fun below =>
      absurd ((Nat.length_toDigits_le_iff (by decide) (by decide)).2 below) (by omega)
    rw [Double.nearest?_eq_none negative (Double.tooLarge_le.trans (Nat.not_lt.1 many))]
    rfl
  · simp

theorem bne_of_mem_toDigits {n : Nat} {c d : Char} (member : c ∈ Nat.toDigits 10 n) (other : d.isDigit = false) :
    (c != d) = true := by
  refine bne_iff_ne.2 ?_
  rintro rfl
  rw [Nat.isDigit_of_mem_toDigits (by decide) (by decide) member] at other
  cases other

theorem value_toDigits (negative : Bool) (n : Nat) : value negative (Nat.toDigits 10 n) = ofNatural negative n := by
  have noLetter : ∀ c ∈ Nat.toDigits 10 n, (c != 'e' && c != 'E') = true := fun c member =>
    Bool.and_eq_true_iff.2 ⟨bne_of_mem_toDigits member (by decide), bne_of_mem_toDigits member (by decide)⟩
  have noPoint : ∀ c ∈ Nat.toDigits 10 n, (c != '.') = true := fun c member =>
    bne_of_mem_toDigits member (by decide)
  have nothing {p : Char → Bool} (all : ∀ c ∈ Nat.toDigits 10 n, p c = true) : (Nat.toDigits 10 n).dropWhile p = [] :=
    List.dropWhile_eq_nil_iff.2 all
  unfold value
  simp only [List.takeWhile_eq_self_iff.2 noLetter, nothing noLetter, List.takeWhile_eq_self_iff.2 noPoint,
    nothing noPoint, List.drop_nil, List.append_nil, digitsValue_toDigits, exponentValue, List.length_nil]
  exact nearest_natural negative n

theorem split?_toDigits (n : Nat) : split? (Nat.toDigits 10 n) = some (Nat.toDigits 10 n, []) := by
  have digits : IsMantissa (Nat.toDigits 10 n) :=
    .whole (fun c member => isDigit_of_digit (Nat.isDigit_of_mem_toDigits (by decide) (by decide) member))
      Nat.toDigits_ne_nil
  have mantissa : splitMantissa? (Nat.toDigits 10 n ++ []) = some (Nat.toDigits 10 n, []) :=
    splitMantissa?_append digits (by simp) (by simp)
  rw [List.append_nil] at mantissa
  rw [split?, mantissa]
  simp [splitExponent]

theorem splitSign_toString (n : Int) :
    splitSign (toString n).toList = (decide (n < 0), Nat.toDigits 10 n.natAbs) := by
  rw [toList_toString]
  by_cases negative : n < 0
  · simp [negative, splitSign]
  · simp only [negative, ↓reduceIte, decide_false]
    unfold splitSign
    split
    · next same =>
      have digit := Nat.isDigit_of_mem_toDigits (n := n.natAbs) (b := 10) (c := '-') (by decide) (by decide)
        (by rw [same]; simp)
      cases digit
    · next same =>
      have digit := Nat.isDigit_of_mem_toDigits (n := n.natAbs) (b := 10) (c := '+') (by decide) (by decide)
        (by rw [same]; simp)
      cases digit
    · rfl

/-- The double that the text of an integer denotes. -/
theorem ofChars?_toString (n : Int) : ofChars? (toString n).toList = some (ofNatural (n < 0) n.natAbs) := by
  rw [ofChars?, splitSign_toString]
  simp only [split?_toDigits, value_toDigits]

theorem visible_toString (n : Int) : ∀ c ∈ (toString n).toList, isBlank c = false := by
  have digits : ∀ c ∈ Nat.toDigits 10 n.natAbs, isBlank c = false := fun c member =>
    isBlank_of_digit (Nat.isDigit_of_mem_toDigits (by decide) (by decide) member)
  rw [toList_toString]
  split
  · exact List.forall_mem_cons.2 ⟨by decide, digits⟩
  · exact digits

theorem trimChars_toString (n : Int) : trimChars (toString n).toList = (toString n).toList := by
  have visible := visible_toString n
  generalize (toString n).toList = cs at visible ⊢
  cases cs with
  | nil => rfl
  | cons c rest =>
    refine trimChars_of_visible (visible c (by simp)) ?_
    rw [endsVisibly, List.getLast?_eq_some_getLast (by simp)]
    simpa using visible _ (List.getLast_mem _)

theorem leading_toString (n : Int) : leading (toString n).toList = .ok (some (ofNatural (n < 0) n.natAbs)) := by
  have visible : (toString n).toList.takeWhile isBlank = [] ∧
      (toString n).toList.dropWhile isBlank = (toString n).toList := by
    have visible := visible_toString n
    generalize (toString n).toList = cs at visible ⊢
    cases cs with
    | nil => exact ⟨rfl, rfl⟩
    | cons c rest =>
      have first : ¬isBlank c = true := by simp [visible c (by simp)]
      exact ⟨List.takeWhile_cons_of_neg first, List.dropWhile_cons_of_neg first⟩
  rw [leading, visible.1, visible.2, splitSign_toString]
  simp only [split?_toDigits, value_toDigits, List.all_nil, ↓reduceIte]

theorem exists_toString (n : Int) :
    ∃ c rest, (toString n).toList = c :: rest ∧ 45 ≤ c.toNat ∧ c.toNat ≤ 57 := by
  rw [toList_toString]
  split
  · exact ⟨_, _, rfl, by decide, by decide⟩
  · cases digits : Nat.toDigits 10 n.natAbs with
    | nil => exact absurd digits Nat.toDigits_ne_nil
    | cons c rest =>
      have member : c ∈ Nat.toDigits 10 n.natAbs := by simp [digits]
      have range := toNat_of_digit (Nat.isDigit_of_mem_toDigits (by decide) (by decide) member)
      exact ⟨c, rest, rfl, by omega, range.2⟩

end Decimal

/-! ### The three readers -/

/-- A text that starts like neither of the two truth values is quoted, a number or itself. -/
theorem Literal.infer_of_no_word {text : String} {c : Char} {rest : List Char}
    (trimmed : Text.trimChars text.toList = c :: rest) (noTrue : c.toLower ≠ 't') (noFalse : c.toLower ≠ 'f') :
    infer text = match unquoted? (c :: rest) with
      | some inside => ⟨.text (String.ofList inside), .string⟩
      | none =>
        match Decimal.ofChars? (c :: rest) with
        | some x => ofDouble x
        | none => ⟨.text text, .string⟩ := by
  have noWord {d : Char} {word : List Char} (other : c.toLower ≠ d) :
      (String.ofList ((c :: rest).map Char.toLower) == String.ofList (d :: word)) = false := by
    refine beq_eq_false_iff_ne.2 fun same => other ?_
    exact (List.cons.inj (String.ofList_injective same)).1
  unfold infer
  simp only [trimmed]
  rw [show "true" = String.ofList ('t' :: ['r', 'u', 'e']) from rfl,
    show "false" = String.ofList ('f' :: ['a', 'l', 's', 'e']) from rfl, noWord noTrue, noWord noFalse]
  rfl

/-- The text of an integer is neither a truth value nor quoted, so it is read as a number. -/
theorem Literal.infer_toString (n : Int) :
    infer (toString n) = ofDouble (Decimal.ofNatural (n < 0) n.natAbs) := by
  obtain ⟨c, rest, chars, low, high⟩ := Decimal.exists_toString n
  have small : c.toLower = c := by
    refine dif_neg fun upper => ?_
    have : 65 ≤ c.toNat := UInt32.le_iff_toNat_le.1 upper.1
    omega
  have below {d : Char} (above : 57 < d.toNat) : c.toLower ≠ d := by
    rw [small]
    rintro rfl
    omega
  have unquoted : unquoted? (c :: rest) = none := by
    have plain : (c == '"' || c == '\'') = false := by
      simp only [Bool.or_eq_false_iff, beq_eq_false_iff_ne]
      constructor <;> rintro rfl <;> simp at low
    simp only [unquoted?, plain, Bool.false_and, Bool.false_eq_true, ↓reduceIte]
  have trimmed := (Decimal.trimChars_toString n).trans chars
  have read := Decimal.ofChars?_toString n
  rw [chars] at read
  rw [infer_of_no_word trimmed (below (by decide)) (below (by decide)), unquoted, read]

namespace Decimal

theorem toInt?_ofNatural {n : Int} (range : n.natAbs < Double.tooLarge) :
    Double.toInt? (ofNatural (n < 0) n.natAbs) = some (Double.roundInt n) := by
  obtain ⟨x, made, whole⟩ := Double.nearest?_natural (n < 0) range
  rw [ofNatural, made]
  exact whole

theorem ofNatural_beyond {n : Int} (beyond : Double.tooLarge ≤ n.natAbs) :
    ofNatural (n < 0) n.natAbs = Double.infinity (n < 0) := by
  rw [ofNatural, Double.nearest?_eq_none _ beyond]
  rfl

end Decimal

theorem Literal.infer_within {n : Int} (range : n.natAbs < Double.tooLarge) :
    infer (toString n) = ⟨.int (Double.roundInt n), .integer⟩ := by
  rw [infer_toString, ofDouble, Decimal.toInt?_ofNatural range]

theorem Literal.infer_beyond {n : Int} (beyond : Double.tooLarge ≤ n.natAbs) :
    infer (toString n) = ⟨.float (Double.infinity (n < 0)), .float⟩ := by
  rw [infer_toString, Decimal.ofNatural_beyond beyond, ofDouble, Double.toInt?_infinity]

/-- The whole part of the number that the text of an integer starts with. -/
theorem Eval.toInteger_toString (n : Int) (source : String) :
    toInteger (.real (Decimal.ofNatural (n < 0) n.natAbs)) source =
      if n.natAbs < Double.tooLarge then .ok (Double.roundInt n) else .error (.unconvertible source "integer") := by
  by_cases range : n.natAbs < Double.tooLarge
  · simp only [toInteger, Double.floor?_of_toInt? (Decimal.toInt?_ofNatural range), range, ↓reduceIte]
  · simp only [toInteger, Decimal.ofNatural_beyond (Nat.not_lt.1 range), Double.floor?_infinity, range, ↓reduceIte]

theorem Eval.leadingNumber_toString (n : Int) :
    leadingNumber (toString n) = .ok (some (Decimal.ofNatural (n < 0) n.natAbs)) := by
  rw [leadingNumber, Decimal.leading_toString]

theorem Eval.evaluate_integer_string {s : Store} {t : Term} {n : Int}
    (value : evaluate s t = .ok ⟨.int n, some .integer⟩) :
    evaluate s (.call .integer (.call .string t)) =
      if n.natAbs < Double.tooLarge then .ok ⟨.int (Double.roundInt n), some .integer⟩
      else .error (.unconvertible (toString n) "integer") := by
  have text : evaluate s (.call .string t) = .ok ⟨.text (toString n), some .string⟩ := by
    rw [evaluate, value]
    rfl
  have number : parseNumber (.text (toString n)) = .ok (some (.real (Decimal.ofNatural (n < 0) n.natAbs))) := by
    rw [parseNumber, leadingNumber_toString]
    rfl
  rw [evaluate, text]
  simp only [Except.bind, convert, reduceCtorEq, Option.some.injEq, number, ↓reduceIte, toInteger_toString,
    Value.display]
  by_cases range : n.natAbs < Double.tooLarge
  · simp only [range, ↓reduceIte, Except.map]
  · simp only [range, ↓reduceIte, Except.map]

theorem Input.convert_toString (n : Int) : convert (toString n) .integer =
    if n.natAbs < Double.tooLarge then .ok (.int (Double.roundInt n))
    else .error (.unconvertible (toString n) "integer") := by
  simp only [convert, number, Eval.leadingNumber_toString, bind, Except.bind, Eval.toInteger_toString]
  by_cases range : n.natAbs < Double.tooLarge
  · simp only [range, ↓reduceIte]
    rfl
  · simp only [range, ↓reduceIte]

theorem Double.roundInt_odd : roundInt 9007199254740993 = 9007199254740992 := by
  decide

theorem natAbs_odd_lt : (9007199254740993 : Int).natAbs < Double.tooLarge := by
  have next : Double.Fits 9007199254740994 := ⟨4503599627370497, 1, by decide, by decide, rfl⟩
  exact Nat.lt_trans (by decide) next.lt_tooLarge

/-- The text of an integer is read through a double wherever a number is read from text: as a literal, in a
conversion and from the keyboard. All three give the double nearest to the integer, which is the integer itself
exactly if it is a double, and so for all integers up to `2 ^ 53`. From the middle behind the greatest double on the
literal is infinite, and the two others fail. -/
theorem integer_texts_rounded (n : Int) :
    (n.natAbs < Double.tooLarge →
      ∃ r, Double.Rounds n r ∧ (r = n ↔ Double.IsDouble n) ∧ (n.natAbs ≤ 2 ^ 53 → r = n) ∧
        Literal.infer (toString n) = ⟨.int r, .integer⟩ ∧
        (∀ s t, Eval.evaluate s t = .ok ⟨.int n, some .integer⟩ →
          Eval.evaluate s (.call .integer (.call .string t)) = .ok ⟨.int r, some .integer⟩) ∧
        Input.convert (toString n) .integer = .ok (.int r)) ∧
    (Double.tooLarge ≤ n.natAbs →
      Literal.infer (toString n) = ⟨.float (Double.infinity (n < 0)), .float⟩ ∧
      (∀ s t, Eval.evaluate s t = .ok ⟨.int n, some .integer⟩ →
        Eval.evaluate s (.call .integer (.call .string t)) = .error (.unconvertible (toString n) "integer")) ∧
      Input.convert (toString n) .integer = .error (.unconvertible (toString n) "integer")) := by
  constructor
  · intro range
    have exact := Double.roundInt_eq_iff range
    refine ⟨Double.roundInt n, Double.rounds_roundInt range, exact,
      fun small => exact.2 (Double.isDouble_of_natAbs_le small), Literal.infer_within range, ?_, ?_⟩
    · intro s t value
      rw [Eval.evaluate_integer_string value, if_pos range]
    · rw [Input.convert_toString, if_pos range]
  · intro beyond
    refine ⟨Literal.infer_beyond beyond, ?_, ?_⟩
    · intro s t value
      rw [Eval.evaluate_integer_string value, if_neg (Nat.not_lt.2 beyond)]
    · rw [Input.convert_toString, if_neg (Nat.not_lt.2 beyond)]

/-- At the first integer that is no double, and at one beyond all doubles. -/
theorem integer_texts_rounded_odd :
    (∃ r, (9007199254740993 : Int).natAbs < Double.tooLarge ∧ Double.Rounds 9007199254740993 r ∧
      r ≠ 9007199254740993 ∧ Literal.infer "9007199254740993" = ⟨.int r, .integer⟩ ∧
      Input.convert "9007199254740993" .integer = .ok (.int r)) ∧
    Double.tooLarge ≤ (-10 ^ 400 : Int).natAbs ∧
      Literal.infer (toString (-10 ^ 400 : Int)) = ⟨.float (Double.infinity true), .float⟩ := by
  have power (k : Nat) : (-10 ^ k : Int).natAbs = 10 ^ k := by
    rw [Int.natAbs_neg, Int.natAbs_pow]
    rfl
  have beyond : Double.tooLarge ≤ (-10 ^ 400 : Int).natAbs := Double.tooLarge_le.trans_eq (power 400).symm
  obtain ⟨r, rounds, exact, -, literal, -, typed⟩ := (integer_texts_rounded 9007199254740993).1 natAbs_odd_lt
  refine ⟨⟨r, natAbs_odd_lt, rounds, ?_, literal, typed⟩, beyond, ?_⟩
  · intro same
    have unchanged := (Double.roundInt_eq_iff natAbs_odd_lt).2 (exact.1 same)
    rw [Double.roundInt_odd] at unchanged
    cases unchanged
  · have infinite := ((integer_texts_rounded (-10 ^ 400)).2 beyond).1
    rwa [decide_eq_true (Int.neg_neg_of_pos (Int.pow_pos (by decide)))] at infinite

/-- The first integer that is no double is read as its neighbour. -/
theorem integer_text_misread :
    Literal.infer "9007199254740993" = ⟨.int 9007199254740992, .integer⟩ ∧
      Eval.evaluate .empty (.call .integer (.call .string (.literal (.int 9007199254740993) .integer))) =
        .ok ⟨.int 9007199254740992, some .integer⟩ ∧
      Input.convert "9007199254740993" .integer = .ok (.int 9007199254740992) := by
  have value : Eval.evaluate .empty (.literal (.int 9007199254740993) .integer) =
      .ok ⟨.int 9007199254740993, some .integer⟩ := by
    rw [Eval.evaluate]
  have literal := Literal.infer_within natAbs_odd_lt
  have cast := Eval.evaluate_integer_string value
  have typed := Input.convert_toString 9007199254740993
  rw [if_pos natAbs_odd_lt, Double.roundInt_odd] at cast typed
  rw [Double.roundInt_odd] at literal
  exact ⟨literal, cast, typed⟩

end Flowchart
