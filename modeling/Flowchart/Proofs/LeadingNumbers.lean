import Flowchart.Eval
import Flowchart.Proofs.Cutting
/-! Numbers that are found at the start of a text and yet cannot be read. An information separator is blank, so it is
passed on the way to a decimal, but no decimal is read behind one. A reading that fails so names a word that consists
of blanks, such a separator among them, and of a decimal that would be read alone. -/
namespace Flowchart

namespace Decimal
open Text

/-- A decimal with blanks before it, of which at least one is an information separator. -/
def Separated (word : List Char) : Prop :=
  ∃ blanks number, word = blanks ++ number ∧ (∀ c ∈ blanks, isBlank c = true) ∧
    (∃ c ∈ blanks, isSeparator c = true) ∧ ∃ x, ofChars? number = some x

/-- A decimal that was cut off is the whole of itself. -/
theorem split?_self {cs number rest : List Char} (cut : split? cs = some (number, rest)) :
    split? number = some (number, []) := by
  obtain ⟨joined, -⟩ := append_split? cut
  rw [← joined] at cut
  simpa using split?_append cut endsAt_nil

theorem splitMark_append_splitSign (cs : List Char) : (splitMark cs).1 ++ (splitSign cs).2 = cs := by
  unfold splitSign
  split
  · rfl
  · rfl
  · next noMinus noPlus =>
    cases cs with
    | nil => rfl
    | cons c rest =>
      have unsigned : ¬((c == '+' || c == '-') = true) := by
        simp only [Bool.or_eq_true, beq_iff_eq]
        rintro (rfl | rfl)
        · exact noPlus rest rfl
        · exact noMinus rest rfl
      rw [splitMark, if_neg unsigned]
      rfl

/-- The sign that was found before a decimal is found before it again when nothing follows the decimal. -/
theorem splitSign_splitMark {found number rest : List Char} (nonempty : number ≠ [])
    (begins : number ++ rest = (splitSign found).2) :
    splitSign ((splitMark found).1 ++ number) = ((splitSign found).1, number) := by
  cases found with
  | nil =>
    have none : number = [] := (List.append_eq_nil_iff.1 begins).1
    exact absurd none nonempty
  | cons c more =>
    by_cases minus : c = '-'
    · subst minus
      rfl
    by_cases plus : c = '+'
    · subst plus
      rfl
    have unsigned (cs : List Char) : splitSign (c :: cs) = (false, c :: cs) := by
      unfold splitSign
      split
      · next same => exact absurd (List.cons.inj same).1 minus
      · next same => exact absurd (List.cons.inj same).1 plus
      · rfl
    have unmarked : (splitMark (c :: more)).1 = [] := by
      simp [splitMark, plus, minus]
    rw [unsigned] at begins
    obtain ⟨d, digits, rfl⟩ := List.exists_cons_of_ne_nil nonempty
    cases (List.cons.inj begins).1
    rw [unmarked, unsigned, List.nil_append, unsigned]

/-- A reading fails only at a decimal behind an information separator, which the text begins with. -/
theorem leading_error {cs word : List Char} (failed : leading cs = .error word) :
    Separated word ∧ ∃ rest, cs = word ++ rest := by
  rw [leading] at failed
  dsimp only at failed
  split at failed
  · cases failed
  · next number rest cut =>
    split at failed
    · cases failed
    · next unfit =>
      cases failed
      obtain ⟨joined, nonempty⟩ := append_split? cut
      have blank : ∀ c ∈ cs.takeWhile isBlank, isBlank c = true := List.all_eq_true.1 List.all_takeWhile
      have separator : ∃ c ∈ cs.takeWhile isBlank, isSeparator c = true := by
        simp only [List.all_eq_true, isPadding, Bool.and_eq_true, Bool.not_eq_true'] at unfit
        grind
      have read : ofChars? ((splitMark (cs.dropWhile isBlank)).1 ++ number) =
          some (value (splitSign (cs.dropWhile isBlank)).1 number) := by
        rw [ofChars?, splitSign_splitMark nonempty joined]
        simp only [split?_self cut]
      refine ⟨⟨_, _, List.append_assoc .., blank, separator, _, read⟩, rest, ?_⟩
      have whole : (splitMark (cs.dropWhile isBlank)).1 ++ number ++ rest = cs.dropWhile isBlank := by
        rw [List.append_assoc, joined, splitMark_append_splitSign]
      rw [List.append_assoc, List.append_assoc, ← List.append_assoc _ number, whole, List.takeWhile_append_dropWhile]

end Decimal

/-- The failure to read a number that a text begins with, since an information separator stands before it. -/
def Error.IsUnread (e : Error) : Prop :=
  ∃ word : String, e = .fault (.notNumber word) ∧ Decimal.Separated word.toList

namespace Eval

theorem leadingNumber_error {s : String} {e : Error} (failed : leadingNumber s = .error e) : e.IsUnread := by
  rw [leadingNumber] at failed
  split at failed
  · cases failed
  · next word unread =>
    cases failed
    refine ⟨_, rfl, ?_⟩
    rw [String.toList_ofList]
    exact (Decimal.leading_error unread).1

theorem parseNumber_error {v : Value} {e : Error} (failed : parseNumber v = .error e) : e.IsUnread := by
  cases v with
  | text s =>
    rw [parseNumber] at failed
    cases read : leadingNumber s with
    | ok x =>
      rw [read] at failed
      cases failed
    | error e' =>
      rw [read] at failed
      cases failed
      exact leadingNumber_error read
  | _ => cases failed

end Eval
end Flowchart
