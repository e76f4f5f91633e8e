import Flowchart.Text.Lowercase
/-! A text in small letters stays as it is when it is lower-cased again. This rests on the table of capitals: no
letter that is the small form of a capital is a capital itself. The table is compared with itself run by run.
Where the small letters of one run reach into the capitals of another, they lie between them. -/
namespace Flowchart.Text

/-- A run of capitals: first and last code point, the distance between two of them, and what is added to reach
the small letter. -/
abbrev Capitals := Nat × Nat × Nat × Int

namespace Capitals

/-- Whether a code point belongs to the run. -/
def has : Capitals → Nat → Bool
  | (first, last, step, _), n => first ≤ n && n ≤ last && (n - first) % step == 0

/-- Whether the small letters of a run are characters. -/
def areSmall : Capitals → Bool
  | (first, last, _, shift) =>
    0 ≤ first + shift && (last + shift < 0xd800 || 0xdfff < first + shift && last + shift < 0x110000)

/-- Whether the small letters of a run miss the capitals of another: they lie behind them, before them or in
between. A run of one letter keeps no distance. -/
def misses (run other : Capitals) : Bool :=
  bif Nat.ble (run.1 + run.2.2.2).toNat other.2.1 then
    bif Nat.ble other.1 (run.2.1 + run.2.2.2).toNat then
      (run.1 == run.2.1 || run.2.2.1 % other.2.2.1 == 0) && (run.1 + run.2.2.2 - other.1) % other.2.2.1 != 0
    else true
  else true

/-- The dotted capital I as a run of its own. -/
def dotted : Capitals :=
  (0x130, 0x130, 1, 0)

/-- The letters of a run keep their distance from the first. -/
theorem step_dvd {first last step step' n : Nat} {shift : Int} (here : has (first, last, step, shift) n = true)
    (steps : first = last ∨ step % step' = 0) : (step' : Int) ∣ n - first := by
  simp only [has, Bool.and_eq_true, decide_eq_true_eq, beq_iff_eq] at here
  obtain ⟨⟨low, high⟩, placed⟩ := here
  rcases steps with only | steps
  · have same : n = first := by omega
    simp [same]
  · have whole : step' ∣ n - first :=
      Nat.dvd_trans (Nat.dvd_of_mod_eq_zero steps) (Nat.dvd_of_mod_eq_zero placed)
    rw [← Int.ofNat_sub low]
    exact Int.natCast_dvd_natCast.2 whole

/-- The small letter of a capital is no capital of a run that is missed. -/
theorem not_has {first last step n : Nat} {shift : Int} {other : Capitals}
    (small : areSmall (first, last, step, shift) = true) (here : has (first, last, step, shift) n = true)
    (missed : misses (first, last, step, shift) other = true) : ¬other.has (n + shift).toNat = true := by
  intro there
  obtain ⟨first', last', step', shift'⟩ := other
  have apart (steps : first = last ∨ step % step' = 0) : (step' : Int) ∣ n - first := step_dvd here steps
  simp only [has, areSmall, misses, Bool.and_eq_true, Bool.or_eq_true, decide_eq_true_eq, beq_iff_eq,
    Bool.cond_eq_ite, Nat.ble_eq] at here there small missed
  obtain ⟨⟨low, high⟩, -⟩ := here
  obtain ⟨⟨low', high'⟩, placed⟩ := there
  rw [if_pos (by omega), if_pos (by omega)] at missed
  have place : (step' : Int) ∣ n + shift - first' := by
    have whole := Int.natCast_dvd_natCast.2 (Nat.dvd_of_mod_eq_zero placed)
    rwa [Int.ofNat_sub low', Int.toNat_of_nonneg (by omega)] at whole
  have difference : first + shift - first' = (n + shift - first') - (n - first) := by omega
  simp only [Bool.and_eq_true, Bool.or_eq_true, beq_iff_eq, bne_iff_ne] at missed
  apply missed.2
  rw [difference]
  exact Int.emod_eq_zero_of_dvd (Int.dvd_sub place (apart missed.1))

end Capitals

theorem areSmall_capitals : ∀ run ∈ capitals, Capitals.areSmall run = true := by
  decide +kernel

theorem misses_capitals : ∀ run ∈ capitals, (Capitals.dotted :: capitals).all (Capitals.misses run) = true := by
  decide +kernel

theorem small?_eq (c : Char) : small? c = (capitals.find? (Capitals.has · c.toNat)).map
    fun run : Capitals => Char.ofNat (c.toNat + run.2.2.2 : Int).toNat := rfl

/-- A character that lower-casing leaves as it is, whatever stands around it. -/
structure IsSettled (c : Char) : Prop where
  plain : c ≠ '\u0130'
  small : small? c = none

theorem isSettled_small {c x : Char} (lowers : small? c = some x) : IsSettled x := by
  rw [small?_eq] at lowers
  obtain ⟨⟨first, last, step, shift⟩, found, rfl⟩ := Option.map_eq_some_iff.1 lowers
  have listed := List.mem_of_find?_eq_some found
  have here : Capitals.has (first, last, step, shift) c.toNat = true := by simpa using List.find?_some found
  have small := areSmall_capitals _ listed
  have free (other : Capitals) (member : other ∈ Capitals.dotted :: capitals) :
      ¬other.has (c.toNat + shift).toNat = true :=
    Capitals.not_has small here (List.all_eq_true.1 (misses_capitals _ listed) other member)
  have point : (Char.ofNat (c.toNat + shift).toNat).toNat = (c.toNat + shift).toNat := by
    simp only [Capitals.has, Capitals.areSmall, Bool.and_eq_true, Bool.or_eq_true, decide_eq_true_eq] at here small
    have valid : Nat.isValidChar (c.toNat + shift).toNat := by
      unfold Nat.isValidChar
      omega
    rw [Char.ofNat, dif_pos valid]
    rfl
  constructor
  · intro dotted
    apply free Capitals.dotted List.mem_cons_self
    rw [← point, dotted]
    decide
  · rw [small?_eq, point, List.find?_eq_none.2 fun other member => free other (List.mem_cons_of_mem _ member)]
    rfl

theorem isSettled_lowerAt {before after : List Char} {c x : Char} (made : x ∈ lowerAt before c after) :
    IsSettled x := by
  have letters : (['i', '\u0307', '\u03c2'].all fun y => y != '\u0130' && (small? y).isNone) = true := by decide +kernel
  have settled (y : Char) (one : y ∈ ['i', '\u0307', '\u03c2']) : IsSettled y := by
    have letter := List.all_eq_true.1 letters y one
    rw [Bool.and_eq_true, bne_iff_ne, Option.isNone_iff_eq_none] at letter
    exact ⟨letter.1, letter.2⟩
  unfold lowerAt at made
  split at made
  · apply settled
    rcases List.mem_cons.1 made with rfl | mark
    · simp
    · simp_all
  · next undotted =>
    split at made
    · apply settled
      simp_all
    · rw [List.mem_singleton.1 made]
      cases lowers : small? c with
      | some y => exact isSettled_small lowers
      | none => exact ⟨by simpa using undotted, lowers⟩

theorem lowerAt_of_isSettled {c : Char} (settled : IsSettled c) (before after : List Char) :
    lowerAt before c after = [c] := by
  have sigma : c ≠ '\u03a3' := by
    rintro rfl
    have capital : (small? '\u03a3').isSome = true := by decide +kernel
    rw [settled.small] at capital
    cases capital
  simp [lowerAt, settled.plain, sigma, settled.small]

theorem lowerFrom_of_isSettled {cs : List Char} (settled : ∀ c ∈ cs, IsSettled c) (before : List Char) :
    lowerFrom before cs = cs := by
  induction cs generalizing before with
  | nil => rfl
  | cons c rest ih =>
    rw [lowerFrom, lowerAt_of_isSettled (settled c List.mem_cons_self),
      ih fun d later => settled d (List.mem_cons_of_mem _ later)]
    rfl

theorem isSettled_lowerFrom {cs before : List Char} {x : Char} (made : x ∈ lowerFrom before cs) : IsSettled x := by
  induction cs generalizing before with
  | nil => cases made
  | cons c rest ih =>
    rcases List.mem_append.1 made with here | later
    · exact isSettled_lowerAt here
    · exact ih later

/-- What is in small letters is not changed by lower-casing it. -/
theorem lower_lower (s : String) : lower (lower s) = lower s := by
  unfold lower
  rw [String.toList_ofList, lowerFrom_of_isSettled fun x made => isSettled_lowerFrom made]

end Flowchart.Text
