import Flowchart.Number.Decimal
import Mathlib
/-! Doubles and integers. A double that is put together from a sign, a mantissa and an exponent has these as its
parts, so what is rounded can be read back. Main statement: an integer is rounded to the nearest double, the even one
of two, and from the middle behind the greatest double on there is none. The integers that doubles are equal to are
kept, and the greatest integer not above a double is one of them. The library opens the bits of a double by a model
of floats, and no single file of it brings that along. -/
namespace Flowchart.Double

/-! ### Parts and bits -/

/-- The mantissas and exponents of doubles. A mantissa is of 53 bits unless the exponent is the least one. -/
structure Proper (mantissa : Nat) (exponent : Int) : Prop where
  bounded : mantissa < 2 ^ 53
  normal : 2 ^ 52 ≤ mantissa ∨ exponent = -1074
  least : -1074 ≤ exponent
  greatest : exponent ≤ 971

open Float.Model.UnpackedFloat in
theorem toBits_ofBits {b : UInt64} (number : b.toNat / 2 ^ 52 % 2 ^ 11 = 2047 → b.toNat % 2 ^ 52 = 0) :
    (Float.ofBits b).toBits = b := by
  have plain : @isNaNBits .binary64 b.toBitVec = false := by
    simp only [isNaNBits, decide_eq_false_iff_not, not_and, not_not, unpackExponent_def, unpackMantissa_def]
    intro full
    have exponent := congrArg BitVec.toNat full
    apply BitVec.eq_of_toNat_eq
    simp only [BitVec.extractLsb'_toNat, Nat.shiftRight_eq_div_pow, pow_zero, Nat.div_one] at exponent ⊢
    exact number exponent
  have same := @pack_unpack .binary64 b.toBitVec (by decide)
  rw [plain] at same
  exact UInt64.toBitVec_inj.1 same

theorem toNat_toBits {n : Nat} (bound : n < 2 ^ 64) (number : n / 2 ^ 52 % 2 ^ 11 = 2047 → n % 2 ^ 52 = 0) :
    (Float.ofBits (UInt64.ofNat n)).toBits.toNat = n := by
  have small : (UInt64.ofNat n).toNat = n := UInt64.toNat_ofNat_of_lt bound
  rw [toBits_ofBits (by rwa [small]), small]

/-- The three fields of a word. -/
def word (negative : Bool) (biased fraction : Nat) : Nat :=
  (if negative then 2 ^ 63 else 0) + biased * 2 ^ 52 + fraction

variable {negative : Bool} {biased fraction mantissa : Nat} {exponent : Int}

theorem parts_ofBits_word (range : biased < 2047) (small : fraction < 2 ^ 52) :
    parts (Float.ofBits (UInt64.ofNat (word negative biased fraction))) =
      if biased = 0 then .finite negative fraction (-1074)
      else .finite negative (2 ^ 52 + fraction) ((biased : Int) - 1075) := by
  have sign : decide (word negative biased fraction ≥ 2 ^ 63) = negative := by
    cases negative <;> simp [word] <;> omega
  have upper : word negative biased fraction / 2 ^ 52 % 2 ^ 11 = biased := by
    cases negative <;> simp [word] <;> omega
  have lower : word negative biased fraction % 2 ^ 52 = fraction := by
    cases negative <;> simp [word] <;> omega
  have bound : word negative biased fraction < 2 ^ 64 := by
    cases negative <;> simp [word] <;> omega
  have bits := toNat_toBits bound (by rw [upper]; omega)
  unfold parts
  simp only [Nat.pow_eq, bits, sign, upper, lower, range.ne, if_false]

theorem parts_assemble (negative : Bool) (proper : Proper mantissa exponent) :
    parts (assemble negative mantissa exponent) = .finite negative mantissa exponent := by
  obtain ⟨bounded, normal, least, greatest⟩ := proper
  by_cases small : mantissa < 2 ^ 52
  · have fields : (if negative then 2 ^ 63 + mantissa else mantissa) = word negative 0 mantissa := by
      cases negative <;> simp [word]
    simp only [assemble, Nat.pow_eq, small, if_true, fields]
    rw [parts_ofBits_word (by decide) small, if_pos rfl, normal.resolve_left (by omega)]
  · have fields : (if negative then 2 ^ 63 + ((exponent + 1075).toNat * 2 ^ 52 + (mantissa - 2 ^ 52))
        else (exponent + 1075).toNat * 2 ^ 52 + (mantissa - 2 ^ 52)) =
        word negative (exponent + 1075).toNat (mantissa - 2 ^ 52) := by
      cases negative <;> simp [word, add_assoc]
    have whole : 2 ^ 52 + (mantissa - 2 ^ 52) = mantissa := by omega
    have unbiased : (((exponent + 1075).toNat : Nat) : Int) - 1075 = exponent := by omega
    simp only [assemble, Nat.pow_eq, small, if_false, fields]
    rw [parts_ofBits_word (by omega) (by omega), if_neg (by omega), whole, unbiased]

theorem parts_infinity (negative : Bool) : parts (infinity negative) = .infinite negative := by
  have bits : (infinity negative).toBits.toNat = (if negative then Nat.pow 2 63 else 0) + 2047 * Nat.pow 2 52 := by
    refine toNat_toBits ?_ ?_ <;> cases negative <;> decide
  simp only [parts, bits]
  cases negative <;> decide

theorem toInt?_infinity (negative : Bool) : toInt? (infinity negative) = none := by
  rw [toInt?, parts_infinity]

theorem floor?_infinity (negative : Bool) : floor? (infinity negative) = none := by
  rw [floor?, parts_infinity]

/-- The parts of a finite double are proper. -/
theorem proper_of_parts {x : Float} (finite : parts x = .finite negative mantissa exponent) :
    Proper mantissa exponent := by
  unfold parts at finite
  simp only [Nat.pow_eq] at finite
  split at finite
  · split at finite <;> cases finite
  · split at finite
    · cases finite
      exact ⟨by omega, .inr rfl, by omega, by omega⟩
    · cases finite
      exact ⟨by omega, .inl (by omega), by omega, by omega⟩

/-! ### Integers -/

/-- The integers that doubles are equal to. -/
def IsDouble (n : Int) : Prop :=
  ∃ x, toInt? x = some n

/-- The natural numbers that a mantissa of 53 bits and an exponent of doubles make. -/
def Fits (n : Nat) : Prop :=
  ∃ m e : Nat, m < 2 ^ 53 ∧ e ≤ 971 ∧ n = m * 2 ^ e

theorem scale_nonneg (n d k : Nat) : scale n d k = (n * 2 ^ k, d) := by
  simp [scale]

theorem scale_neg (n d : Nat) {k : Nat} (pos : 0 < k) : scale n d (-k) = (n, d * 2 ^ k) := by
  simp [scale, pos]

theorem scale_pos (n : Nat) (shift : Int) : 0 < (scale n 1 shift).2 := by
  unfold scale
  split <;> simp

theorem floor?_of_toInt? {x : Float} {n : Int} (whole : toInt? x = some n) : floor? x = some n := by
  unfold toInt? at whole
  unfold floor?
  cases finite : parts x with
  | nan => rw [finite] at whole; cases whole
  | infinite => rw [finite] at whole; cases whole
  | finite negative mantissa exponent =>
    rw [finite] at whole
    simp only at whole ⊢
    have pos := scale_pos mantissa exponent
    split at whole
    · next divides =>
      have rest : ((scale mantissa 1 exponent).1 + (scale mantissa 1 exponent).2 - 1) / (scale mantissa 1 exponent).2 =
          (scale mantissa 1 exponent).1 / (scale mantissa 1 exponent).2 := by
        obtain ⟨q, same⟩ := Nat.dvd_of_mod_eq_zero divides
        rw [same, Nat.mul_div_cancel_left q pos, Nat.add_sub_assoc pos, Nat.mul_add_div pos,
          Nat.div_eq_of_lt (by omega), Nat.add_zero]
      rw [rest]
      exact whole
    · cases whole

/-- A natural number with a sign. -/
def signed (negative : Bool) (n : Nat) : Int :=
  if negative then -(n : Int) else n

@[simp] theorem natAbs_signed (negative : Bool) (n : Nat) : (signed negative n).natAbs = n := by
  cases negative <;> simp [signed]

theorem signed_natAbs (n : Int) : signed (decide (n < 0)) n.natAbs = n := by
  unfold signed
  split
  · next negative => have := of_decide_eq_true negative; omega
  · next positive => have := of_decide_eq_false (Bool.eq_false_of_not_eq_true positive); omega

theorem floor?_eq {x : Float} (finite : parts x = .finite negative mantissa exponent) {n d : Nat}
    (scaled : scale mantissa 1 exponent = (n, d)) :
    floor? x = some (if negative then -(((n + d - 1) / d : Nat) : Int) else (n / d : Nat)) := by
  rw [floor?, finite]
  simp only [scaled]

/-- Taking the greatest integer not above a double does not lengthen the mantissa. -/
theorem fits_of_floor? {x : Float} {n : Int} (floor : floor? x = some n) : Fits n.natAbs := by
  cases finite : parts x with
  | nan => rw [floor?, finite] at floor; cases floor
  | infinite => rw [floor?, finite] at floor; cases floor
  | finite negative mantissa exponent =>
    obtain ⟨bounded, -, -, greatest⟩ := proper_of_parts finite
    have whole (negative : Bool) {m : Nat} (short : m < 2 ^ 53) : Fits (signed negative m).natAbs :=
      ⟨m, 0, short, by omega, by rw [natAbs_signed, pow_zero, Nat.mul_one]⟩
    rcases lt_or_ge exponent 0 with fraction | integer
    · obtain ⟨k, pos, rfl⟩ : ∃ k : Nat, 0 < k ∧ exponent = -k := ⟨exponent.natAbs, by omega, by omega⟩
      rw [floor?_eq finite (scale_neg _ _ pos), Nat.one_mul] at floor
      cases floor
      have step := Nat.two_pow_pos k
      have below : mantissa / 2 ^ k ≤ mantissa := Nat.div_le_self ..
      have above : (mantissa + 2 ^ k - 1) / 2 ^ k < mantissa + 1 := by
        rw [Nat.div_lt_iff_lt_mul step, Nat.add_mul, Nat.one_mul]
        have := Nat.le_mul_of_pos_right mantissa step
        omega
      cases negative with
      | false => exact whole false (Nat.lt_of_le_of_lt below bounded)
      | true => exact whole true (Nat.lt_of_lt_of_le above bounded)
    · obtain ⟨k, rfl⟩ := Int.eq_ofNat_of_zero_le integer
      rw [floor?_eq finite (scale_nonneg ..)] at floor
      cases floor
      refine ⟨mantissa, k, bounded, by omega, ?_⟩
      simp only [Nat.div_one, Nat.add_sub_cancel]
      exact natAbs_signed ..

theorem toInt?_assemble (proper : Proper mantissa exponent) {n : Nat}
    (value : (scale mantissa 1 exponent).1 = (scale mantissa 1 exponent).2 * n) :
    toInt? (assemble negative mantissa exponent) = some (signed negative n) := by
  have pos := scale_pos mantissa exponent
  rw [toInt?, parts_assemble negative proper]
  simp only [value, Nat.mul_mod_right, if_true, Nat.mul_div_cancel_left n pos]
  rfl

/-! ### Rounding to multiples -/

theorem roundDiv_cases (n d : Nat) :
    (roundDiv n d = n / d ∧ 2 * (n % d) ≤ d ∧ (2 * (n % d) = d → n / d % 2 = 0)) ∨
      (roundDiv n d = n / d + 1 ∧ d ≤ 2 * (n % d) ∧ (2 * (n % d) = d → n / d % 2 = 1)) := by
  unfold roundDiv
  simp only [Bool.or_eq_true, decide_eq_true_eq, Bool.and_eq_true, beq_iff_eq]
  split
  · exact .inr ⟨rfl, by omega, by omega⟩
  · exact .inl ⟨rfl, by omega, by omega⟩

/-- A greater multiple is greater by a whole step. -/
theorem mul_add_le_mul {p q : Int} (d : Nat) (less : p < q) : p * d + d ≤ q * d := by
  have := Int.mul_le_mul_of_nonneg_right (show p + 1 ≤ q from less) (show (0 : Int) ≤ d by omega)
  rwa [Int.add_mul, Int.one_mul] at this

/-- A number lies at most half a step away from the multiple that it is rounded to. -/
theorem roundDiv_close {n d : Nat} (pos : 0 < d) :
    2 * ((n : Int) - roundDiv n d * d).natAbs ≤ d ∧
      (2 * ((n : Int) - roundDiv n d * d).natAbs = d → 2 ∣ roundDiv n d) := by
  have whole : ((n / d : Nat) : Int) * d + (n % d : Nat) = n := by exact_mod_cast Nat.div_add_mod' n d
  have rest := Nat.mod_lt n pos
  rcases roundDiv_cases n d with ⟨down, half, even⟩ | ⟨up, half, even⟩
  · rw [down]
    omega
  · have next : ((n / d + 1 : Nat) : Int) * d = (n / d : Nat) * d + d := by push_cast; ring
    rw [up, next]
    omega

/-- No multiple is nearer than the one that a number is rounded to. -/
theorem roundDiv_nearest {n d : Nat} (pos : 0 < d) (q : Int) :
    ((n : Int) - roundDiv n d * d).natAbs ≤ ((n : Int) - q * d).natAbs := by
  have close := (roundDiv_close (n := n) pos).1
  generalize (roundDiv n d : Int) = p at close ⊢
  rcases lt_trichotomy q p with below | rfl | above
  · have := mul_add_le_mul d below
    omega
  · rfl
  · have := mul_add_le_mul d above
    omega

/-- Another multiple that is as near is a neighbour, and the one chosen is even. -/
theorem roundDiv_tie {n d : Nat} (pos : 0 < d) {q : Int} (other : q ≠ roundDiv n d)
    (tie : ((n : Int) - roundDiv n d * d).natAbs = ((n : Int) - q * d).natAbs) :
    2 ∣ roundDiv n d ∧ (q * d = roundDiv n d * d + d ∨ q * d + d = roundDiv n d * d) := by
  have close := roundDiv_close (n := n) pos
  generalize same : (roundDiv n d : Int) = p at close tie other ⊢
  rcases lt_trichotomy q p with below | rfl | above
  · have := mul_add_le_mul d below
    exact ⟨close.2 (by omega), .inr (by omega)⟩
  · exact absurd rfl other
  · have := mul_add_le_mul d above
    exact ⟨close.2 (by omega), .inl (by omega)⟩

/-! ### Rounding to doubles -/

/-- The whole double nearest to a natural number, if it is not too large for doubles. -/
def rounded (n : Nat) : Nat :=
  if n < 2 ^ 53 then n else roundDiv n (2 ^ (n.log2 - 52)) * 2 ^ (n.log2 - 52)

theorem exponentFor_one {n : Nat} (nonzero : n ≠ 0) : exponentFor n 1 = (n.log2 : Int) - 52 := by
  have low : 2 ^ n.log2 ≤ n := Nat.log2_self_le nonzero
  have estimate : (n.log2 : Int) - (Nat.log2 1 : Nat) - 52 = n.log2 - 52 := by
    rw [show Nat.log2 1 = 0 from rfl]
    omega
  have enough : ¬(scale n 1 (-((n.log2 : Int) - 52))).1 < (scale n 1 (-((n.log2 : Int) - 52))).2 * 2 ^ 52 := by
    rcases Nat.lt_or_ge 52 n.log2 with large | small
    · obtain ⟨k, same⟩ := Nat.exists_eq_add_of_lt large
      rw [show -((n.log2 : Int) - 52) = -((k + 1 : Nat) : Int) by omega, scale_neg _ _ (by omega)]
      rw [same] at low
      simp only [Nat.one_mul, Nat.not_lt]
      calc 2 ^ (k + 1) * 2 ^ 52 = 2 ^ (52 + k + 1) := by rw [← pow_add]; congr 1; omega
        _ ≤ n := low
    · obtain ⟨k, same⟩ := Nat.exists_eq_add_of_le small
      rw [show -((n.log2 : Int) - 52) = (k : Int) by omega, scale_nonneg]
      simp only [Nat.one_mul, Nat.not_lt]
      calc 2 ^ 52 = 2 ^ n.log2 * 2 ^ k := by rw [← pow_add, ← same]
        _ ≤ n * 2 ^ k := Nat.mul_le_mul_right _ low
  unfold exponentFor
  simp only [estimate, Nat.pow_eq, enough, if_false]
  omega

theorem nearest?_of_ne_zero (negative : Bool) {n : Nat} (nonzero : n ≠ 0) {a d : Nat}
    (scaled : scale n 1 (-((n.log2 : Int) - 52)) = (a, d)) :
    nearest? negative n 1 =
      if roundDiv a d = 2 ^ 53 then
        if (n.log2 : Int) - 52 + 1 > 971 then none else some (assemble negative (2 ^ 52) (n.log2 - 52 + 1))
      else if (n.log2 : Int) - 52 > 971 then none else some (assemble negative (roundDiv a d) (n.log2 - 52)) := by
  unfold nearest?
  rw [if_neg nonzero, exponentFor_one nonzero]
  simp only [scaled]
  by_cases carry : roundDiv a d = 2 ^ 53
  · simp only [Nat.pow_eq, carry, if_true]
  · simp only [Nat.pow_eq, carry, if_false]

theorem nearest?_small (negative : Bool) {n : Nat} (small : n < 2 ^ 53) :
    ∃ x, nearest? negative n 1 = some x ∧ toInt? x = some (signed negative n) := by
  by_cases nonzero : n = 0
  · subst nonzero
    refine ⟨assemble negative 0 (-1074), if_pos rfl, toInt?_assemble ⟨by decide, .inr rfl, by decide, by decide⟩ ?_⟩
    rw [show (-1074 : Int) = -((1074 : Nat) : Int) from rfl, scale_neg _ _ (by decide), Nat.mul_zero]
  have low : 2 ^ n.log2 ≤ n := Nat.log2_self_le nonzero
  have high : n < 2 ^ (n.log2 + 1) := Nat.lt_log2_self
  have short : n.log2 ≤ 52 := Nat.le_of_lt_succ ((Nat.log2_lt nonzero).2 small)
  obtain ⟨k, same⟩ := Nat.exists_eq_add_of_le short
  have lower : 2 ^ 52 ≤ n * 2 ^ k := by
    calc 2 ^ 52 = 2 ^ n.log2 * 2 ^ k := by rw [← pow_add, ← same]
      _ ≤ n * 2 ^ k := Nat.mul_le_mul_right _ low
  have upper : n * 2 ^ k < 2 ^ 53 := by
    calc n * 2 ^ k < 2 ^ (n.log2 + 1) * 2 ^ k := Nat.mul_lt_mul_of_pos_right high (by positivity)
      _ = 2 ^ 53 := by rw [← pow_add]; congr 1; omega
  have exponent : (n.log2 : Int) - 52 = -(k : Int) := by omega
  have scaled : scale n 1 (-((n.log2 : Int) - 52)) = (n * 2 ^ k, 1) := by
    rw [exponent, Int.neg_neg, scale_nonneg]
  have exact : roundDiv (n * 2 ^ k) 1 = n * 2 ^ k := by simp [roundDiv, Nat.mod_one]
  refine ⟨assemble negative (n * 2 ^ k) (-k), ?_, toInt?_assemble ⟨upper, .inl lower, by omega, by omega⟩ ?_⟩
  · rw [nearest?_of_ne_zero negative nonzero scaled, exact, if_neg upper.ne, if_neg (by omega), exponent]
  · rcases Nat.eq_zero_or_pos k with rfl | pos
    · simp [scale]
    · rw [scale_neg _ _ pos]
      ring

theorem scale_of_log2 {n k : Nat} (length : n.log2 = 52 + k) (pos : 0 < k) :
    scale n 1 (-((n.log2 : Int) - 52)) = (n, 2 ^ k) := by
  rw [show -((n.log2 : Int) - 52) = -(k : Int) by omega, scale_neg _ _ pos, Nat.one_mul]

theorem ne_zero_of_log2 {n k : Nat} (length : n.log2 = 52 + k) : n ≠ 0 := by
  rintro rfl
  simp only [Nat.log2_zero] at length
  omega

/-- A number of `53 + k` bits has a quotient of 53 bits by `2 ^ k`. -/
theorem div_bounds {n k : Nat} (length : n.log2 = 52 + k) : 2 ^ 52 ≤ n / 2 ^ k ∧ n / 2 ^ k < 2 ^ 53 := by
  have nonzero := ne_zero_of_log2 length
  have low : 2 ^ n.log2 ≤ n := Nat.log2_self_le nonzero
  have high : n < 2 ^ (n.log2 + 1) := Nat.lt_log2_self
  rw [length, pow_add] at low
  rw [length, show 52 + k + 1 = 53 + k by omega, pow_add] at high
  exact ⟨(Nat.le_div_iff_mul_le (by positivity)).2 low, (Nat.div_lt_iff_lt_mul (by positivity)).2 high⟩

/-- In the last binade, rounding reaches the power of two above it from the last half step on. -/
theorem roundDiv_eq_iff {n unit : Nat} (pos : 0 < unit) (upper : n / (2 * unit) < 2 ^ 53) :
    roundDiv n (2 * unit) = 2 ^ 53 ↔ 2 ^ 54 * unit - unit ≤ n := by
  have whole : n / (2 * unit) * (2 * unit) + n % (2 * unit) = n := Nat.div_add_mod' ..
  have rest : n % (2 * unit) < 2 * unit := Nat.mod_lt _ (by omega)
  have cases := roundDiv_cases n (2 * unit)
  rcases Nat.lt_or_ge (n / (2 * unit)) (2 ^ 53 - 1) with short | last
  · have := Nat.mul_le_mul_right (2 * unit) (show n / (2 * unit) + 1 ≤ 2 ^ 53 - 1 by omega)
    rw [Nat.add_mul, Nat.one_mul] at this
    omega
  · have quotient : n / (2 * unit) = 2 ^ 53 - 1 := by omega
    rw [quotient] at whole cases
    omega

/-- Rounding needs an exponent above `t + 1` from the middle between the last number with that exponent and the
power of two above it on. -/
theorem lt_exponent_iff {n k : Nat} (length : n.log2 = 52 + k) (t : Nat) :
    t + 1 < (if roundDiv n (2 ^ k) = 2 ^ 53 then k + 1 else k) ↔ 2 ^ 54 * 2 ^ t - 2 ^ t ≤ n := by
  obtain ⟨lower, upper⟩ := div_bounds length
  have pos : 0 < 2 ^ k := Nat.two_pow_pos k
  have least : 0 < 2 ^ t := Nat.two_pow_pos t
  have double : 2 ^ (t + 1) = 2 * 2 ^ t := Nat.pow_succ'
  rcases Nat.lt_trichotomy k (t + 1) with short | rfl | long
  · have below : n < 2 ^ 53 * 2 ^ t := by
      calc n < 2 ^ 53 * 2 ^ k := (Nat.div_lt_iff_lt_mul pos).1 upper
        _ ≤ 2 ^ 53 * 2 ^ t := Nat.mul_le_mul_left _ (Nat.pow_le_pow_right (by decide) (by omega))
    split <;> omega
  · rw [double] at upper ⊢
    rw [← roundDiv_eq_iff least upper]
    split <;> simp_all
  · have above : 2 ^ 52 * 2 ^ (t + 2) ≤ n := by
      calc 2 ^ 52 * 2 ^ (t + 2) ≤ 2 ^ 52 * 2 ^ k := Nat.mul_le_mul_left _ (Nat.pow_le_pow_right (by decide) long)
        _ ≤ n := (Nat.le_div_iff_mul_le pos).1 lower
    have quadruple : 2 ^ (t + 2) = 4 * 2 ^ t := by
      rw [Nat.pow_succ, double]
      omega
    rw [quadruple] at above
    split <;> omega

/-- The least natural number that is too large for a double. -/
@[irreducible] def tooLarge : Nat :=
  2 ^ 1024 - 2 ^ 970

theorem tooLarge_eq : tooLarge = 2 ^ 54 * 2 ^ 970 - 2 ^ 970 := by
  unfold tooLarge
  rw [show 1024 = 54 + 970 from rfl, pow_add]

theorem nearest?_large (negative : Bool) {n k : Nat} (length : n.log2 = 52 + k) (pos : 0 < k)
    (range : n < tooLarge) :
    ∃ x, nearest? negative n 1 = some x ∧ toInt? x = some (signed negative (roundDiv n (2 ^ k) * 2 ^ k)) := by
  have nonzero := ne_zero_of_log2 length
  obtain ⟨lower, upper⟩ := div_bounds length
  have cases := roundDiv_cases n (2 ^ k)
  have fits := (lt_exponent_iff length 970).not.2 fun beyond => absurd (tooLarge_eq.le.trans beyond) (by omega)
  have exponent : (n.log2 : Int) - 52 = k := by omega
  rw [nearest?_of_ne_zero negative nonzero (scale_of_log2 length pos), exponent]
  by_cases carry : roundDiv n (2 ^ k) = 2 ^ 53
  · rw [if_pos carry] at fits
    rw [if_pos carry, if_neg (by omega)]
    refine ⟨_, rfl, toInt?_assemble ⟨by decide, .inl (by decide), by omega, by omega⟩ ?_⟩
    rw [show (k : Int) + 1 = ((k + 1 : Nat) : Int) from rfl, scale_nonneg, carry, Nat.one_mul, pow_succ]
    ring
  · rw [if_neg carry] at fits
    rw [if_neg carry, if_neg (by omega)]
    refine ⟨_, rfl, toInt?_assemble ⟨by omega, .inl (by omega), by omega, by omega⟩ ?_⟩
    rw [scale_nonneg, Nat.one_mul]

/-- A number of more than 400 decimal digits is too large for a double. -/
theorem tooLarge_le : tooLarge ≤ 10 ^ 400 := by
  have tens (s t u : Nat) (few : s + t ≤ 3 * u) : 2 ^ s * 2 ^ t - 2 ^ t ≤ 10 ^ u := by
    calc 2 ^ s * 2 ^ t - 2 ^ t ≤ 2 ^ s * 2 ^ t := Nat.sub_le ..
      _ = 2 ^ (s + t) := (Nat.pow_add ..).symm
      _ ≤ 2 ^ (3 * u) := Nat.pow_le_pow_right (by decide) few
      _ = 8 ^ u := Nat.pow_mul ..
      _ ≤ 10 ^ u := Nat.pow_le_pow_left (by decide) u
  exact tooLarge_eq.le.trans (tens 54 970 400 (by decide))

/-- A number of more than 53 bits, with the number of bits that its mantissa leaves out. -/
theorem exists_log2_eq {n : Nat} (large : 2 ^ 53 ≤ n) : ∃ k, n.log2 = 52 + k ∧ 0 < k := by
  have long : 53 ≤ n.log2 := (Nat.le_log2 (by omega)).2 large
  exact ⟨n.log2 - 52, by omega, by omega⟩

theorem le_tooLarge : 2 ^ 53 ≤ tooLarge := by
  have enough (t : Nat) : 2 ^ 53 ≤ 2 ^ 54 * 2 ^ t - 2 ^ t := by
    have := Nat.two_pow_pos t
    omega
  exact (enough 970).trans tooLarge_eq.ge

theorem nearest?_eq_none (negative : Bool) {n : Nat} (beyond : tooLarge ≤ n) : nearest? negative n 1 = none := by
  obtain ⟨k, length, pos⟩ := exists_log2_eq (le_tooLarge.trans beyond)
  have exceeds := (lt_exponent_iff length 970).2 (tooLarge_eq.ge.trans beyond)
  have nonzero := ne_zero_of_log2 length
  have exponent : (n.log2 : Int) - 52 = k := by omega
  rw [nearest?_of_ne_zero negative nonzero (scale_of_log2 length pos), exponent]
  split at exceeds
  · next carry => rw [if_pos carry, if_pos (by omega)]
  · next carry => rw [if_neg carry, if_pos (by omega)]

theorem rounded_eq {n k : Nat} (length : n.log2 = 52 + k) (pos : 0 < k) :
    rounded n = roundDiv n (2 ^ k) * 2 ^ k := by
  have nonzero := ne_zero_of_log2 length
  have large : ¬n < 2 ^ 53 := by
    rw [← Nat.log2_lt nonzero]
    omega
  rw [rounded, if_neg large, length, Nat.add_sub_cancel_left]

/-- Up to the greatest double, a natural number is rounded to the nearest. -/
theorem nearest?_natural (negative : Bool) {n : Nat} (range : n < tooLarge) :
    ∃ x, nearest? negative n 1 = some x ∧ toInt? x = some (signed negative (rounded n)) := by
  rcases Nat.lt_or_ge n (2 ^ 53) with small | large
  · rw [rounded, if_pos small]
    exact nearest?_small negative small
  · obtain ⟨k, length, pos⟩ := exists_log2_eq large
    rw [rounded_eq length pos]
    exact nearest?_large negative length pos range

/-! ### The nearest double -/

theorem Fits.lt_tooLarge {n : Nat} (fits : Fits n) : n < tooLarge := by
  obtain ⟨m, e, bounded, greatest, rfl⟩ := fits
  have below (t : Nat) (within : e ≤ t + 1) : m * 2 ^ e < 2 ^ 54 * 2 ^ t - 2 ^ t := by
    have pos := Nat.two_pow_pos t
    have double : 2 ^ (t + 1) = 2 * 2 ^ t := Nat.pow_succ'
    have top : m * 2 ^ e ≤ (2 ^ 53 - 1) * 2 ^ (t + 1) :=
      Nat.mul_le_mul (by omega) (Nat.pow_le_pow_right (by decide) within)
    rw [double] at top
    omega
  exact (below 970 greatest).trans_le tooLarge_eq.ge

/-- What fits is a multiple of the step of any range of numbers, or lies below that range. -/
theorem Fits.dvd_or_lt {n : Nat} (fits : Fits n) (k : Nat) : 2 ^ k ∣ n ∨ n < 2 ^ 52 * 2 ^ k := by
  obtain ⟨m, e, bounded, -, rfl⟩ := fits
  rcases Nat.lt_or_ge e k with fine | coarse
  · right
    calc m * 2 ^ e < 2 ^ 53 * 2 ^ e := Nat.mul_lt_mul_of_pos_right bounded (Nat.two_pow_pos e)
      _ = 2 ^ 52 * 2 ^ (e + 1) := by rw [Nat.pow_succ']; ring
      _ ≤ 2 ^ 52 * 2 ^ k := Nat.mul_le_mul_left _ (Nat.pow_le_pow_right (by decide) fine)
  · exact .inl (Dvd.dvd.mul_left (Nat.pow_dvd_pow 2 coarse) m)

theorem Fits.rounded_eq {n : Nat} (fits : Fits n) : rounded n = n := by
  rcases Nat.lt_or_ge n (2 ^ 53) with small | large
  · rw [rounded, if_pos small]
  · obtain ⟨k, length, pos⟩ := exists_log2_eq large
    have reaches := (Nat.le_div_iff_mul_le (Nat.two_pow_pos k)).1 (div_bounds length).1
    obtain ⟨q, rfl⟩ := (fits.dvd_or_lt k).resolve_right (by omega)
    have exact : roundDiv (2 ^ k * q) (2 ^ k) = q := by
      have cases := roundDiv_cases (2 ^ k * q) (2 ^ k)
      have step := Nat.two_pow_pos k
      rw [Nat.mul_div_cancel_left q step, Nat.mul_mod_right] at cases
      omega
    rw [Double.rounded_eq length pos, exact, Nat.mul_comm]

theorem isDouble_iff {n : Int} : IsDouble n ↔ Fits n.natAbs := by
  constructor
  · rintro ⟨x, whole⟩
    exact fits_of_floor? (floor?_of_toInt? whole)
  · intro fits
    obtain ⟨x, -, whole⟩ := nearest?_natural (n < 0) fits.lt_tooLarge
    rw [fits.rounded_eq, signed_natAbs] at whole
    exact ⟨x, whole⟩

theorem isDouble_neg {n : Int} : IsDouble (-n) ↔ IsDouble n := by
  rw [isDouble_iff, isDouble_iff, Int.natAbs_neg]

/-- Rounding an integer to a double: no other integer among the doubles is nearer, and of two that are as near, the
one is chosen that is an even multiple of their distance. -/
structure Rounds (n r : Int) : Prop where
  held : IsDouble r
  nearest : ∀ k, IsDouble k → (n - r).natAbs ≤ (n - k).natAbs
  even : ∀ k, IsDouble k → k ≠ r → (n - r).natAbs = (n - k).natAbs → 2 * (r - k) ∣ r

theorem Rounds.neg {n r : Int} (rounds : Rounds n r) : Rounds (-n) (-r) := by
  have mirrored (k : Int) : (-n - k).natAbs = (n - -k).natAbs := by omega
  refine ⟨isDouble_neg.2 rounds.held, ?_, ?_⟩
  · intro k double
    rw [mirrored, mirrored, Int.neg_neg]
    exact rounds.nearest _ (isDouble_neg.2 double)
  · intro k double other tie
    rw [mirrored, mirrored, Int.neg_neg] at tie
    have divides := rounds.even _ (isDouble_neg.2 double) (by omega) tie
    rw [show 2 * (-r - k) = -(2 * (r - -k)) by ring]
    exact Int.dvd_neg.2 (Int.neg_dvd.2 divides)

theorem rounds_large {n k : Nat} (length : n.log2 = 52 + k) (held : IsDouble (roundDiv n (2 ^ k) * 2 ^ k : Nat)) :
    Rounds n (roundDiv n (2 ^ k) * 2 ^ k : Nat) := by
  have pos := Nat.two_pow_pos k
  have reaches := (Nat.le_div_iff_mul_le pos).1 (div_bounds length).1
  have steps : ((roundDiv n (2 ^ k) * 2 ^ k : Nat) : Int) = roundDiv n (2 ^ k) * (2 ^ k : Nat) := by push_cast; rfl
  -- a double is a multiple of the step, or lies further below than the first multiple
  have grid (j : Int) (double : IsDouble j) : (∃ q : Int, j = q * (2 ^ k : Nat)) ∨ j < 2 ^ 52 * (2 ^ k : Nat) := by
    rcases (isDouble_iff.1 double).dvd_or_lt k with divides | below
    · obtain ⟨q, same⟩ := Int.natCast_dvd.2 divides
      exact .inl ⟨q, by rw [same, mul_comm]⟩
    · right
      omega
  have first := roundDiv_nearest (n := n) pos (2 ^ 52)
  rw [steps] at held ⊢
  refine ⟨held, ?_, ?_⟩
  · intro j double
    rcases grid j double with ⟨q, rfl⟩ | below
    · exact roundDiv_nearest pos q
    · omega
  · intro j double other tie
    rcases grid j double with ⟨q, rfl⟩ | below
    · obtain ⟨⟨half, even⟩, beside⟩ := roundDiv_tie pos (fun same => other (by rw [same])) tie
      have multiple : 2 * ((2 ^ k : Nat) : Int) ∣ roundDiv n (2 ^ k) * (2 ^ k : Nat) := by
        rw [even]
        exact ⟨half, by push_cast; ring⟩
      rcases beside with above | below
      · rw [show 2 * (roundDiv n (2 ^ k) * ((2 ^ k : Nat) : Int) - q * (2 ^ k : Nat)) = -(2 * (2 ^ k : Nat)) by omega]
        exact Int.neg_dvd.2 multiple
      · rw [show roundDiv n (2 ^ k) * ((2 ^ k : Nat) : Int) - q * (2 ^ k : Nat) = (2 ^ k : Nat) by omega]
        exact multiple
    · omega

/-- Rounding a natural number gives the nearest double. -/
theorem rounds_natural {n : Nat} (range : n < tooLarge) : Rounds n (rounded n) := by
  obtain ⟨x, -, whole⟩ := nearest?_natural false range
  have held : IsDouble (rounded n) := ⟨x, whole⟩
  rcases Nat.lt_or_ge n (2 ^ 53) with small | large
  · rw [rounded, if_pos small] at held ⊢
    exact ⟨held, fun k _ => by omega, fun k _ other tie => by omega⟩
  · obtain ⟨k, length, pos⟩ := exists_log2_eq large
    rw [rounded_eq length pos] at held ⊢
    exact rounds_large length held

/-- An integer rounded to doubles, if they reach that far. -/
def roundInt (n : Int) : Int :=
  signed (n < 0) (rounded n.natAbs)

theorem rounds_roundInt {n : Int} (range : n.natAbs < tooLarge) : Rounds n (roundInt n) := by
  have rounds := rounds_natural range
  unfold roundInt
  by_cases negative : n < 0
  · have mirrored := rounds.neg
    rw [show -(n.natAbs : Int) = n by omega] at mirrored
    simpa [signed, negative] using mirrored
  · rw [show (n.natAbs : Int) = n by omega] at rounds
    simpa [signed, negative] using rounds

/-- Exactly the integers that are doubles are rounded to themselves. -/
theorem roundInt_eq_iff {n : Int} (range : n.natAbs < tooLarge) : roundInt n = n ↔ IsDouble n := by
  have rounds := rounds_roundInt range
  constructor
  · intro same
    rw [← same]
    exact rounds.held
  · intro double
    have := rounds.nearest n double
    omega

theorem isDouble_of_natAbs_le {n : Int} (small : n.natAbs ≤ 2 ^ 53) : IsDouble n := by
  refine isDouble_iff.2 ?_
  rcases Nat.lt_or_eq_of_le small with below | top
  · exact ⟨n.natAbs, 0, below, by decide, by omega⟩
  · exact ⟨1, 53, by decide, by decide, by omega⟩

/-- The greatest integer not above a double is a double. -/
theorem isDouble_of_floor? {x : Float} {n : Int} (floor : floor? x = some n) : IsDouble n :=
  isDouble_iff.2 (fits_of_floor? floor)

end Flowchart.Double
