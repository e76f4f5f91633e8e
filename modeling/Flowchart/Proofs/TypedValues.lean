import Flowchart.Proofs.Typing
/-! How the operations on values respect types. Arithmetic on values of numeric types is arithmetic on
numbers, whose results have a type of their own; what it fails for lies in the values. Values of two kinds
have an order for all values or for none. -/
namespace Flowchart

/-- Whether a failure is one that only the values decide: a zero divisor, a position outside of an
array, a text that is no number, or a result beyond the range of floats. -/
def Error.isOfValues : Error → Bool
  | .divisionByZero => true
  | .moduloByZero => true
  | .outOfBounds .. => true
  | .unconvertible .. => true
  | .noTruthValue .. => true
  | .fault .integerTooLarge => true
  | .fault .quotientTooLarge => true
  | .fault .domain => true
  | _ => false

/-! Values of numeric types as numbers. -/

def Number.type : Number → DataType
  | int _ => .integer
  | real _ => .float

/-- A value of a numeric type stands for a number. -/
inductive Value.Denotes : Value → Number → Prop where
  | int (n : Int) : Denotes (.int n) (.int n)
  | float (x : Float) : Denotes (.float x) (.real x)
  | nan (mark : Nat) : Denotes (.nan mark) (.real Double.nan)

namespace Value
variable {v w : Value} {a b : Number}

theorem add_eq (left : v.Denotes a) (right : w.Denotes b) :
    v.add w = Number.apply (· + ·) (· + ·) a b := by
  cases left <;> cases right <;> rfl

theorem subtract_eq (left : v.Denotes a) (right : w.Denotes b) :
    v.subtract w = Number.apply (· - ·) (· - ·) a b := by
  cases left <;> cases right <;> rfl

theorem multiply_eq (left : v.Denotes a) (right : w.Denotes b) :
    v.multiply w = Number.apply (· * ·) (· * ·) a b := by
  cases left <;> cases right <;> simp [multiply, repeatedBy, number?, repeated?, arithmetic]

theorem divide_eq (left : v.Denotes a) (right : w.Denotes b) : v.divide w = a.divide b := by
  cases left <;> cases right <;> rfl

theorem remainder_eq (left : v.Denotes a) (right : w.Denotes b) : v.remainder w = a.remainder b := by
  cases left <;> cases right <;> rfl

end Value

/-- A computation gives a value of the type, or fails for what the values are. -/
def Yields (type : DataType) (result : Except Fault Value) : Prop :=
  match result with
  | .ok v => v.HasType type
  | .error f => (Error.fault f).isOfValues = true

namespace Number
variable (a b : Number)

theorem toFloat_fails {a : Number} {f : Fault} (fails : a.toFloat = .error f) : f = .integerTooLarge := by
  cases a with
  | real x => cases fails
  | int n =>
    simp only [toFloat] at fails
    cases made : Double.ofInt? n with
    | some x => rw [made] at fails; cases fails
    | none => rw [made] at fails; cases fails; rfl

/-- What is computed on floats alone gives a float, or an integer was too large for one. -/
theorem yields_float (compute : Float → Float → Except Fault Value)
    (each : ∀ x y, Yields .float (compute x y)) :
    Yields .float (do let x ← a.toFloat; let y ← b.toFloat; compute x y) := by
  cases left : a.toFloat with
  | error f =>
    cases toFloat_fails left
    rfl
  | ok x =>
    cases right : b.toFloat with
    | error f =>
      cases toFloat_fails right
      rfl
    | ok y => exact each x y

theorem yields_apply (onInts : Int → Int → Int) (onFloats : Float → Float → Float) :
    Yields (Eval.joined (some a.type) (some b.type)) (apply onInts onFloats a b) := by
  have floats := yields_float a b (fun x y => .ok (.float (onFloats x y))) fun x y => .float _
  cases a with
  | int m =>
    cases b with
    | int n => exact .int _
    | real y => exact floats
  | real x => cases b <;> exact floats

theorem yields_divide : Yields .float (a.divide b) := by
  have floats := yields_float a b (fun x y => .ok (.float (x / y))) fun x y => .float _
  cases a with
  | int m =>
    cases b with
    | int n =>
      simp only [divide]
      cases Double.ofQuotient? m n with
      | some x => exact Value.HasType.float x
      | none => rfl
    | real y => exact floats
  | real x => cases b <;> exact floats

theorem yields_remainder (proper : b ≠ .int 0) :
    Yields (Eval.joined (some a.type) (some b.type)) (a.remainder b) := by
  cases a <;> cases b
  case int.int m n =>
    have proper : n ≠ 0 := fun zero => proper (by rw [zero])
    simp only [remainder, proper, ↓reduceIte]
    exact .int _
  all_goals
    refine yields_float _ _ _ fun x y => ?_
    cases Double.remainder? x y with
    | some r => exact Value.HasType.float r
    | none => rfl

end Number

/-- Texts are joined to a text. -/
theorem Value.HasType.yields_add {v w : Value} (left : v.HasType .string) (right : w.HasType .string) :
    Yields .string (v.add w) := by
  cases left
  cases right
  exact Value.HasType.text _

theorem Value.Denotes.yields_negate {v : Value} {a : Number} (denotes : v.Denotes a) :
    Yields a.type v.negate := by
  cases denotes with
  | int n => exact Value.HasType.int (-n)
  | float x => exact Value.HasType.float (-x)
  | nan mark => exact Value.HasType.float (-Double.nan)

/-- The types under which a relation is looked at: truth values are not to be ordered. -/
def Relation.Fits (rel : Relation) (l r : Kind) : Prop :=
  (l.type = r.type ∨ l.type.isNumeric = true ∧ r.type.isNumeric = true) ∧
    (rel.isOrdering = true → ¬(l.type = .boolean ∧ r.type = .boolean))

theorem Kind.comparable_relation {rel : Relation} {l r : Kind} : l.comparable (.relation rel) r = true ↔
    rel.Fits l r ∧ (rel.isOrdering = true → l.ordered r = true) := by
  have booleans (isLeft : l.type = .boolean) (isRight : r.type = .boolean) : l.ordered r = false := by
    cases l <;> cases r <;> simp_all [Kind.type, Kind.ordered]
  simp only [Kind.comparable, Relation.Fits, Bool.and_eq_true, Bool.or_eq_true, beq_iff_eq,
    Bool.not_eq_true']
  grind

/-! Order. Values are put in order if both are texts or neither is; arrays by their first items that
differ, so arrays of texts and arrays of others never have an order. -/

namespace Value
variable {v w : Value} {t t' : DataType} {xs ys : List Value} {r : Relation}

theorem exists_ordered (left : v.HasType t) (right : w.HasType t') (alike : t.isTextual = t'.isTextual) :
    ∃ o, ordered r v w = .ok o := by
  cases left <;> cases right <;> simp [DataType.isTextual, ordered, number?] at alike ⊢

theorem not_ordered (left : v.HasType t) (right : w.HasType t') (unlike : t.isTextual ≠ t'.isTextual) :
    ordered r v w = .error .unsuited ∧ v.equal w = false := by
  cases left <;> cases right <;> simp [DataType.isTextual, ordered, equal, number?] at unlike ⊢

/-- One step along two arrays: items that are equal are passed, others decide. -/
theorem orderedItems_cons (r : Relation) (v w : Value) (xs ys : List Value) :
    orderedItems r (v :: xs) (w :: ys) = orderedItems r xs ys ∨
      orderedItems r (v :: xs) (w :: ys) = .ok false ∨
      (v.equal w = false ∧ orderedItems r (v :: xs) (w :: ys) = ordered r v w) := by
  by_cases nans : ∃ m n, v = nan m ∧ w = nan n
  · obtain ⟨m, n, rfl, rfl⟩ := nans
    rw [orderedItems]
    split <;> simp
  · rw [orderedItems]
    · split
      · exact .inl rfl
      · next differ => exact .inr (.inr ⟨by simpa using differ, rfl⟩)
    · exact fun m n isM isN => nans ⟨m, n, isM, isN⟩

theorem exists_orderedItems (left : ∀ v ∈ xs, v.HasType t) (right : ∀ w ∈ ys, w.HasType t')
    (alike : t.isTextual = t'.isTextual) : ∃ o, orderedItems r xs ys = .ok o := by
  induction xs generalizing ys with
  | nil => simp [orderedItems]
  | cons v xs ih =>
    cases ys with
    | nil => simp [orderedItems]
    | cons w ys =>
      obtain ⟨leftHead, leftTail⟩ := List.forall_mem_cons.1 left
      obtain ⟨rightHead, rightTail⟩ := List.forall_mem_cons.1 right
      rcases orderedItems_cons r v w xs ys with passed | decided | ⟨-, decided⟩
      · rw [passed]
        exact ih leftTail rightTail
      · exact ⟨false, decided⟩
      · rw [decided]
        exact exists_ordered leftHead rightHead alike

theorem not_orderedItems (left : ∀ v ∈ xs, v.HasType t) (right : ∀ w ∈ ys, w.HasType t')
    (leftSome : 0 < xs.length) (rightSome : 0 < ys.length) (unlike : t.isTextual ≠ t'.isTextual) :
    orderedItems r xs ys = .error .unsuited := by
  match xs, ys with
  | v :: xs, w :: ys =>
    have leftHead := left v List.mem_cons_self
    have rightHead := right w List.mem_cons_self
    obtain ⟨apart, different⟩ := not_ordered leftHead rightHead unlike
    rw [orderedItems, different]
    · exact apart
    · rintro m n rfl rfl
      cases leftHead
      cases rightHead
      exact unlike rfl

/-- Types of single values that may be compared are both of texts or both not. -/
theorem isTextual_eq (fit : t = t' ∨ t.isNumeric = true ∧ t'.isNumeric = true) :
    t.isTextual = t'.isTextual := by
  rcases fit with rfl | ⟨numeric, numeric'⟩
  · rfl
  · cases t <;> cases t' <;> simp_all [DataType.isNumeric, DataType.isTextual]

theorem relate_eq_ordered (ordering : r.isOrdering = true) : relate r v w = ordered r v w := by
  cases r with
  | eq => cases ordering
  | ne => cases ordering
  | _ => rfl

/-- A relation between values of two kinds holds or not, or the kinds have no order. -/
theorem relate_cases {k k' : Kind} (left : v.HasKind k) (right : w.HasKind k') (fits : r.Fits k k') :
    if r.isOrdering = true → k.ordered k' = true then ∃ b, relate r v w = .ok b
    else relate r v w = .error .unsuited := by
  by_cases ordering : r.isOrdering = true
  · simp only [relate_eq_ordered ordering, ordering, forall_const]
    obtain ⟨fit, proper⟩ := fits
    cases left with
    | @scalar v t has =>
      cases right with
      | @scalar w t' has' =>
        have apart : (Kind.scalar t).ordered (.scalar t') = true := by
          simp only [Kind.ordered, Bool.not_eq_true', Bool.and_eq_false_iff, beq_eq_false_iff_ne]
          exact Decidable.not_and_iff_not_or_not.1 (proper ordering)
        rw [if_pos apart]
        exact exists_ordered has has' (isTextual_eq fit)
      | array =>
        have single : _ = DataType.array := fit.resolve_right (by simp [Kind.type, DataType.isNumeric])
        subst single
        cases has
    | array length all =>
      cases right with
      | scalar has' =>
        have single : DataType.array = _ := fit.resolve_right (by simp [Kind.type, DataType.isNumeric])
        subst single
        cases has'
      | array length' all' =>
        simp only [ordered, Kind.ordered, beq_iff_eq]
        split
        · next alike => exact exists_orderedItems all all' alike
        · next unlike => exact not_orderedItems all all' (by omega) (by omega) unlike
  · have ok : ∃ b, relate r v w = .ok b := by
      cases r <;> simp_all [Relation.isOrdering, relate]
    simpa [ordering] using ok

end Value

end Flowchart
