import Flowchart.Eval
import Flowchart.Proofs.Doubles
/-! Relations between values. Numbers are compared by where they lie on the extended line, integers and doubles alike,
and texts in the order of their characters. So on numbers and on texts the six relations are those of a total order. -/
namespace Flowchart

namespace Number.Extent

/-- The point of the extended line where an extent lies. -/
def point : Extent → WithBot (WithTop ℚ)
  | .least => ⊥
  | .finite n d => ((n / d : ℚ) : WithTop ℚ)
  | .greatest => (⊤ : WithTop ℚ)

/-- An extent that is a proper quotient, if it is finite. -/
def Proper : Extent → Prop
  | .finite _ d => 0 < d
  | _ => True

/-- Quotients are compared by multiplying out. -/
theorem compare_finite {n n' : Int} {d d' : Nat} (positive : 0 < d) (positive' : 0 < d') :
    Ord.compare (n * d') (n' * d) = cmp (n / d : ℚ) (n' / d' : ℚ) := by
  have low : (0 : ℚ) < d := Nat.cast_pos.2 positive
  have low' : (0 : ℚ) < d' := Nat.cast_pos.2 positive'
  have below : (n / d : ℚ) < n' / d' ↔ n * d' < n' * d := by
    rw [div_lt_div_iff₀ low low']
    exact_mod_cast Iff.rfl
  have above : (n' / d' : ℚ) < n / d ↔ n' * d < n * d' := by
    rw [div_lt_div_iff₀ low' low]
    exact_mod_cast Iff.rfl
  rw [← cmp_eq_compare]
  simp only [cmp, cmpUsing, below, above]

/-- Extents are compared as the points where they lie. -/
theorem compare_eq {x y : Extent} (proper : x.Proper) (proper' : y.Proper) : x.compare y = cmp x.point y.point := by
  cases x with
  | least =>
    cases y with
    | least => exact (cmp_self_eq_eq _).symm
    | finite n d => exact (cmp_eq_lt_iff ..).2 (WithBot.bot_lt_coe _) |>.symm
    | greatest => exact (cmp_eq_lt_iff ..).2 (WithBot.bot_lt_coe _) |>.symm
  | finite n d =>
    cases y with
    | least => exact (cmp_eq_gt_iff ..).2 (WithBot.bot_lt_coe _) |>.symm
    | finite n' d' =>
      rw [compare, compare_finite proper proper']
      have embeds : StrictMono fun q : ℚ => ((q : WithTop ℚ) : WithBot (WithTop ℚ)) :=
        WithBot.coe_strictMono.comp WithTop.coe_strictMono
      exact (embeds.cmp_map_eq _ _).symm
    | greatest => exact (cmp_eq_lt_iff ..).2 (WithBot.coe_lt_coe.2 (WithTop.coe_lt_top _)) |>.symm
  | greatest =>
    cases y with
    | least => exact (cmp_eq_gt_iff ..).2 (WithBot.bot_lt_coe _) |>.symm
    | finite n d => exact (cmp_eq_gt_iff ..).2 (WithBot.coe_lt_coe.2 (WithTop.coe_lt_top _)) |>.symm
    | greatest => exact (cmp_self_eq_eq _).symm

end Number.Extent

/-- Every double but a nan lies somewhere. -/
theorem Number.exists_extent {x : Float} (number : Double.isNan x = false) :
    ∃ e, (real x).extent? = some e ∧ e.Proper := by
  cases parts : Double.parts x with
  | nan =>
    rw [Double.isNan, parts] at number
    cases number
  | infinite negative =>
    simp only [extent?, parts]
    cases negative <;> exact ⟨_, rfl, trivial⟩
  | finite negative mantissa exponent =>
    simp only [extent?, parts]
    exact ⟨_, rfl, Double.scale_pos mantissa exponent⟩

namespace Value
variable {v w : Value} {m n : Number} {o : Ordering}

theorem equal_numbers (left : v.number? = some m) (right : w.number? = some n) :
    v.equal w = (m.compare? n == some .eq) := by
  unfold equal
  split
  · cases left
  · cases left
  · cases left
  · cases left
  · simp only [left, right]

theorem ordered_numbers (r : Relation) (left : v.number? = some m) (right : w.number? = some n) :
    ordered r v w = .ok ((m.compare? n).any r.holds) := by
  unfold ordered
  split
  · cases left
  · cases left
  · cases left
  · simp only [left, right]

/-- Two values that stand for numbers are related by the order of the numbers. -/
theorem relate_numbers (r : Relation) (left : v.number? = some m) (right : w.number? = some n)
    (compared : m.compare? n = some o) : relate r v w = .ok (r.holds o) := by
  cases r with
  | eq => simp [relate, equal_numbers left right, compared, Relation.holds]
  | ne => cases o <;> simp [relate, equal_numbers left right, compared, Relation.holds]
  | _ => simp [relate, ordered_numbers _ left right, compared]

theorem compareTexts_eq (s t : String) : compareTexts s t = cmp s t := by
  unfold compareTexts
  rcases lt_trichotomy s t with below | rfl | above
  · rw [if_pos below, cmp_eq_lt_iff _ _ |>.2 below]
  · rw [if_neg (lt_irrefl s), cmp_self_eq_eq]
    simp
  · rw [if_neg (lt_asymm above), cmp_eq_gt_iff _ _ |>.2 above]
    simp [above.ne']

theorem relate_texts (r : Relation) (s t : String) : relate r (.text s) (.text t) = .ok (r.holds (cmp s t)) := by
  have same : (s == t) = (cmp s t == .eq) := by
    rw [Bool.eq_iff_iff, beq_iff_eq, beq_iff_eq, cmp_eq_eq_iff]
  cases r with
  | eq => simp only [relate, equal, same, Relation.holds]
  | ne => simp only [relate, equal, same, Relation.holds, bne]
  | _ => simp only [relate, ordered, compareTexts_eq]

end Value

/-- Values of number types are compared as the numbers that they stand for. -/
theorem Eval.compare_numbers (r : Relation) {a b : TypedValue} {m n : Number} {o : Ordering}
    (typed : isNumeric a.type = true) (typed' : isNumeric b.type = true) (number : a.value.number? = some m)
    (number' : b.value.number? = some n) (compared : m.compare? n = some o) :
    compare (.relation r) a b = .ok (r.holds o) := by
  have noTruth : a.type ≠ some .boolean := by
    intro truth
    rw [truth] at typed
    cases typed
  simp only [compare, noTruth, typed, typed', Value.relate_numbers r number number' compared]
  simp [Error.ofFault]

/-! ### Comparing as in an order -/

namespace TypedValue

/-- An integer or a double that is no nan, with one of the types of numbers. -/
structure IsNumber (v : TypedValue) : Prop where
  typed : Eval.isNumeric v.type = true
  number : (∃ n, v.value = .int n) ∨ ∃ x, v.value = .float x ∧ Double.isNan x = false

def IsText (v : TypedValue) : Prop :=
  ∃ s, v = ⟨.text s, some .string⟩

/-- The comparison of two values says that the relation holds. -/
def Holds (r : Relation) (a b : TypedValue) : Prop :=
  Eval.compare (.relation r) a b = .ok true

/-- The two values are compared as two members of a linear order are. -/
def Like {α : Type} [LinearOrder α] (a b : TypedValue) (x y : α) : Prop :=
  ∀ r : Relation, Eval.compare (.relation r) a b = .ok (r.holds (cmp x y))

/-- The laws of a total order, for the two values and with a third one. -/
structure Ordered (a b c : TypedValue) : Prop where
  answers : ∀ r, ∃ answer, Eval.compare (.relation r) a b = .ok answer
  exactlyOne : (Holds .lt a b ∧ ¬Holds .eq a b ∧ ¬Holds .gt a b) ∨
    (¬Holds .lt a b ∧ Holds .eq a b ∧ ¬Holds .gt a b) ∨
    (¬Holds .lt a b ∧ ¬Holds .eq a b ∧ Holds .gt a b)
  ne_iff : Holds .ne a b ↔ ¬Holds .eq a b
  le_iff : Holds .le a b ↔ Holds .lt a b ∨ Holds .eq a b
  ge_iff : Holds .ge a b ↔ Holds .gt a b ∨ Holds .eq a b
  gt_iff : Holds .gt a b ↔ Holds .lt b a
  lt_trans : Holds .lt a b → Holds .lt b c → Holds .lt a c
  eq_trans : Holds .eq a b → Holds .eq b c → Holds .eq a c

variable {a b c : TypedValue} {α : Type} [LinearOrder α] {x y z : α} {r : Relation}
  {p q : WithBot (WithTop ℚ)}

theorem Like.holds_iff (like : Like a b x y) : Holds r a b ↔ r.holds (cmp x y) = true := by
  rw [Holds, like r]
  simp

/-- What holds in a linear order holds of values that are related like its members. -/
theorem ordered_of_like (ab : Like a b x y) (ba : Like b a y x) (bc : Like b c y z) (ac : Like a c x z) :
    Ordered a b c where
  answers r := ⟨_, ab r⟩
  exactlyOne := by
    simp only [ab.holds_iff]
    cases cmp x y <;> simp [Relation.holds]
  ne_iff := by
    simp only [ab.holds_iff]
    cases cmp x y <;> simp [Relation.holds]
  le_iff := by
    simp only [ab.holds_iff]
    cases cmp x y <;> simp [Relation.holds]
  ge_iff := by
    simp only [ab.holds_iff]
    cases cmp x y <;> simp [Relation.holds]
  gt_iff := by
    simp only [ab.holds_iff, ba.holds_iff]
    rw [← cmp_swap x y]
    cases cmp x y <;> simp [Relation.holds]
  lt_trans := by
    simp only [ab.holds_iff, bc.holds_iff, ac.holds_iff, Relation.holds, beq_iff_eq, cmp_eq_lt_iff]
    exact fun below later => below.trans later
  eq_trans := by
    simp only [ab.holds_iff, bc.holds_iff, ac.holds_iff, Relation.holds, beq_iff_eq, cmp_eq_eq_iff]
    exact Eq.trans

/-- The value is a number at the given point of the extended line. -/
structure LiesAt (v : TypedValue) (p : WithBot (WithTop ℚ)) : Prop where
  typed : Eval.isNumeric v.type = true
  extent : ∃ m e, v.value.number? = some m ∧ m.extent? = some e ∧ e.Proper ∧ e.point = p

theorem IsNumber.exists_point (number : a.IsNumber) : ∃ p, a.LiesAt p := by
  obtain ⟨typed, ⟨n, int⟩ | ⟨x, float, proper⟩⟩ := number
  · exact ⟨_, typed, .int n, _, by rw [int]; rfl, rfl, Nat.one_pos, rfl⟩
  · obtain ⟨e, extent, proper⟩ := Number.exists_extent proper
    exact ⟨_, typed, .real x, e, by rw [float]; rfl, extent, proper, rfl⟩

theorem LiesAt.like (left : a.LiesAt p) (right : b.LiesAt q) : Like a b p q := by
  obtain ⟨typed, m, e, number, extent, proper, rfl⟩ := left
  obtain ⟨typed', m', e', number', extent', proper', rfl⟩ := right
  have compared : m.compare? m' = some (cmp e.point e'.point) := by
    simp only [Number.compare?, extent, extent', Number.Extent.compare_eq proper proper']
  intro r
  exact Eval.compare_numbers r typed typed' number number' compared

theorem like_texts (s t : String) : Like ⟨.text s, some .string⟩ ⟨.text t, some .string⟩ s t := by
  intro r
  simp only [Eval.compare, Value.relate_texts]
  simp [Error.ofFault]

/-- On numbers without nan, integers and doubles mixed, and on texts, the relations are those of a total order. Every
one of them answers; exactly one of less, equal and greater holds; the other three are made of these as their names
say; and less and equal are transitive. -/
theorem compare_total_order (a b c : TypedValue)
    (domain : a.IsNumber ∧ b.IsNumber ∧ c.IsNumber ∨ a.IsText ∧ b.IsText ∧ c.IsText) : Ordered a b c := by
  rcases domain with ⟨first, second, third⟩ | ⟨⟨s, rfl⟩, ⟨t, rfl⟩, ⟨u, rfl⟩⟩
  · obtain ⟨p, isP⟩ := first.exists_point
    obtain ⟨q, isQ⟩ := second.exists_point
    obtain ⟨r, isR⟩ := third.exists_point
    exact ordered_of_like (isP.like isQ) (isQ.like isP) (isQ.like isR) (isP.like isR)
  · exact ordered_of_like (like_texts s t) (like_texts t s) (like_texts t u) (like_texts s u)

/-- The next integer is told apart from a double that it would be rounded to. -/
theorem compare_total_order_beside :
    ∃ x, Double.isNan x = false ∧ Holds .eq ⟨.int 9007199254740992, some .integer⟩ ⟨.float x, some .float⟩ ∧
      Holds .lt ⟨.float x, some .float⟩ ⟨.int 9007199254740993, some .integer⟩ ∧
      Ordered ⟨.int 9007199254740992, some .integer⟩ ⟨.float x, some .float⟩
        ⟨.int 9007199254740993, some .integer⟩ := by
  have parts : Double.parts (Double.assemble false (2 ^ 52) 1) = .finite false (2 ^ 52) 1 :=
    Double.parts_assemble false ⟨by decide, .inl (le_refl _), by decide, by decide⟩
  generalize Double.assemble false (2 ^ 52) 1 = x at parts
  have proper : Double.isNan x = false := by
    rw [Double.isNan, parts]
    rfl
  have extent : (Number.real x).extent? = some (.finite 9007199254740992 1) := by
    rw [Number.extent?, parts]
    rfl
  have same : (Number.int 9007199254740992).compare? (.real x) = some .eq := by
    rw [Number.compare?, extent]
    rfl
  have below : (Number.real x).compare? (.int 9007199254740993) = some .lt := by
    rw [Number.compare?, extent]
    rfl
  refine ⟨x, proper, ?_, ?_, ?_⟩
  · exact Eval.compare_numbers .eq rfl rfl rfl rfl same
  · exact Eval.compare_numbers .lt rfl rfl rfl rfl below
  · apply compare_total_order
    exact .inl ⟨⟨rfl, .inl ⟨_, rfl⟩⟩, ⟨rfl, .inr ⟨x, rfl, proper⟩⟩, ⟨rfl, .inl ⟨_, rfl⟩⟩⟩

end TypedValue

end Flowchart
