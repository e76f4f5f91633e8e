import Flowchart.Proofs.CodeMeaning
import Flowchart.Proofs.Unpacking
/-! Terms whose code computes exactly their value. Whole numbers, truth values and texts are the same on both
sides, and so are the operators between them, apart from division and from remainders of numbers with opposite
signs. The code has no negation and no sign: it compares with false and subtracts from zero. It knows variables by
name where terms know them by id, and it reads the right side of `and` and `or` only if it has to. -/
namespace Flowchart
open Grammar

/-- The types whose values are the same in the code. -/
def DataType.isExact : DataType → Bool
  | .integer => true
  | .boolean => true
  | .string => true
  | _ => false

/-- A whole number, a truth value or a text, with its type. -/
inductive TypedValue.Exact : TypedValue → Prop
  | int (n : Int) : Exact ⟨.int n, some .integer⟩
  | bool (b : Bool) : Exact ⟨.bool b, some .boolean⟩
  | text (s : String) : Exact ⟨.text s, some .string⟩

theorem Value.HasType.exact {v : Value} {type : DataType} (has : v.HasType type) (simple : type.isExact = true) :
    TypedValue.Exact ⟨v, some type⟩ := by
  cases has with
  | int n => exact .int n
  | bool b => exact .bool b
  | text s => exact .text s
  | _ => cases simple

theorem Error.ofFault_eq_ok {α : Type} {first : Except Fault α} {result : α}
    (made : Error.ofFault first = .ok result) : first = .ok result := by
  cases first with
  | error f => cases made
  | ok a =>
    cases made
    rfl

theorem Value.HasKind.exact {v : Value} {target : Variable} (held : v.HasKind target.kind)
    (simple : target.type.isExact = true) : TypedValue.Exact ⟨v, some target.type⟩ := by
  obtain ⟨id, name, nodeId, shape⟩ := target
  cases shape with
  | scalar type single =>
    cases held with
    | scalar has => exact has.exact simple
  | array => cases simple

namespace Code

theorem written?_literalText {value : Value} {type : DataType} (has : value.HasType type)
    (simple : type.isExact = true) : written? (literalText value type) = some value := by
  cases has with
  | int n => exact written?_int n
  | bool b => exact written?_truth b
  | text s => exact written?_quoted s
  | _ => cases simple

/-! ### Operators -/

theorem holds_compareOfLessAndEq {α : Type} [LinearOrder α] (r : Relation) (a b : α) :
    r.holds (compareOfLessAndEq a b) = between r a b := by
  rcases lt_trichotomy a b with less | rfl | greater
  · cases r <;> simp [compareOfLessAndEq, Relation.holds, between, less, less.le, less.ne, less.not_gt]
  · cases r <;> simp [compareOfLessAndEq, Relation.holds, between]
  · cases r <;>
      simp [compareOfLessAndEq, Relation.holds, between, greater, greater.le, greater.ne', greater.not_gt]

theorem compare?_int (a b : Int) : Number.compare? (.int a) (.int b) = some (compareOfLessAndEq a b) := by
  simp [Number.compare?, Number.extent?, Number.Extent.compare, compare]

theorem relate_int (rel : Relation) (a b : Int) : Value.relate rel (.int a) (.int b) = .ok (between rel a b) := by
  rw [← holds_compareOfLessAndEq]
  cases rel <;> simp [Value.relate, Value.equal, Value.ordered, Value.number?, compare?_int, Relation.holds, bne]

theorem relate_text (rel : Relation) (s t : String) : Value.relate rel (.text s) (.text t) = .ok (between rel s t) := by
  have same : (s == t) = decide (s = t) := Bool.eq_iff_iff.2 (by simp)
  cases rel with
  | eq => simp [Value.relate, Value.equal, between, same]
  | ne => simp [Value.relate, Value.equal, between, same]
  | _ =>
    rw [← holds_compareOfLessAndEq]
    simp [Value.relate, Value.ordered, Value.compareTexts, compareOfLessAndEq]

theorem operated?_symbol (rel : Relation) (v w : Value) :
    operated? rel.symbol v w = (compared? rel v w).map .bool := by
  cases rel <;> rfl

variable {l m r : TypedValue}

theorem exact_arithmetic {op : BinaryOp} {zero : Option Error} {compute : Value → Value → Except Fault Value}
    {type : DataType} (left : l.Exact) (right : m.Exact)
    (done : Eval.arithmetic op l m zero compute type = .ok r) :
    ∃ a b v, l = ⟨.int a, some .integer⟩ ∧ m = ⟨.int b, some .integer⟩ ∧ compute (.int a) (.int b) = .ok v ∧
      r = ⟨v, some type⟩ := by
  cases left with
  | int a =>
    cases right with
    | int b =>
      have computed : (Error.ofFault (compute (.int a) (.int b))).map (fun v => ⟨v, some type⟩) = .ok r := by
        cases zero with
        | none => exact done
        | some e =>
          simp only [Eval.arithmetic, Eval.isNumeric, Option.any_some, DataType.isNumeric, Bool.and_self,
            if_true] at done
          split at done
          · cases done
          · exact done
      obtain ⟨v, made, rfl⟩ := map_eq_ok computed
      exact ⟨a, b, v, rfl, rfl, Error.ofFault_eq_ok made, rfl⟩
    | _ => cases done
  | _ => cases done

theorem exact_compare {c : Comparison} {b : Bool} (left : l.Exact) (right : m.Exact)
    (done : Eval.compare c l m = .ok b) :
    ∃ rel, c = .relation rel ∧ compared? rel l.value m.value = some b := by
  cases c with
  | other symbol =>
    simp only [Eval.compare] at done
    split at done
    · cases done
    · split at done <;> cases done
  | relation rel =>
    refine ⟨rel, rfl, ?_⟩
    cases left with
    | int a =>
      cases right with
      | int b' =>
        have related := Error.ofFault_eq_ok done
        rw [relate_int] at related
        exact congrArg some (Except.ok.inj related)
      | _ => cases done
    | bool a =>
      cases right with
      | bool b' =>
        -- truth values are only equal or not
        cases rel <;> cases a <;> cases b' <;> cases done <;> rfl
      | _ => cases done
    | text s =>
      cases right with
      | text t =>
        have related := Error.ofFault_eq_ok done
        rw [relate_text] at related
        exact congrArg some (Except.ok.inj related)
      | _ => cases done

/-- Rounded down or toward zero, the remainders of numbers that are not of opposite signs are the same. -/
theorem fmod_eq_tmod {a b : Int} (alike : ¬ (a < 0 ∧ 0 < b)) (alike' : ¬ (0 < a ∧ b < 0)) :
    a.fmod b = a.tmod b := by
  rw [Int.fmod_eq_tmod]
  by_cases divides : b ∣ a
  · rw [if_pos divides, Int.add_zero]
  · have nonzero : a ≠ 0 := by
      rintro rfl
      exact divides (Int.dvd_zero b)
    rw [if_neg divides]
    split <;> split <;> omega

theorem exact_add (left : l.Exact) (right : m.Exact) (done : Eval.applyBinary .add l m = .ok r) :
    r.Exact ∧ operated? "+" l.value m.value = some r.value := by
  by_cases texts : l.type = some .string ∧ m.type = some .string
  · obtain ⟨first, second⟩ := texts
    cases left <;> cases first
    cases right <;> cases second
    cases done
    exact ⟨.text _, rfl⟩
  · rw [Eval.applyBinary] at done
    simp only [if_neg texts] at done
    obtain ⟨a, b, v, rfl, rfl, made, rfl⟩ := exact_arithmetic left right done
    cases made
    exact ⟨.int _, rfl⟩

theorem exact_subtract (left : l.Exact) (right : m.Exact) (done : Eval.applyBinary .subtract l m = .ok r) :
    r.Exact ∧ operated? "-" l.value m.value = some r.value := by
  rw [Eval.applyBinary] at done
  obtain ⟨a, b, v, rfl, rfl, made, rfl⟩ := exact_arithmetic left right done
  cases made
  exact ⟨.int _, rfl⟩

theorem exact_multiply (left : l.Exact) (right : m.Exact) (done : Eval.applyBinary .multiply l m = .ok r) :
    r.Exact ∧ operated? "*" l.value m.value = some r.value := by
  rw [Eval.applyBinary] at done
  obtain ⟨a, b, v, rfl, rfl, made, rfl⟩ := exact_arithmetic left right done
  rw [Value.multiply_eq (.int a) (.int b)] at made
  cases made
  exact ⟨.int _, rfl⟩

theorem exact_modulo (left : l.Exact) (right : m.Exact) (done : Eval.applyBinary .modulo l m = .ok r)
    (alike : ∀ a b, l.value = .int a → m.value = .int b → ¬ (a < 0 ∧ 0 < b) ∧ ¬ (0 < a ∧ b < 0)) :
    r.Exact ∧ operated? "%" l.value m.value = some r.value := by
  rw [Eval.applyBinary] at done
  obtain ⟨a, b, v, rfl, rfl, made, rfl⟩ := exact_arithmetic left right done
  obtain ⟨first, second⟩ := alike a b rfl rfl
  rw [Value.remainder_eq (.int a) (.int b), Number.remainder] at made
  split at made
  · cases made
  · next nonzero =>
    cases made
    refine ⟨.int _, ?_⟩
    rw [← fmod_eq_tmod first second]
    simp [operated?, onWhole, whole?, floored?, nonzero]

theorem value?_operator {env : String → Option Value} (origin : Option Origin) (op : String) {left right : Expr}
    {v w : Value} (noAnd : op ≠ "and") (noOr : op ≠ "or") (first : left.value? env = some v)
    (second : right.value? env = some w) : (Expr.binary origin op left right).value? env = operated? op v w := by
  rw [Expr.value?, if_neg noAnd, if_neg noOr, first, second]
  rfl

theorem exact_unary {op : UnaryOp} {origin : Option Origin} {operand : Expr} {env : String → Option Value}
    (exact : l.Exact) (value : operand.value? env = some l.value) (done : Eval.applyUnary op l = .ok r) :
    r.Exact ∧ ∃ code, applyUnary origin op operand = .ok code ∧ code.value? env = some r.value := by
  cases op with
  | not =>
    cases exact with
    | bool b =>
      cases done
      refine ⟨.bool _, _, rfl, ?_⟩
      have off : (Expr.truth origin false).value? env = some (.bool false) := by
        rw [Expr.truth, Expr.value?]
        exact written?_truth false
      rw [value?_operator origin "==" (by decide) (by decide) value off]
      cases b <;> rfl
    | _ => cases done
  | minus =>
    cases exact with
    | int n =>
      cases done
      refine ⟨.int _, _, rfl, ?_⟩
      have zero : (Expr.literal origin (.int 0) "0").value? env = some (.int 0) := by
        rw [Expr.value?]
        exact written?_int 0
      rw [value?_operator origin "-" (by decide) (by decide) zero value, ← Int.zero_sub]
      rfl
    | _ => cases done
  | plus =>
    cases exact with
    | int n =>
      cases done
      exact ⟨.int n, operand, rfl, value⟩
    | _ => cases done
  | other symbol => cases done

end Code

/-- The conversions that are the same in the code, by the type of what they convert. -/
def Function.isExactOn : Function → Option DataType → Bool
  | .integer, some .integer => true
  | .string, some .integer => true
  | .boolean, some .integer => true
  | .boolean, some .string => true
  | .boolean, some .boolean => true
  | _, _ => false

namespace Code
variable {l r : TypedValue}

theorem exact_convert {f : Function} (exact : l.Exact) (fits : f.isExactOn l.type = true)
    (done : Eval.convert f l = .ok r) : r.Exact ∧ called? (castName f) l.value = some r.value := by
  cases exact with
  | int n =>
    cases f with
    | integer =>
      cases done
      exact ⟨.int n, rfl⟩
    | string =>
      cases done
      exact ⟨.text _, rfl⟩
    | boolean =>
      cases done
      refine ⟨.bool _, ?_⟩
      have zero : (Value.int n).isZero = decide (n = 0) := Except.ok.inj (relate_int .eq n 0)
      have same : (n == 0) = decide (n = 0) := Bool.eq_iff_iff.2 (by simp)
      simp [called?, castName, Value.isTrue, zero, bne, same]
    | _ => cases fits
  | bool b =>
    cases f with
    | boolean =>
      cases done
      exact ⟨.bool b, rfl⟩
    | _ => cases fits
  | text s =>
    cases f with
    | boolean =>
      cases done
      exact ⟨.bool _, rfl⟩
    | _ => cases fits

theorem exact_item {b : Binding} {name : String} {index : TypedValue} (held : b.value.HasKind b.target.kind)
    (simple : b.target.subtype?.any DataType.isExact = true) (exact : index.Exact)
    (done : Eval.itemAt b name index = .ok r) : r.Exact ∧ selected? b.value index.value = some r.value := by
  obtain ⟨⟨id, name', nodeId, shape⟩, value⟩ := b
  cases shape with
  | scalar => cases simple
  | array subtype named size positive elements =>
    cases held with
    | array length all =>
    cases exact with
    | int n =>
      simp only [Eval.itemAt, if_true, Eval.item, Value.number?] at done
      split at done
      · cases done
      · next inside =>
        split at done
        · next v found =>
          cases done
          have has := all v (List.mem_of_getElem? found)
          refine ⟨has.exact simple, ?_⟩
          rw [selected?, whole?, Option.bind_some, if_pos (Int.not_lt.1 (not_or.1 inside).1)]
          exact found
        · cases done
    | _ => cases done

/-- Selecting from the array that a name stands for, as from the array bound to its variable. -/
theorem exact_subscript {s : Store} {env : String → Option Value} (origin : Option Origin) {v : Variable}
    {b : Binding} {index : TypedValue} {code : Expr} (typed : s.WellTyped) (found : s.get? v.id = some b)
    (simple : b.target.subtype?.any DataType.isExact = true)
    (array : env v.name = (s.get? v.id).map Binding.value) (exact : index.Exact)
    (done : Eval.itemAt b v.name index = .ok r) (value : code.value? env = some index.value) :
    r.Exact ∧ (Expr.subscript origin (.ident ⟨origin, v.name⟩) code).value? env = some r.value := by
  obtain ⟨exactItem, selected⟩ := exact_item (Store.hasKind_of_get? typed found) simple exact done
  refine ⟨exactItem, ?_⟩
  rw [Expr.value?, Expr.value?, array, found, value]
  exact selected

end Code

/-! ### Terms -/

/-- The operators that are the same in the code on the given values. Quotients are not, and remainders are if the
numbers are not of opposite signs. -/
def BinaryOp.IsExactOn : BinaryOp → Value → Value → Prop
  | .divide, _, _ => False
  | .modulo, v, w => ∀ a b, v = .int a → w = .int b → ¬ (a < 0 ∧ 0 < b) ∧ ¬ (0 < a ∧ b < 0)
  | _, _, _ => True

namespace Code
variable {env : String → Option Value} (origin : Option Origin) {a b : Expr} {l m r : TypedValue}

theorem exact_logical {op : BinaryOp} (logical : op = .and ∨ op = .or) (left : l.Exact) (right : m.Exact)
    (done : Eval.applyBinary op l m = .ok r) (first : a.value? env = some l.value)
    (second : b.value? env = some m.value) :
    r.Exact ∧ (Expr.binary origin (operatorName op) a b).value? env = some r.value := by
  cases left with
  | bool x =>
    cases right with
    | bool y =>
      -- the value of the left side decides whether the right side is looked at
      rcases logical with rfl | rfl <;> cases done <;> cases x <;> refine ⟨.bool _, ?_⟩ <;>
        simp [Expr.value?, operatorName, first, second, Value.isTrue]
    | _ => rcases logical with rfl | rfl <;> cases done
  | _ => rcases logical with rfl | rfl <;> cases done

/-- The code of an operator on exact values computes what the operator does. -/
theorem exact_binary {op : BinaryOp} (fits : op.IsExactOn l.value m.value) (left : l.Exact) (right : m.Exact)
    (done : Eval.applyBinary op l m = .ok r) (first : a.value? env = some l.value)
    (second : b.value? env = some m.value) :
    r.Exact ∧ (Expr.binary origin (operatorName op) a b).value? env = some r.value := by
  cases op with
  | add =>
    rw [value?_operator origin _ (by decide) (by decide) first second]
    exact exact_add left right done
  | subtract =>
    rw [value?_operator origin _ (by decide) (by decide) first second]
    exact exact_subtract left right done
  | multiply =>
    rw [value?_operator origin _ (by decide) (by decide) first second]
    exact exact_multiply left right done
  | divide => exact fits.elim
  | modulo =>
    rw [value?_operator origin _ (by decide) (by decide) first second]
    exact exact_modulo left right done fits
  | and => exact exact_logical origin (.inl rfl) left right done first second
  | or => exact exact_logical origin (.inr rfl) left right done first second
  | compare c =>
    obtain ⟨truth, compared, rfl⟩ := map_eq_ok done
    obtain ⟨rel, rfl, same⟩ := exact_compare left right compared
    have noAnd : rel.symbol ≠ "and" := by cases rel <;> decide
    have noOr : rel.symbol ≠ "or" := by cases rel <;> decide
    refine ⟨.bool truth, ?_⟩
    have value := value?_operator origin rel.symbol noAnd noOr first second
    rw [operated?_symbol, same] at value
    exact value

end Code

namespace Term

/-- Terms made of what is the same in the code, as they are evaluated in the store. -/
inductive Exact (s : Store) : Term → Prop
  | literal {value : Value} {type : DataType} (simple : type.isExact = true) : Exact s (.literal value type)
  | whole {name : String} {v : Variable} (plain : v.isIndexed = false)
    (simple : ∀ b, s.get? v.id = some b → b.target.type.isExact = true) : Exact s (.named name v)
  | item {name : String} {v : Variable} {index : Term} (indexed : v.isIndexed = true)
    (read : Term.parse v.index = .ok index)
    (simple : ∀ b, s.get? v.id = some b → b.target.subtype?.any DataType.isExact = true) (inner : Exact s index) :
    Exact s (.named name v)
  | access {name : String} {v : Variable} {index : Term}
    (simple : ∀ b, s.get? v.id = some b → b.target.subtype?.any DataType.isExact = true) (inner : Exact s index) :
    Exact s (.access name v index)
  | unary {op : UnaryOp} {operand : Term} (inner : Exact s operand) : Exact s (.unary op operand)
  | binary {op : BinaryOp} {left right : Term} (first : Exact s left) (second : Exact s right)
    (fits : ∀ l m, Eval.evaluate s left = .ok l → Eval.evaluate s right = .ok m → op.IsExactOn l.value m.value) :
    Exact s (.binary op left right)
  | cast {f : Function} {argument : Term} (inner : Exact s argument)
    (fits : ∀ r, Eval.evaluate s argument = .ok r → f.isExactOn r.type = true) : Exact s (.call f argument)

/-- The variables of a term, with those in the indices that its variables carry. -/
def mentioned (t : Term) : List Variable :=
  match t with
  | .literal .. => []
  | .named _ v =>
    if v.isIndexed then
      match read : Term.parse v.index with
      | .error _ => [v]
      | .ok index =>
        have := Term.weight_parse_index read
        v :: mentioned index
    else [v]
  | .access _ v index => v :: mentioned index
  | .call _ argument => mentioned argument
  | .unary _ operand => mentioned operand
  | .binary _ left right => mentioned left ++ mentioned right
  | .blank _ => []
termination_by t.weight
decreasing_by all_goals simp only [Term.weight]; omega

/-- Variables go by their own names, and the arrays of item accesses carry no index. -/
def NamesFit : Term → Prop
  | .named name v => name = v.name
  | .access name v index => name = v.name ∧ v.isIndexed = false ∧ index.NamesFit
  | .call _ argument => argument.NamesFit
  | .unary _ operand => operand.NamesFit
  | .binary _ left right => left.NamesFit ∧ right.NamesFit
  | _ => True

theorem kept_namesFit : Term.Kept NamesFit where
  literal _ := trivial
  call _ _ fit := fit
  named _ := rfl
  access v _ _ fit := ⟨v.name_base.symm, v.isIndexed_base, fit⟩
  unary _ _ fit := fit
  binary _ _ _ left right := ⟨left, right⟩

theorem mentioned_indexed {v : Variable} {index : Term} (name : String) (indexed : v.isIndexed = true)
    (read : Term.parse v.index = .ok index) : (Term.named name v).mentioned = v :: index.mentioned := by
  rw [mentioned, if_pos indexed]
  split
  · next unread =>
    rw [read] at unread
    cases unread
  · next found =>
    rw [read] at found
    cases found
    rfl

theorem mem_mentioned_named (name : String) (v : Variable) : v ∈ (Term.named name v).mentioned := by
  rw [mentioned]
  split
  · split <;> exact List.mem_cons_self
  · exact List.mem_cons_self

end Term

namespace Store

/-- The given variables and those that the store binds. -/
def known (s : Store) (vs : List Variable) : List Variable :=
  vs ++ s.bindings.map Binding.target

/-- What the names of the variables stand for: the value bound under the id of the variable with that name. -/
def environment (s : Store) (vs : List Variable) (name : String) : Option Value :=
  ((s.known vs).find? (·.name == name)).bind fun v => (s.get? v.id).map Binding.value

theorem environment_eq {s : Store} {vs : List Variable}
    (apart : ∀ v ∈ s.known vs, ∀ w ∈ s.known vs, v.id ≠ w.id → v.name ≠ w.name) {v : Variable}
    (held : v ∈ s.known vs) : s.environment vs v.name = (s.get? v.id).map Binding.value := by
  have some : ((s.known vs).find? (·.name == v.name)).isSome = true :=
    List.find?_isSome.2 ⟨v, held, beq_self_eq_true _⟩
  obtain ⟨w, found⟩ := Option.isSome_iff_exists.1 some
  have sameName : w.name = v.name := by simpa using List.find?_some found
  have sameId : w.id = v.id := by
    by_contra other
    exact apart w (List.mem_of_find?_eq_some found) v held other sameName
  rw [environment, found, Option.bind_some, sameId]

end Store

/-- One step for each way in which an exact term is made. -/
theorem Term.Exact.code {s : Store} {env : String → Option Value} (typed : s.WellTyped) {t : Term}
    (exact : t.Exact s) (names : ∀ v ∈ t.mentioned, env v.name = (s.get? v.id).map Binding.value)
    (literals : t.LiteralsFit) (named : t.NamesFit) (origin : Option Code.Origin) {r : TypedValue}
    (done : Eval.evaluate s t = .ok r) :
    r.Exact ∧ ∃ code, Code.ofTerm origin t = .ok code ∧ code.value? env = some r.value := by
  induction exact generalizing r with
  | literal simple =>
    rw [Eval.evaluate] at done
    cases done
    refine ⟨literals.exact simple, _, by rw [Code.ofTerm], ?_⟩
    rw [Code.Expr.value?]
    exact Code.written?_literalText literals simple
  | @whole name v plain simple =>
    obtain rfl : name = v.name := named
    rw [Code.ofTerm_whole origin _ plain]
    cases found : s.get? v.id with
    | none =>
      rw [Eval.evaluate, found] at done
      cases done
    | some b =>
      rw [Eval.evaluate, found] at done
      simp only [plain, Bool.false_eq_true, if_false] at done
      cases done
      have held := Store.hasKind_of_get? typed found
      have value := names v (Term.mem_mentioned_named _ v)
      rw [found] at value
      exact ⟨held.exact (simple b found), _, rfl, value⟩
  | @item name v index indexed read simple inner ih =>
    obtain rfl : name = v.name := named
    cases found : s.get? v.id with
    | none =>
      rw [Eval.evaluate, found] at done
      cases done
    | some b =>
      rw [Eval.evaluate_indexed _ found indexed, read] at done
      obtain ⟨_, ⟨⟩, done⟩ := bind_eq_ok done
      obtain ⟨i, evaluated, done⟩ := bind_eq_ok done
      rw [Term.mentioned_indexed _ indexed read] at names
      -- the index is read here as the evaluator reads it
      obtain ⟨exact, code, made, value⟩ :=
        ih (fun w held => names w (List.mem_cons_of_mem _ held)) (Term.holds_of_parse Term.kept_literalsFit read)
          (Term.holds_of_parse Term.kept_namesFit read) evaluated
      obtain ⟨exactItem, item⟩ :=
        Code.exact_subscript origin typed found (simple b found) (names v List.mem_cons_self) exact done value
      rw [Code.ofTerm_indexed origin _ indexed, read]
      exact ⟨exactItem, _, by simp [Except.mapError, Except.bind, made, Except.map], item⟩
  | @access name v index simple inner ih =>
    obtain ⟨rfl, plain, namedIndex⟩ : name = v.name ∧ v.isIndexed = false ∧ index.NamesFit := named
    rw [Eval.evaluate] at done
    cases found : s.get? v.id with
    | none =>
      rw [found] at done
      cases done
    | some b =>
      rw [found] at done
      obtain ⟨i, evaluated, done⟩ := bind_eq_ok done
      rw [Term.mentioned] at names
      obtain ⟨exact, code, made, value⟩ :=
        ih (fun w held => names w (List.mem_cons_of_mem _ held)) literals namedIndex evaluated
      obtain ⟨exactItem, item⟩ :=
        Code.exact_subscript origin typed found (simple b found) (names v List.mem_cons_self) exact done value
      rw [Code.ofTerm_access, Code.ofTerm_whole origin _ plain, made]
      exact ⟨exactItem, _, rfl, item⟩
  | @unary op operand inner ih =>
    rw [Eval.evaluate] at done
    obtain ⟨a, evaluated, done⟩ := bind_eq_ok done
    rw [Term.mentioned] at names
    obtain ⟨exact, code, made, value⟩ := ih names literals named evaluated
    rw [Code.ofTerm, made]
    exact Code.exact_unary exact value done
  | @binary op left right first second fits ihFirst ihSecond =>
    rw [Eval.evaluate_binary] at done
    obtain ⟨l, evaluatedLeft, done⟩ := bind_eq_ok done
    obtain ⟨m, evaluatedRight, done⟩ := bind_eq_ok done
    rw [Term.mentioned] at names
    obtain ⟨exactLeft, a, madeLeft, valueLeft⟩ :=
      ihFirst (fun v held => names v (List.mem_append_left _ held)) literals.1 named.1 evaluatedLeft
    obtain ⟨exactRight, b, madeRight, valueRight⟩ :=
      ihSecond (fun v held => names v (List.mem_append_right _ held)) literals.2 named.2 evaluatedRight
    rw [Code.ofTerm_binary, madeLeft, madeRight]
    have both := fits l m evaluatedLeft evaluatedRight
    obtain ⟨exact, value⟩ := Code.exact_binary origin both exactLeft exactRight done valueLeft valueRight
    exact ⟨exact, _, rfl, value⟩
  | @cast f argument inner fits ih =>
    rw [Eval.evaluate] at done
    obtain ⟨a, evaluated, done⟩ := bind_eq_ok done
    rw [Term.mentioned] at names
    obtain ⟨exact, code, made, value⟩ := ih names literals named evaluated
    obtain ⟨exactResult, called⟩ := Code.exact_convert exact (fits a evaluated) done
    rw [Code.ofTerm, made]
    refine ⟨exactResult, _, rfl, ?_⟩
    rw [Code.Expr.value?, value]
    exact called

/-- An exact term that evaluates to a value has code, and the code computes that value where every name stands for
what is bound to its variable. Terms know variables by their ids, so different ids have to have different names. -/
theorem Term.exact_code_value (es : List Element) (t : Term) (read : Term.parse es = .ok t) (s : Store)
    (typed : s.WellTyped) (exact : t.Exact s)
    (apart : ∀ v ∈ s.known t.mentioned, ∀ w ∈ s.known t.mentioned, v.id ≠ w.id → v.name ≠ w.name)
    (origin : Option Code.Origin) (r : TypedValue) (done : Eval.evaluate s t = .ok r) :
    (∀ b, s.get? b.id = some b → s.environment t.mentioned b.target.name = some b.value) ∧
    ∃ code, Code.ofTerm origin t = .ok code ∧ code.value? (s.environment t.mentioned) = some r.value := by
  constructor
  · intro b bound
    have held : b.target ∈ s.known t.mentioned :=
      List.mem_append_right _ (List.mem_map_of_mem (List.mem_of_find?_eq_some bound))
    rw [Store.environment_eq apart held]
    exact congrArg (Option.map Binding.value) bound
  · have names (v : Variable) (held : v ∈ t.mentioned) :
        s.environment t.mentioned v.name = (s.get? v.id).map Binding.value :=
      Store.environment_eq apart (List.mem_append_left _ held)
    have literals := Term.holds_of_parse Term.kept_literalsFit read
    have named := Term.holds_of_parse Term.kept_namesFit read
    exact (exact.code typed names literals named origin done).2

/-! ### The remainder of two negative numbers -/

/-- The elements `- place % - row[place]`, and the term they are read as. -/
def Element.negated : List Element :=
  [.operator "m" "-", .attached "p" .place, .operator "r" "%", .operator "n" "-", .attached "q" .picked]

def Term.negated : Term :=
  .binary .modulo (.unary .minus (.named "place" .place)) (.unary .minus (.named "row" .picked))

theorem Term.parse_negated : Term.parse Element.negated = .ok Term.negated := by
  have operand (id key : String) (v : Variable) :
      (ParseTree.unary _ _ .minus (.pass .unary (.named v))).Spelled [.operator id "-", .attached key v] :=
    spelled_unary.2 ⟨_, _, rfl, .operator id (by decide), (spelled_single (.named v) rfl).2 ⟨_, rfl, .attached key v⟩⟩
  refine Term.parse_eq_ok_iff_spelled.2 ⟨.pass .expression <| .pass .disjunction <| .pass .conjunction <|
    .pass .additive <| .binary .multiplicative _ _ .modulo (.pass .multiplicative (.unary _ _ .minus
      (.pass .unary (.named .place)))) (.unary _ _ .minus (.pass .unary (.named .picked))), ?_, rfl⟩
  exact spelled_binary.2 ⟨_, _, _, rfl, operand "m" "p" .place, .operator "r" (by decide), operand "n" "q" .picked⟩

theorem Store.evaluate_minus_place :
    Eval.evaluate .ofRow (.unary .minus (.named "place" .place)) = .ok ⟨.int (-1), some .integer⟩ := by
  rw [Eval.evaluate, Eval.evaluate]
  rfl

theorem Variable.parse_index_picked : Term.parse Variable.picked.index = .ok (.named "place" .place) :=
  Term.parse_attached "x" .place

theorem Store.evaluate_minus_picked :
    Eval.evaluate .ofRow (.unary .minus (.named "row" .picked)) = .ok ⟨.int (-8), some .integer⟩ := by
  rw [Eval.evaluate, Eval.evaluate_indexed "row" rfl rfl, Variable.parse_index_picked]
  simp only [Error.ofSyntax, Except.bind]
  rw [Eval.evaluate]
  rfl

theorem Term.exact_negated : Term.negated.Exact .ofRow := by
  have place : (Term.named "place" .place).Exact .ofRow := by
    refine .whole rfl ?_
    intro b found
    cases found
    rfl
  have picked : (Term.named "row" .picked).Exact .ofRow := by
    refine .item rfl Variable.parse_index_picked ?_ place
    intro b found
    cases found
    rfl
  refine .binary (.unary place) (.unary picked) ?_
  intro l m first second a b isA isB
  rw [Store.evaluate_minus_place] at first
  rw [Store.evaluate_minus_picked] at second
  cases first
  cases second
  cases isA
  cases isB
  decide

theorem Term.known_negated :
    Store.ofRow.known Term.negated.mentioned = [.place, .picked, .place, .row [], .place] := by
  have place : (Term.named "place" .place).mentioned = [.place] := by
    rw [mentioned]
    rfl
  have minus (t : Term) : (Term.unary .minus t).mentioned = t.mentioned := by rw [mentioned]
  have picked : (Term.named "row" .picked).mentioned = [.picked, .place] := by
    rw [mentioned_indexed "row" rfl Variable.parse_index_picked, place]
  rw [Store.known, negated, mentioned, minus, minus, place, picked]
  rfl

theorem Term.exact_code_value_negated :
    Eval.evaluate .ofRow Term.negated = .ok ⟨.int (-1), some .integer⟩ ∧
    ∃ code, Code.ofTerm none Term.negated = .ok code ∧
      code.value? (Store.ofRow.environment Term.negated.mentioned) = some (.int (-1)) := by
  have evaluated : Eval.evaluate .ofRow Term.negated = .ok ⟨.int (-1), some .integer⟩ := by
    rw [Term.negated, Eval.evaluate_binary, Store.evaluate_minus_place, Store.evaluate_minus_picked]
    rfl
  have apart : ∀ v ∈ Store.ofRow.known Term.negated.mentioned, ∀ w ∈ Store.ofRow.known Term.negated.mentioned,
      v.id ≠ w.id → v.name ≠ w.name := by
    rw [known_negated]
    intro v held w held' other
    simp only [List.mem_cons, List.not_mem_nil, or_false] at held held'
    rcases held with rfl | rfl | rfl | rfl | rfl <;> rcases held' with rfl | rfl | rfl | rfl | rfl <;>
      first | exact absurd rfl other | decide
  have computed := exact_code_value _ _ parse_negated .ofRow Store.wellTyped_ofRow exact_negated apart none _ evaluated
  exact ⟨evaluated, computed.2⟩

end Flowchart
