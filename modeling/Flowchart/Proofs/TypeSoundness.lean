import Flowchart.Proofs.LeadingNumbers
import Flowchart.Proofs.Spelling
import Flowchart.Proofs.TypedValues
/-! The checker and the evaluator agree. A term has a value only if it has a kind, and the value is of
that kind; a term that has a kind fails only for what its values are, numbers behind separators among
them. Each rule of the evaluator is compared with its rule of the checker, and the terms put the rules
together. -/
namespace Flowchart

/-- A typed value is of a kind in both its parts. -/
structure TypedValue.Fits (r : TypedValue) (k : Kind) : Prop where
  type : r.type = some k.type
  value : r.value.HasKind k

/-- What the checker says agrees with what the evaluator does. -/
def Agrees (checked : Option Kind) (result : Except Error TypedValue) : Prop :=
  match result with
  | .ok r => ∃ k, checked = some k ∧ r.Fits k
  | .error e => checked.isSome = true → e.isOfValues = true ∨ e.IsUnread

namespace Agrees
variable {checked : Option Kind} {result : Except Error TypedValue} {k : Kind} {r : TypedValue} {e : Error}

theorem rejected : Agrees none (.error e) := by
  intro accepted
  cases accepted

theorem failed (ofValues : e.isOfValues = true) : Agrees checked (.error e) :=
  fun _ => .inl ofValues

theorem unread (unread : e.IsUnread) : Agrees checked (.error e) :=
  fun _ => .inr unread

theorem fits (fits : r.Fits k) : Agrees (some k) (.ok r) :=
  ⟨k, rfl, fits⟩

/-- A computation that fails only for what the values are, and whose results are of the kind. -/
theorem map {α : Type} {computed : Except Error α} {f : α → TypedValue} (fits : ∀ a, (f a).Fits k)
    (fails : ∀ e, computed = .error e → e.isOfValues = true) : Agrees (some k) (computed.map f) := by
  cases computed with
  | ok a => exact Agrees.fits (fits a)
  | error e => exact failed (fails e rfl)

/-- Rules that agree do so one after the other. -/
theorem bind {rule : Kind → Option Kind} {step : TypedValue → Except Error TypedValue}
    (first : Agrees checked result) (next : ∀ k r, r.Fits k → Agrees (rule k) (step r)) :
    Agrees (checked.bind rule) (result.bind step) := by
  cases result with
  | ok r =>
    obtain ⟨k, rfl, fits⟩ := first
    exact next k r fits
  | error e =>
    intro accepted
    cases checked with
    | none => cases accepted
    | some k => exact first rfl

end Agrees

/-! The rules of the evaluator against those of the checker. -/

section Rules
variable {arg left right : TypedValue} {k l r : Kind}

theorem TypedValue.Fits.denotes {r : TypedValue} {k : Kind} (fits : r.Fits k)
    (numeric : k.type.isNumeric = true) : ∃ a, r.value.Denotes a ∧ k = .scalar a.type := by
  obtain ⟨value, type⟩ := r
  cases fits.value with
  | array => simp [Kind.type, DataType.isNumeric] at numeric
  | scalar has =>
    cases has with
    | int n => exact ⟨_, .int n, rfl⟩
    | float x => exact ⟨_, .float x, rfl⟩
    | nan mark => exact ⟨_, .nan mark, rfl⟩
    | _ => simp [Kind.type, DataType.isNumeric] at numeric

theorem TypedValue.Fits.isNumeric_eq (fits : arg.Fits k) : Eval.isNumeric arg.type = k.type.isNumeric := by
  rw [fits.type]
  rfl

/-- A value of a type that is no array's is single. -/
theorem TypedValue.Fits.hasType {t : DataType} (fits : arg.Fits k) (type : k.type = t)
    (simple : t ≠ .array) : k = .scalar t ∧ arg.value.HasType t := by
  obtain ⟨value, given⟩ := arg
  cases fits.value with
  | scalar has => cases type; exact ⟨rfl, has⟩
  | array => exact absurd type.symm simple

theorem Yields.agrees {type : DataType} {result : Except Fault Value} (yields : Yields type result) :
    Agrees (some (.scalar type)) ((Error.ofFault result).map fun v => ⟨v, some type⟩) := by
  cases result with
  | ok v => exact .fits ⟨rfl, .scalar yields⟩
  | error f => exact .failed yields

theorem agrees_unary (op : UnaryOp) (fits : arg.Fits k) : Agrees (k.unary op) (Eval.applyUnary op arg) := by
  cases op with
  | not =>
    simp only [Kind.unary, Eval.applyUnary, fits.type, Option.some.injEq]
    split
    · exact .fits ⟨rfl, .scalar (.bool _)⟩
    · exact .rejected
  | minus =>
    simp only [Kind.unary, Eval.applyUnary, fits.isNumeric_eq]
    split
    · next numeric =>
      obtain ⟨a, denotes, rfl⟩ := fits.denotes numeric
      rw [fits.type]
      exact denotes.yields_negate.agrees
    · exact .rejected
  | plus =>
    simp only [Kind.unary, Eval.applyUnary, fits.isNumeric_eq]
    split
    · exact .fits fits
    · exact .rejected
  | other symbol => exact .rejected

/-- Arithmetic agrees when what is computed on the numbers has the type. -/
theorem agrees_arithmetic {zero : Option Error} {compute : Value → Value → Except Fault Value}
    {type : DataType} (op : BinaryOp) (fitsLeft : left.Fits l) (fitsRight : right.Fits r)
    (ofValues : ∀ e, zero = some e → e.isOfValues = true)
    (yields : ∀ a b, left.value.Denotes a → right.value.Denotes b → l = .scalar a.type → r = .scalar b.type →
      (zero.isSome = true → b ≠ .int 0) → Yields type (compute left.value right.value)) :
    Agrees (Kind.arithmetic type l r) (Eval.arithmetic op left right zero compute type) := by
  unfold Kind.arithmetic Eval.arithmetic
  rw [fitsLeft.isNumeric_eq, fitsRight.isNumeric_eq]
  split
  · next numeric =>
    obtain ⟨numericLeft, numericRight⟩ := Bool.and_eq_true_iff.1 numeric
    obtain ⟨a, leftIs, leftKind⟩ := fitsLeft.denotes numericLeft
    obtain ⟨b, rightIs, rightKind⟩ := fitsRight.denotes numericRight
    have yields := yields a b leftIs rightIs leftKind rightKind
    cases zero with
    | none => exact (yields (by simp)).agrees
    | some e =>
      simp only
      split
      · exact .failed (ofValues e rfl)
      · next proper =>
        refine (yields fun _ zero => proper ?_).agrees
        generalize right.value = value at rightIs
        cases zero
        cases rightIs
        rfl
  · exact .rejected

/-- Arithmetic whose result has the type that the types of both sides are joined to. -/
theorem agrees_joined {zero : Option Error} {compute : Value → Value → Except Fault Value}
    (op : BinaryOp) (fitsLeft : left.Fits l) (fitsRight : right.Fits r)
    (ofValues : ∀ e, zero = some e → e.isOfValues = true)
    (yields : ∀ a b, left.value.Denotes a → right.value.Denotes b → (zero.isSome = true → b ≠ .int 0) →
      Yields (Eval.joined (some a.type) (some b.type)) (compute left.value right.value)) :
    Agrees (Kind.arithmetic (Eval.joined (some l.type) (some r.type)) l r)
      (Eval.arithmetic op left right zero compute (Eval.joined (some l.type) (some r.type))) := by
  refine agrees_arithmetic op fitsLeft fitsRight ofValues ?_
  rintro a b leftIs rightIs rfl rfl proper
  exact yields a b leftIs rightIs proper

theorem compare_relation (rel : Relation) (fitsLeft : left.Fits l) (fitsRight : right.Fits r) :
    (rel.Fits l r ∧
      Eval.compare (.relation rel) left right = Error.ofFault (Value.relate rel left.value right.value)) ∨
    (¬rel.Fits l r ∧ ∃ m, Eval.compare (.relation rel) left right = .error (.mismatch m)) := by
  have ordering : (Comparison.relation rel ≠ .relation .eq ∧ Comparison.relation rel ≠ .relation .ne) ↔
      rel.isOrdering = true := by
    cases rel <;> simp [Relation.isOrdering]
  unfold Eval.compare
  rw [fitsLeft.isNumeric_eq, fitsRight.isNumeric_eq, fitsLeft.type, fitsRight.type]
  simp only [Option.some.injEq, ne_eq]
  split
  · next booleans =>
    exact .inr ⟨fun fits => fits.2 (ordering.1 booleans.2.2) ⟨booleans.1, booleans.2.1⟩, _, rfl⟩
  · next proper =>
    split
    · next unfit =>
      refine .inr ⟨fun fits => ?_, _, rfl⟩
      grind [Relation.Fits]
    · next fit =>
      refine .inl ⟨⟨by grind, fun isOrdering both => ?_⟩, rfl⟩
      exact proper ⟨both.1, both.2, ordering.2 isOrdering⟩

theorem agrees_compare (c : Comparison) (fitsLeft : left.Fits l) (fitsRight : right.Fits r) :
    Agrees (if l.comparable c r then some (.scalar .boolean) else none)
      ((Eval.compare c left right).map fun b => ⟨.bool b, some .boolean⟩) := by
  cases c with
  | other symbol =>
    have unknown : ∃ e, Eval.compare (.other symbol) left right = .error e := by
      simp only [Eval.compare]
      split
      · exact ⟨_, rfl⟩
      · split <;> exact ⟨_, rfl⟩
    obtain ⟨e, result⟩ := unknown
    rw [result, if_neg (by simp [Kind.comparable])]
    exact .rejected
  | relation rel =>
    rcases compare_relation rel fitsLeft fitsRight with ⟨fits, result⟩ | ⟨unfit, m, result⟩
    · have related := Value.relate_cases fitsLeft.value fitsRight.value fits
      split at related
      · next order =>
        obtain ⟨b, holds⟩ := related
        rw [result, holds, if_pos (Kind.comparable_relation.2 ⟨fits, order⟩)]
        exact .fits ⟨rfl, .scalar (.bool b)⟩
      · next none =>
        rw [result, related, if_neg fun comparable => none (Kind.comparable_relation.1 comparable).2]
        exact .rejected
    · rw [result, if_neg fun comparable => unfit (Kind.comparable_relation.1 comparable).1]
      exact .rejected

theorem agrees_logical {value : Value} (e : Error) (fitsLeft : left.Fits l) (fitsRight : right.Fits r)
    (either : value = left.value ∨ value = right.value) :
    Agrees (Kind.logical l r)
      (if some l.type = some .boolean ∧ some r.type = some .boolean then .ok ⟨value, some .boolean⟩
      else .error e) := by
  unfold Kind.logical
  simp only [Option.some.injEq]
  split
  · next both =>
    obtain ⟨-, leftHas⟩ := fitsLeft.hasType both.1 (by decide)
    obtain ⟨-, rightHas⟩ := fitsRight.hasType both.2 (by decide)
    rcases either with rfl | rfl
    · exact .fits ⟨rfl, .scalar leftHas⟩
    · exact .fits ⟨rfl, .scalar rightHas⟩
  · exact .rejected

theorem agrees_binary (op : BinaryOp) (fitsLeft : left.Fits l) (fitsRight : right.Fits r) :
    Agrees (l.binary op r) (Eval.applyBinary op left right) := by
  unfold Kind.binary Eval.applyBinary
  rw [fitsLeft.type, fitsRight.type]
  cases op with
  | add =>
    simp only [Option.some.injEq]
    split
    · next texts =>
      obtain ⟨-, leftHas⟩ := fitsLeft.hasType texts.1 (by decide)
      obtain ⟨-, rightHas⟩ := fitsRight.hasType texts.2 (by decide)
      exact (leftHas.yields_add rightHas).agrees
    · refine agrees_joined .add fitsLeft fitsRight (by simp) fun a b leftIs rightIs _ => ?_
      rw [Value.add_eq leftIs rightIs]
      exact Number.yields_apply a b _ _
  | subtract =>
    refine agrees_joined .subtract fitsLeft fitsRight (by simp) fun a b leftIs rightIs _ => ?_
    rw [Value.subtract_eq leftIs rightIs]
    exact Number.yields_apply a b _ _
  | multiply =>
    refine agrees_joined .multiply fitsLeft fitsRight (by simp) fun a b leftIs rightIs _ => ?_
    rw [Value.multiply_eq leftIs rightIs]
    exact Number.yields_apply a b _ _
  | divide =>
    refine agrees_arithmetic .divide fitsLeft fitsRight (by simp [Error.isOfValues])
      fun a b leftIs rightIs _ _ _ => ?_
    rw [Value.divide_eq leftIs rightIs]
    exact Number.yields_divide a b
  | modulo =>
    refine agrees_joined .modulo fitsLeft fitsRight (by simp [Error.isOfValues])
      fun a b leftIs rightIs proper => ?_
    rw [Value.remainder_eq leftIs rightIs]
    exact Number.yields_remainder a b (proper rfl)
  | and => exact agrees_logical _ fitsLeft fitsRight (by split <;> simp)
  | or => exact agrees_logical _ fitsLeft fitsRight (by split <;> simp)
  | compare c => exact agrees_compare c fitsLeft fitsRight

theorem toInteger_fails {n : Number} {source : String} {e : Error}
    (fails : Eval.toInteger n source = .error e) : e.isOfValues = true := by
  cases n with
  | int n =>
    simp only [Eval.toInteger] at fails
    cases made : Double.ofInt? n with
    | some x => rw [made] at fails; cases fails
    | none => rw [made] at fails; cases fails; rfl
  | real x =>
    simp only [Eval.toInteger] at fails
    cases made : Double.floor? x with
    | some n => rw [made] at fails; cases fails
    | none => rw [made] at fails; cases fails; rfl

theorem agrees_toFloat (v : Value) :
    Agrees (some (.scalar .float)) ((Eval.toFloat v).map fun v => ⟨v, some .float⟩) := by
  by_cases nan : ∃ mark, v = .nan mark
  · obtain ⟨mark, rfl⟩ := nan
    exact .fits ⟨rfl, .scalar (.nan mark)⟩
  · rw [Eval.toFloat]
    · cases read : Eval.parseNumber v with
      | error e => exact .unread (Eval.parseNumber_error read)
      | ok number =>
        cases number with
        | none => exact .failed rfl
        | some n =>
          cases made : n.toFloat with
          | ok x =>
            simp only [made]
            exact .fits ⟨rfl, .scalar (.float x)⟩
          | error f =>
            cases Number.toFloat_fails made
            simp only [made]
            exact .failed rfl
    · exact fun mark is => nan ⟨mark, is⟩

theorem agrees_convert (f : Function) (fits : arg.Fits k) : Agrees (k.convert f) (Eval.convert f arg) := by
  cases f with
  | integer =>
    simp only [Kind.convert, Eval.convert, fits.type, Option.some.injEq]
    split
    · next integer =>
      obtain ⟨-, has⟩ := fits.hasType integer (by decide)
      exact .fits ⟨rfl, .scalar has⟩
    · cases read : Eval.parseNumber arg.value with
      | error e => exact .unread (Eval.parseNumber_error read)
      | ok number =>
        cases number with
        | none => exact .failed rfl
        | some n => exact .map (fun n => ⟨rfl, .scalar (.int n)⟩) fun e => toInteger_fails
  | float =>
    simp only [Kind.convert, Eval.convert, fits.type, Option.some.injEq]
    split
    · next float =>
      obtain ⟨-, has⟩ := fits.hasType float (by decide)
      exact .fits ⟨rfl, .scalar has⟩
    · exact agrees_toFloat arg.value
  | string => exact .fits ⟨rfl, .scalar (.text _)⟩
  | boolean =>
    simp only [Kind.convert, Eval.convert, fits.type, Option.some.injEq]
    split
    · next boolean =>
      obtain ⟨-, has⟩ := fits.hasType boolean (by decide)
      exact .fits ⟨rfl, .scalar has⟩
    · split
      · exact .fits ⟨rfl, .scalar (.bool _)⟩
      · split
        · exact .fits ⟨rfl, .scalar (.bool _)⟩
        · exact .failed rfl
  | other name => exact .rejected

/-- Where there are no items and no size, every index is outside. -/
theorem Eval.item_outside (b : Binding) (name : String) (n : Int) (empty : b.value.items? = none)
    (sizeless : b.target.size? = none) : ∃ e, Eval.item b name (.int n) = .error e := by
  simp only [Eval.item, Value.number?, empty, sizeless, Option.getD_none, List.length_nil]
  rw [if_pos (by omega)]
  exact ⟨_, rfl⟩

/-- The item at an index agrees with the kind of the items; what is no array has none. -/
theorem agrees_itemAt {b : Binding} {index : TypedValue} (name : String)
    (typed : b.value.HasKind b.target.kind) (fits : index.Fits k) :
    Agrees (b.target.kind.item k) (Eval.itemAt b name index) := by
  unfold Eval.itemAt
  rw [fits.type]
  by_cases integer : k.type = .integer
  · obtain ⟨rfl, has⟩ := fits.hasType integer (by decide)
    obtain ⟨value, type⟩ := index
    obtain ⟨⟨id, title, nodeId, shape⟩, held⟩ := b
    cases has with
    | int n =>
      rw [if_pos (congrArg some integer)]
      cases shape with
      | scalar type simple =>
        cases typed with
        | scalar has =>
          have empty : held.items? = none := by cases has <;> rfl
          obtain ⟨e, outside⟩ :=
            Eval.item_outside ⟨⟨id, title, nodeId, .scalar type simple⟩, held⟩ name n empty rfl
          rw [outside]
          exact .rejected
      | array subtype named size positive selected =>
        cases typed with
        | @array items _ _ _ _ all =>
          simp only [Eval.item, Value.number?]
          split
          · exact .failed rfl
          · split
            · next v found => exact .fits ⟨rfl, .scalar (all v (List.mem_of_getElem? found))⟩
            · exact .failed rfl
  · have none : b.target.kind.item k = none := by
      unfold Kind.item
      split <;> simp [integer]
    rw [none, if_neg (by simpa using integer)]
    exact .rejected

end Rules

/-! Terms. -/

/-- Every literal of the term has a value of the type it is marked with. -/
def Term.LiteralsFit : Term → Prop
  | .literal value type => value.HasType type
  | .named .. => True
  | .unary _ operand => operand.LiteralsFit
  | .binary _ left right => left.LiteralsFit ∧ right.LiteralsFit
  | .access _ _ index => index.LiteralsFit
  | .call _ argument => argument.LiteralsFit
  | .blank _ => True

theorem Literal.hasType_infer (s : String) : (Literal.infer s).value.HasType (Literal.infer s).type := by
  unfold Literal.infer
  dsimp only
  split
  · exact .bool true
  split
  · exact .bool false
  split
  · exact .text _
  split
  · next x _ =>
    unfold Literal.ofDouble
    split
    · exact .int _
    · exact .float _
  · exact .text _

theorem Term.kept_literalsFit : Term.Kept Term.LiteralsFit where
  literal := Literal.hasType_infer
  call _ _ fit := fit
  named _ := trivial
  access _ _ _ fit := fit
  unary _ _ fit := fit
  binary _ _ _ left right := ⟨left, right⟩

theorem Store.hasKind_of_get? {s : Store} {id : String} {b : Binding} (typed : s.WellTyped)
    (found : s.get? id = some b) : b.value.HasKind b.target.kind :=
  typed b (List.mem_of_find?_eq_some found)

theorem Variable.type_kind (v : Variable) : v.kind.type = v.type := by
  obtain ⟨id, name, nodeId, shape⟩ := v
  cases shape <;> rfl

/-! The equations of an indexed variable and of an operation, with reading and evaluating as steps. -/

theorem Kind.check_indexed {declared : String → Option Variable} {v target : Variable} (name : String)
    (found : declared v.id = some target) (indexed : v.isIndexed = true) :
    check declared (.named name v) =
      (Term.parse v.index).toOption.bind fun index => (check declared index).bind target.kind.item := by
  rw [check, found, Option.bind_some, if_pos indexed]
  split
  · next unread =>
    rw [unread]
    rfl
  · next read =>
    dsimp only
    rw [read]
    rfl

theorem Eval.evaluate_indexed {s : Store} {v : Variable} {b : Binding} (name : String)
    (found : s.get? v.id = some b) (indexed : v.isIndexed = true) :
    evaluate s (.named name v) =
      (Error.ofSyntax (Term.parse v.index)).bind fun index => (evaluate s index).bind (itemAt b name) := by
  rw [evaluate, found]
  dsimp only
  rw [if_pos indexed]
  split
  · next unread =>
    rw [unread]
    rfl
  · next read =>
    rw [read]
    rfl

theorem Eval.evaluate_binary (s : Store) (op : BinaryOp) (left right : Term) :
    evaluate s (.binary op left right) =
      (evaluate s left).bind fun l => (evaluate s right).bind (applyBinary op l) := by
  rw [evaluate]
  cases evaluate s left with
  | error e => rfl
  | ok l => cases evaluate s right <;> rfl

/-- The checker agrees with the evaluator on every term. -/
theorem agrees_evaluate {s : Store} (typed : s.WellTyped) (t : Term) (fit : t.LiteralsFit) :
    Agrees (Kind.check s.declared t) (Eval.evaluate s t) := by
  match t with
  | .literal value type =>
    rw [Kind.check, Eval.evaluate]
    exact .fits ⟨rfl, .scalar fit⟩
  | .named name v =>
    cases found : s.get? v.id with
    | none =>
      rw [Kind.check, Eval.evaluate, Store.declared, found]
      exact .rejected
    | some b =>
      have held := Store.hasKind_of_get? typed found
      have declared : s.declared v.id = some b.target := by rw [Store.declared, found]; rfl
      by_cases indexed : v.isIndexed = true
      · rw [Kind.check_indexed name declared indexed, Eval.evaluate_indexed name found indexed]
        cases read : Term.parse v.index with
        | error e => exact .rejected
        | ok index =>
          -- the index is no part of the term, but what is read of it weighs less
          have := Term.weight_parse_index read
          have fit := Term.holds_of_parse Term.kept_literalsFit read
          exact (agrees_evaluate typed index fit).bind fun k r fits => agrees_itemAt name held fits
      · rw [Kind.check, Eval.evaluate, declared, found]
        simp only [Option.bind_some]
        rw [if_neg indexed, if_neg indexed]
        exact .fits ⟨by rw [Variable.type_kind], held⟩
  | .access name v index =>
    rw [Kind.check, Eval.evaluate, Store.declared]
    cases found : s.get? v.id with
    | none => exact .rejected
    | some b =>
      have held := Store.hasKind_of_get? typed found
      exact (agrees_evaluate typed index fit).bind fun k r fits => agrees_itemAt name held fits
  | .call f argument =>
    rw [Kind.check, Eval.evaluate]
    exact (agrees_evaluate typed argument fit).bind fun k r => agrees_convert f
  | .unary op operand =>
    rw [Kind.check, Eval.evaluate]
    exact (agrees_evaluate typed operand fit).bind fun k r => agrees_unary op
  | .binary op left right =>
    rw [Kind.check, Eval.evaluate_binary]
    have second := agrees_evaluate typed right fit.2
    exact (agrees_evaluate typed left fit.1).bind fun l left fitsLeft =>
      second.bind fun r right fitsRight => agrees_binary op fitsLeft fitsRight
  | .blank label =>
    rw [Kind.check, Eval.evaluate]
    exact .rejected
termination_by t.weight
decreasing_by all_goals simp only [Term.weight]; omega

/-- The evaluator keeps to the types that the checker finds from the declarations. A value has the type
found, with all its items; a term that has one is evaluated, or fails for what its values are. One of these failures
is none of the language's own: a number that a text begins with cannot be read behind an information separator. -/
theorem Eval.evaluate_keeps_types (es : List Element) (t : Term) (read : Term.parse es = .ok t) (s : Store)
    (typed : s.WellTyped) :
    (∀ r, Eval.evaluate s t = .ok r →
      ∃ k, Kind.check s.declared t = some k ∧ r.type = some k.type ∧ r.value.HasKind k) ∧
    (∀ k, Kind.check s.declared t = some k →
      (∃ v, Eval.evaluate s t = .ok ⟨v, some k.type⟩) ∨
        ∃ e, Eval.evaluate s t = .error e ∧ (e.isOfValues = true ∨ e.IsUnread)) := by
  have agrees := agrees_evaluate typed t (Term.holds_of_parse Term.kept_literalsFit read)
  constructor
  · intro r result
    rw [result] at agrees
    obtain ⟨k, checked, fits⟩ := agrees
    exact ⟨k, checked, fits.type, fits.value⟩
  · intro k checked
    rw [checked] at agrees
    cases result : Eval.evaluate s t with
    | error e =>
      rw [result] at agrees
      exact .inr ⟨e, rfl, agrees rfl⟩
    | ok r =>
      rw [result] at agrees
      obtain ⟨k', same, fits⟩ := agrees
      cases same
      exact .inl ⟨r.value, by rw [← fits.type]⟩

/-- A row of two integers, or the item of it that the elements select. -/
def Variable.row (index : List Element) : Variable :=
  .make "a" .array "row" none (some "integer") (some 2) index

def Variable.place : Variable :=
  .make "i" .integer "place" none none none []

/-- The row with its place as index. -/
def Variable.picked : Variable :=
  .row [.attached "x" .place]

def Store.ofRow : Store :=
  ⟨[⟨.row [], .array [.int 3, .int 8]⟩, ⟨.place, .int 1⟩]⟩

theorem Store.wellTyped_ofRow : Store.ofRow.WellTyped := by
  intro b held
  simp only [Store.ofRow, List.mem_cons, List.not_mem_nil, or_false] at held
  rcases held with rfl | rfl
  · refine .array rfl ?_
    intro v item
    simp only [List.mem_cons, List.not_mem_nil, or_false] at item
    rcases item with rfl | rfl <;> exact .int _
  · exact .scalar (.int 1)

/-- The item that the place selects is an integer, as the declaration of the row says. -/
theorem Eval.evaluate_keeps_types_picked :
    Term.parse [.attached "y" .picked] = .ok (.named "row" .picked) ∧ Store.ofRow.WellTyped ∧
      Eval.evaluate .ofRow (.named "row" .picked) = .ok ⟨.int 8, some .integer⟩ ∧
      ∃ k, Kind.check Store.ofRow.declared (.named "row" .picked) = some k ∧ k.type = .integer ∧
        (Value.int 8).HasKind k := by
  have read : Term.parse [.attached "y" .picked] = .ok (.named "row" .picked) := Term.parse_attached ..
  have index : Term.parse Variable.picked.index = .ok (.named "place" .place) := Term.parse_attached ..
  have place : Eval.evaluate .ofRow (.named "place" .place) = .ok ⟨.int 1, some .integer⟩ := by
    rw [Eval.evaluate]
    rfl
  have result : Eval.evaluate .ofRow (.named "row" .picked) = .ok ⟨.int 8, some .integer⟩ := by
    rw [Eval.evaluate_indexed "row" rfl rfl, index]
    change (Eval.evaluate .ofRow (.named "place" .place)).bind _ = _
    rw [place]
    rfl
  obtain ⟨k, checked, type, kind⟩ := (Eval.evaluate_keeps_types _ _ read _ Store.wellTyped_ofRow).1 _ result
  exact ⟨read, Store.wellTyped_ofRow, result, k, checked, (Option.some.inj type).symm, kind⟩

def Variable.entry : Variable :=
  .make "t" .string "entry" none none none []

/-- A text that is a number behind a file separator. -/
def Store.ofEntry : Store :=
  ⟨[⟨.entry, .text "\x1c5"⟩]⟩

/-- The conversion of a text to an integer has a type, and yet fails for a number behind a separator, with none of the
failures that a conversion has. -/
theorem Eval.conversion_fails_behind_separator :
    Term.parse [.function "f" "integer" (.value [.attached "x" .entry])] =
        .ok (.call .integer (.named "entry" .entry)) ∧
      Store.ofEntry.WellTyped ∧
      Kind.check Store.ofEntry.declared (.call .integer (.named "entry" .entry)) = some (.scalar .integer) ∧
      Eval.evaluate .ofEntry (.call .integer (.named "entry" .entry)) = .error (.fault (.notNumber "\x1c5")) ∧
      (Error.fault (.notNumber "\x1c5")).isOfValues = false := by
  refine ⟨by cbv, ?_, ?_, ?_, rfl⟩
  · intro b held
    cases List.mem_singleton.1 held
    exact .scalar (.text _)
  · rw [Kind.check, Kind.check]
    rfl
  · have named : Eval.evaluate .ofEntry (.named "entry" .entry) = .ok ⟨.text "\x1c5", some .string⟩ := by
      rw [Eval.evaluate]
      rfl
    rw [Eval.evaluate, named]
    rfl

end Flowchart
