import Flowchart.Proofs.Reloading
import Flowchart.Proofs.StoreTyping
/-! How a run fails. Nearly all failures are told in the language's own terms. The others are six: a number or a
quotient beyond the range of floats, a remainder of an infinite dividend, a number that stands behind an information
separator, an order between an array of texts and an array of other items, and an array whose items have nothing to
start with. The last two are seen in the variables that the blocks write; nothing else of the kind happens, since the
store of a run keeps to its types. -/
namespace Flowchart

/-- The variable that a block writes. -/
def Content.written? : Content → Option Variable
  | declare target => target
  | input target => target
  | assign (some (.assignment target _)) => some target
  | _ => none

/-- The variables that blocks write. -/
def Block.written (blocks : List Block) : List Variable :=
  blocks.filterMap (·.content.written?)

/-- The failures that the language does not account for, among variables that are written. -/
inductive Error.Untold (vs : List Variable) : Error → Prop where
  | integerTooLarge : Untold vs (.fault .integerTooLarge)
  | quotientTooLarge : Untold vs (.fault .quotientTooLarge)
  | infiniteDividend : Untold vs (.fault .domain)
  | unreadNumber {word : String} (separated : Decimal.Separated word.toList) : Untold vs (.fault (.notNumber word))
  | unorderedArrays {v w : Variable} {t t' : DataType} (left : v ∈ vs) (right : w ∈ vs)
      (leftItems : v.subtype? = some t) (rightItems : w.subtype? = some t') (unlike : t.isTextual ≠ t'.isTextual) :
      Untold vs (.fault .unsuited)
  | undefinedItems {v : Variable} {t : DataType} (member : v ∈ vs) (items : v.subtype? = some t)
      (none : t.default? = none) : Untold vs (.missingKey t.name)

/-- Whether a failure is told in the language's own terms. Only a whole run runs out of steps. -/
def Error.isTold : Error → Bool
  | stepLimit => false
  | e => e.family != .outside

theorem Error.family_ne_of_isTold {e : Error} (told : e.isTold = true) : e.family ≠ .outside := by
  cases e with
  | stepLimit => cases told
  | _ => exact bne_iff_ne.1 told

/-- The failures of executing a block. -/
def Error.Arises (vs : List Variable) (e : Error) : Prop :=
  e.isTold = true ∨ e.Untold vs

/-- A result, or a failure of executing a block. -/
def FailsAs {α : Type} (vs : List Variable) (result : Except Error α) : Prop :=
  ∀ e, result = .error e → e.Arises vs

variable {vs : List Variable}

theorem Error.Arises.ofValues {e : Error} (ofValues : e.isOfValues = true) : e.Arises vs := by
  cases e with
  | fault f =>
    cases f with
    | integerTooLarge => exact .inr .integerTooLarge
    | quotientTooLarge => exact .inr .quotientTooLarge
    | domain => exact .inr .infiniteDividend
    | _ => cases ofValues
  | divisionByZero | moduloByZero | outOfBounds | unconvertible | noTruthValue => exact .inl rfl
  | _ => cases ofValues

theorem Error.IsUnread.arises {e : Error} (unread : e.IsUnread) : e.Arises vs := by
  obtain ⟨word, rfl, separated⟩ := unread
  exact .inr (.unreadNumber separated)

namespace FailsAs
variable {α β : Type}

theorem ok (a : α) : FailsAs vs (.ok a) :=
  nofun

theorem told {e : Error} (told : e.isTold = true) : FailsAs vs (.error e : Except Error α) := by
  rintro _ ⟨rfl⟩
  exact .inl told

theorem untold {e : Error} (untold : e.Untold vs) : FailsAs vs (.error e : Except Error α) := by
  rintro _ ⟨rfl⟩
  exact .inr untold

theorem mismatch (m : Mismatch) : FailsAs vs (.error (.mismatch m) : Except Error α) :=
  told rfl

theorem passedOn {first : Except Error α} {e : Error} (before : FailsAs vs first) (failed : first = .error e) :
    FailsAs vs (.error e : Except Error β) := by
  rintro _ ⟨rfl⟩
  exact before e failed

/-- Steps that fail in this way do so one after the other. -/
theorem bind {first : Except Error α} {next : α → Except Error β} (before : FailsAs vs first)
    (after : ∀ a, first = .ok a → FailsAs vs (next a)) : FailsAs vs (first.bind next) := by
  cases first with
  | error e => exact before.passedOn rfl
  | ok a => exact after a rfl

theorem map {first : Except Error α} (before : FailsAs vs first) (f : α → β) : FailsAs vs (first.map f) := by
  cases first with
  | error e => exact before.passedOn rfl
  | ok a => exact ok (f a)

theorem ofSyntax (read : Except SyntaxError α) : FailsAs vs (Error.ofSyntax read) := by
  cases read with
  | ok a => exact ok a
  | error e => exact told rfl

/-- What the checker accepts fails for what its values are. -/
theorem of_agrees {checked : Option Kind} {result : Except Error TypedValue} (agrees : Agrees checked result)
    (rejected : checked = none → FailsAs vs result) : FailsAs vs result := by
  intro e failed
  cases checked with
  | none => exact rejected rfl e failed
  | some k =>
    rw [failed] at agrees
    exact (agrees rfl).elim .ofValues fun unread => unread.arises

end FailsAs

/-! The rules of the evaluator. -/

/-- The items of a kind of arrays are those of a variable that is written. -/
def Kind.IsOf (vs : List Variable) (k : Kind) : Prop :=
  ∀ item size positive, k = .array item size positive → ∃ v ∈ vs, v.subtype? = some item

section Rules
variable {arg left right : TypedValue} {k l r : Kind}

theorem failsAs_unary (op : UnaryOp) (fits : arg.Fits k) : FailsAs vs (Eval.applyUnary op arg) := by
  refine .of_agrees (agrees_unary op fits) ?_
  intro rejected
  cases op with
  | not =>
    simp only [Eval.applyUnary]
    split
    · exact .ok _
    · exact .told rfl
  | minus =>
    have other : Eval.isNumeric arg.type = false := by
      rw [fits.isNumeric_eq]
      simpa [Kind.unary] using rejected
    rw [Eval.applyUnary, other]
    exact .told rfl
  | plus =>
    simp only [Eval.applyUnary]
    split
    · exact .ok _
    · exact .told rfl
  | other symbol => exact .told rfl

theorem failsAs_convert (f : Function) (fits : arg.Fits k) : FailsAs vs (Eval.convert f arg) := by
  refine .of_agrees (agrees_convert f fits) ?_
  intro rejected
  cases f with
  | other name => exact .told rfl
  | _ => cases rejected

/-- An index that is an integer is one among the items or outside. -/
theorem failsAs_itemAt {b : Binding} {index : TypedValue} (name : String) (fits : index.Fits k) :
    FailsAs vs (Eval.itemAt b name index) := by
  unfold Eval.itemAt
  split
  · next integer =>
    rw [fits.type, Option.some.injEq] at integer
    obtain ⟨-, has⟩ := fits.hasType integer (by decide)
    generalize index.value = value at has
    cases has with
    | int n =>
      simp only [Eval.item, Value.number?]
      split
      · exact .told rfl
      · split
        · exact .ok _
        · exact .told rfl
  · exact .told rfl

/-- Kinds that fit a relation without having an order are those of texts in an array and of others. -/
theorem Kind.arrays_of_unordered {rel : Relation} (fits : rel.Fits l r) (ordering : rel.isOrdering = true)
    (unordered : ¬l.ordered r = true) :
    ∃ item size positive item' size' positive', l = .array item size positive ∧ r = .array item' size' positive' ∧
      item.isTextual ≠ item'.isTextual := by
  cases l with
  | scalar t =>
    refine absurd ?_ unordered
    simpa [Kind.ordered, imp_iff_not_or] using fits.2 ordering
  | array item size positive =>
    cases r with
    | scalar t =>
      refine absurd ?_ unordered
      simpa [Kind.ordered, imp_iff_not_or] using fits.2 ordering
    | array item' size' positive' =>
      exact ⟨item, size, positive, item', size', positive', rfl, rfl, by simpa [Kind.ordered] using unordered⟩

theorem failsAs_compare (c : Comparison) (fitsLeft : left.Fits l) (fitsRight : right.Fits r) (ofLeft : l.IsOf vs)
    (ofRight : r.IsOf vs) : FailsAs vs (Eval.compare c left right) := by
  cases c with
  | other symbol =>
    unfold Eval.compare
    dsimp only
    split
    · exact .told rfl
    · split
      · exact .told rfl
      · exact .told rfl
  | relation rel =>
    rcases compare_relation rel fitsLeft fitsRight with ⟨fits, result⟩ | ⟨-, m, result⟩
    · have related := Value.relate_cases fitsLeft.value fitsRight.value fits
      rw [result]
      split at related
      · obtain ⟨b, holds⟩ := related
        rw [holds]
        exact .ok b
      · next disorder =>
        obtain ⟨ordering, unordered⟩ := Classical.not_imp.1 disorder
        obtain ⟨item, size, positive, item', size', positive', isLeft, isRight, unlike⟩ :=
          Kind.arrays_of_unordered fits ordering unordered
        obtain ⟨v, writesLeft, leftItems⟩ := ofLeft item size positive isLeft
        obtain ⟨w, writesRight, rightItems⟩ := ofRight item' size' positive' isRight
        rw [related]
        exact .untold (.unorderedArrays writesLeft writesRight leftItems rightItems unlike)
    · rw [result]
      exact .mismatch m

/-- Arithmetic that the checker rejects is not on numbers. -/
theorem failsAs_arithmetic {op : BinaryOp} {zero : Option Error} {compute : Value → Value → Except Fault Value}
    {type type' : DataType} (fitsLeft : left.Fits l) (fitsRight : right.Fits r)
    (rejected : Kind.arithmetic type l r = none) : FailsAs vs (Eval.arithmetic op left right zero compute type') := by
  have other : ¬(Eval.isNumeric left.type && Eval.isNumeric right.type) = true := by
    rw [fitsLeft.isNumeric_eq, fitsRight.isNumeric_eq]
    simpa [Kind.arithmetic] using rejected
  rw [Eval.arithmetic.eq_def, if_neg other]
  exact .mismatch _

theorem failsAs_logical {value : Value} {op : String} :
    FailsAs vs (if left.type = some .boolean ∧ right.type = some .boolean then .ok ⟨value, some .boolean⟩
      else .error (.mismatch (.logical op left.type right.type)) : Except Error TypedValue) := by
  split
  · exact .ok _
  · exact .mismatch _

theorem failsAs_binary (op : BinaryOp) (fitsLeft : left.Fits l) (fitsRight : right.Fits r) (ofLeft : l.IsOf vs)
    (ofRight : r.IsOf vs) : FailsAs vs (Eval.applyBinary op left right) := by
  have accepted := agrees_binary op fitsLeft fitsRight
  cases op with
  | compare c => exact (failsAs_compare c fitsLeft fitsRight ofLeft ofRight).map _
  | and | or => exact failsAs_logical
  | add =>
    refine .of_agrees accepted ?_
    intro rejected
    simp only [Eval.applyBinary, fitsLeft.type, fitsRight.type, Kind.binary, Option.some.injEq] at rejected ⊢
    split at rejected
    · cases rejected
    · next apart =>
      rw [if_neg apart]
      exact failsAs_arithmetic fitsLeft fitsRight rejected
  | _ =>
    refine .of_agrees accepted ?_
    intro rejected
    simp only [Eval.applyBinary, Kind.binary] at rejected ⊢
    exact failsAs_arithmetic fitsLeft fitsRight rejected

end Rules

/-! Terms. -/

/-- No place of the term is blank. -/
def Term.IsFull : Term → Prop
  | .literal .. => True
  | .named .. => True
  | .unary _ operand => operand.IsFull
  | .binary _ left right => left.IsFull ∧ right.IsFull
  | .access _ _ index => index.IsFull
  | .call _ argument => argument.IsFull
  | .blank _ => False

theorem Term.kept_isFull : Term.Kept Term.IsFull where
  literal _ := trivial
  call _ _ full := full
  named _ := trivial
  access _ _ _ full := full
  unary _ _ full := full
  binary _ _ _ left right := ⟨left, right⟩

/-- Every binding is of the kind of a variable that is written. -/
def Store.IsOf (vs : List Variable) (s : Store) : Prop :=
  ∀ b ∈ s.bindings, ∃ v ∈ vs, b.target.kind = v.kind

variable {s : Store}

namespace Kind
variable {k l r : Kind}

theorem isOf_scalar (t : DataType) : (Kind.scalar t).IsOf vs :=
  nofun

theorem isOf_kind {v : Variable} (member : v ∈ vs) : v.kind.IsOf vs := by
  intro item size positive is
  refine ⟨v, member, ?_⟩
  obtain ⟨id, name, nodeId, shape⟩ := v
  cases shape <;> cases is
  rfl

theorem isOf_item (given : l.item r = some k) : k.IsOf vs := by
  cases l with
  | scalar t => cases given
  | array item size positive =>
    simp only [Kind.item, Option.ite_none_right_eq_some, Option.some.injEq] at given
    obtain ⟨-, rfl⟩ := given
    exact isOf_scalar item

theorem isOf_convert {f : Function} (given : l.convert f = some k) : k.IsOf vs := by
  cases f <;> cases given <;> exact isOf_scalar _

theorem isOf_unary {op : UnaryOp} (given : l.unary op = some k) : k.IsOf vs := by
  cases op with
  | other symbol => cases given
  | not =>
    simp only [Kind.unary, Option.ite_none_right_eq_some, Option.some.injEq] at given
    obtain ⟨-, rfl⟩ := given
    exact isOf_scalar _
  | _ =>
    simp only [Kind.unary, Option.ite_none_right_eq_some, Option.some.injEq] at given
    obtain ⟨numeric, rfl⟩ := given
    cases l with
    | scalar t => exact isOf_scalar t
    | array item size positive => cases numeric

theorem isOf_arithmetic {type : DataType} (given : Kind.arithmetic type l r = some k) : k.IsOf vs := by
  simp only [Kind.arithmetic, Option.ite_none_right_eq_some, Option.some.injEq] at given
  obtain ⟨-, rfl⟩ := given
  exact isOf_scalar type

theorem isOf_logical (given : Kind.logical l r = some k) : k.IsOf vs := by
  simp only [Kind.logical, Option.ite_none_right_eq_some, Option.some.injEq] at given
  obtain ⟨-, rfl⟩ := given
  exact isOf_scalar .boolean

theorem isOf_binary {op : BinaryOp} (given : l.binary op r = some k) : k.IsOf vs := by
  cases op with
  | add =>
    simp only [Kind.binary] at given
    split at given
    · cases given
      exact isOf_scalar .string
    · exact isOf_arithmetic given
  | subtract | multiply | divide | modulo => exact isOf_arithmetic given
  | and | or => exact isOf_logical given
  | compare c =>
    simp only [Kind.binary, Option.ite_none_right_eq_some, Option.some.injEq] at given
    obtain ⟨-, rfl⟩ := given
    exact isOf_scalar .boolean

theorem isOf_declared {id : String} {target : Variable} (written : s.IsOf vs) (found : s.declared id = some target) :
    target.kind.IsOf vs := by
  obtain ⟨b, held, rfl⟩ := Option.map_eq_some_iff.1 found
  obtain ⟨v, member, same⟩ := written b (List.mem_of_find?_eq_some held)
  rw [same]
  exact isOf_kind member

/-- Arrays come from the store alone. -/
theorem isOf_check (written : s.IsOf vs) (t : Term) (checked : Kind.check s.declared t = some k) : k.IsOf vs := by
  cases t with
  | literal value type =>
    rw [Kind.check] at checked
    cases checked
    exact isOf_scalar type
  | named name v =>
    rw [Kind.check] at checked
    obtain ⟨target, found, checked⟩ := Option.bind_eq_some_iff.1 checked
    split at checked
    · split at checked
      · cases checked
      · obtain ⟨index, -, given⟩ := Option.bind_eq_some_iff.1 checked
        exact isOf_item given
    · cases checked
      exact isOf_declared written found
  | access name v index =>
    rw [Kind.check] at checked
    obtain ⟨target, -, checked⟩ := Option.bind_eq_some_iff.1 checked
    obtain ⟨index, -, given⟩ := Option.bind_eq_some_iff.1 checked
    exact isOf_item given
  | call f argument =>
    rw [Kind.check] at checked
    obtain ⟨l, -, given⟩ := Option.bind_eq_some_iff.1 checked
    exact isOf_convert given
  | unary op operand =>
    rw [Kind.check] at checked
    obtain ⟨l, -, given⟩ := Option.bind_eq_some_iff.1 checked
    exact isOf_unary given
  | binary op left right =>
    rw [Kind.check] at checked
    obtain ⟨l, -, checked⟩ := Option.bind_eq_some_iff.1 checked
    obtain ⟨r, -, given⟩ := Option.bind_eq_some_iff.1 checked
    exact isOf_binary given
  | blank label =>
    rw [Kind.check] at checked
    cases checked

end Kind

theorem evaluate_fits (typed : s.WellTyped) (written : s.IsOf vs) (t : Term) (fit : t.LiteralsFit) {r : TypedValue}
    (done : Eval.evaluate s t = .ok r) : ∃ k, r.Fits k ∧ k.IsOf vs := by
  have agrees := agrees_evaluate typed t fit
  rw [done] at agrees
  obtain ⟨k, checked, fits⟩ := agrees
  exact ⟨k, fits, Kind.isOf_check written t checked⟩

theorem failsAs_evaluate (typed : s.WellTyped) (written : s.IsOf vs) (t : Term) (fit : t.LiteralsFit)
    (full : t.IsFull) : FailsAs vs (Eval.evaluate s t) := by
  match t with
  | .literal value type =>
    rw [Eval.evaluate]
    exact .ok _
  | .named name v =>
    cases found : s.get? v.id with
    | none =>
      rw [Eval.evaluate, found]
      exact .told rfl
    | some b =>
      by_cases indexed : v.isIndexed = true
      · rw [Eval.evaluate_indexed name found indexed]
        refine .bind (.ofSyntax _) ?_
        intro index syntactic
        have read : Term.parse v.index = .ok index := by
          cases read : Term.parse v.index with
          | error e => rw [read] at syntactic; cases syntactic
          | ok t => rw [read] at syntactic; cases syntactic; rfl
        have := Term.weight_parse_index read
        have fit := Term.holds_of_parse Term.kept_literalsFit read
        have full := Term.holds_of_parse Term.kept_isFull read
        refine .bind (failsAs_evaluate typed written index fit full) ?_
        intro r done
        obtain ⟨k, fits, -⟩ := evaluate_fits typed written index fit done
        exact failsAs_itemAt name fits
      · rw [Eval.evaluate, found]
        simp only
        rw [if_neg indexed]
        exact .ok _
  | .access name v index =>
    rw [Eval.evaluate]
    cases found : s.get? v.id with
    | none => exact .told rfl
    | some b =>
      refine .bind (failsAs_evaluate typed written index fit full) ?_
      intro r done
      obtain ⟨k, fits, -⟩ := evaluate_fits typed written index fit done
      exact failsAs_itemAt name fits
  | .call f argument =>
    rw [Eval.evaluate]
    refine .bind (failsAs_evaluate typed written argument fit full) ?_
    intro r done
    obtain ⟨k, fits, -⟩ := evaluate_fits typed written argument fit done
    exact failsAs_convert f fits
  | .unary op operand =>
    rw [Eval.evaluate]
    refine .bind (failsAs_evaluate typed written operand fit full) ?_
    intro r done
    obtain ⟨k, fits, -⟩ := evaluate_fits typed written operand fit done
    exact failsAs_unary op fits
  | .binary op left right =>
    rw [Eval.evaluate_binary]
    have second := failsAs_evaluate typed written right fit.2 full.2
    refine .bind (failsAs_evaluate typed written left fit.1 full.1) ?_
    intro l first
    refine .bind second ?_
    intro r next
    obtain ⟨k, fitsLeft, ofLeft⟩ := evaluate_fits typed written left fit.1 first
    obtain ⟨k', fitsRight, ofRight⟩ := evaluate_fits typed written right fit.2 next
    exact failsAs_binary op fitsLeft fitsRight ofLeft ofRight
  | .blank label => exact full.elim
termination_by t.weight
decreasing_by all_goals simp only [Term.weight]; omega

/-! Expressions. -/

/-- A value of its type is fitted to another, or it is too large, or the types do not fit. -/
theorem failsAs_coerce {r : TypedValue} {k : Kind} (fits : r.Fits k) (expected : DataType)
    (subtype : Option DataType) : FailsAs vs (coerce r expected subtype) := by
  unfold coerce
  rw [fits.type]
  dsimp only
  split
  · exact .mismatch _
  split
  · exact .ok _
  split
  · next whole =>
    obtain ⟨-, has⟩ := fits.hasType whole.2 (by decide)
    generalize r.value = value at has
    cases has with
    | int n =>
      simp only [Value.toFloat, Value.number?, Number.toFloat]
      cases Double.ofInt? n with
      | some x => exact .ok _
      | none => exact .untold .integerTooLarge
  split
  · next real =>
    obtain ⟨a, denotes, -⟩ := fits.denotes (by rw [real.2]; rfl)
    generalize r.value = value at denotes
    have number : value.number? = some a := by cases denotes <;> rfl
    rw [number]
    refine .map ?_ _
    intro e failed
    exact .ofValues (toInteger_fails failed)
  split
  · split
    · exact .ok _
    · exact .mismatch _
  · exact .mismatch _

theorem failsAs_evaluateElements (typed : s.WellTyped) (written : s.IsOf vs) (es : List Element) :
    FailsAs vs (evaluateElements s es) := by
  unfold evaluateElements
  split
  · exact .told rfl
  · next t read =>
    exact failsAs_evaluate typed written t (Term.holds_of_parse Term.kept_literalsFit read)
      (Term.holds_of_parse Term.kept_isFull read)

theorem evaluateElements_isOf (typed : s.WellTyped) (written : s.IsOf vs) {es : List Element} {r : TypedValue}
    (done : evaluateElements s es = .ok r) : ∃ k, r.Fits k ∧ k.IsOf vs := by
  unfold evaluateElements at done
  split at done
  · cases done
  · next t read => exact evaluate_fits typed written t (Term.holds_of_parse Term.kept_literalsFit read) done

theorem failsAs_calculate (typed : s.WellTyped) (written : s.IsOf vs) (es : List Element)
    (expected subtype : Option DataType) : FailsAs vs (calculate s es expected subtype) := by
  unfold calculate
  split
  · exact .told rfl
  split
  · next e failed => exact (failsAs_evaluateElements typed written es).passedOn failed
  · next r done =>
    obtain ⟨k, fits⟩ := evaluateElements_fits typed done
    cases expected with
    | none => exact .ok _
    | some expected => exact .map (failsAs_coerce fits expected subtype) _

namespace Expression

theorem failsAs_verdict (typed : s.WellTyped) (written : s.IsOf vs) (e : Expression) : FailsAs vs (e.verdict s) := by
  have sides := failsAs_evaluateElements typed written
  unfold verdict
  split
  · next relation left right =>
    split
    · exact .told rfl
    split
    · next e failed => exact (sides left).passedOn failed
    · next l first =>
      split
      · next e failed => exact (sides right).passedOn failed
      · next r second =>
        obtain ⟨k, fitsLeft, ofLeft⟩ := evaluateElements_isOf typed written first
        obtain ⟨k', fitsRight, ofRight⟩ := evaluateElements_isOf typed written second
        exact .map (failsAs_compare _ fitsLeft fitsRight ofLeft ofRight) _
  · exact .told rfl
  · split
    · next e failed => exact (sides _).passedOn failed
    · split
      · exact .ok _
      · exact .mismatch _

end Expression

theorem Variable.kind_base (v : Variable) : v.base.kind = v.kind := by
  obtain ⟨id, name, nodeId, shape⟩ := v
  cases shape <;> rfl

/-- A variable has a value to start with, or it is an array whose items have none. -/
theorem Binding.failsAs_ofVariable {v : Variable} (of : v.kind.IsOf vs) : FailsAs vs (Binding.ofVariable v none) := by
  refine .map ?_ _
  obtain ⟨id, name, nodeId, shape⟩ := v
  cases shape with
  | scalar type simple => exact .ok _
  | array subtype named size positive index =>
    simp only [Variable.base, Variable.indexed, Variable.default]
    split
    · exact .ok _
    · next none =>
      obtain ⟨w, member, items⟩ := of subtype size positive rfl
      exact .untold (.undefinedItems member items none)

theorem Binding.kind_ofVariable {v : Variable} {b : Binding} (made : Binding.ofVariable v none = .ok b) :
    b.target.kind = v.kind := by
  obtain ⟨value, -, rfl⟩ := map_eq_ok made
  exact v.kind_base

/-- Writing a variable of such a kind keeps the store so. -/
theorem Store.IsOf.insert {b : Binding} {v : Variable} (written : s.IsOf vs) (member : v ∈ vs)
    (same : b.target.kind = v.kind) : (s.insert b).IsOf vs := by
  intro other held
  rcases Store.mem_insertIn held with rfl | old
  · exact ⟨v, member, same⟩
  · exact written other old

namespace Expression

theorem failsAs_currentArray {array : Variable} (of : array.kind.IsOf vs) : FailsAs vs (currentArray s array) := by
  unfold currentArray
  split
  · exact .ok _
  · exact .map (Binding.failsAs_ofVariable of) _

theorem currentArray_isOf (written : s.IsOf vs) {array v : Variable} (member : v ∈ vs) (same : array.kind = v.kind)
    {current : Binding} {s' : Store} (found : currentArray s array = .ok (current, s')) :
    (∃ w ∈ vs, current.target.kind = w.kind) ∧ s'.IsOf vs := by
  unfold currentArray at found
  split at found
  · next held =>
    cases found
    exact ⟨written current (List.mem_of_find?_eq_some held), written⟩
  · obtain ⟨b, made, pair⟩ := map_eq_ok found
    cases pair
    have kind := (Binding.kind_ofVariable made).trans same
    exact ⟨⟨v, member, kind⟩, written.insert member kind⟩

theorem failsAs_arrayItems (b : Binding) (name : String) : FailsAs vs (arrayItems b name) := by
  unfold arrayItems
  split
  · exact .mismatch _
  · split
    · exact .ok _
    · exact .told rfl

/-- An index selects a place, or it is refused; an index that is an integer is never without a place. -/
theorem position_cases {index : TypedValue} {k : Kind} (fits : index.Fits k) (name : String) (size : Nat) :
    (∃ n, position name size index = .ok (some n)) ∨
      ∃ e, position name size index = .error e ∧ e.isTold = true := by
  unfold position
  split
  · next integer =>
    rw [fits.type, Option.some.injEq] at integer
    obtain ⟨-, has⟩ := fits.hasType integer (by decide)
    generalize index.value = value at has
    cases has with
    | int n =>
      simp only [Value.number?]
      split
      · exact .inr ⟨_, rfl, rfl⟩
      · exact .inl ⟨_, rfl⟩
  · exact .inr ⟨_, rfl, rfl⟩

theorem failsAs_assignItem (sound : s.Sound) (written : s.IsOf vs) {target : Variable} (member : target ∈ vs)
    (right : List Element) : FailsAs vs (assignItem s target right) := by
  unfold assignItem
  split
  · exact .told rfl
  · next name v index read =>
    have fit := Term.holds_of_parse Term.kept_literalsFit read
    have full := Term.holds_of_parse Term.kept_isFull read
    have same : target.base.kind = target.kind := target.kind_base
    refine .bind (failsAs_currentArray (same ▸ Kind.isOf_kind member)) ?_
    rintro ⟨current, s'⟩ found
    have sound' := (currentArray_sound sound found).2.typed
    have written' := (currentArray_isOf written member same found).2
    refine .bind (failsAs_arrayItems current target.name) ?_
    intro items held
    have placed : FailsAs vs ((Eval.evaluate s' index).bind (position target.name items.length)) := by
      refine .bind (failsAs_evaluate sound' written' index fit full) ?_
      intro r done
      obtain ⟨k, fits, -⟩ := evaluate_fits sound' written' index fit done
      rcases position_cases fits target.name items.length with ⟨n, found⟩ | ⟨e, failed, told⟩
      · rw [found]
        exact .ok _
      · rw [failed]
        exact .told told
    refine .bind placed ?_
    intro place selected
    refine .bind (failsAs_calculate sound' written' right _ none) ?_
    intro value fitted
    cases place with
    | some n => exact .ok _
    | none =>
      obtain ⟨r, done, selected⟩ := bind_eq_ok selected
      obtain ⟨k, fits, -⟩ := evaluate_fits sound' written' index fit done
      rcases position_cases fits target.name items.length with ⟨n, found⟩ | ⟨e, failed, -⟩
      · rw [found] at selected
        cases selected
      · rw [failed] at selected
        cases selected
  · exact .told rfl

theorem failsAs_assign (sound : s.Sound) (written : s.IsOf vs) {target : Variable} (member : target ∈ vs)
    (right : List Element) : FailsAs vs ((Expression.assignment target right).assign s) := by
  rw [assign]
  split
  · split
    · exact failsAs_assignItem sound written member right
    · exact .told rfl
  · exact .map (failsAs_calculate sound.typed written right _ none) _

theorem assign_isOf (written : s.IsOf vs) {target : Variable} (member : target ∈ vs) {right : List Element}
    {b : Binding} (made : (Expression.assignment target right).assign s = .ok b) :
    ∃ v ∈ vs, b.target.kind = v.kind := by
  rw [assign] at made
  split at made
  · split at made
    · unfold assignItem at made
      split at made
      · cases made
      · obtain ⟨⟨current, s'⟩, found, made⟩ := bind_eq_ok made
        obtain ⟨items, -, made⟩ := bind_eq_ok made
        obtain ⟨place, -, made⟩ := bind_eq_ok made
        obtain ⟨value, -, made⟩ := bind_eq_ok made
        cases place with
        | none => cases made
        | some n =>
          cases made
          exact (currentArray_isOf written member target.kind_base found).1
      · cases made
    · cases made
  · obtain ⟨value, -, rfl⟩ := map_eq_ok made
    exact ⟨target, member, rfl⟩

end Expression

/-! Runs. -/

theorem Input.failsAs_convert (text : String) (type : DataType) : FailsAs vs (Input.convert text type) := by
  have number (typeName : String) : FailsAs vs (Input.number text typeName) := by
    unfold Input.number
    split
    · next e unread =>
      rintro _ ⟨rfl⟩
      exact (Eval.leadingNumber_error unread).arises
    · exact .told rfl
    · exact .ok _
  unfold Input.convert
  split
  · exact .ok _
  · dsimp only
    split
    · exact .ok _
    · split
      · exact .ok _
      · exact (number "boolean").map _
  · refine .bind (number "integer") ?_
    intro x _
    refine .bind ?_ fun n _ => .ok _
    intro e failed
    exact .ofValues (toInteger_fails failed)
  · exact (number _).map _

namespace Run
variable {state : State} {block : Block}

theorem failsAs_bound {made : Except Error Binding} (fails : FailsAs vs made) : FailsAs vs (bound state made) :=
  fails.map _

/-- How executing one block fails. -/
theorem failsAs_execute (sound : state.store.Sound) (written : state.store.IsOf vs)
    (writes : ∀ v, block.content.written? = some v → v ∈ vs) : FailsAs vs (execute state block) := by
  unfold execute
  split
  · exact .ok _
  · exact .ok _
  · next v is => exact failsAs_bound (Binding.failsAs_ofVariable (Kind.isOf_kind (writes v (by rw [is]; rfl))))
  · next target right is =>
    exact failsAs_bound (Expression.failsAs_assign sound written (writes target (by rw [is]; rfl)) right)
  · next v is =>
    split
    · exact .told rfl
    · next text rest pending =>
      split
      · next e failed => exact (Input.failsAs_convert text v.elementType).passedOn failed
      · exact failsAs_bound (Expression.failsAs_assign sound written (writes v (by rw [is]; rfl)) _)
  · split
    · exact .ok _
    · exact (failsAs_calculate sound.typed written _ none none).map _
  · exact .ok _
  · next e is => exact ((e.failsAs_verdict sound.typed written).map _).map _
  · exact .told rfl
  · exact .told rfl
  · exact .ok _

theorem bound_isOf {made : Except Error Binding} {effect : Effect} (written : state.store.IsOf vs)
    (of : ∀ b, made = .ok b → ∃ v ∈ vs, b.target.kind = v.kind) (done : bound state made = .ok effect) :
    effect.state.store.IsOf vs := by
  obtain ⟨b, ok, rfl⟩ := map_eq_ok done
  obtain ⟨v, member, same⟩ := of b ok
  exact written.insert member same

/-- What executing one block keeps: the store holds written variables. -/
theorem execute_isOf {effect : Effect} (written : state.store.IsOf vs)
    (writes : ∀ v, block.content.written? = some v → v ∈ vs) (done : execute state block = .ok effect) :
    effect.state.store.IsOf vs := by
  unfold execute at done
  split at done
  · cases done; exact written
  · cases done; exact written
  · next v is =>
    exact bound_isOf written (fun b made => ⟨v, writes v (by rw [is]; rfl), Binding.kind_ofVariable made⟩) done
  · next target right is =>
    exact bound_isOf written (fun b => Expression.assign_isOf written (writes target (by rw [is]; rfl))) done
  · next v is =>
    split at done
    · cases done
    · split at done
      · cases done
      · refine bound_isOf (by exact written) (fun b => ?_) done
        exact Expression.assign_isOf written (writes v (by rw [is]; rfl))
  · split at done
    · cases done; exact written
    · obtain ⟨v, -, rfl⟩ := map_eq_ok done
      exact written
  · cases done; exact written
  · obtain ⟨choice, -, rfl⟩ := map_eq_ok done
    exact written
  · cases done
  · cases done
  · cases done; exact written

/-- A run stops because a block fails, or because its steps are used up. -/
theorem walk_fails (g : FlowGraph) (limit count : Nat) (state : State) (current : Option String)
    (sound : state.store.Sound) (written : state.store.IsOf (Block.written g.blocks)) {e : Error}
    (stopped : (walk g limit count state current).stopped = some e) :
    e = .stepLimit ∨ e.Arises (Block.written g.blocks) := by
  induction limit generalizing count state current with
  | zero =>
    cases current with
    | none => cases stopped
    | some id =>
      cases stopped
      exact .inl rfl
  | succ limit ih =>
    cases current with
    | none => cases stopped
    | some id =>
      unfold walk at stopped
      split at stopped
      · cases stopped
      · next block found =>
        have writes (v : Variable) (is : block.content.written? = some v) : v ∈ Block.written g.blocks :=
          List.mem_filterMap.2 ⟨block, List.mem_of_find?_eq_some found, is⟩
        split at stopped
        · next failed =>
          cases stopped
          exact .inr (failsAs_execute sound written writes e failed)
        · next effect done =>
          exact ih _ _ _ (execute_sound sound done) (execute_isOf written writes done) stopped

end Run

namespace Diagram

/-- Every run comes to its end or stops with a failure. The failure is one of the language's own, or one of the six
that it does not account for. Of these, arrays that have no order and items that have nothing to start with are
found among the variables that the blocks write, and a number that was not read stands behind an information
separator. In a diagram, texts name the variables, their types and the elements; a draft in which something else
stands for one of these is not run, and has failures of its own. -/
theorem run_finishes_or_fails_accountably (d : Diagram) (inputs : List String) (limit : Int) :
    (∃ r, (d.run inputs limit).finished = .ok r) ∨
      ∃ e, (d.run inputs limit).finished = .error e ∧
        (e.family ≠ .outside ∨ e.Untold (Block.written d.flowGraph.blocks)) := by
  unfold Run.finished
  cases stopped : (d.run inputs limit).stopped with
  | none => exact .inl ⟨_, rfl⟩
  | some e =>
    refine .inr ⟨e, rfl, ?_⟩
    change (Run.ofGraph d.flowGraph inputs limit).stopped = some e at stopped
    unfold Run.ofGraph at stopped
    split at stopped
    · cases stopped
      exact .inl (Error.family_ne_of_isTold rfl)
    · have written : Store.empty.IsOf (Block.written d.flowGraph.blocks) := nofun
      rcases Run.walk_fails _ _ _ _ _ Store.sound_empty written stopped with rfl | told | untold
      · exact .inl (by decide)
      · exact .inl (Error.family_ne_of_isTold told)
      · exact .inr untold

/-- The array of one item of the type with the given name. -/
def single (name subtype : String) : Variable :=
  .make name .array name none (some subtype) (some 1) []

/-- Whether an array of integers is less than an array of texts. -/
def unlike : Diagram where
  blocks := [⟨"s", none, .start⟩, ⟨"n", none, .declare (some (single "n" "integer"))⟩,
    ⟨"t", none, .declare (some (single "t" "string"))⟩,
    ⟨"c", none, .conditional (some (.condition .lt [.attached "x" (single "n" "integer")]
      [.attached "y" (single "t" "string")]))⟩]
  arrows := [⟨"s", "n", none, some (.text "1")⟩, ⟨"n", "t", none, some (.text "2")⟩,
    ⟨"t", "c", none, some (.text "3")⟩]

/-- The two arrays as they are declared. -/
def singles : Store :=
  ⟨[⟨single "n" "integer", .array [.int 0]⟩, ⟨single "t" "string", .array [.text ""]⟩]⟩

theorem evaluateElements_single (s : Store) (id name subtype : String) :
    evaluateElements s [.attached id (single name subtype)] = Eval.evaluate s (.named name (single name subtype)) := by
  rw [evaluateElements, Term.parse_attached]
  rfl

theorem stopped_unlike : (unlike.run [] 4).stopped = some (.fault .unsuited) := by
  have left : evaluateElements singles [.attached "x" (single "n" "integer")] =
      .ok ⟨.array [.int 0], some .array⟩ := by
    rw [evaluateElements_single, Eval.evaluate]
    rfl
  have right : evaluateElements singles [.attached "y" (single "t" "string")] =
      .ok ⟨.array [.text ""], some .array⟩ := by
    rw [evaluateElements_single, Eval.evaluate]
    rfl
  have verdict : (Expression.condition .lt [.attached "x" (single "n" "integer")]
      [.attached "y" (single "t" "string")]).verdict singles = .error (.fault .unsuited) := by
    rw [Expression.verdict, left, right]
    rfl
  have fails : Run.execute ⟨singles, []⟩ ⟨"c", none, .conditional (some (.condition .lt
      [.attached "x" (single "n" "integer")] [.attached "y" (single "t" "string")]))⟩ =
        .error (.fault .unsuited) := by
    change ((Expression.verdict _ _).map Value.isTrue).map _ = _
    rw [verdict]
    rfl
  change (Run.walk unlike.flowGraph (0 + 1) 3 ⟨singles, []⟩ (some "c")).stopped = _
  rw [Run.walk, show unlike.flowGraph.block? "c" = some _ from rfl]
  dsimp only
  rw [fails]

/-- An array of a type that nothing is known of. -/
def colored : Diagram where
  blocks := [⟨"s", none, .start⟩, ⟨"n", none, .declare (some (single "n" "color"))⟩]
  arrows := [⟨"s", "n", none, some (.text "1")⟩]

/-- A whole number that is asked for. -/
def asking : Diagram where
  blocks := [⟨"s", none, .start⟩, ⟨"n", none, .input (some (.make "n" .integer "n" none none none []))⟩]
  arrows := [⟨"s", "n", none, some (.text "1")⟩]

/-- Not every failure of a run is the language's own. The diagrams are read from what they are stored as; the first
stops at an order that the values do not have, the second at a start value that is not there, the third at a number
behind an information separator. -/
theorem run_fails_untold :
    Diagram.ofJson unlike.toJson = .ok unlike ∧ (unlike.run [] 4).stopped = some (.fault .unsuited) ∧
      (Error.fault .unsuited).family = .outside ∧
    Diagram.ofJson colored.toJson = .ok colored ∧ (colored.run [] 2).stopped = some (.missingKey "color") ∧
      (Error.missingKey "color").family = .outside ∧
    Diagram.ofJson asking.toJson = .ok asking ∧
      (asking.run ["\x1c5"] 2).stopped = some (.fault (.notNumber "\x1c5")) ∧
      (Error.fault (.notNumber "\x1c5")).family = .outside := by
  have ordering : unlike.draft.IsReadable := by
    constructor <;> simp [unlike, draft, Block.draft, Content.draft, Draft.Block.IsReadable, Arrow.IsReadable]
  have starting : colored.draft.IsReadable := by
    constructor <;> simp [colored, draft, Block.draft, Content.draft, Draft.Block.IsReadable, Arrow.IsReadable]
  have reading : asking.draft.IsReadable := by
    constructor <;> simp [asking, draft, Block.draft, Content.draft, Draft.Block.IsReadable, Arrow.IsReadable]
  exact ⟨ofJson_toJson ordering, stopped_unlike, rfl, ofJson_toJson starting, rfl, rfl, ofJson_toJson reading, rfl, rfl⟩

end Diagram

end Flowchart
