import Flowchart.Proofs.ArrayWrites
import Flowchart.Proofs.IntegerTexts
/-! Input blocks. What is typed is converted to a value, the value is printed as a literal, and the literal is read
and fitted again in an assignment. The value survives this way, whatever was typed. -/
namespace Flowchart
open Grammar

variable {s : Store} {v : Variable} {text : String} {type : DataType} {value : Value}

/-! ### Values printed as literals -/

/-- Quotes stand at both ends of a quoted text, so nothing inside them is trimmed or taken for a word or a number. -/
theorem Literal.infer_quoted (text : String) : infer ("\"" ++ text ++ "\"") = ⟨.text text, .string⟩ := by
  have chars : ("\"" ++ text ++ "\"").toList = '"' :: (text.toList ++ ['"']) := by simp
  have trimmed : Text.trimChars ("\"" ++ text ++ "\"").toList = '"' :: (text.toList ++ ['"']) := by
    rw [chars]
    refine Text.trimChars_of_visible (by decide) ?_
    simp only [Text.endsVisibly, ← List.cons_append, List.getLast?_concat]
    decide
  have inside : unquoted? ('"' :: (text.toList ++ ['"'])) = some text.toList := by
    simp [unquoted?]
  rw [infer_of_no_word trimmed (by decide) (by decide), inside]
  simp

theorem Literal.infer_truth (b : Bool) : infer (if b then "true" else "false") = ⟨.bool b, .boolean⟩ := by
  cases b <;> rfl

/-- An integer that is a double is read back from its text as it is. -/
theorem Literal.infer_double {n : Int} (double : Double.IsDouble n) : infer (toString n) = ⟨.int n, .integer⟩ := by
  have range := (Double.isDouble_iff.1 double).lt_tooLarge
  rw [infer_within range, (Double.roundInt_eq_iff range).2 double]

/-- The values of inputs whose literals are read as nothing else. A float is not among them: without a fraction it
is read as an integer. -/
inductive Input.Faithful : Value → DataType → Prop
  | text (text : String) : Faithful (.text text) .string
  | bool (b : Bool) : Faithful (.bool b) .boolean
  | int {n : Int} (double : Double.IsDouble n) : Faithful (.int n) .integer

namespace Input.Faithful

/-- Texts, truth values and integers are converted to such values; an integer is the floor of a double. -/
theorem of_convert (kind : type ∈ [DataType.string, .boolean, .integer]) (converted : convert text type = .ok value) :
    Faithful value type := by
  simp only [List.mem_cons, List.not_mem_nil, or_false] at kind
  rcases kind with rfl | rfl | rfl
  · cases converted
    exact .text text
  · simp only [convert] at converted
    split at converted
    · cases converted
      exact .bool true
    split at converted
    · cases converted
      exact .bool false
    · obtain ⟨x, -, rfl⟩ := map_eq_ok converted
      exact .bool _
  · obtain ⟨x, -, floored⟩ := bind_eq_ok converted
    obtain ⟨n, whole, rest⟩ := bind_eq_ok floored
    cases rest
    simp only [Eval.toInteger] at whole
    split at whole
    · next floor =>
      cases whole
      exact .int (Double.isDouble_of_floor? floor)
    · cases whole

theorem infer_literal (faithful : Faithful value type) : Literal.infer (literal value) = ⟨value, type⟩ := by
  cases faithful with
  | text text => exact Literal.infer_quoted text
  | bool b => exact Literal.infer_truth b
  | int double =>
    simp only [literal, Value.inspect]
    exact Literal.infer_double double

theorem keep_eq (faithful : Faithful value type) : s.keep value = value := by
  cases faithful <;> simp only [Store.keep, Value.marked]

theorem held_eq (faithful : Faithful value type) : value.held = value := by
  cases faithful <;> rfl

theorem isKnown (faithful : Faithful value type) : type.isKnown = true := by
  cases faithful <;> rfl

end Input.Faithful

/-! ### The assignment of an input -/

/-- The literal of an input comes to the value of the input, and fits the type that it was converted to. -/
theorem Input.Faithful.calculate_literal (faithful : Faithful value type) :
    calculate s [.literal "input" (literal value)] (some type) none = .ok value := by
  have evaluated : evaluateElements s [.literal "input" (literal value)] = .ok ⟨value, some type⟩ := by
    refine evaluateElements_eq_ok.2 ⟨_, Term.parse_literal .., ?_⟩
    rw [Eval.evaluate, faithful.infer_literal]
  simp only [calculate, List.isEmpty_cons, Bool.false_eq_true, ↓reduceIte, evaluated, coerce, faithful.isKnown,
    Bool.not_true, Except.map, faithful.keep_eq]

/-! ### The step of an input block -/

/-- Executing the block takes the first of the inputs, binds the variable with the given id as said, and leaves the
other variables alone. -/
def Run.Receives (s : Store) (text : String) (rest : List String) (block : Block) (id : String) (b : Binding) : Prop :=
  ∃ effect, execute ⟨s, text :: rest⟩ block = .ok effect ∧ effect.state.inputs = rest ∧
    effect.state.store.get? id = some b ∧ ∀ other, other ≠ id → effect.state.store.get? other = s.get? other

/-- An input block does what its assignment does. -/
theorem Run.receives_of_assign {rest : List String} {block : Block} {b : Binding}
    (content : block.content = .input (some v)) (converted : Input.convert text v.elementType = .ok value)
    (assigned : (reading v value).assign s = .ok b) (own : b.id = v.id) : Receives s text rest block v.id b := by
  refine ⟨⟨⟨s.insert b, rest⟩, none, none⟩, ?_, rfl, ?_, ?_⟩
  · simp only [execute, content, converted, bound, assigned, Except.map]
  · simp only [Store.get?_insert, own, ↓reduceIte]
  · intro other apart
    simp only [Store.get?_insert, own, apart, ↓reduceIte]

theorem Variable.elementType_of_scalar (scalar : v.isArray = false) : v.elementType = v.type := by
  refine if_neg fun indexed => ?_
  rw [isArray_of_isIndexed indexed] at scalar
  cases scalar

/-- What is typed reaches the variable as it was converted, if the variable is of texts, truth values or integers. A
scalar holds exactly that value afterwards. An array, as it is bound or as it starts, holds it at the place that the
index selects, and all its other items are kept. -/
theorem Run.input_reaches_variable (s : Store) (v : Variable) (block : Block)
    (content : block.content = .input (some v)) (kind : v.elementType ∈ [DataType.string, .boolean, .integer])
    (text : String) (rest : List String) (value : Value) (converted : Input.convert text v.elementType = .ok value) :
    (v.isArray = false → Receives s text rest block v.id ⟨v, value⟩) ∧
    ∀ (b : Binding) (s' : Store) (items : List Value) (i : Int), s.Opens v b s' → b.value = .array items →
      b.target.size? = some items.length → b.target.subtype? = some v.elementType →
      evaluateElements s' v.index = .ok ⟨.int i, some .integer⟩ → 0 ≤ i → i < items.length →
      Receives s text rest block v.id ⟨b.target, .array (items.set i.toNat value)⟩ := by
  have faithful := Input.Faithful.of_convert kind converted
  constructor
  · intro scalar
    refine receives_of_assign content converted ?_ rfl
    rw [Variable.elementType_of_scalar scalar] at faithful
    simp only [reading, Expression.assign, scalar, Bool.false_eq_true, ↓reduceIte, faithful.calculate_literal,
      Except.map, Binding.of, faithful.held_eq]
  · intro b s' items i opens held sized ofItems selects low high
    refine receives_of_assign content converted ?_ opens.id_eq
    rw [reading, Expression.assign_eq opens held sized ofItems selects faithful.calculate_literal, if_neg (by omega)]

def Variable.note : Variable :=
  .make "n" .string "note" none none none []

def Block.asking (v : Variable) : Block :=
  ⟨"b", none, .input (some v)⟩

/-- A text with quotes, a word and a number in it, and an integer that goes to a row never written before. The
integer is no double and was rounded in its conversion. -/
theorem Run.input_reaches_note_and_row :
    Receives .empty " \"true\" 7 " [] (.asking .note) "n" ⟨.note, .text " \"true\" 7 "⟩ ∧
      Receives .ofPlace "9007199254740993" ["8"] (.asking .picked) "a"
        ⟨.row [], .array [.int 0, .int 9007199254740992]⟩ := by
  have typed := Input.convert_toString 9007199254740993
  rw [if_pos natAbs_odd_lt, Double.roundInt_odd] at typed
  have opens := @Store.Opens.fresh .ofPlace .picked 2 .integer (.int 0) rfl rfl rfl rfl
  constructor
  · exact (input_reaches_variable .empty .note (.asking .note) rfl (by decide) _ [] _ rfl).1 rfl
  · exact (input_reaches_variable .ofPlace .picked (.asking .picked) rfl (by decide) _ ["8"] _ typed).2 _ _ _ 1 opens
      rfl rfl rfl (evaluateElements_place "x" rfl) (by decide) (by decide)

end Flowchart
