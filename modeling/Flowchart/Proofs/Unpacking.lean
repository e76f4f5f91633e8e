import Flowchart.Code.OfTerm
import Flowchart.Proofs.Conditions
import Flowchart.Proofs.TypeSoundness
/-! The two forms of an item of an array. A variable may carry the elements of its index with it, or the whole
array stands before its index in brackets. A variable that carries its index is unpacked when the second form
takes its place, and so are the variables in the index. Terms that are related by unpacking have the same value
and the same code. -/
namespace Flowchart

mutual
/-- The elements that stand for an element with the given variable: for an item of an array the whole array,
and the index, unpacked itself, in brackets. -/
def Variable.unpacked : Variable → (id : String) → List Element
  | ⟨key, name, nodeId, .scalar type simple⟩, id => [.attached id ⟨key, name, nodeId, .scalar type simple⟩]
  | ⟨key, name, nodeId, .array subtype named size positive index⟩, id =>
    if index.isEmpty then [.attached id ⟨key, name, nodeId, .array subtype named size positive index⟩]
    else
      .attached id ⟨key, name, nodeId, .array subtype named size positive []⟩ :: .operator id "[" ::
        (Element.allUnpacked index ++ [.operator id "]"])
/-- The elements that stand for an element. -/
def Element.unpacked : Element → List Element
  | .literal id text => [.literal id text]
  | .operator id symbol => [.operator id symbol]
  | .function id name argument => [.function id name argument.unpacked]
  | .attached id v => v.unpacked id
  | .unattached id name => [.unattached id name]
/-- The elements that stand for several. -/
def Element.allUnpacked : List Element → List Element
  | [] => []
  | e :: rest => e.unpacked ++ Element.allUnpacked rest
/-- An expression with the elements of its sides unpacked. -/
def Expression.unpacked : Expression → Expression
  | .value right => .value (Element.allUnpacked right)
  | .assignment target right => .assignment target (Element.allUnpacked right)
  | .condition relation left right =>
    .condition relation (Element.allUnpacked left) (Element.allUnpacked right)
  | .halfCondition relation right => .halfCondition relation (Element.allUnpacked right)
end

/-- The operator that closes what the given one opens. -/
def Operator.closing? : Operator → Option Operator
  | .openParen => some .closeParen
  | .openBracket => some .closeBracket
  | _ => none

/-- Operators among which every bracket and parenthesis is closed by its like. -/
inductive Operator.Nested : List (Option Operator) → Prop
  | nil : Nested []
  | plain {x : Option Operator} {rest : List (Option Operator)}
    (other : ∀ o, x = some o → o.opens = false ∧ o.closes = false) (nested : Nested rest) : Nested (x :: rest)
  | enclosed {o c : Operator} {inside rest : List (Option Operator)} (pair : o.closing? = some c)
    (inner : Nested inside) (nested : Nested rest) : Nested (some o :: (inside ++ some c :: rest))

/-- Whether the element is an item of an array that carries its index. -/
def Element.isIndexed : Element → Bool
  | .attached _ v => v.isIndexed
  | _ => false

mutual
/-- The index of the variable is properly nested, and so on within it. -/
def Variable.WellIndexed : Variable → Prop
  | ⟨_, _, _, .scalar ..⟩ => True
  | ⟨_, _, _, .array _ _ _ _ index⟩ =>
    Operator.Nested (index.map Element.operator?) ∧ Element.AllWellIndexed index
def Element.WellIndexed : Element → Prop
  | .attached _ v => v.WellIndexed
  | .function _ _ argument => argument.WellIndexed
  | _ => True
/-- Indices are properly nested at every level, in indices and arguments, and at none of them a bracket opens
right behind an item. -/
def Element.AllWellIndexed : List Element → Prop
  | [] => True
  | e :: rest =>
    e.WellIndexed ∧
      (e.isIndexed = true → ∀ next ∈ rest.head?, next.operator? ≠ some .openBracket) ∧
      Element.AllWellIndexed rest
/-- Of an expression the right side is what is read. -/
def Expression.WellIndexed : Expression → Prop
  | .value right => Element.AllWellIndexed right
  | .assignment _ right => Element.AllWellIndexed right
  | .condition _ _ right => Element.AllWellIndexed right
  | .halfCondition _ right => Element.AllWellIndexed right
end

/-! ### Small facts about the definitions -/

namespace Variable

@[simp] theorem id_base (v : Variable) : v.base.id = v.id := by
  obtain ⟨id, name, nodeId, shape⟩ := v
  cases shape <;> rfl

@[simp] theorem name_base (v : Variable) : v.base.name = v.name := by
  obtain ⟨id, name, nodeId, shape⟩ := v
  cases shape <;> rfl

@[simp] theorem base_base (v : Variable) : v.base.base = v.base := by
  obtain ⟨id, name, nodeId, shape⟩ := v
  cases shape <;> rfl

@[simp] theorem isIndexed_base (v : Variable) : v.base.isIndexed = false := by
  rw [isIndexed, index_base]
  rfl

theorem isArray_base_of_isIndexed {v : Variable} (indexed : v.isIndexed = true) : v.base.isArray = true := by
  obtain ⟨id, name, nodeId, shape⟩ := v
  cases shape with
  | scalar => cases indexed
  | array => rfl

theorem unpacked_of_isIndexed {v : Variable} (indexed : v.isIndexed = true) (id : String) :
    v.unpacked id =
      .attached id v.base :: .operator id "[" :: (Element.allUnpacked v.index ++ [.operator id "]"]) := by
  obtain ⟨key, name, nodeId, shape⟩ := v
  cases shape with
  | scalar => cases indexed
  | array subtype named size positive index =>
    have some : index.isEmpty = false := by simpa [isIndexed, Variable.index] using indexed
    rw [unpacked, if_neg (by simp [some])]
    rfl

theorem unpacked_of_not_isIndexed {v : Variable} (plain : v.isIndexed = false) (id : String) :
    v.unpacked id = [.attached id v] := by
  obtain ⟨key, name, nodeId, shape⟩ := v
  cases shape with
  | scalar => rw [unpacked]
  | array subtype named size positive index =>
    have empty : index.isEmpty = true := by simpa [isIndexed, Variable.index] using plain
    rw [unpacked, if_pos empty]

theorem WellIndexed.index {v : Variable} (well : v.WellIndexed) :
    Operator.Nested (v.index.map Element.operator?) ∧ Element.AllWellIndexed v.index := by
  obtain ⟨id, name, nodeId, shape⟩ := v
  cases shape with
  | scalar => exact ⟨.nil, by rw [Variable.index, Element.AllWellIndexed]; trivial⟩
  | array => exact (by rw [WellIndexed] at well; exact well)

end Variable

theorem Expression.right_unpacked (e : Expression) : e.unpacked.right = Element.allUnpacked e.right := by
  cases e <;> rw [unpacked] <;> rfl

theorem Expression.WellIndexed.right {e : Expression} (well : e.WellIndexed) : Element.AllWellIndexed e.right := by
  cases e <;> rw [WellIndexed] at well <;> exact well

namespace Element

theorem allUnpacked_append (es us : List Element) :
    allUnpacked (es ++ us) = allUnpacked es ++ allUnpacked us := by
  induction es with
  | nil => rw [allUnpacked]; rfl
  | cons e rest ih => rw [List.cons_append, allUnpacked, allUnpacked, ih, List.append_assoc]

theorem weights_append (es us : List Element) : weights (es ++ us) = weights es + weights us := by
  induction es with
  | nil => simp [weights]
  | cons e rest ih => rw [List.cons_append, weights, weights, ih, Nat.add_assoc]

theorem AllWellIndexed.append {es us : List Element} (well : AllWellIndexed (es ++ us)) :
    AllWellIndexed es ∧ AllWellIndexed us := by
  induction es with
  | nil => exact ⟨by rw [AllWellIndexed]; trivial, well⟩
  | cons e rest ih =>
    rw [List.cons_append, AllWellIndexed] at well
    obtain ⟨here, apart, later⟩ := well
    obtain ⟨first, second⟩ := ih later
    refine ⟨?_, second⟩
    rw [AllWellIndexed]
    refine ⟨here, fun indexed next follows => apart indexed next ?_, first⟩
    cases rest with
    | nil => cases follows
    | cons => exact follows

end Element

/-! ### Unpacked terms -/

namespace Term

/-- A term and the one in which the indices that its variables carry are read and stand as terms. -/
inductive Unpacks : Term → Term → Prop
  | literal (value : Value) (type : DataType) : Unpacks (.literal value type) (.literal value type)
  | whole (name : String) {v : Variable} (plain : v.isIndexed = false) : Unpacks (.named name v) (.named name v)
  | item (name : String) {v : Variable} {index index' : Term} (indexed : v.isIndexed = true)
    (read : Term.parse v.index = .ok index) (inner : Unpacks index index') :
    Unpacks (.named name v) (.access name v.base index')
  | access (name : String) (v : Variable) {index index' : Term} (inner : Unpacks index index') :
    Unpacks (.access name v index) (.access name v index')
  | call (f : Function) {argument argument' : Term} (inner : Unpacks argument argument') :
    Unpacks (.call f argument) (.call f argument')
  | unary (op : UnaryOp) {operand operand' : Term} (inner : Unpacks operand operand') :
    Unpacks (.unary op operand) (.unary op operand')
  | binary (op : BinaryOp) {left left' right right' : Term} (first : Unpacks left left')
    (second : Unpacks right right') : Unpacks (.binary op left right) (.binary op left' right')

/-- A property that holds of all parts of a term it holds of, and of the indices its variables carry. -/
structure Descends (holds : Term → Prop) : Prop where
  item : ∀ name (v : Variable), v.isIndexed = true → holds (.named name v) →
    ∃ index, Term.parse v.index = .ok index ∧ holds index
  access : ∀ name v index, holds (.access name v index) → holds index
  call : ∀ f argument, holds (.call f argument) → holds argument
  unary : ∀ op operand, holds (.unary op operand) → holds operand
  binary : ∀ op left right, holds (.binary op left right) → holds left ∧ holds right
  blank : ∀ label, ¬ holds (.blank label)

theorem Descends.exists_unpacks {holds : Term → Prop} (descends : Descends holds) (t : Term) (holdsOf : holds t) :
    ∃ t', Unpacks t t' := by
  induction size : t.weight using Nat.strongRecOn generalizing t with
  | ind n ih =>
    subst size
    cases t with
    | literal value type => exact ⟨_, .literal value type⟩
    | named name v =>
      cases indexed : v.isIndexed with
      | false => exact ⟨_, .whole name indexed⟩
      | true =>
        obtain ⟨index, read, inner⟩ := descends.item name v indexed holdsOf
        have lighter := Term.weight_parse_index read
        obtain ⟨index', unpacks⟩ := ih _ (by simpa only [weight] using lighter) index inner rfl
        exact ⟨_, .item name indexed read unpacks⟩
    | access name v index =>
      obtain ⟨index', unpacks⟩ := ih _ (by simp only [weight]; omega) index (descends.access _ _ _ holdsOf) rfl
      exact ⟨_, .access name v unpacks⟩
    | call f argument =>
      obtain ⟨argument', unpacks⟩ := ih _ (by simp only [weight]; omega) argument (descends.call _ _ holdsOf) rfl
      exact ⟨_, .call f unpacks⟩
    | unary op operand =>
      obtain ⟨operand', unpacks⟩ := ih _ (by simp only [weight]; omega) operand (descends.unary _ _ holdsOf) rfl
      exact ⟨_, .unary op unpacks⟩
    | binary op left right =>
      obtain ⟨first, second⟩ := descends.binary _ _ _ holdsOf
      obtain ⟨left', unpacksLeft⟩ := ih _ (by simp only [weight]; omega) left first rfl
      obtain ⟨right', unpacksRight⟩ := ih _ (by simp only [weight]; omega) right second rfl
      exact ⟨_, .binary op unpacksLeft unpacksRight⟩
    | blank label => exact absurd holdsOf (descends.blank label)

end Term

theorem Code.ofTerm_indexed (origin : Option Origin) (name : String) {v : Variable} (indexed : v.isIndexed = true) :
    ofTerm origin (.named name v) =
      ((Term.parse v.index).mapError NoCode.malformed).bind fun index =>
        (ofTerm origin index).map fun i => .subscript origin (.ident ⟨origin, name⟩) i := by
  rw [ofTerm, if_pos indexed]
  split
  · next unread =>
    rw [unread]
    rfl
  · next read =>
    dsimp only
    rw [read]
    rfl

theorem Code.ofTerm_whole (origin : Option Origin) (name : String) {v : Variable} (plain : v.isIndexed = false) :
    ofTerm origin (.named name v) = .ok (.ident ⟨origin, name⟩) := by
  rw [ofTerm, if_neg (by simp [plain])]

theorem Code.ofTerm_access (origin : Option Origin) (name : String) (v : Variable) (index : Term) :
    ofTerm origin (.access name v index) =
      (ofTerm origin (.named name v)).bind fun object =>
        (ofTerm origin index).map fun i => .subscript origin object i := by
  rw [ofTerm.eq_def origin (.access ..)]
  dsimp only
  cases ofTerm origin (.named name v) <;> rfl

theorem Code.ofTerm_binary (origin : Option Origin) (op : BinaryOp) (left right : Term) :
    ofTerm origin (.binary op left right) =
      (ofTerm origin left).bind fun l => (ofTerm origin right).map fun r => .binary origin (operatorName op) l r := by
  rw [ofTerm]
  cases ofTerm origin left <;> rfl

namespace Term.Unpacks
variable {t t' : Term}

theorem evaluate_eq (unpacks : Unpacks t t') (s : Store) : Eval.evaluate s t = Eval.evaluate s t' := by
  induction unpacks with
  | literal value type => rfl
  | whole name plain => rfl
  | @item name v index index' indexed read inner ih =>
    rw [Eval.evaluate.eq_def s (.access ..)]
    dsimp only
    rw [Variable.id_base]
    cases found : s.get? v.id with
    | none => rw [Eval.evaluate, found]
    | some b =>
      rw [Eval.evaluate_indexed name found indexed, read, ← ih]
      rfl
  | access name v inner ih => rw [Eval.evaluate, Eval.evaluate, ih]
  | call f inner ih => rw [Eval.evaluate, Eval.evaluate, ih]
  | unary op inner ih => rw [Eval.evaluate, Eval.evaluate, ih]
  | binary op first second ihFirst ihSecond =>
    rw [Eval.evaluate_binary, Eval.evaluate_binary, ihFirst, ihSecond]

theorem code_eq (unpacks : Unpacks t t') (origin : Option Code.Origin) :
    Code.ofTerm origin t = Code.ofTerm origin t' := by
  induction unpacks with
  | literal value type => rfl
  | whole name plain => rfl
  | @item name v index index' indexed read inner ih =>
    rw [Code.ofTerm_indexed origin name indexed, read, Code.ofTerm_access,
      Code.ofTerm_whole origin name v.isIndexed_base, ← ih]
    rfl
  | access name v inner ih => rw [Code.ofTerm_access, Code.ofTerm_access, ih]
  | call f inner ih => rw [Code.ofTerm, Code.ofTerm, ih]
  | unary op inner ih => rw [Code.ofTerm, Code.ofTerm, ih]
  | binary op first second ihFirst ihSecond => rw [Code.ofTerm_binary, Code.ofTerm_binary, ihFirst, ihSecond]

end Term.Unpacks

theorem Error.ofSyntax_eq_ok {α : Type} {first : Except SyntaxError α} {result : α}
    (made : Error.ofSyntax first = .ok result) : first = .ok result := by
  cases first with
  | error e => cases made
  | ok a =>
    cases made
    rfl

theorem mapError_eq_ok {ε ε' α : Type} {first : Except ε α} {f : ε → ε'} {result : α}
    (made : first.mapError f = .ok result) : first = .ok result := by
  cases first with
  | error e => cases made
  | ok a =>
    cases made
    rfl

/-- What is evaluated is evaluated in all its parts. -/
theorem Eval.descends_evaluate (s : Store) : Term.Descends fun t => ∃ r, evaluate s t = .ok r where
  item name v indexed := by
    rintro ⟨r, done⟩
    cases found : s.get? v.id with
    | none =>
      rw [evaluate, found] at done
      cases done
    | some b =>
      rw [evaluate_indexed name found indexed] at done
      obtain ⟨index, read, done⟩ := bind_eq_ok done
      obtain ⟨i, inner, -⟩ := bind_eq_ok done
      exact ⟨index, Error.ofSyntax_eq_ok read, i, inner⟩
  access name v index := by
    rintro ⟨r, done⟩
    rw [evaluate] at done
    split at done
    · cases done
    · obtain ⟨i, inner, -⟩ := bind_eq_ok done
      exact ⟨i, inner⟩
  call f argument := by
    rintro ⟨r, done⟩
    rw [evaluate] at done
    obtain ⟨a, inner, -⟩ := bind_eq_ok done
    exact ⟨a, inner⟩
  unary op operand := by
    rintro ⟨r, done⟩
    rw [evaluate] at done
    obtain ⟨a, inner, -⟩ := bind_eq_ok done
    exact ⟨a, inner⟩
  binary op left right := by
    rintro ⟨r, done⟩
    rw [evaluate_binary] at done
    obtain ⟨l, first, done⟩ := bind_eq_ok done
    obtain ⟨m, second, -⟩ := bind_eq_ok done
    exact ⟨⟨l, first⟩, m, second⟩
  blank label := by
    rintro ⟨r, done⟩
    rw [evaluate] at done
    cases done

/-- What has code has it in all its parts. -/
theorem Code.descends_ofTerm (origin : Option Origin) :
    Term.Descends fun t => ∃ code, ofTerm origin t = .ok code where
  item name v indexed := by
    rintro ⟨code, done⟩
    rw [ofTerm_indexed origin name indexed] at done
    obtain ⟨index, read, done⟩ := bind_eq_ok done
    obtain ⟨i, inner, -⟩ := map_eq_ok done
    exact ⟨index, mapError_eq_ok read, i, inner⟩
  access name v index := by
    rintro ⟨code, done⟩
    rw [ofTerm_access] at done
    obtain ⟨object, -, done⟩ := bind_eq_ok done
    obtain ⟨i, inner, -⟩ := map_eq_ok done
    exact ⟨i, inner⟩
  call f argument := by
    rintro ⟨code, done⟩
    rw [ofTerm] at done
    obtain ⟨a, inner, -⟩ := map_eq_ok done
    exact ⟨a, inner⟩
  unary op operand := by
    rintro ⟨code, done⟩
    rw [ofTerm] at done
    obtain ⟨a, inner, -⟩ := bind_eq_ok done
    exact ⟨a, inner⟩
  binary op left right := by
    rintro ⟨code, done⟩
    rw [ofTerm_binary] at done
    obtain ⟨l, first, done⟩ := bind_eq_ok done
    obtain ⟨m, second, -⟩ := map_eq_ok done
    exact ⟨⟨l, first⟩, m, second⟩
  blank label := by
    rintro ⟨code, done⟩
    rw [ofTerm] at done
    cases done

end Flowchart
