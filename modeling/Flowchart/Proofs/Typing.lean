import Flowchart.Eval
import Flowchart.Proofs.Reading
/-! Types without values. A checker goes over a term with the declarations alone and finds the kind of
its value, or that it has none. -/
namespace Flowchart

/-- What is known of a value before a run: the type of a single value, or the items of an array. -/
inductive Kind where
  | scalar (type : DataType)
  | array (item : DataType) (size : Nat) (positive : 0 < size)
  deriving DecidableEq

def Kind.type : Kind → DataType
  | scalar type => type
  | array .. => .array

def Variable.kind (v : Variable) : Kind :=
  match v.shape with
  | .scalar type _ => .scalar type
  | .array subtype _ size positive _ => .array subtype size positive

/-- A single value has a type. Values of an unknown type are texts, as which they start; no single value
is an array. -/
inductive Value.HasType : Value → DataType → Prop where
  | int (n : Int) : HasType (.int n) .integer
  | float (x : Float) : HasType (.float x) .float
  | nan (mark : Nat) : HasType (.nan mark) .float
  | text (s : String) : HasType (.text s) .string
  | bool (b : Bool) : HasType (.bool b) .boolean
  | unknown (s name : String) (unknown : name ∉ knownTypeNames) : HasType (.text s) (.other name unknown)

/-- A value is of a kind. -/
inductive Value.HasKind : Value → Kind → Prop where
  | scalar {v : Value} {t : DataType} (has : v.HasType t) : HasKind v (.scalar t)
  | array {items : List Value} {item : DataType} {size : Nat} {positive : 0 < size}
      (length : items.length = size) (all : ∀ v ∈ items, v.HasType item) :
      HasKind (.array items) (.array item size positive)

/-- Every variable holds a value of the kind it is declared with. -/
def Store.WellTyped (s : Store) : Prop :=
  ∀ b ∈ s.bindings, b.value.HasKind b.target.kind

/-- The declarations of a store. -/
def Store.declared (s : Store) (id : String) : Option Variable :=
  (s.get? id).map Binding.target

/-- Whether values of the type are texts. -/
def DataType.isTextual : DataType → Bool
  | string => true
  | other .. => true
  | _ => false

def Relation.isOrdering : Relation → Bool
  | eq => false
  | ne => false
  | _ => true

namespace Kind

/-- Whether values can be put in order. Arrays can if their items can, whatever the types of these. -/
def ordered : Kind → Kind → Bool
  | array item .., array item' .. => item.isTextual == item'.isTextual
  | left, right => !(left.type == .boolean && right.type == .boolean)

/-- Whether a comparison applies. -/
def comparable (c : Comparison) (left right : Kind) : Bool :=
  (left.type == right.type || left.type.isNumeric && right.type.isNumeric) &&
    match c with
    | .relation r => !r.isOrdering || left.ordered right
    | .other _ => false

/-- The kind of an arithmetic result of the given type. -/
def arithmetic (type : DataType) (left right : Kind) : Option Kind :=
  if left.type.isNumeric && right.type.isNumeric then some (.scalar type) else none

def logical (left right : Kind) : Option Kind :=
  if left.type = .boolean ∧ right.type = .boolean then some (.scalar .boolean) else none

def unary (op : UnaryOp) (arg : Kind) : Option Kind :=
  match op with
  | .not => if arg.type = .boolean then some (.scalar .boolean) else none
  | .minus => if arg.type.isNumeric then some arg else none
  | .plus => if arg.type.isNumeric then some arg else none
  | .other _ => none

def binary (op : BinaryOp) (left right : Kind) : Option Kind :=
  let both := Eval.joined (some left.type) (some right.type)
  match op with
  | .add =>
    if left.type = .string ∧ right.type = .string then some (.scalar .string)
    else arithmetic both left right
  | .subtract => arithmetic both left right
  | .multiply => arithmetic both left right
  | .divide => arithmetic .float left right
  | .modulo => arithmetic both left right
  | .and => logical left right
  | .or => logical left right
  | .compare c => if comparable c left right then some (.scalar .boolean) else none

/-- A conversion applies to all kinds; whether it succeeds is up to the value. -/
def convert (f : Function) (_arg : Kind) : Option Kind :=
  match f with
  | .integer => some (.scalar .integer)
  | .float => some (.scalar .float)
  | .string => some (.scalar .string)
  | .boolean => some (.scalar .boolean)
  | .other _ => none

/-- The kind of an item: only arrays have items, and only integers select them. -/
def item (array index : Kind) : Option Kind :=
  match array with
  | .array item _ _ => if index.type = .integer then some (.scalar item) else none
  | .scalar _ => none

/-- The kind of a term under declarations. The index that a variable carries is read here, as it is when
the term is evaluated. -/
def check (declared : String → Option Variable) (t : Term) : Option Kind :=
  match t with
  | .literal _ type => some (.scalar type)
  | .named _ v =>
    (declared v.id).bind fun target =>
      if v.isIndexed then
        match read : Term.parse v.index with
        | .error _ => none
        | .ok index =>
          have := Term.weight_parse_index read
          (check declared index).bind target.kind.item
      else some target.kind
  | .access _ v index =>
    (declared v.id).bind fun target => (check declared index).bind target.kind.item
  | .call f argument => (check declared argument).bind (convert f)
  | .unary op operand => (check declared operand).bind (unary op)
  | .binary op left right =>
    (check declared left).bind fun l => (check declared right).bind (binary op l)
  | .blank _ => none
termination_by t.weight
decreasing_by all_goals simp only [Term.weight]; omega

end Kind

end Flowchart
