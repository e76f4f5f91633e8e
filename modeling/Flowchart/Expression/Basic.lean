import Flowchart.Error
/-! Variables, the elements that expressions are made of, and expressions. The three refer to each
other: an element may name a variable or apply a function to an expression, and a variable may
carry the elements that select one item of an array. -/
namespace Flowchart

mutual
/-- A declared variable, or one item of an array variable. It may name the block that declares it. -/
structure Variable where
  id : String
  name : String
  nodeId : Option String
  shape : Shape
/-- What a variable holds: one value, or an array of at least one item with the elements of the
index that selects an item. Without index elements the whole array is meant. -/
inductive Shape where
  | scalar (type : DataType) (simple : type ≠ .array)
  | array (subtype : DataType) (named : subtype.name ≠ "") (size : Nat) (positive : 0 < size)
      (index : List Element)
/-- One element of an expression as the editor keeps it. A variable element normally has its
variable attached; without one only the written name is left. -/
inductive Element where
  | literal (id text : String)
  | operator (id symbol : String)
  | function (id name : String) (argument : Expression)
  | attached (id : String) (target : Variable)
  | unattached (id name : String)
/-- An expression: a value, an assignment to a variable, or a condition that relates two sides. A
half condition has no left side at all. -/
inductive Expression where
  | value (right : List Element)
  | assignment (target : Variable) (right : List Element)
  | condition (relation : Relation) (left right : List Element)
  | halfCondition (relation : Relation) (right : List Element)
end

namespace Variable

/-- A size of at least one is positive as a natural number too. -/
theorem toNat_pos_of_one_le {n : Int} (proper : 1 ≤ n) : 0 < n.toNat := by
  omega

/-- The type of a name that is not empty has a name. -/
theorem name_ofName_ne {s : String} (named : s ≠ "") : (DataType.ofName s).name ≠ "" := by
  simpa using named

/-- The type of integers has a name. -/
theorem name_integer_ne : DataType.integer.name ≠ "" := by
  decide

/-- Declares a variable. An array has the subtype `integer` and the size one unless a proper one is
given; what belongs to arrays is dropped for the other types. -/
def make (id : String) (type : DataType) (name : String) (nodeId subtype : Option String)
    (size : Option Int) (index : List Element) : Variable :=
  if simple : type ≠ .array then ⟨id, name, nodeId, .scalar type simple⟩
  else
    let count : { n : Nat // 0 < n } :=
      match size with
      | some n => if proper : 1 ≤ n then ⟨n.toNat, toNat_pos_of_one_le proper⟩ else ⟨1, Nat.one_pos⟩
      | none => ⟨1, Nat.one_pos⟩
    let item : { t : DataType // t.name ≠ "" } :=
      match subtype with
      | some s =>
        if named : s ≠ "" then ⟨.ofName s, name_ofName_ne named⟩ else ⟨.integer, name_integer_ne⟩
      | none => ⟨.integer, name_integer_ne⟩
    ⟨id, name, nodeId, .array item.1 item.2 count.1 count.2 index⟩

/-- The type a variable is declared with. -/
def type (v : Variable) : DataType :=
  match v.shape with
  | .scalar type _ => type
  | .array .. => .array

/-- The type of an array's items. -/
def subtype? (v : Variable) : Option DataType :=
  match v.shape with
  | .scalar .. => none
  | .array subtype .. => some subtype

/-- The number of an array's items. -/
def size? (v : Variable) : Option Nat :=
  match v.shape with
  | .scalar .. => none
  | .array _ _ size _ _ => some size

/-- The elements that select an item of an array. -/
def index (v : Variable) : List Element :=
  match v.shape with
  | .scalar .. => []
  | .array _ _ _ _ index => index

/-- Whether the variable is an array or an item of one. -/
def isArray (v : Variable) : Bool :=
  match v.shape with
  | .scalar .. => false
  | .array .. => true

/-- Whether the variable is an item of an array. -/
def isIndexed (v : Variable) : Bool :=
  !v.index.isEmpty

/-- The type of the value that the variable denotes: for an item, the subtype of its array. -/
def elementType (v : Variable) : DataType :=
  if v.isIndexed then v.subtype?.getD v.type else v.type

/-- The same array with the given elements as index. A scalar has no index. -/
def indexed (v : Variable) (elements : List Element) : Variable :=
  match v.shape with
  | .scalar .. => v
  | .array subtype named size positive _ =>
    { v with shape := .array subtype named size positive elements }

/-- The whole variable, without index. -/
def base (v : Variable) : Variable :=
  v.indexed []

/-- How the variable is declared: type, size of an array, name. -/
def declaration (v : Variable) : String :=
  match v.shape with
  | .scalar type _ => type.name ++ " " ++ v.name
  | .array subtype _ size _ _ => subtype.name ++ "[" ++ toString size ++ "] " ++ v.name

/-- What a change of a variable replaces. A part that is present replaces the old one, also by
nothing where the inner option is empty. -/
structure Changes where
  id : Option String
  type : Option DataType
  name : Option String
  nodeId : Option (Option String)
  subtype : Option (Option String)
  size : Option (Option Int)

/-- The changed variable. A variable that is made an array keeps the subtype and the size it has,
as far as no proper ones are given. -/
def update (v : Variable) (c : Changes) : Variable :=
  let oldSubtype := v.subtype?.map DataType.name
  let oldSize := v.size?.map Int.ofNat
  let subtype :=
    match c.subtype with
    | some s => s
    | none => oldSubtype
  let size :=
    match c.size with
    | some n => if c.type == some .array && !(n.any (1 ≤ ·)) then oldSize else n
    | none => oldSize
  make (c.id.getD v.id) (c.type.getD v.type) (c.name.getD v.name) (c.nodeId.getD v.nodeId)
    subtype size v.index

@[simp] theorem index_base (v : Variable) : v.base.index = [] := by
  cases v with
  | mk id name nodeId shape => cases shape <;> rfl

end Variable

namespace Element

def id : Element → String
  | literal id _ => id
  | operator id _ => id
  | function id .. => id
  | attached id _ => id
  | unattached id _ => id

/-- The kind of an element by its name. -/
def kind : Element → String
  | literal .. => "literal"
  | operator .. => "operator"
  | function .. => "function"
  | attached .. => "variable"
  | unattached .. => "variable"

/-- What an element is written with: its text, symbol or name. -/
def label : Element → String
  | literal _ text => text
  | operator _ symbol => symbol
  | function _ name _ => name
  | attached _ v => v.name
  | unattached _ name => name

/-- The variable of an element, if one is attached. -/
def target? : Element → Option Variable
  | attached _ v => some v
  | _ => none

/-- Attaches another variable to a variable element. -/
def attach (e : Element) (v : Variable) : Except Error Element :=
  match e with
  | attached id _ => .ok (.attached id v)
  | unattached id _ => .ok (.attached id v)
  | _ => .error (.diagram .notVariableElement)

end Element

namespace Expression

/-- The elements on the right side. -/
def right : Expression → List Element
  | value right => right
  | assignment _ right => right
  | condition _ _ right => right
  | halfCondition _ right => right

/-- The relation of a condition. -/
def relation? : Expression → Option Relation
  | condition relation .. => some relation
  | halfCondition relation _ => some relation
  | _ => none

/-- The variable that is assigned to. -/
def target? : Expression → Option Variable
  | assignment target _ => some target
  | _ => none

/-- Whether nothing was written on either side. -/
def isEmpty : Expression → Bool
  | value right => right.isEmpty
  | assignment .. => false
  | condition _ left right => left.isEmpty && right.isEmpty
  | halfCondition _ right => right.isEmpty

/-- A condition as one sequence: left side, relation, right side. -/
def flat : Expression → List Element
  | value right => right
  | assignment _ right => right
  | condition relation left right =>
    left ++ .operator ("eq-" ++ relation.symbol) relation.symbol :: right
  | halfCondition relation right =>
    .operator ("eq-" ++ relation.symbol) relation.symbol :: right

end Expression

mutual
/-- A variable as it is written in an expression, with its index in brackets. -/
def Variable.text : Variable → String
  | ⟨_, name, _, .scalar ..⟩ => name
  | ⟨_, name, _, .array _ _ _ _ index⟩ =>
    if index.isEmpty then name else name ++ "[" ++ " ".intercalate (Element.texts index) ++ "]"
/-- An element as it is written. -/
def Element.text : Element → String
  | .literal _ text => text
  | .operator _ symbol => symbol
  | .function _ name argument => name ++ "(" ++ argument.text ++ ")"
  | .attached _ v => v.text
  | .unattached _ name => name
/-- Each of several elements as it is written. -/
def Element.texts : List Element → List String
  | [] => []
  | e :: rest => e.text :: Element.texts rest
/-- An expression as it is written, its elements separated by spaces. -/
def Expression.text : Expression → String
  | .value right => " ".intercalate (Element.texts right)
  | .assignment target right => target.text ++ " = " ++ " ".intercalate (Element.texts right)
  | .condition relation left right =>
    " ".intercalate (Element.texts left) ++ " " ++ relation.symbol ++ " "
      ++ " ".intercalate (Element.texts right)
  | .halfCondition _ right => " ".intercalate (Element.texts right)
end

mutual
/-- The first element with the given id, in a sequence and in what its elements contain. -/
def Element.findIn (id : String) : List Element → Except Error (Option Element)
  | [] => .ok none
  | e :: rest =>
    if e.id == id then .ok (some e)
    else
      match e.findInside id with
      | .ok none => Element.findIn id rest
      | found => found
/-- Looks inside an element: the argument of a function, the index of a variable. -/
def Element.findInside (id : String) : Element → Except Error (Option Element)
  | .function _ _ argument => argument.find id
  | .attached _ v => v.find id
  | _ => .ok none
/-- Looks among the index elements of a variable. -/
def Variable.find (id : String) : Variable → Except Error (Option Element)
  | ⟨_, _, _, .scalar ..⟩ => .ok none
  | ⟨_, _, _, .array _ _ _ _ index⟩ => Element.findIn id index
/-- The first element with the given id: in the left side or the target's index, then in the right
side. A condition without its left side cannot be searched. -/
def Expression.find (id : String) : Expression → Except Error (Option Element)
  | .value right => Element.findIn id right
  | .assignment target right =>
    match target.find id with
    | .ok none => Element.findIn id right
    | found => found
  | .condition _ left right =>
    match Element.findIn id left with
    | .ok none => Element.findIn id right
    | found => found
  | .halfCondition .. => .error .absentSide
end

end Flowchart
