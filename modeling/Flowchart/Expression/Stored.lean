import Flowchart.Expression.Basic
import Flowchart.Json.Basic
/-! The stored forms of variables, elements and expressions. What is optional is left out when
absent, and an absent, null or empty part is read as missing. What is read is a draft, which keeps the
names, values and types as they are stored, whatever they are, and is stored as it was read. Only a
draft in which they all are texts means something; the others are not looked at any further. -/
namespace Flowchart

/-- Why something that is no list has no stored parts: the characters of a text and the keys of an
object are no objects, and other data cannot be gone through at all. -/
def Json.unlisted : Json → Error
  | .text _ => .notObject
  | .object _ => .notObject
  | _ => .notList

/-- The member that a stored part must have. -/
def Json.field (j : Json) (key : String) : Except Error Json :=
  match j.get? key with
  | some v => .ok v
  | none => .error (.missingKey key)

/-- The member of a stored part, the empty text when it is missing. -/
def Json.fieldD (j : Json) (key : String) : Json :=
  (j.get? key).getD (.text "")

/-- The stored size of an array as a whole number, none for null: a fraction is dropped. -/
def Json.size : Json → Except Error (Option Int)
  | .null => .ok none
  | .int n => .ok (some n)
  | .bool b => .ok (some (if b then 1 else 0))
  | .real x =>
    match Double.parts x with
    | .infinite false => .error .infiniteSize
    | _ => .ok (Double.floor? x)
  | _ => .error .notSize

/-- The relation of a stored condition, none when the expression is no condition. -/
def Relation.ofJson (j : Json) : Except Error (Option Relation) :=
  match j.get? "equality" with
  | none => .ok none
  | some .null => .ok none
  | some v =>
    match Relation.ofSymbol? v.display with
    | some r => .ok (some r)
    | none => .error (.diagram (.equality v.display))

namespace Draft

mutual
/-- A variable as it is stored. What names it is kept as it stands there, also where it is no text. -/
structure Variable where
  id : Json
  name : Json
  nodeId : Json
  shape : Shape
/-- What a stored variable holds. An array has a subtype that counts as present and at least one item. -/
inductive Shape where
  | scalar (type : Json) (simple : type.text? ≠ some "array")
  | array (subtype : Json) (named : subtype.isPresent = true) (size : Nat) (positive : 0 < size)
      (index : List Element)
/-- One element of a stored expression. -/
inductive Element where
  | literal (id value : Json)
  | operator (id value : Json)
  | function (id value : Json) (argument : Expression)
  | attached (id : Json) (target : Variable)
  | unattached (id value : Json)
/-- A stored expression. -/
inductive Expression where
  | value (right : List Element)
  | assignment (target : Variable) (right : List Element)
  | condition (relation : Relation) (left right : List Element)
  | halfCondition (relation : Relation) (right : List Element)
end

/-- Declares a stored variable. An array has the subtype `integer` and the size one unless a proper one
is given; what belongs to arrays is dropped for the other types. -/
def Variable.make (id type name nodeId subtype : Json) (size : Option Int) (index : List Element) :
    Variable :=
  if simple : type.text? ≠ some "array" then ⟨id, name, nodeId, .scalar type simple⟩
  else
    let count : { n : Nat // 0 < n } :=
      if proper : 1 ≤ size.getD 1 then ⟨(size.getD 1).toNat, Flowchart.Variable.toNat_pos_of_one_le proper⟩
      else ⟨1, Nat.one_pos⟩
    let item : { j : Json // j.isPresent = true } :=
      if present : subtype.isPresent = true then ⟨subtype, present⟩ else ⟨.text "integer", rfl⟩
    ⟨id, name, nodeId, .array item.1 item.2 count.1 count.2 index⟩

/-- The element with the given kind; only variables have a variable, only functions an argument. -/
def Element.ofParts (kind id value : Json) (target : Option Variable) (argument : Option Expression) :
    Except Error Element :=
  if kind.text? = some "variable" then
    match target with
    | some v => .ok (.attached id v)
    | none => .ok (.unattached id value)
  else if kind.text? = some "operator" then .ok (.operator id value)
  else if kind.text? = some "literal" then .ok (.literal id value)
  else if kind.text? = some "function" then .ok (.function id value (argument.getD (.value [])))
  else .error (.diagram (.elementType kind.display))

/-- The left side of a stored expression. -/
inductive LeftSide where
  | absent
  | target (v : Variable)
  | elements (es : List Element)

/-- The expression with the given sides: elements on the left need a relation, a variable on the
left excludes one. -/
def Expression.ofSides (left : LeftSide) (right : List Element) (relation : Option Relation) :
    Except Error Expression :=
  match left, relation with
  | .absent, none => .ok (.value right)
  | .absent, some r => .ok (.halfCondition r right)
  | .target v, none => .ok (.assignment v right)
  | .target _, some _ => .error (.diagram .leftNotSequence)
  | .elements _, none => .error (.diagram .leftNotVariable)
  | .elements es, some r => .ok (.condition r es right)

end Draft

/-- Whether a stored left side is a sequence of elements: a list that is not empty, or any list in
a condition. -/
def Json.leftItems? (j : Json) : Option (List Json) :=
  match j.get? "leftSide" with
  | some (.list items) =>
    if !items.isEmpty || (j.present? "equality").isSome then some items else none
  | _ => none

theorem Json.sizeOf_leftItems? {j : Json} {items : List Json} (found : j.leftItems? = some items) :
    sizeOf items < sizeOf j := by
  unfold leftItems? at found
  split at found
  · rename_i items' member
    have := sizeOf_get? member
    split at found
    · cases found
      simp only [list.sizeOf_spec] at this
      omega
    · cases found
  · cases found

namespace Draft

mutual
/-- Reads a variable. The index is read before the other parts. -/
def Variable.ofJson (j : Json) : Except Error Variable := do
  if j.members?.isNone then throw .notObject
  let index ←
    match found : j.present? "indexExpression" with
    | none => pure []
    | some part =>
      match held : part.items? with
      | none => throw part.unlisted
      | some items =>
        have := Json.sizeOf_present? found
        have := Json.sizeOf_items? held
        Element.listOfJson items
  let id ← j.field "id"
  let type ← j.field "type"
  let name ← j.field "name"
  let size ← if type.text? = some "array" then ((j.get? "arraySize").getD .null).size else pure none
  return Variable.make id type name (j.fieldD "nodeId") (j.fieldD "arraySubtype") size index
termination_by sizeOf j
/-- Reads an element. Its variable and its argument are read first. -/
def Element.ofJson (j : Json) : Except Error Element := do
  if j.members?.isNone then throw .notObject
  let target ←
    match found : j.present? "variable" with
    | none => pure none
    | some part =>
      have := Json.sizeOf_present? found
      (Variable.ofJson part).map some
  let argument ←
    match found : j.present? "nestedExpression" with
    | none => pure none
    | some part =>
      have := Json.sizeOf_present? found
      (Expression.ofJson part).map some
  let id ← j.field "id"
  let kind ← j.field "type"
  Element.ofParts kind id (j.fieldD "value") target argument
termination_by sizeOf j
/-- Reads several elements. -/
def Element.listOfJson (items : List Json) : Except Error (List Element) :=
  match items with
  | [] => .ok []
  | j :: rest => do
    let e ← Element.ofJson j
    let es ← Element.listOfJson rest
    return e :: es
termination_by sizeOf items
/-- Reads an expression: left side, right side, relation. -/
def Expression.ofJson (j : Json) : Except Error Expression := do
  if j.members?.isNone then throw .notObject
  let left ←
    match found : j.leftItems? with
    | some items =>
      have := Json.sizeOf_leftItems? found
      (Element.listOfJson items).map LeftSide.elements
    | none =>
      match found : j.present? "leftSide" with
      | none => pure .absent
      | some part =>
        have := Json.sizeOf_present? found
        (Variable.ofJson part).map LeftSide.target
  let right ←
    match found : j.present? "rightSide" with
    | none => pure []
    | some part =>
      match held : part.items? with
      | none => throw part.unlisted
      | some items =>
        have := Json.sizeOf_present? found
        have := Json.sizeOf_items? held
        Element.listOfJson items
  let relation ← Relation.ofJson j
  Expression.ofSides left right relation
termination_by sizeOf j
end

mutual
/-- The stored form of a variable. -/
def Variable.toJson : Variable → Json
  | ⟨id, name, nodeId, .scalar type _⟩ =>
    .object [("id", id), ("type", type), ("name", name), ("nodeId", nodeId)]
  | ⟨id, name, nodeId, .array subtype _ size _ index⟩ =>
    .object ([("id", id), ("type", .text "array"), ("name", name), ("nodeId", nodeId),
      ("arraySubtype", subtype), ("arraySize", .int size)]
      ++ if index.isEmpty then [] else [("indexExpression", .list (Element.listToJson index))])
/-- The stored form of an element. -/
def Element.toJson : Element → Json
  | .literal id value => .object [("id", id), ("type", .text "literal"), ("value", value)]
  | .operator id value => .object [("id", id), ("type", .text "operator"), ("value", value)]
  | .function id value argument =>
    .object [("id", id), ("type", .text "function"), ("value", value), ("nestedExpression", argument.toJson)]
  | .attached id v =>
    .object [("id", id), ("type", .text "variable"), ("value", v.name), ("variable", v.toJson)]
  | .unattached id value => .object [("id", id), ("type", .text "variable"), ("value", value)]
/-- The stored forms of several elements. -/
def Element.listToJson : List Element → List Json
  | [] => []
  | e :: rest => e.toJson :: Element.listToJson rest
/-- The stored form of an expression. -/
def Expression.toJson : Expression → Json
  | .value right => .object [("rightSide", .list (Element.listToJson right))]
  | .assignment target right =>
    .object [("rightSide", .list (Element.listToJson right)), ("leftSide", target.toJson)]
  | .condition relation left right =>
    .object [("rightSide", .list (Element.listToJson right)),
      ("leftSide", .list (Element.listToJson left)), ("equality", .text relation.symbol)]
  | .halfCondition relation right =>
    .object [("rightSide", .list (Element.listToJson right)), ("equality", .text relation.symbol)]
end

/-! What drafts mean. Everything in them has to be named by texts: a draft with another name, value or type
is kept and stored, but it is not looked at any further. -/

/-- The text that the member with the given key has to be. -/
def text (key : String) : Json → Except Error String
  | .text s => .ok s
  | _ => .error (.notText key)

/-- A text or null. -/
def text? (key : String) : Json → Except Error (Option String)
  | .null => .ok none
  | j => (text key j).map some

theorem ofName_ne_array {s : String} (simple : (Json.text s).text? ≠ some "array") : DataType.ofName s ≠ .array := by
  intro same
  have name := congrArg DataType.name same
  rw [DataType.name_ofName] at name
  exact simple (congrArg some name)

theorem name_ofName_ne_of_isPresent {s : String} (named : (Json.text s).isPresent = true) :
    (DataType.ofName s).name ≠ "" :=
  Flowchart.Variable.name_ofName_ne (bne_iff_ne.1 named)

/-- A single value of a type that is named by a text. -/
def scalarShape (type : Json) (simple : type.text? ≠ some "array") : Except Error Flowchart.Shape :=
  match type, simple with
  | .text s, simple => .ok (.scalar (.ofName s) (ofName_ne_array simple))
  | _, _ => .error (.notText "type")

/-- An array of items of a type that is named by a text. -/
def arrayShape (subtype : Json) (named : subtype.isPresent = true) (size : Nat) (positive : 0 < size)
    (index : List Flowchart.Element) : Except Error Flowchart.Shape :=
  match subtype, named with
  | .text s, named => .ok (.array (.ofName s) (name_ofName_ne_of_isPresent named) size positive index)
  | _, _ => .error (.notText "arraySubtype")

mutual
/-- The variable that a draft means. -/
def Variable.meant : Variable → Except Error Flowchart.Variable
  | ⟨id, name, nodeId, shape⟩ => do
    let id ← text "id" id
    let name ← text "name" name
    let nodeId ← text? "nodeId" nodeId
    let shape ← shape.meant
    return ⟨id, name, nodeId, shape⟩
/-- What the variable holds that a draft means. -/
def Shape.meant : Shape → Except Error Flowchart.Shape
  | .scalar type simple => scalarShape type simple
  | .array subtype named size positive index => do
    let index ← Element.listMeant index
    arrayShape subtype named size positive index
/-- The element that a draft means. -/
def Element.meant : Element → Except Error Flowchart.Element
  | .literal id value => return .literal (← text "id" id) (← text "value" value)
  | .operator id value => return .operator (← text "id" id) (← text "value" value)
  | .function id value argument =>
    return .function (← text "id" id) (← text "value" value) (← argument.meant)
  | .attached id target => return .attached (← text "id" id) (← target.meant)
  | .unattached id value => return .unattached (← text "id" id) (← text "value" value)
/-- The elements that several drafts mean. -/
def Element.listMeant : List Element → Except Error (List Flowchart.Element)
  | [] => return []
  | e :: rest => return (← e.meant) :: (← Element.listMeant rest)
/-- The expression that a draft means. -/
def Expression.meant : Expression → Except Error Flowchart.Expression
  | .value right => return .value (← Element.listMeant right)
  | .assignment target right => return .assignment (← target.meant) (← Element.listMeant right)
  | .condition relation left right =>
    return .condition relation (← Element.listMeant left) (← Element.listMeant right)
  | .halfCondition relation right => return .halfCondition relation (← Element.listMeant right)
end

end Draft

/-- A text, or null where there is none. -/
def Json.ofText? : Option String → Json
  | some s => .text s
  | none => .null

/-! Drafts of what is named by texts. -/

theorem DataType.text?_name_ne {type : DataType} (simple : type ≠ .array) :
    (Json.text type.name).text? ≠ some "array" := by
  intro same
  apply simple
  rw [← ofName_name type, Option.some.inj same]
  rfl

theorem DataType.isPresent_name {type : DataType} (named : type.name ≠ "") : (Json.text type.name).isPresent = true :=
  bne_iff_ne.2 named

mutual
/-- The draft that means a variable. -/
def Variable.draft : Variable → Draft.Variable
  | ⟨id, name, nodeId, shape⟩ => ⟨.text id, .text name, .ofText? nodeId, shape.draft⟩
/-- The draft that means what a variable holds. -/
def Shape.draft : Shape → Draft.Shape
  | .scalar type simple => .scalar (.text type.name) (DataType.text?_name_ne simple)
  | .array subtype named size positive index =>
    .array (.text subtype.name) (DataType.isPresent_name named) size positive (Element.listDraft index)
/-- The draft that means an element. -/
def Element.draft : Element → Draft.Element
  | .literal id text => .literal (.text id) (.text text)
  | .operator id symbol => .operator (.text id) (.text symbol)
  | .function id name argument => .function (.text id) (.text name) argument.draft
  | .attached id target => .attached (.text id) target.draft
  | .unattached id name => .unattached (.text id) (.text name)
/-- The drafts that mean several elements. -/
def Element.listDraft : List Element → List Draft.Element
  | [] => []
  | e :: rest => e.draft :: Element.listDraft rest
/-- The draft that means an expression. -/
def Expression.draft : Expression → Draft.Expression
  | .value right => .value (Element.listDraft right)
  | .assignment target right => .assignment target.draft (Element.listDraft right)
  | .condition relation left right => .condition relation (Element.listDraft left) (Element.listDraft right)
  | .halfCondition relation right => .halfCondition relation (Element.listDraft right)
end

/-- Reads a variable that texts name. -/
def Variable.ofJson (j : Json) : Except Error Variable := do
  (← Draft.Variable.ofJson j).meant

/-- Reads an element that texts name. -/
def Element.ofJson (j : Json) : Except Error Element := do
  (← Draft.Element.ofJson j).meant

/-- Reads several elements that texts name. -/
def Element.listOfJson (items : List Json) : Except Error (List Element) := do
  Draft.Element.listMeant (← Draft.Element.listOfJson items)

/-- Reads an expression in which everything is named by texts. -/
def Expression.ofJson (j : Json) : Except Error Expression := do
  (← Draft.Expression.ofJson j).meant

/-- The stored form of a variable. -/
def Variable.toJson (v : Variable) : Json :=
  v.draft.toJson

/-- The stored form of an element. -/
def Element.toJson (e : Element) : Json :=
  e.draft.toJson

/-- The stored form of an expression. -/
def Expression.toJson (e : Expression) : Json :=
  e.draft.toJson

end Flowchart
