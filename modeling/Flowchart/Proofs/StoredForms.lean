import Flowchart.Binding.Stored
/-! Stored forms lose nothing. What is written is read back as it was, however deep variables, elements and
expressions lie in each other, and whatever stands for their names, values and types. Parts that are left out when
empty are told apart from parts that are there and empty: a condition with nothing on its left side is no condition
without a left side. -/
namespace Flowchart

/-! The readers step by step. Each looks at its parts in order and puts them together. -/

namespace Draft

/-- Reads a part that may be missing. -/
def readPart? {α : Type} (read : Json → Except Error α) : Option Json → Except Error (Option α)
  | none => .ok none
  | some part => (read part).map some

/-- Reads the elements of a part that may be missing. -/
def Element.ofPart? : Option Json → Except Error (List Element)
  | none => .ok []
  | some part =>
    match part.items? with
    | none => .error part.unlisted
    | some items => Element.listOfJson items

/-- Reads the left side of a stored expression. -/
def LeftSide.ofJson (j : Json) : Except Error LeftSide :=
  match j.leftItems? with
  | some items => (Element.listOfJson items).map .elements
  | none =>
    match j.present? "leftSide" with
    | none => .ok .absent
    | some part => (Variable.ofJson part).map .target

section Readers
variable {j : Json} (object : j.members?.isNone = false)
include object

theorem Variable.ofJson_eq : Variable.ofJson j = (do
    let index ← Element.ofPart? (j.present? "indexExpression")
    let id ← j.field "id"
    let type ← j.field "type"
    let name ← j.field "name"
    let size ← if type.text? = some "array" then ((j.get? "arraySize").getD .null).size else pure none
    return Variable.make id type name (j.fieldD "nodeId") (j.fieldD "arraySubtype") size index) := by
  rw [Variable.ofJson, object]
  simp only [Bool.false_eq_true, ↓reduceIte]
  generalize j.present? "indexExpression" = index
  cases index with
  | none => rfl
  | some part =>
    dsimp only [Element.ofPart?]
    generalize part.items? = items
    cases items <;> rfl

theorem Element.ofJson_eq : Element.ofJson j = (do
    let target ← readPart? Variable.ofJson (j.present? "variable")
    let argument ← readPart? Expression.ofJson (j.present? "nestedExpression")
    let id ← j.field "id"
    let kind ← j.field "type"
    Element.ofParts kind id (j.fieldD "value") target argument) := by
  rw [Element.ofJson, object]
  simp only [Bool.false_eq_true, ↓reduceIte]
  generalize j.present? "variable" = target
  generalize j.present? "nestedExpression" = argument
  cases target <;> cases argument <;> rfl

theorem Expression.ofJson_eq : Expression.ofJson j = (do
    let left ← LeftSide.ofJson j
    let right ← Element.ofPart? (j.present? "rightSide")
    let relation ← Relation.ofJson j
    Expression.ofSides left right relation) := by
  rw [Expression.ofJson, object, LeftSide.ofJson]
  simp only [Bool.false_eq_true, ↓reduceIte]
  generalize j.leftItems? = listed
  generalize j.present? "leftSide" = left
  generalize j.present? "rightSide" = right
  cases right with
  | none => cases listed <;> cases left <;> rfl
  | some part =>
    dsimp only [Element.ofPart?]
    generalize part.items? = items
    cases items <;> cases listed <;> cases left <;> rfl

end Readers

end Draft

/-! Finding members. The key of the first member decides whether it is the one. -/

@[simp] theorem Json.get?_object_nil (key : String) : (object []).get? key = none := rfl

@[simp] theorem Json.get?_object_cons (name key : String) (datum : Json) (members : List (String × Json)) :
    (object ((name, datum) :: members)).get? key
      = if name = key then some datum else (object members).get? key := by
  by_cases same : name = key <;> simp [get?, same]

@[simp] theorem Json.present?_object_nil (key : String) : (object []).present? key = none := rfl

@[simp] theorem Json.present?_object_cons (name key : String) (datum : Json)
    (members : List (String × Json)) : (object ((name, datum) :: members)).present? key
      = if name = key then (some datum).filter isPresent else (object members).present? key := by
  by_cases same : name = key <;> simp [present?, same]

@[simp] theorem Relation.ofSymbol?_symbol (r : Relation) : ofSymbol? r.symbol = some r := by
  cases r <;> decide

theorem Relation.ofJson_of_get? {j : Json} {r : Relation}
    (found : j.get? "equality" = some (.text r.symbol)) : Relation.ofJson j = .ok (some r) := by
  simp [Relation.ofJson, found, Json.display]

/-! What is written counts as present, so it is not taken for missing. Only a list of no elements is. -/

theorem Relation.isPresent_symbol (r : Relation) : (Json.text r.symbol).isPresent = true := by
  cases r <;> decide

namespace Draft

theorem Variable.isPresent_toJson (v : Variable) : v.toJson.isPresent = true := by
  obtain ⟨id, name, nodeId, shape⟩ := v
  cases shape <;> simp [Variable.toJson, Json.isPresent]

theorem Expression.isPresent_toJson (e : Expression) : e.toJson.isPresent = true := by
  cases e <;> rfl

theorem readPart?_filter {α : Type} {read : Json → Except Error α} {part : Json} {x : α}
    (present : part.isPresent = true) (reads : read part = .ok x) :
    readPart? read ((some part).filter Json.isPresent) = .ok (some x) := by
  rw [Option.filter_some, if_pos present, readPart?, reads]
  rfl

/-- An empty list of elements is taken for a missing one, and a missing one is read as empty. -/
theorem Element.ofPart?_filter {es : List Element} (reads : listOfJson (listToJson es) = .ok es) :
    ofPart? ((some (Json.list (listToJson es))).filter Json.isPresent) = .ok es := by
  cases es with
  | nil => rfl
  | cons e rest => exact reads

/-! The forms one by one. Each begins with the members that are always there; the members after them are
the optional parts. -/

theorem Variable.ofJson_scalar (id name nodeId : Json) {type : Json} (simple : type.text? ≠ some "array") :
    Variable.ofJson (.object [("id", id), ("type", type), ("name", name), ("nodeId", nodeId)])
      = .ok ⟨id, name, nodeId, .scalar type simple⟩ := by
  rw [Variable.ofJson_eq rfl]
  simp [Json.field, Json.fieldD, Element.ofPart?, Variable.make, simple, bind, Except.bind, pure, Except.pure]

/-- A size of at least one and a subtype that is present are kept. -/
theorem Variable.ofJson_array (id name nodeId : Json) {subtype : Json} (named : subtype.isPresent = true) {size : Nat}
    (positive : 0 < size) (more : List (String × Json)) {index : List Element}
    (selects : Element.ofPart? ((Json.object more).present? "indexExpression") = .ok index) :
    Variable.ofJson (.object ([("id", id), ("type", .text "array"), ("name", name), ("nodeId", nodeId),
      ("arraySubtype", subtype), ("arraySize", .int size)] ++ more))
      = .ok ⟨id, name, nodeId, .array subtype named size positive index⟩ := by
  have proper : (1 : Int) ≤ size := by omega
  rw [Variable.ofJson_eq rfl]
  simp [Json.field, Json.fieldD, Json.size, Json.text?, selects, Variable.make, named, proper, bind, Except.bind,
    pure, Except.pure]

theorem Element.ofJson_members (id kind value : Json) (more : List (String × Json))
    {target : Option Variable} {argument : Option Expression}
    (attached : readPart? Variable.ofJson ((Json.object more).present? "variable") = .ok target)
    (applied : readPart? Expression.ofJson ((Json.object more).present? "nestedExpression") = .ok argument) :
    Element.ofJson (.object (("id", id) :: ("type", kind) :: ("value", value) :: more))
      = Element.ofParts kind id value target argument := by
  rw [Element.ofJson_eq rfl]
  simp [Json.field, Json.fieldD, attached, applied, bind, Except.bind]

theorem LeftSide.ofJson_skip (datum : Json) (more : List (String × Json)) :
    LeftSide.ofJson (.object (("rightSide", datum) :: more)) = LeftSide.ofJson (.object more) := by
  simp [LeftSide.ofJson, Json.leftItems?]

theorem relationOfJson_skip (datum : Json) (more : List (String × Json)) :
    Relation.ofJson (.object (("rightSide", datum) :: more)) = Relation.ofJson (.object more) := by
  simp [Relation.ofJson]

theorem Expression.ofJson_members (right : List Element) (more : List (String × Json))
    {left : LeftSide} {relation : Option Relation}
    (reads : Element.listOfJson (Element.listToJson right) = .ok right)
    (leads : LeftSide.ofJson (.object more) = .ok left)
    (relates : Relation.ofJson (.object more) = .ok relation) :
    Expression.ofJson (.object (("rightSide", .list (Element.listToJson right)) :: more))
      = Expression.ofSides left right relation := by
  rw [Expression.ofJson_eq rfl, LeftSide.ofJson_skip, leads, relationOfJson_skip, relates,
    Json.present?_object_cons, if_pos rfl, Element.ofPart?_filter reads]
  rfl

theorem LeftSide.ofJson_target {target : Variable}
    (reads : Variable.ofJson target.toJson = .ok target) :
    LeftSide.ofJson (.object [("leftSide", target.toJson)]) = .ok (.target target) := by
  have single : (Json.object [("leftSide", target.toJson)]).leftItems? = none := by
    obtain ⟨id, name, nodeId, shape⟩ := target
    cases shape <;> rfl
  simp [LeftSide.ofJson, single, Option.filter_some, target.isPresent_toJson, reads, Except.map]

/-- In a condition an empty left side is no missing one: the relation tells that it is there. -/
theorem LeftSide.ofJson_elements {left : List Element} (relation : Relation)
    (reads : Element.listOfJson (Element.listToJson left) = .ok left) :
    LeftSide.ofJson (.object [("leftSide", .list (Element.listToJson left)),
      ("equality", .text relation.symbol)]) = .ok (.elements left) := by
  simp [LeftSide.ofJson, Json.leftItems?, Option.filter_some, relation.isPresent_symbol, reads, Except.map]

/-! Writing and reading in turn, by recursion over what is written. -/

mutual
/-- A stored variable is read as it was written, whatever its members are. -/
theorem Variable.ofJson_toJson : (v : Variable) → Variable.ofJson v.toJson = .ok v
  | ⟨id, name, nodeId, .scalar _ simple⟩ => Variable.ofJson_scalar id name nodeId simple
  | ⟨id, name, nodeId, .array _ named _ positive index⟩ => by
    have reads := Element.listOfJson_listToJson index
    rw [Variable.toJson]
    apply Variable.ofJson_array id name nodeId named positive
    cases index with
    | nil => rfl
    | cons e rest => exact reads
/-- A stored element is read as it was written. -/
theorem Element.ofJson_toJson : (e : Element) → Element.ofJson e.toJson = .ok e
  | .literal id value => Element.ofJson_members id (.text "literal") value [] rfl rfl
  | .operator id value => Element.ofJson_members id (.text "operator") value [] rfl rfl
  | .function id value argument => by
    have applied := Expression.ofJson_toJson argument
    exact Element.ofJson_members id (.text "function") value [("nestedExpression", argument.toJson)] rfl
      (readPart?_filter argument.isPresent_toJson applied)
  | .attached id v => by
    have attached := Variable.ofJson_toJson v
    exact Element.ofJson_members id (.text "variable") v.name [("variable", v.toJson)]
      (readPart?_filter v.isPresent_toJson attached) rfl
  | .unattached id value => Element.ofJson_members id (.text "variable") value [] rfl rfl
/-- Several elements are read as they were written. -/
theorem Element.listOfJson_listToJson : (es : List Element) →
    Element.listOfJson (Element.listToJson es) = .ok es
  | [] => by rw [Element.listToJson, Element.listOfJson]
  | e :: rest => by
    rw [Element.listToJson, Element.listOfJson, Element.ofJson_toJson e, Element.listOfJson_listToJson rest]
    rfl
/-- A stored expression is read as it was written. -/
theorem Expression.ofJson_toJson : (e : Expression) → Expression.ofJson e.toJson = .ok e
  | .value right => Expression.ofJson_members right [] (Element.listOfJson_listToJson right) rfl rfl
  | .assignment target right =>
    Expression.ofJson_members right [("leftSide", target.toJson)] (Element.listOfJson_listToJson right)
      (LeftSide.ofJson_target (Variable.ofJson_toJson target)) rfl
  | .condition relation left right =>
    Expression.ofJson_members right
      [("leftSide", .list (Element.listToJson left)), ("equality", .text relation.symbol)]
      (Element.listOfJson_listToJson right)
      (LeftSide.ofJson_elements relation (Element.listOfJson_listToJson left)) (Relation.ofJson_of_get? rfl)
  | .halfCondition relation right =>
    Expression.ofJson_members right [("equality", .text relation.symbol)]
      (Element.listOfJson_listToJson right) rfl (Relation.ofJson_of_get? rfl)
end

end Draft

/-! A draft that was made from something means it. -/

theorem Draft.text?_ofText? (key : String) (s : Option String) : text? key (.ofText? s) = .ok s := by
  cases s <;> rfl

theorem Draft.scalarShape_name {type : DataType} (simple : type ≠ .array) :
    scalarShape (.text type.name) (DataType.text?_name_ne simple) = .ok (.scalar type simple) := by
  simp [scalarShape]

theorem Draft.arrayShape_name {subtype : DataType} (named : subtype.name ≠ "") (size : Nat) (positive : 0 < size)
    (index : List Flowchart.Element) :
    arrayShape (.text subtype.name) (DataType.isPresent_name named) size positive index =
      .ok (.array subtype named size positive index) := by
  simp [arrayShape]

mutual
theorem Variable.meant_draft : (v : Variable) → v.draft.meant = .ok v
  | ⟨id, name, nodeId, shape⟩ => by
    rw [Variable.draft, Draft.Variable.meant, Draft.text?_ofText?, Shape.meant_draft shape]
    rfl
theorem Shape.meant_draft : (shape : Shape) → shape.draft.meant = .ok shape
  | .scalar type simple => by
    rw [Shape.draft, Draft.Shape.meant, Draft.scalarShape_name]
  | .array subtype named size positive index => by
    rw [Shape.draft, Draft.Shape.meant, Element.listMeant_listDraft index]
    exact Draft.arrayShape_name named size positive index
theorem Element.meant_draft : (e : Element) → e.draft.meant = .ok e
  | .literal id text => rfl
  | .operator id symbol => rfl
  | .function id name argument => by
    rw [Element.draft, Draft.Element.meant, Expression.meant_draft argument]
    rfl
  | .attached id target => by
    rw [Element.draft, Draft.Element.meant, Variable.meant_draft target]
    rfl
  | .unattached id name => rfl
theorem Element.listMeant_listDraft : (es : List Element) → Draft.Element.listMeant (Element.listDraft es) = .ok es
  | [] => rfl
  | e :: rest => by
    rw [Element.listDraft, Draft.Element.listMeant, Element.meant_draft e, Element.listMeant_listDraft rest]
    rfl
theorem Expression.meant_draft : (e : Expression) → e.draft.meant = .ok e
  | .value right => by
    rw [Expression.draft, Draft.Expression.meant, Element.listMeant_listDraft right]
    rfl
  | .assignment target right => by
    rw [Expression.draft, Draft.Expression.meant, Variable.meant_draft target, Element.listMeant_listDraft right]
    rfl
  | .condition relation left right => by
    rw [Expression.draft, Draft.Expression.meant, Element.listMeant_listDraft left, Element.listMeant_listDraft right]
    rfl
  | .halfCondition relation right => by
    rw [Expression.draft, Draft.Expression.meant, Element.listMeant_listDraft right]
    rfl
end

theorem Variable.ofJson_toJson (v : Variable) : Variable.ofJson v.toJson = .ok v := by
  rw [Variable.ofJson, Variable.toJson, Draft.Variable.ofJson_toJson]
  exact v.meant_draft

theorem Element.ofJson_toJson (e : Element) : Element.ofJson e.toJson = .ok e := by
  rw [Element.ofJson, Element.toJson, Draft.Element.ofJson_toJson]
  exact e.meant_draft

theorem Expression.ofJson_toJson (e : Expression) : Expression.ofJson e.toJson = .ok e := by
  rw [Expression.ofJson, Expression.toJson, Draft.Expression.ofJson_toJson]
  exact e.meant_draft

/-! A binding is kept as one object: the members of its variable and after them the value. -/

/-- An object with one more member at its end. -/
def Json.extended (j : Json) (key : String) (datum : Json) : Json :=
  match j with
  | object members => object (members ++ [(key, datum)])
  | other => other

theorem Json.get?_extended (j : Json) {key added : String} (differs : added ≠ key) (datum : Json) :
    (j.extended added datum).get? key = j.get? key := by
  cases j with
  | object members => simp [extended, get?, List.find?_append, differs]
  | _ => rfl

theorem Json.members?_extended (j : Json) (key : String) (datum : Json) :
    (j.extended key datum).members?.isNone = j.members?.isNone := by
  cases j <;> rfl

theorem Draft.Variable.members?_toJson (v : Draft.Variable) : v.toJson.members?.isNone = false := by
  obtain ⟨id, name, nodeId, shape⟩ := v
  cases shape <;> rfl

/-- No part of a variable is kept under the key of a binding's value. -/
theorem Variable.ofJson_extended {j : Json} (object : j.members?.isNone = false) (datum : Json) :
    Variable.ofJson (j.extended "value" datum) = Variable.ofJson j := by
  have object' : (j.extended "value" datum).members?.isNone = false := by
    rw [Json.members?_extended, object]
  have kept : ∀ key, "value" ≠ key → (j.extended "value" datum).get? key = j.get? key :=
    fun key differs => j.get?_extended differs datum
  rw [Variable.ofJson, Variable.ofJson, Draft.Variable.ofJson_eq object, Draft.Variable.ofJson_eq object']
  simp [Json.present?, Json.field, Json.fieldD, kept]

@[simp] theorem Value.held_loose_held (x : Value) : x.held.loose.held = x.held := by
  cases x <;> rfl

/-- The binding of any variable to any value is read as it was written. -/
theorem Binding.ofStored_toStored (v : Variable) (x : Value) : ofStored (of v x).toStored = .ok (of v x) := by
  simp [ofStored, toStored, of, Variable.ofJson_toJson, Except.map]

/-- Storing loses nothing. Every variable, element and expression is read as it was written, and so is the
binding of any variable to any value, also when its value stands among the members of its variable. -/
theorem stored_forms_lossless :
    (∀ v : Variable, Variable.ofJson v.toJson = .ok v) ∧
    (∀ e : Element, Element.ofJson e.toJson = .ok e) ∧
    (∀ e : Expression, Expression.ofJson e.toJson = .ok e) ∧
    ∀ (v : Variable) (x : Value), Binding.ofStored (Binding.of v x).toStored = .ok (.of v x) ∧
      ∀ datum : Json, Binding.ofStored
        ⟨(Binding.of v x).toStored.target.extended "value" datum, (Binding.of v x).toStored.value⟩
          = .ok (.of v x) := by
  refine ⟨Variable.ofJson_toJson, Element.ofJson_toJson, Expression.ofJson_toJson, ?_⟩
  intro v x
  refine ⟨Binding.ofStored_toStored v x, ?_⟩
  intro datum
  have same := Variable.ofJson_extended v.draft.members?_toJson datum
  rw [← Binding.ofStored_toStored v x]
  exact congrArg (Except.map _) same

end Flowchart
