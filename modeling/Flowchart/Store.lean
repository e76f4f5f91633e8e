import Flowchart.Expression.Basic
/-! Bindings of variables to values, and the store of a run. A store keeps its bindings in the order
in which their variables were first written; writing again replaces the binding in its place. -/
namespace Flowchart

/-- A variable with its value. -/
structure Binding where
  target : Variable
  value : Value

/-- The value that a type starts with, where it has one. -/
def DataType.default? : DataType → Option Value
  | string => some (.text "")
  | integer => some (.int 0)
  | float => some (.float 0.0)
  | boolean => some (.bool false)
  | _ => none

/-- The value that a variable starts with. Scalars of an unknown type start as the empty text; an
array needs a subtype that has a start value. -/
def Variable.default (v : Variable) : Except Error Value :=
  match v.shape with
  | .scalar type _ => .ok (type.default?.getD (.text ""))
  | .array subtype _ size _ _ =>
    match subtype.default? with
    | some value => .ok (.array (List.replicate size value))
    | none => .error (.missingKey subtype.name)

namespace Binding

def id (b : Binding) : String :=
  b.target.id

/-- Binds a variable to a value. A list is held as an array. -/
def of (v : Variable) (value : Value) : Binding :=
  ⟨v, value.held⟩

/-- Binds the whole variable to a value, to its default when none is given. -/
def ofVariable (v : Variable) (value : Option Value) : Except Error Binding :=
  match value with
  | some value => .ok (of v.base value)
  | none => v.base.default.map (of v.base)

/-- A binding as it is listed: name and shown value. -/
def text (b : Binding) : String :=
  b.target.name ++ ": " ++ b.value.shown

end Binding

/-- The bindings of a run, at most one for each variable id. -/
structure Store where
  bindings : List Binding

namespace Store

def empty : Store :=
  ⟨[]⟩

/-- The binding of the variable with the given id. -/
def get? (s : Store) (id : String) : Option Binding :=
  s.bindings.find? (·.id == id)

/-- Replaces the binding with the same id, or adds the new one at the end. -/
def insertIn (b : Binding) : List Binding → List Binding
  | [] => [b]
  | old :: rest => if old.id == b.id then b :: rest else old :: insertIn b rest

def insert (s : Store) (b : Binding) : Store :=
  ⟨insertIn b s.bindings⟩

/-- The least number above all marks in a store. -/
def nextMark (s : Store) : Nat :=
  Value.nextMarkOf (s.bindings.map Binding.value)

/-- A new value as the store keeps it: the floats in it that are no numbers get marks that no value
of the store has. -/
def keep (s : Store) (v : Value) : Value :=
  (v.marked s.nextMark).1

/-- Writes a binding with a value from outside. -/
def put (s : Store) (b : Binding) : Store :=
  s.insert ⟨b.target, s.keep b.value⟩

/-- The store with the given bindings, written one after the other. -/
def ofList (bs : List Binding) : Store :=
  bs.foldl put empty

/-- A binding that was written is read back, and the others are kept. -/
theorem get?_insert (s : Store) (b : Binding) (id : String) :
    (s.insert b).get? id = if id = b.id then some b else s.get? id := by
  unfold insert get?
  simp only
  induction s.bindings with
  | nil => simp only [insertIn, List.find?_cons, List.find?_nil]; grind
  | cons old rest ih => simp only [insertIn, beq_iff_eq]; grind

end Store

end Flowchart
