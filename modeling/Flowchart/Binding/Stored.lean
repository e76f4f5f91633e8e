import Flowchart.Expression.Stored
import Flowchart.Store
/-! The stored form of bindings: the variable's form beside its value. The value stays a value, so
integers keep their size and floats their bits. -/
namespace Flowchart

/-- A stored binding. -/
structure StoredBinding where
  target : Json
  value : Value

namespace Binding

/-- The stored form of a binding. An array is stored as a list. -/
def toStored (b : Binding) : StoredBinding :=
  ⟨b.target.toJson, b.value.loose⟩

/-- Reads a binding. -/
def ofStored (stored : StoredBinding) : Except Error Binding :=
  (Variable.ofJson stored.target).map fun v => .of v stored.value

end Binding

end Flowchart
